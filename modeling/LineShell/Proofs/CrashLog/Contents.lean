import LineShell.Proofs.CrashLog

namespace LineShell.CrashLog

open Disk (Furnished Grown)

variable {environment : Environment} {disk next left : Disk} {root : Path} {stamp : Stamp}
  {report : Report}

-- Adds an entry as `append` does, and tells what kept it out of the log.
def attempt (environment : Environment) (stamp : Stamp) (disk : Disk) (report : Report) :
    Option Trouble × Disk :=
  match provide environment disk with
  | (.error trouble, left) => (some trouble, left)
  | (.ok root, left) =>
    match left.append (path root) [] with
    | .error error => (some (.file error), left)
    | .ok opened =>
      match (entry stamp report).encode with
      | .error run => (some (.content run), opened)
      | .ok bytes =>
        match opened.append (path root) bytes with
        | .error error => (some (.file error), opened)
        | .ok kept => (none, kept)

-- The ways in which an attempt can go. Once the file is open, the text alone decides.
inductive Attempts (environment : Environment) (stamp : Stamp) (disk : Disk) (report : Report) :
    Option Trouble × Disk → Prop where
  | unprovided {trouble : Trouble} {left : Disk}
      (fails : provide environment disk = (.error trouble, left)) :
      Attempts environment stamp disk report (some trouble, left)
  | closed {root : Path} {left : Disk} {error : FileError}
      (provided : provide environment disk = (.ok root, left))
      (refused : left.writable (path root) = .error error) :
      Attempts environment stamp disk report (some (.file error), left)
  | opened {root : Path} {left : Disk} {location : Location} {trouble? : Option Trouble}
      (provided : provide environment disk = (.ok root, left))
      (opens : left.writable (path root) = .ok location)
      (whole : trouble? = none ↔ (entry stamp report).Encodable) :
      Attempts environment stamp disk report
        (trouble?, left.put location (.file (left.held location ++ brought (entry stamp report))))

theorem attempt_sound (environment : Environment) (stamp : Stamp) (disk : Disk) (report : Report) :
    Attempts environment stamp disk report (attempt environment stamp disk report) := by
  unfold attempt
  split
  · exact .unprovided ‹_›
  rename_i root left provided
  cases opens : left.writable (path root) with
  | error error =>
    simp only [Disk.append, opens, Except.map]
    exact .closed provided opens
  | ok location =>
    simp only [Disk.append_ok opens, List.append_nil]
    cases encodes : (entry stamp report).encode with
    | error run =>
      have opened : Attempts environment stamp disk report
          (some (.content run), left.put location (.file (left.held location ++ brought (entry stamp report)))) :=
        .opened provided opens (by simp [Text.encode_error encodes])
      rwa [brought_error encodes, List.append_nil] at opened
    | ok content =>
      have again := Disk.writable_put opens (left.held location)
      have opened : Attempts environment stamp disk report
          (none, left.put location (.file (left.held location ++ brought (entry stamp report)))) :=
        .opened provided opens (by simp [(Text.encode_exact encodes).1])
      rw [brought_ok encodes] at opened
      simpa only [Disk.append_ok again, Disk.held_put (Disk.writable_below opens), Disk.put_put] using opened

-- Nothing that stands in the way of an entry gets out of `append`.
theorem append_attempts (environment : Environment) (stamp : Stamp) (disk : Disk) (report : Report) :
    append environment stamp disk report = (attempt environment stamp disk report).2 := by
  have sound := attempt_sound environment stamp disk report
  rw [append_provided]
  generalize attempt environment stamp disk report = outcome at sound ⊢
  cases sound with
  | unprovided fails => simp [fails]
  | closed provided refused => simp [provided, addTo_exact, Disk.append, refused, Except.map]
  | opened provided opens _ => simp [provided, addTo_exact, Disk.append_ok opens]

-- Whether the directories can be had and the file can be opened. No entry changes that.
def opens (environment : Environment) (disk : Disk) : Bool :=
  match provide environment disk with
  | (.ok root, left) => (left.writable (path root)).isOk
  | (.error _, _) => false

theorem opens_append (environment : Environment) (stamp : Stamp) (disk : Disk) (report : Report) :
    opens environment (append environment stamp disk report) = opens environment disk := by
  have sound := attempt_sound environment stamp disk report
  rw [append_attempts]
  generalize attempt environment stamp disk report = outcome at sound ⊢
  cases sound with
  | @unprovided _ left fails =>
    obtain ⟨again, last, failed⟩ := provide_fails_again fails
    simp [opens, fails, failed]
  | closed provided refused =>
    obtain ⟨found, upper, lower⟩ := provide_done provided
    simp [opens, provided, provide_stands found upper lower]
  | @opened root left location _ provided opened _ =>
    obtain ⟨found, upper, lower⟩ := provide_done provided
    have free := (Disk.writable_exact opened).2
    generalize left.held location ++ brought (entry stamp report) = content
    have grown : Grown (· = location) left (left.put location (.file content)) := .put _ .refl rfl free
    have ready := provide_stands found (grown.isDirectory upper) (grown.isDirectory lower)
    simp [opens, provided, ready, opened, Disk.writable_put opened]

-- What may come of a place on the disk, between two looks at it, for what was added to the log
-- in the meantime.
inductive Develops (isLog isWay : Prop) (added : Bytes) : Option Node → Option Node → Prop where
  | same {node : Option Node} (quiet : isLog → added = []) : Develops isLog isWay added node node
  | made (way : isWay) (quiet : isLog → added = []) :
      Develops isLog isWay added none (some .directory)
  | begun (log : isLog) : Develops isLog isWay added none (some (.file added))
  | extended (log : isLog) (old : Bytes) :
      Develops isLog isWay added (some (.file old)) (some (.file (old ++ added)))

theorem Develops.trans {isLog isWay : Prop} {first second : Bytes} {one two three : Option Node}
    (before : Develops isLog isWay first one two) (after : Develops isLog isWay second two three) :
    Develops isLog isWay (first ++ second) one three := by
  cases before with
  | same quiet =>
    cases after with
    | same still => exact .same fun log => by simp [quiet log, still log]
    | made way still => exact .made way fun log => by simp [quiet log, still log]
    | begun log => simpa [quiet log] using Develops.begun log
    | extended log old => simpa [quiet log] using Develops.extended log old
  | made way quiet =>
    cases after with
    | same still => exact .made way fun log => by simp [quiet log, still log]
  | begun log =>
    cases after with
    | same still => simpa [still log] using Develops.begun log
    | extended _ _ => exact .begun log
  | extended log old =>
    cases after with
    | same still => simpa [still log] using Develops.extended log old
    | extended _ _ => simpa using Develops.extended log old

-- The log with something added at its end, and the rest of the disk as it was, but for
-- directories that the log needs.
structure Logs (environment : Environment) (disk : Disk) (added : Bytes) (next : Disk) : Prop where
  working : next.working = disk.working
  places (location : Location) :
    Develops (Keeps environment disk location) (Furnishes environment disk location) added
      (disk.find? location) (next.find? location)

namespace Logs

variable {first second added : Bytes} {last : Disk} {location : Location}

theorem place (logs : Logs environment disk added next) (path : Path) :
    next.place path = disk.place path :=
  Disk.place_of_working logs.working path

theorem keeps (logs : Logs environment disk added next) :
    Keeps environment next location = Keeps environment disk location := by
  simp [Keeps, logs.place]

theorem furnishes (logs : Logs environment disk added next) :
    Furnishes environment next location = Furnishes environment disk location := by
  simp [Furnishes, Disk.Above, logs.place]

theorem trans (before : Logs environment disk first next) (after : Logs environment next second last) :
    Logs environment disk (first ++ second) last where
  working := after.working.trans before.working
  places location := by
    have later := after.places location
    rw [before.keeps, before.furnishes] at later
    exact (before.places location).trans later

theorem of_furnished (furnished : Furnished (Furnishes environment disk) disk next) :
    Logs environment disk [] next where
  working := furnished.grown.working
  places location := by
    rcases furnished.find? location with same | ⟨absent, made, way⟩
    · rw [same]
      exact .same fun _ => rfl
    · rw [absent, made]
      exact .made way fun _ => rfl

theorem of_put (found : DataRoot.path environment = .ok root)
    (opens : disk.writable (path root) = .ok location) (added : Bytes) :
    Logs environment disk added (disk.put location (.file (disk.held location ++ added))) where
  working := rfl
  places other := by
    obtain ⟨located, free⟩ := Disk.writable_exact opens
    have here : location = disk.place (path root) := Disk.located_place located
    by_cases same : other = location
    · subst same
      have log : Keeps environment disk other := ⟨root, found, here⟩
      rw [Disk.find?_put_here disk (Disk.writable_below opens), Disk.held]
      cases stands : disk.find? other with
      | none => exact .begun log
      | some node =>
        cases node with
        | file old => exact .extended log old
        | directory => exact absurd stands free
    · have elsewhere : ¬ Keeps environment disk other := by
        rintro ⟨second, again, there⟩
        rw [found] at again
        cases again
        exact same (there.trans here.symm)
      rw [Disk.find?_put_other disk same]
      exact .same fun log => absurd log elsewhere

-- What could be read of the log is read again, with what was added behind it.
theorem reads (logs : Logs environment disk added next) (found : DataRoot.path environment = .ok root)
    {old : Bytes} (reads : disk.read (path root) = .ok old) :
    next.read (path root) = .ok (old ++ added) := by
  have stays (location : Location) (directory : disk.find? location = some .directory) :
      next.find? location = some .directory := by
    have develops := logs.places location
    rw [directory] at develops
    generalize next.find? location = node at develops
    cases develops
    rfl
  unfold Disk.read at reads
  split at reads
  · cases reads
  rename_i location located
  have develops := logs.places location
  split at reads
  · cases reads
  · cases reads
  rename_i content stands
  cases reads
  rw [stands] at develops
  have log : Keeps environment disk location := ⟨root, found, Disk.located_place located⟩
  rw [Disk.read, Disk.locate_stays logs.working stays located]
  dsimp only
  generalize next.find? location = node at develops ⊢
  cases develops with
  | same quiet => simp [quiet log]
  | extended _ _ => rfl

end Logs

-- An attempt that meets with no trouble adds the whole entry, and every other one adds nothing.
theorem attempt_logs (environment : Environment) (stamp : Stamp) (disk : Disk) (report : Report) :
    let outcome := attempt environment stamp disk report
    Logs environment disk (if outcome.1 = none then (entry stamp report).utf8 else []) outcome.2 := by
  have sound := attempt_sound environment stamp disk report
  have provided := Logs.of_furnished (provide_furnished environment disk)
  generalize attempt environment stamp disk report = outcome at sound ⊢
  cases sound with
  | unprovided fails => simpa [fails] using provided
  | closed outcome refused => simpa [outcome] using provided
  | opened outcome opened whole =>
    rw [outcome] at provided
    have added := provided.trans (.of_put (provide_done outcome).1 opened (brought (entry stamp report)))
    simpa [brought, whole] using added

theorem attempt_none (environment : Environment) (stamp : Stamp) (disk : Disk) (report : Report) :
    (attempt environment stamp disk report).1 = none ↔
      opens environment disk = true ∧ (entry stamp report).Encodable := by
  have sound := attempt_sound environment stamp disk report
  generalize attempt environment stamp disk report = outcome at sound ⊢
  cases sound with
  | unprovided fails => simp [opens, fails]
  | closed provided refused => simp [opens, provided, refused, Except.isOk, Except.toBool]
  | opened provided opened whole => simp [opens, provided, opened, whole, Except.isOk, Except.toBool]

-- Entries one after the other, each with its own time and trace.
def appendEach (environment : Environment) (disk : Disk) (entries : List (Stamp × Report)) : Disk :=
  entries.foldl (fun disk (stamp, report) => append environment stamp disk report) disk

-- The entries of reports, each with the time and the trace of its turn.
def stamped (stamps : Nat → Stamp) (reports : List Report) : List (Stamp × Report) :=
  reports.mapIdx fun turn report => (stamps turn, report)

theorem appendAll_each (environment : Environment) (stamp : Stamp) (disk : Disk) (reports : List Report) :
    appendAll environment stamp disk reports =
      appendEach environment disk (stamped (fun _ => stamp) reports) := by
  induction reports generalizing disk with
  | nil => rfl
  | cons report rest ih =>
    rw [stamped, List.mapIdx_cons]
    exact ih _

-- Those of them that nothing stands in the way of, as the disk is before the first one.
def admitted (environment : Environment) (disk : Disk) (entries : List (Stamp × Report)) :
    List (Stamp × Report) :=
  entries.filter fun (stamp, report) => (attempt environment stamp disk report).1.isNone

def bytes (entries : List (Stamp × Report)) : Bytes :=
  entries.flatMap fun (stamp, report) => (entry stamp report).utf8

theorem admitted_append (environment : Environment) (stamp : Stamp) (disk : Disk) (report : Report)
    (entries : List (Stamp × Report)) :
    admitted environment (append environment stamp disk report) entries =
      admitted environment disk entries := by
  refine List.filter_congr fun (later, next) _ => Bool.eq_iff_iff.mpr ?_
  simp [attempt_none, opens_append]

theorem admitted_all {entries : List (Stamp × Report)} (opened : opens environment disk = true)
    (encodable : ∀ given ∈ entries, (entry given.1 given.2).Encodable) :
    admitted environment disk entries = entries := by
  refine List.filter_eq_self.mpr fun given among => ?_
  simpa [attempt_none, opened] using encodable given among

theorem appendEach_logs (environment : Environment) (disk : Disk) (entries : List (Stamp × Report)) :
    Logs environment disk (bytes (admitted environment disk entries))
      (appendEach environment disk entries) := by
  induction entries generalizing disk with
  | nil => exact .of_furnished .refl
  | cons first rest ih =>
    obtain ⟨stamp, report⟩ := first
    have one := attempt_logs environment stamp disk report
    have later := ih (append environment stamp disk report)
    rw [admitted_append] at later
    rw [append_attempts] at later
    have both := one.trans later
    have split : bytes (admitted environment disk ((stamp, report) :: rest)) =
        (if (attempt environment stamp disk report).1 = none then (entry stamp report).utf8 else []) ++
          bytes (admitted environment disk rest) := by
      cases told : (attempt environment stamp disk report).1 <;> simp [admitted, bytes, told]
    rw [split]
    rwa [← append_attempts] at both

theorem entry_lines (stamp : Stamp) (report : Report) :
    entry stamp report = (lines stamp report).flatMap (· ++ [.newline]) :=
  Text.joined_ended _ (by simp [lines])

-- Whatever the disk is like, the log grows by whole entries at its end and nothing else is lost or
-- changed. Which entries are left out can be told beforehand, and nobody is told of them.
theorem log_grows_by_whole_entries (environment : Environment) (disk : Disk)
    (entries : List (Stamp × Report)) :
    let added := bytes (admitted environment disk entries)
    let next := appendEach environment disk entries
    Logs environment disk added next ∧
    (∀ root old, DataRoot.path environment = .ok root → disk.read (path root) = .ok old →
      next.read (path root) = .ok (old ++ added)) ∧
    ∀ stamp report,
      let outcome := attempt environment stamp disk report
      append environment stamp disk report = outcome.2 ∧
      Logs environment disk (if outcome.1 = none then (entry stamp report).utf8 else []) outcome.2 ∧
      (outcome.1 = none ↔ opens environment disk = true ∧ (entry stamp report).Encodable) ∧
      entry stamp report =
        ([stamp.time] ++
          (if report.command = [] then [] else [Text.ofString "raw=" ++ report.command]) ++
          (match report.screen with
            | none => []
            | some screen => [if screen.quit then "quit=True" else "quit=False"]) ++
          [Text.ofString "error=" ++ report.fault.described, "traceback:", stamp.trace, "----"]
        ).flatMap (· ++ [.newline]) := by
  intro added next
  have logs := appendEach_logs environment disk entries
  refine ⟨logs, fun root old found reads => logs.reads found reads, fun stamp report => ?_⟩
  exact ⟨append_attempts environment stamp disk report, attempt_logs environment stamp disk report,
    attempt_none environment stamp disk report, entry_lines stamp report⟩

-- Of three faults the second has a text that cannot be encoded. The log of an earlier session
-- goes on with the first and the third.
theorem stray_fault_not_logged :
    let environment := Environment.ofList [("CRATCHIT_DATA_HOME", "/d")]
    let root := Path.ofText "/d"
    let place := ([Text.ofString "d"] ++ names).map Text.bytes
    let disk : Disk :=
      ⟨[(place.take 1, .directory), (place.take 2, .directory), (place.take 3, .directory),
        (place, .file (Text.utf8 "old"))], []⟩
    let stamp : Stamp := ⟨"now", "trace"⟩
    let first : Report := { fault := ⟨.value, "a"⟩ }
    let second : Report := { fault := ⟨.value, [.ofLoneByte 0xFF]⟩ }
    let third : Report := { fault := ⟨.key, "b"⟩, command := "c", screen := some {} }
    DataRoot.path environment = .ok root ∧ disk.read (path root) = .ok (Text.utf8 "old") ∧
      (appendEach environment disk [(stamp, first), (stamp, second), (stamp, third)]).read (path root) =
        .ok (Text.utf8 "old" ++ bytes [(stamp, first), (stamp, third)]) := by
  intro environment root place disk stamp first second third
  have found : DataRoot.path environment = .ok root := by decide
  have reads : disk.read (path root) = .ok (Text.utf8 "old") := by rfl
  have admits : admitted environment disk [(stamp, first), (stamp, second), (stamp, third)] =
      [(stamp, first), (stamp, third)] := by
    have taken : (attempt environment stamp disk first).1.isNone = true := by decide +kernel
    have refused : (attempt environment stamp disk second).1.isNone = false := by decide +kernel
    have again : (attempt environment stamp disk third).1.isNone = true := by decide +kernel
    simp [admitted, taken, refused, again]
  obtain ⟨_, again, _⟩ := log_grows_by_whole_entries environment disk
    [(stamp, first), (stamp, second), (stamp, third)]
  rw [admits] at again
  exact ⟨found, reads, again root _ found reads⟩

end LineShell.CrashLog
