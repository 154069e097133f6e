import LineShell.CrashLog
import LineShell.Proofs.Disk.Directories
import LineShell.Proofs.Disk.Likeness
import LineShell.Proofs.Text.Utf8

namespace LineShell

open Disk (Alike Furnished Grown)

variable {environment : Environment} {disk : Disk} {root : Path}

theorem DataRoot.prepare_furnished (environment : Environment) (disk : Disk) :
    Furnished (fun location => ∃ root, path environment = .ok root ∧ disk.Above root location)
      disk (prepare environment disk).2 := by
  unfold prepare
  split
  · exact .refl
  · rename_i root found
    have among (location : Location) (above : disk.Above root location) :
        ∃ root, path environment = .ok root ∧ disk.Above root location := ⟨root, found, above⟩
    have furnished := (Disk.ensureDirectory_furnished disk root).mono among
    split
    · rename_i ensured
      rwa [ensured] at furnished
    · rename_i ensured
      rwa [ensured] at furnished

theorem DataRoot.prepare_done {made : Disk} (prepared : prepare environment disk = (.ok root, made)) :
    DataRoot.path environment = .ok root ∧ made.isDirectory root = true := by
  unfold prepare at prepared
  split at prepared
  · cases prepared
  · rename_i found
    split at prepared
    · cases prepared
    · rename_i ensured
      cases prepared
      exact ⟨found, Disk.ensureDirectory_done ensured⟩

theorem DataRoot.prepare_stands (found : DataRoot.path environment = .ok root)
    (stands : disk.isDirectory root = true) : prepare environment disk = (.ok root, disk) := by
  simp [prepare, found, Disk.ensureDirectory_stands stands]

theorem DataRoot.prepare_fails_again {error : DataRoot.Error} {left : Disk}
    (fails : prepare environment disk = (.error error, left)) :
    ∃ again last, prepare environment left = (.error again, last) := by
  unfold prepare at fails
  split at fails
  · rename_i unknown
    cases fails
    exact ⟨error, disk, by simp [prepare, unknown]⟩
  · rename_i found
    split at fails
    · rename_i ensured
      cases fails
      obtain ⟨again, last, fails⟩ := Disk.ensureDirectory_fails_again ensured
      exact ⟨.file again, last, by simp [prepare, found, fails]⟩
    · cases fails

theorem DataRoot.prepare_alike {hidden : Location → Prop} {one other : Disk}
    (alike : Alike hidden one other) (environment : Environment) :
    Alike.Same hidden (prepare environment one) (prepare environment other) := by
  unfold prepare
  cases path environment with
  | error error => exact .told _ alike
  | ok root =>
    have ensured := alike.ensureDirectory root
    dsimp only
    generalize one.ensureDirectory root = first at ensured
    generalize other.ensureDirectory root = second at ensured
    obtain ⟨told, same⟩ := ensured
    cases told <;> exact .told _ same

namespace CrashLog

-- The places that the log can touch: those on the way to its file.
def Touches (environment : Environment) (disk : Disk) (location : Location) : Prop :=
  ∃ root, DataRoot.path environment = .ok root ∧ disk.Above (path root) location

-- The names of the log below the data root.
def names : List Text := ["cratchit", "logs", "crash.log"]

theorem path_anchor (root : Path) : (path root).anchor = root.anchor := rfl

theorem path_names (root : Path) : (path root).names = root.names ++ names := by
  simp only [path, Path.child, names, List.append_assoc, List.cons_append, List.nil_append]

theorem up_notMem_names : Path.up ∉ names := by decide

theorem parent_path (root : Path) : (path root).parent = (root.child "cratchit").child "logs" := by
  simp [path, Path.parent, Path.child]

theorem root_leads (root : Path) : root.Leads (path root).parent := by
  rw [parent_path]
  exact (root.leads_child _).trans (Path.leads_child _ _)

-- What can keep an entry out of the log.
inductive Trouble where
  | root (error : DataRoot.Error)
  | directory (error : FileError)
  | file (error : FileError)
  | content (run : SurrogateRun)

-- Makes the directories that the log is kept in.
def provide (environment : Environment) (disk : Disk) : Except Trouble Path × Disk :=
  match DataRoot.prepare environment disk with
  | (.error error, left) => (.error (.root error), left)
  | (.ok root, made) =>
    match made.ensureDirectory (path root).parent with
    | (some error, left) => (.error (.directory error), left)
    | (none, left) => (.ok root, left)

-- The ways in which that can go.
inductive Provides (environment : Environment) (disk : Disk) : Except Trouble Path × Disk → Prop where
  | unprepared {error : DataRoot.Error} {left : Disk}
      (fails : DataRoot.prepare environment disk = (.error error, left)) :
      Provides environment disk (.error (.root error), left)
  | unmade {root : Path} {error : FileError} {made left : Disk}
      (prepared : DataRoot.prepare environment disk = (.ok root, made))
      (fails : made.ensureDirectory (path root).parent = (some error, left)) :
      Provides environment disk (.error (.directory error), left)
  | ready {root : Path} {made left : Disk}
      (prepared : DataRoot.prepare environment disk = (.ok root, made))
      (ensured : made.ensureDirectory (path root).parent = (none, left)) :
      Provides environment disk (.ok root, left)

theorem provide_sound (environment : Environment) (disk : Disk) :
    Provides environment disk (provide environment disk) := by
  unfold provide
  split
  · exact .unprepared ‹_›
  · split
    · exact .unmade ‹_› ‹_›
    · exact .ready ‹_› ‹_›

-- An entry is added once the directories are there.
theorem append_provided (environment : Environment) (stamp : Stamp) (disk : Disk) (report : Report) :
    append environment stamp disk report =
      match provide environment disk with
      | (.error _, left) => left
      | (.ok root, left) => addTo left (path root) (entry stamp report) := by
  have sound := provide_sound environment disk
  generalize provide environment disk = outcome at sound
  cases sound with
  | unprepared fails => simp [append, fails]
  | unmade prepared fails => simp [append, prepared, fails]
  | ready prepared ensured => simp [append, prepared, ensured]

-- The places of these directories.
def Furnishes (environment : Environment) (disk : Disk) (location : Location) : Prop :=
  ∃ root, DataRoot.path environment = .ok root ∧ disk.Above (path root).parent location

theorem Furnishes.touches {location : Location} (furnishes : Furnishes environment disk location) :
    Touches environment disk location := by
  obtain ⟨root, found, above⟩ := furnishes
  exact ⟨root, found, Disk.above_of_leads (Path.parent_leads _) location above⟩

variable {left : Disk} {trouble : Trouble}

theorem provide_furnished (environment : Environment) (disk : Disk) :
    Furnished (Furnishes environment disk) disk (provide environment disk).2 := by
  have prepared : Furnished (Furnishes environment disk) disk (DataRoot.prepare environment disk).2 :=
    (DataRoot.prepare_furnished environment disk).mono fun location ⟨root, found, above⟩ =>
      ⟨root, found, Disk.above_of_leads (root_leads root) location above⟩
  have furnishing {root : Path} {made : Disk}
      (outcome : DataRoot.prepare environment disk = (.ok root, made)) :
      Furnished (Furnishes environment disk) disk (made.ensureDirectory (path root).parent).2 := by
    rw [outcome] at prepared
    exact prepared.trans ((Disk.ensureDirectory_furnished made _).mono fun location above =>
      ⟨root, (DataRoot.prepare_done outcome).1, prepared.grown.above location above⟩)
  have sound := provide_sound environment disk
  generalize provide environment disk = outcome at sound ⊢
  cases sound with
  | unprepared fails => rwa [fails] at prepared
  | unmade prepared fails =>
    have furnished := furnishing prepared
    rwa [fails] at furnished
  | ready prepared ensured =>
    have furnished := furnishing prepared
    rwa [ensured] at furnished

theorem provide_done (provided : provide environment disk = (.ok root, left)) :
    DataRoot.path environment = .ok root ∧ left.isDirectory root = true ∧
      left.isDirectory (path root).parent = true := by
  have sound := provide_sound environment disk
  rw [provided] at sound
  obtain _ | _ | @⟨_, made, _, prepared, ensured⟩ := sound
  obtain ⟨found, stands⟩ := DataRoot.prepare_done prepared
  have furnished := Disk.ensureDirectory_furnished made (path root).parent
  rw [ensured] at furnished
  exact ⟨found, furnished.grown.isDirectory stands, Disk.ensureDirectory_done ensured⟩

theorem provide_stands (found : DataRoot.path environment = .ok root)
    (upper : disk.isDirectory root = true) (lower : disk.isDirectory (path root).parent = true) :
    provide environment disk = (.ok root, disk) := by
  simp [provide, DataRoot.prepare_stands found upper, Disk.ensureDirectory_stands lower]

-- What could not be provided for one entry cannot be provided for the next one.
theorem provide_fails_again (fails : provide environment disk = (.error trouble, left)) :
    ∃ again last, provide environment left = (.error again, last) := by
  have sound := provide_sound environment disk
  rw [fails] at sound
  cases sound with
  | unprepared fails =>
    obtain ⟨again, last, fails⟩ := DataRoot.prepare_fails_again fails
    exact ⟨.root again, last, by simp [provide, fails]⟩
  | @unmade root _ made _ prepared fails =>
    obtain ⟨found, stands⟩ := DataRoot.prepare_done prepared
    have furnished := Disk.ensureDirectory_furnished made (path root).parent
    rw [fails] at furnished
    have ready := DataRoot.prepare_stands found (furnished.grown.isDirectory stands)
    obtain ⟨again, last, fails⟩ := Disk.ensureDirectory_fails_again fails
    exact ⟨.directory again, last, by simp [provide, ready, fails]⟩

theorem provide_alike {hidden : Location → Prop} {one other : Disk} (alike : Alike hidden one other)
    (environment : Environment) :
    Alike.Same hidden (provide environment one) (provide environment other) := by
  have prepared := DataRoot.prepare_alike alike environment
  unfold provide
  generalize DataRoot.prepare environment one = first at prepared
  generalize DataRoot.prepare environment other = second at prepared
  obtain ⟨told, same⟩ := prepared
  cases told with
  | error _ => exact .told _ same
  | ok place =>
    have ensured := same.ensureDirectory (path place).parent
    dsimp only
    generalize Disk.ensureDirectory _ (path place).parent = first at ensured
    generalize Disk.ensureDirectory _ (path place).parent = second at ensured
    obtain ⟨told, same⟩ := ensured
    cases told <;> exact .told _ same

-- What an entry brings to the file: all of its bytes, or none.
def brought (entry : Text) : Bytes := if entry.Encodable then entry.utf8 else []

theorem brought_ok {entry : Text} {content : Bytes} (encodes : entry.encode = .ok content) :
    brought entry = content := by
  obtain ⟨encodable, rfl⟩ := Text.encode_exact encodes
  exact if_pos encodable

theorem brought_error {entry : Text} {run : SurrogateRun} (fails : entry.encode = .error run) :
    brought entry = [] :=
  if_neg (Text.encode_error fails)

theorem addTo_exact (disk : Disk) (path : Path) (entry : Text) :
    addTo disk path entry =
      match disk.append path (brought entry) with
      | .ok written => written
      | .error _ => disk := by
  unfold addTo
  cases encodes : entry.encode with
  | ok content => exact brought_ok encodes ▸ rfl
  | error run => exact brought_error encodes ▸ rfl

theorem addTo_grown (disk : Disk) (path : Path) (entry : Text) :
    Grown (disk.Above path) disk (addTo disk path entry) := by
  rw [addTo_exact]
  split
  · rename_i written appends
    exact Disk.append_grown appends
  · exact .refl

-- Whether an entry is added or something stands in its way, nothing is touched but what
-- leads to the log.
theorem append_grown (environment : Environment) (stamp : Stamp) (disk : Disk) (report : Report) :
    Grown (Touches environment disk) disk (append environment stamp disk report) := by
  rw [append_provided]
  have provided := (provide_furnished environment disk).grown.mono fun _ => Furnishes.touches
  split
  · rename_i outcome
    rw [outcome] at provided
    exact provided
  · rename_i root left outcome
    rw [outcome] at provided
    refine provided.trans ((addTo_grown left (path root) _).mono fun location above => ?_)
    exact ⟨root, (provide_done outcome).1, provided.above location above⟩

theorem appendAll_grown (environment : Environment) (stamp : Stamp) (disk : Disk)
    (reports : List Report) :
    Grown (Touches environment disk) disk (appendAll environment stamp disk reports) := by
  induction reports generalizing disk with
  | nil => exact .refl
  | cons report rest ih =>
    have first := append_grown environment stamp disk report
    have later := ih (append environment stamp disk report)
    refine first.trans (later.mono ?_)
    rintro location ⟨root, found, above⟩
    exact ⟨root, found, first.above location above⟩

-- The file itself, where the log keeps what is added to it.
def Keeps (environment : Environment) (disk : Disk) (location : Location) : Prop :=
  ∃ root, DataRoot.path environment = .ok root ∧ location = disk.place (path root)

variable {hidden : Location → Prop} {one other : Disk}

theorem addTo_alike {path : Path} (alike : Alike hidden one other) (below : hidden (one.place path))
    (first second : Text) : Alike hidden (addTo one path first) (addTo other path second) := by
  have appended := alike.append below (brought first) (brought second)
  rw [addTo_exact, addTo_exact]
  generalize one.append path (brought first) = left at appended
  generalize other.append path (brought second) = right at appended
  cases appended with
  | error _ => exact alike
  | ok written => exact written

-- Whatever two entries say, also when one of them cannot be encoded, they are kept in the same
-- file, and nothing else tells the disks apart.
theorem append_alike (alike : Alike hidden one other)
    (keeps : ∀ location, Keeps environment one location → hidden location)
    (first second : Stamp) (report next : Report) :
    Alike hidden (append environment first one report) (append environment second other next) := by
  have provided := provide_alike alike environment
  have place := (provide_furnished environment one).grown.place
  rw [append_provided, append_provided]
  cases outcome : provide environment one with
  | mk told left =>
    rw [outcome] at provided place
    generalize provide environment other = right at provided
    obtain ⟨_, same⟩ := provided
    cases told with
    | error _ => exact same
    | ok root => exact addTo_alike same (keeps _ ⟨root, (provide_done outcome).1, place (path root)⟩) _ _

theorem appendAll_alike (alike : Alike hidden one other)
    (keeps : ∀ location, Keeps environment one location → hidden location)
    (first second : Stamp) {reports others : List Report} (count : reports.length = others.length) :
    Alike hidden (appendAll environment first one reports)
      (appendAll environment second other others) := by
  induction reports generalizing one other others with
  | nil =>
    cases others with
    | nil => exact alike
    | cons _ _ => cases count
  | cons report rest ih =>
    cases others with
    | nil => cases count
    | cons next later =>
      have added := append_alike alike keeps first second report next
      refine ih added ?_ (Nat.succ.inj count)
      rintro location ⟨root, found, rfl⟩
      rw [(append_grown environment first one report).place]
      exact keeps _ ⟨root, found, rfl⟩

end CrashLog

end LineShell
