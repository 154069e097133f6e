import LineShell.Program.Session
import LineShell.Proofs.CrashLog
import LineShell.Proofs.Entries.Saving
import LineShell.Proofs.Loop.Run

namespace LineShell

open Disk (Grown)

-- A name that stands for one thing in a directory.
structure SingleName (name : Text) : Prop where
  present : name ≠ []
  whole : .slash ∉ name
  noNul : .nul ∉ name
  notHere : name ≠ Path.here
  notUp : name ≠ Path.up

theorem SingleName.ofText {name : Text} (single : SingleName name) :
    Path.ofText name = ⟨.relative, [name]⟩ := by
  have start : name.takeWhile (· = .slash) = [] := by
    cases name with
    | nil => rfl
    | cons c rest =>
      have other : ¬ c = .slash := fun same => single.whole (same ▸ List.mem_cons_self)
      rw [List.takeWhile_cons, if_neg (by simpa using other)]
  have kept : decide (name ≠ [] ∧ name ≠ Path.here) = true :=
    decide_eq_true ⟨single.present, single.notHere⟩
  rw [Path.ofText, Path.anchorOf, start, Text.pieces_clean single.whole, List.filter_cons, if_pos kept]
  rfl

namespace Launch

def entriesPath (launch : Launch) : Path := launch.settings.entriesPath launch.startup.directory

-- Where the entries of a launch are kept: in a directory that is there and not inside the
-- data root, under a plain name, and neither at the data root nor above it. The directory may
-- even be the data root, if only the name is not that of the directory that the crash log makes.
structure Placed (launch : Launch) (directory : Location) : Prop where
  located : launch.disk.locate launch.startup.directory = .ok directory
  stands : launch.disk.find? directory = some .directory
  name : SingleName launch.settings.entriesName
  outside : ∀ root, DataRoot.path launch.environment = .ok root →
    launch.disk.place root <+: directory →
    directory = launch.disk.place root ∧ launch.settings.entriesName.bytes ≠ Text.bytes "cratchit"
  apart : ∀ root, DataRoot.path launch.environment = .ok root →
    ¬ launch.disk.Above root (launch.disk.place launch.entriesPath)

variable {launch : Launch} {directory : Location}

theorem Placed.path_child (placed : launch.Placed directory) :
    launch.entriesPath = launch.startup.directory.child launch.settings.entriesName := by
  rw [entriesPath, Settings.entriesPath, placed.name.ofText]
  rfl

theorem Placed.place_child (placed : launch.Placed directory) :
    launch.disk.place launch.entriesPath = directory ++ [launch.settings.entriesName.bytes] := by
  have parent : Disk.descend (launch.disk.start launch.startup.directory.anchor)
      launch.startup.directory.names = directory := (Disk.located_place placed.located).symm
  rw [placed.path_child, Disk.place, Path.child, Disk.descend_append, parent, Disk.descend,
    if_neg placed.name.notUp]
  rfl

-- The log's places are the data root with all above it, and three names below it: none of them
-- is the place of the entries.
theorem Placed.untouched (placed : launch.Placed directory) :
    ¬ CrashLog.Touches launch.environment launch.disk (launch.disk.place launch.entriesPath) := by
  rintro ⟨root, found, above⟩
  rcases Disk.above_below (CrashLog.path_anchor root) (CrashLog.path_names root)
    CrashLog.up_notMem_names above with higher | ⟨front, last, before, same⟩
  · exact placed.apart root found higher
  · rw [placed.place_child] at same
    obtain ⟨inside, named⟩ := List.append_inj' same rfl
    obtain ⟨here, other⟩ := placed.outside root found (inside ▸ List.prefix_append _ _)
    have top : front = [] :=
      List.map_eq_nil_iff.mp (List.append_right_eq_self.mp (inside.symm.trans here))
    subst top
    have first : last = "cratchit" := (List.cons_prefix_cons.mp before).1
    exact other ((List.singleton_inj.mp named).trans (congrArg Text.bytes first))

-- So whatever was logged, the file of the entries is as it was, and can be written as before.
theorem Placed.logged (placed : launch.Placed directory) (stamp : CrashLog.Stamp)
    (reports : List Report) :
    let later := CrashLog.appendAll launch.environment stamp launch.disk reports
    later.read launch.entriesPath = launch.disk.read launch.entriesPath ∧
      later.writable launch.entriesPath = launch.disk.writable launch.entriesPath := by
  intro later
  have grown : Grown _ launch.disk later := CrashLog.appendAll_grown _ _ _ _
  refine grown.access ?_ placed.untouched
  rw [placed.path_child]
  exact grown.locate_child placed.located placed.stands placed.name.notUp

end Launch

-- What a session leaves at the path of the entries, and it is nothing but what was there
-- before it that decides.
def Entries.writtenBack (disk : Disk) (path : Path) (seeds : Entries) : Except FileError Bytes :=
  match Entries.load disk path seeds with
  | .error _ => disk.read path
  | .ok loaded => Entries.rewritten disk path loaded.entries

namespace Session

variable {launch : Launch} {directory : Location}

-- What ends the loop of a session, or keeps it from being made.
def loopEnding (launch : Launch) (script : Script) : Option Failure :=
  match Interpreter.ofSettings launch.entriesPath launch.settings with
  | .error error => some (.settings error)
  | .ok interpreter =>
    match ((Loop.start interpreter launch.startup.command).run script).outcome with
    | .error fault => some (.fault fault)
    | .ok _ => none

-- What the loop of a session does, if it is made.
def loopEffects (launch : Launch) (script : Script) : List Effect :=
  match Interpreter.ofSettings launch.entriesPath launch.settings with
  | .error _ => []
  | .ok interpreter => ((Loop.start interpreter launch.startup.command).run script).effects

def ending (launch : Launch) (script : Script) : Option Failure :=
  match Entries.load launch.disk launch.entriesPath launch.settings.seeds with
  | .error error => some (.path error)
  | .ok _ => loopEnding launch script

theorem play_made {interpreter : Interpreter}
    (made : Interpreter.ofSettings launch.entriesPath launch.settings = .ok interpreter)
    (script : Script) :
    let turn := (Loop.start interpreter launch.startup.command).run script
    play launch script = ⟨loopEnding launch script, turn.effects, turn.script⟩ := by
  intro turn
  unfold play loopEnding
  dsimp only
  rw [← Launch.entriesPath, made]
  dsimp only
  cases ((Loop.start interpreter launch.startup.command).run script).outcome <;> rfl

theorem play_unmade {error : SettingsError}
    (refused : Interpreter.ofSettings launch.entriesPath launch.settings = .error error)
    (script : Script) : play launch script = ⟨loopEnding launch script, [], script⟩ := by
  unfold play loopEnding
  dsimp only
  rw [← Launch.entriesPath, refused]

theorem play_exact (launch : Launch) (script : Script) :
    (play launch script).failure = loopEnding launch script ∧
      (play launch script).effects = loopEffects launch script := by
  unfold loopEffects
  cases made : Interpreter.ofSettings launch.entriesPath launch.settings with
  | error error =>
    rw [play_unmade made]
    exact ⟨rfl, rfl⟩
  | ok interpreter =>
    rw [play_made made]
    exact ⟨rfl, rfl⟩

theorem run_refused {error : PathError}
    (refused : Entries.load launch.disk launch.entriesPath launch.settings.seeds = .error error)
    (script : Script) :
    run launch script = ⟨some (.path error), [], [], [], script, launch.disk⟩ := by
  have opens : (Store.make launch.entriesPath launch.settings.seeds).open launch.disk =
      .error error := by
    rw [Store.open, Store.make, refused]
  unfold run
  dsimp only
  rw [Store.session, ← Launch.entriesPath, opens]

-- The disk that the loop leaves, with all that was logged of its faults.
def logged (launch : Launch) (script : Script) : Disk :=
  CrashLog.appendAll launch.environment launch.stamp launch.disk
    ((loopEffects launch script).filterMap Effect.report?)

-- A session that starts is a loading, a playing whose faults are logged, and a saving of what
-- was loaded.
theorem run_exact {loaded : Entries.Loaded}
    (loads : Entries.load launch.disk launch.entriesPath launch.settings.seeds = .ok loaded)
    (script : Script) :
    ∃ saved, Entries.save (logged launch script) launch.entriesPath loaded.entries = .ok saved ∧
      run launch script = ⟨loopEnding launch script, loaded.notices, loopEffects launch script,
        saved.notices, (play launch script).script, saved.disk⟩ := by
  have proper : launch.entriesPath.Proper := by
    by_contra improper
    obtain ⟨error, refused⟩ :=
      Entries.load_of_improper improper launch.disk launch.settings.seeds
    cases loads.symm.trans refused
  obtain ⟨saved, saves⟩ := Entries.save_proper proper (logged launch script) loaded.entries
  have opens : (Store.make launch.entriesPath launch.settings.seeds).open launch.disk =
      .ok ⟨⟨launch.entriesPath, launch.settings.seeds, loaded.entries, true⟩, loaded.notices⟩ := by
    rw [Store.open, Store.make, loads]
  have closes : Store.close ⟨launch.entriesPath, launch.settings.seeds, loaded.entries, true⟩
      (logged launch script) =
        .ok ⟨⟨launch.entriesPath, launch.settings.seeds, loaded.entries, false⟩, saved.disk,
          saved.notices⟩ := by
    rw [Store.close, if_pos rfl, Store.flush, saves]
  refine ⟨saved, saves, ?_⟩
  obtain ⟨ended, played⟩ := play_exact launch script
  unfold run
  dsimp only
  rw [Store.session, ← Launch.entriesPath, opens]
  dsimp only
  rw [played, ← logged, closes]
  dsimp only
  rw [ended, played]

theorem run_writes_back (placed : launch.Placed directory) (script : Script) :
    (run launch script).disk.read launch.entriesPath =
        Entries.writtenBack launch.disk launch.entriesPath launch.settings.seeds ∧
      (run launch script).failure = ending launch script := by
  unfold Entries.writtenBack ending
  cases loads : Entries.load launch.disk launch.entriesPath launch.settings.seeds with
  | error error =>
    rw [run_refused loads]
    exact ⟨rfl, rfl⟩
  | ok loaded =>
    obtain ⟨saved, saves, whole⟩ := run_exact loads script
    obtain ⟨reads, opens⟩ := placed.logged launch.stamp
      ((loopEffects launch script).filterMap Effect.report?)
    rw [whole]
    refine ⟨?_, rfl⟩
    rw [← logged] at reads opens
    dsimp only
    rw [Entries.read_saved saves, Entries.rewritten, reads, opens]
    rfl

end Session

-- What comes from outside once a session is launched: its command, what the input and the
-- screen answer, and what the log knows of the moment.
structure Input where
  command : Text
  script : Script
  stamp : CrashLog.Stamp

def Launch.given (launch : Launch) (input : Input) : Launch :=
  { launch with startup := { launch.startup with command := input.command }, stamp := input.stamp }

theorem Launch.Placed.given {launch : Launch} {directory : Location}
    (placed : launch.Placed directory) (input : Input) : (launch.given input).Placed directory :=
  ⟨placed.located, placed.stands, placed.name, placed.outside, placed.apart⟩

namespace Session

def under (launch : Launch) (input : Input) : Session := run (launch.given input) input.script

-- However a session ends, what it leaves at the path of the entries is what was there before
-- it, loaded over the seeds and written back; so no two inputs can be told apart by that file.
-- What ended the loop is what ends the session.
theorem input_cannot_reach_entries {launch : Launch} {directory : Location}
    (placed : launch.Placed directory) :
    (∀ input, (under launch input).disk.read launch.entriesPath =
        Entries.writtenBack launch.disk launch.entriesPath launch.settings.seeds ∧
      (under launch input).failure = ending (launch.given input) input.script) ∧
    ∀ one other, (under launch one).disk.read launch.entriesPath =
      (under launch other).disk.read launch.entriesPath := by
  have back := fun input => run_writes_back (placed.given input) input.script
  exact ⟨back, fun one other => (back one).1.trans (back other).1.symm⟩

-- No settings, a data root beside the file, and a file that is not as it would be written.
def plainLaunch : Launch where
  startup := ⟨Path.ofText "/w", none, []⟩
  settings := ⟨.map []⟩
  environment := .ofList [("CRATCHIT_DATA_HOME", "d")]
  stamp := ⟨[], []⟩
  disk := ⟨[([Text.bytes "w"], .directory),
    ([Text.bytes "w", Text.bytes "cratchit.env"], .file (Text.utf8 "# mine\n\"a\":\"1\""))],
    [Text.bytes "w"]⟩

def quietInput : Input := ⟨[], {}, ⟨"1", []⟩⟩

-- The first prompt cannot be shown, and showing that is interrupted.
def interruptedInput : Input :=
  ⟨"go", { writes := [some ⟨.value, "a"⟩, some ⟨.interrupt, []⟩] }, ⟨"2", []⟩⟩

theorem plainLaunch_placed : plainLaunch.Placed [Text.bytes "w"] := by
  have only : ∀ root, DataRoot.path plainLaunch.environment = .ok root →
      root = ⟨.relative, ["d"]⟩ := by
    intro root found
    have known : DataRoot.path plainLaunch.environment = .ok ⟨.relative, ["d"]⟩ := rfl
    cases known.symm.trans found
    rfl
  refine ⟨rfl, rfl, ⟨by decide, by decide, by decide, by decide, by decide⟩, ?_, ?_⟩
  · intro root found inside
    rw [only root found] at inside
    exact absurd inside (by decide)
  · rintro root found ⟨⟨anchor, names⟩, ⟨same, before⟩, place⟩
    rw [only root found] at same before
    cases same
    cases names with
    | nil => exact absurd place (by decide +kernel)
    | cons name rest =>
      obtain ⟨named, more⟩ := List.cons_prefix_cons.mp before
      rw [named, List.prefix_nil.mp more] at place
      exact absurd place (by decide +kernel)

theorem interrupted_session_writes_back :
    plainLaunch.Placed [Text.bytes "w"] ∧
      (under plainLaunch quietInput).disk.read plainLaunch.entriesPath =
        .ok (Text.utf8 "\"a\":\"1\"") ∧
      (under plainLaunch interruptedInput).disk.read plainLaunch.entriesPath =
        .ok (Text.utf8 "\"a\":\"1\"") ∧
      (under plainLaunch interruptedInput).failure = some (.fault ⟨.interrupt, []⟩) := by
  obtain ⟨back, alike⟩ := input_cannot_reach_entries plainLaunch_placed
  have quiet : (under plainLaunch quietInput).disk.read plainLaunch.entriesPath =
      .ok (Text.utf8 "\"a\":\"1\"") :=
    (back quietInput).1.trans (by decide +kernel)
  refine ⟨plainLaunch_placed, quiet, (alike interruptedInput quietInput).trans quiet, ?_⟩
  have proper : (plainLaunch.given interruptedInput).entriesPath.Proper := rfl
  obtain ⟨loaded, loads⟩ := Entries.load_proper proper (plainLaunch.given interruptedInput).disk
    (plainLaunch.given interruptedInput).settings.seeds
  have made : Interpreter.ofSettings (plainLaunch.given interruptedInput).entriesPath
      (plainLaunch.given interruptedInput).settings =
        .ok { path := Path.ofText "/w/cratchit.env" } := rfl
  have ends : Loop.Ends (Loop.start { path := Path.ofText "/w/cratchit.env" } "go")
      interruptedInput.script _ _ := .fails rfl rfl rfl rfl
  have command : (plainLaunch.given interruptedInput).startup.command = "go" := rfl
  rw [(back interruptedInput).2, ending, loads]
  dsimp only
  rw [loopEnding, made]
  dsimp only
  rw [command, Loop.ends_run ends]

end Session

end LineShell
