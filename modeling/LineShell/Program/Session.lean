import LineShell.Entries.Store
import LineShell.Loop.Run
import LineShell.Startup

namespace LineShell

structure Launch where
  startup : Startup
  settings : Settings
  environment : Environment
  stamp : CrashLog.Stamp
  disk : Disk

inductive Failure where
  | path (error : PathError)
  | settings (error : SettingsError)
  | fault (fault : Fault)

-- A session as seen from outside: what ended it, what it said and did in order, the
-- answers it left unused and the disk it left behind.
structure Session where
  failure : Option Failure
  loading : List Entries.Notice
  effects : List Effect
  saving : List Entries.Notice
  script : Script
  disk : Disk

namespace Session

structure Played where
  failure : Option Failure
  effects : List Effect
  script : Script

def play (launch : Launch) (script : Script) : Played :=
  let path := launch.settings.entriesPath launch.startup.directory
  match Interpreter.ofSettings path launch.settings with
  | .error error => ⟨some (.settings error), [], script⟩
  | .ok interpreter =>
    let turn := (Loop.start interpreter launch.startup.command).run script
    match turn.outcome with
    | .ok _ => ⟨none, turn.effects, turn.script⟩
    | .error fault => ⟨some (.fault fault), turn.effects, turn.script⟩

-- The store is open while the loop runs. Each fault that the loop caught is logged,
-- and whatever ends the loop, the entries are saved.
def run (launch : Launch) (script : Script) : Session :=
  let path := launch.settings.entriesPath launch.startup.directory
  let store := Store.make path launch.settings.seeds
  let body (store : Store) (disk : Disk) : Store.Body Played :=
    let played := play launch script
    let reports := played.effects.filterMap Effect.report?
    ⟨played, store, CrashLog.appendAll launch.environment launch.stamp disk reports⟩
  match store.session launch.disk body with
  | .error error => ⟨some (.path error), [], [], [], script, launch.disk⟩
  | .ok done =>
    ⟨done.result.failure, done.loading, done.result.effects, done.saving, done.result.script,
      done.disk⟩

end Session

end LineShell
