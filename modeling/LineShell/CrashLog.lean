import LineShell.DataRoot
import LineShell.Fault
import LineShell.Screen

namespace LineShell

-- What is known about a fault that was caught: the command at work, if any, and the
-- screen it left.
structure Report where
  fault : Fault
  command : Text := []
  screen : Option Screen := none
deriving DecidableEq

namespace CrashLog

def path (root : Path) : Path := ((root.child "cratchit").child "logs").child "crash.log"

structure Stamp where
  time : Text
  trace : Text

def lines (stamp : Stamp) (report : Report) : List Text :=
  [stamp.time] ++
    (if report.command = [] then [] else [Text.ofString "raw=" ++ report.command]) ++
    (match report.screen with
      | none => []
      | some screen => [if screen.quit then "quit=True" else "quit=False"]) ++
    [Text.ofString "error=" ++ report.fault.described, "traceback:", stamp.trace, "----"]

def entry (stamp : Stamp) (report : Report) : Text :=
  Text.joined [.newline] (lines stamp report) ++ [.newline]

-- The file is opened before its entry is encoded: an entry that cannot be encoded
-- adds nothing, but the file is there afterwards.
def addTo (disk : Disk) (path : Path) (entry : Text) : Disk :=
  let content := match entry.encode with
    | .ok bytes => bytes
    | .error _ => []
  match disk.append path content with
  | .ok written => written
  | .error _ => disk

-- Adds one entry and never fails: a fault is being handled already, and there is
-- nobody left to tell about another one.
def append (environment : Environment) (stamp : Stamp) (disk : Disk) (report : Report) : Disk :=
  match DataRoot.prepare environment disk with
  | (.error _, disk) => disk
  | (.ok root, disk) =>
    match disk.ensureDirectory (path root).parent with
    | (some _, disk) => disk
    | (none, disk) => addTo disk (path root) (entry stamp report)

def appendAll (environment : Environment) (stamp : Stamp) (disk : Disk)
    (reports : List Report) : Disk :=
  reports.foldl (append environment stamp) disk

end CrashLog

end LineShell
