import LineShell.CrashLog
import LineShell.Settings.Basic

namespace LineShell

-- What the process is started with: its directory, the search path when it has one,
-- and the command made of its arguments.
structure Startup where
  directory : Path
  searchPath : Option Text
  command : Text
deriving DecidableEq

namespace Startup

def joinArguments (arguments : List Text) : Text := arguments.flatMap (· ++ [.space])

def resolve (arguments : List Text) (environment : Environment) (directory : Path) : Startup :=
  ⟨directory, environment.find? "PATH", joinArguments arguments⟩

def display (startup : Startup) (unset : Text) : Text := startup.searchPath.getD unset

end Startup

def Settings.entriesPath (settings : Settings) (directory : Path) : Path :=
  directory.join (Path.ofText settings.entriesName)

end LineShell
