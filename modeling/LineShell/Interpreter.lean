import LineShell.Disk.Path
import LineShell.Screen
import LineShell.Settings.Basic

namespace LineShell

-- What stays fixed during a session: where the entries are kept, how the program
-- speaks, and which lines end it.
structure Interpreter where
  path : Path
  wording : Wording := {}
  triggers : List Text := Settings.defaultQuitTriggers
deriving DecidableEq

namespace Interpreter

def ofSettings (path : Path) (settings : Settings) : Except SettingsError Interpreter :=
  match settings.texts with
  | .error error => .error error
  | .ok fields =>
    match settings.quitTriggers with
    | .error error => .error error
    | .ok triggers => .ok ⟨path, .ofFields fields, triggers⟩

def start (interpreter : Interpreter) : Screen :=
  { prompt := interpreter.wording.welcome ++ interpreter.path.text }

def classify (interpreter : Interpreter) (line : Text) : Event := .ofLine interpreter.triggers line

def update (interpreter : Interpreter) (screen : Screen) (event : Event) : Screen :=
  screen.update interpreter.wording event

def follow (interpreter : Interpreter) (screen : Screen) : List Text → List (Event × Screen)
  | [] => []
  | line :: rest =>
    let event := interpreter.classify line
    let next := interpreter.update screen event
    (event, next) :: interpreter.follow next rest

end Interpreter

end LineShell
