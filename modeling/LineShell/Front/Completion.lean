import LineShell.Settings.Basic
import LineShell.Text.Blank
import LineShell.Text.Order

namespace LineShell

-- A text offered in place of the code points just before the cursor. Its start is
-- counted back from the cursor.
structure Completion where
  text : Text
  start : Int
deriving DecidableEq

namespace Completion

def note : Text := "quit"

def token (before : Text) : Text := before.trimStart

def offers (triggers : List Text) (before : Text) : List Completion :=
  let token := token before
  if token.isEmpty || token.contains .space then []
  else
    ((Text.sorted triggers).filter fun trigger => token.isPrefixOf trigger && trigger ≠ token).map
      fun trigger => ⟨trigger, -token.length⟩

-- The triggers are asked for only where something can be offered, and without
-- settings there are none.
def ofSettings (settings : Option Settings) (before : Text) : Except SettingsError (List Completion) :=
  let token := token before
  if token.isEmpty || token.contains .space then .ok []
  else match settings with
    | none => .ok []
    | some settings => settings.quitTriggers.map fun triggers => offers triggers before

end Completion

end LineShell
