import LineShell.Settings.Value

namespace LineShell

structure Wording where
  welcome : Text := "\nInit from "
  notice : Text := "\nUpdate for command not yet implemented"
  marker : Text := "\n>"
  farewell : Text := "\nBye for now :)"
deriving DecidableEq

namespace Wording

def ofFields (fields : List (Key × Value)) : Wording :=
  let plain : Wording := {}
  let text (name default : Text) : Text := ((Value.field? name fields).map Value.display).getD default
  ⟨text "init" plain.welcome, text "not_implemented" plain.notice,
    text "prompt_marker" plain.marker, text "farewell" plain.farewell⟩

end Wording

end LineShell
