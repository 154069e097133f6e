import LineShell.Text.Basic

namespace LineShell.Text

def replacement : Char := Char.ofNat 0xFFFD

-- The text for a terminal, which has no way to show a lone surrogate.
def shown (text : Text) : String :=
  String.ofList (text.map fun c => if c.isSurrogate then replacement else Char.ofNat c.val)

end LineShell.Text
