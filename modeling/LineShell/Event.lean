import LineShell.Text.Basic

namespace LineShell

inductive Event where
  | idle
  | quit
  | command (text : Text)
deriving DecidableEq

-- A line that is exactly one of the triggers stops; every other one is a command.
def Event.ofLine (triggers : List Text) (line : Text) : Event :=
  if triggers.contains line then .quit else .command line

end LineShell
