import LineShell.Program.Front
import LineShell.Proofs.Front.HeldLine
import LineShell.Proofs.Program.Calm

namespace LineShell

open HeldLine (Call transcript)

-- The texts that were written, one behind the other.
def Effect.said (effects : List Effect) : Text := (effects.filterMap Effect.written?).flatten

namespace Program

end Program

end LineShell
