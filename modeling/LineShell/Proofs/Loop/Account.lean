import LineShell.Proofs.Loop.Conversation

namespace LineShell

-- A reading that the session stops behind.
def Reading.closes (interpreter : Interpreter) (reading : Reading) : Bool :=
  reading.event interpreter = .quit

-- What the user is told of a reading right away. An input that ends or is interrupted is
-- nothing to tell of.
def Reading.told : Reading → List Text
  | .line _ => []
  | .failed fault => if fault.endsInput then [] else [Loop.inputFailed fault]

namespace Interpreter

-- How many readings there are before the one that the session stops behind, and that one.
-- Behind the last reading stands the end of the input.
def closing (interpreter : Interpreter) (reads : List Reading) : Nat :=
  reads.findIdx (Reading.closes interpreter)

-- The text on display once some commands have been answered.
def answered (interpreter : Interpreter) (prompt : Text) (count : Nat) : Text :=
  prompt ++ (List.replicate count (interpreter.wording.notice ++ interpreter.wording.marker)).flatten

variable {interpreter : Interpreter} {reading : Reading} {rest : List Reading}

end Interpreter

namespace Script

end Script

namespace Loop

variable {interpreter : Interpreter} {script left : Script} {reading : Reading}

end Loop

end LineShell
