import LineShell.Front.HeldLine
import LineShell.Loop.Script

namespace LineShell

-- A terminal in use: the line that it holds back, and what it will answer to the reads.
-- After the last answer its input is at its end.
structure Terminal where
  line : HeldLine := {}
  answers : List Reading := []

namespace Terminal

-- What a call comes to: the terminal that it leaves, what that has shown, and what a
-- read was answered, a line that it gives back or a fault that it raises.
structure Reply where
  terminal : Terminal
  outputs : List HeldLine.Output
  reading : Option Reading

-- The held text is in the prompt before the answer comes, so a read that raises leaves
-- the same line behind as one that gives a line.
def perform (terminal : Terminal) (call : HeldLine.Call) : Reply :=
  let (line, outputs) := terminal.line.apply call
  match call with
  | .read _ =>
    let (reading, left) := Script.read { reads := terminal.answers }
    ⟨⟨line, left.reads⟩, outputs, some reading⟩
  | _ => ⟨{ terminal with line }, outputs, none⟩

def performAll (terminal : Terminal) : List HeldLine.Call → List Reply
  | [] => []
  | call :: rest =>
    let reply := terminal.perform call
    reply :: reply.terminal.performAll rest

end Terminal

end LineShell
