import LineShell.Text.Basic

namespace LineShell

-- A terminal that reads beside the last line written. The text after the last
-- newline is held back, and becomes the beginning of the next prompt. The terminal
-- is taken over for reading by the first read, and stays so.
structure HeldLine where
  held : Text := []
  reading : Bool := false
deriving DecidableEq

namespace HeldLine

inductive Call where
  | write (text : Text)
  | flush
  | read (prompt : Text)
deriving DecidableEq

inductive Output where
  | printed (text : Text)
  | asked (prompt : Text)
deriving DecidableEq

def Output.text : Output → Text
  | .printed text => text
  | .asked prompt => prompt

def Output.printed? : Output → Option Text
  | .printed text => some text
  | .asked _ => none

def Output.asked? : Output → Option Text
  | .printed _ => none
  | .asked prompt => some prompt

-- Prints up to the last newline, which is printed too, and holds the rest.
def write (line : HeldLine) (text : Text) : HeldLine × List Output :=
  if text = [] then (line, [])
  else
    let whole := line.held ++ text
    match Text.cutLast? .newline whole with
    | none => ({ line with held := whole }, [])
    | some (before, after) => ({ line with held := after }, [.printed (before ++ [.newline])])

def flush (line : HeldLine) : HeldLine × List Output :=
  if line.held = [] then (line, []) else ({ line with held := [] }, [.printed line.held])

def read (line : HeldLine) (prompt : Text) : HeldLine × List Output :=
  ({ held := [], reading := true }, [.asked (line.held ++ prompt)])

def apply (line : HeldLine) : Call → HeldLine × List Output
  | .write text => line.write text
  | .flush => line.flush
  | .read prompt => line.read prompt

def run (line : HeldLine) : List Call → HeldLine × List Output
  | [] => (line, [])
  | call :: rest =>
    let (line, first) := line.apply call
    let (line, later) := line.run rest
    (line, first ++ later)

end HeldLine

end LineShell
