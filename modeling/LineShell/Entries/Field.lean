import LineShell.Text.Basic

namespace LineShell.Field

-- A quoted field. Inside it a backslash makes the next code point literal, and the
-- writer puts one in front of every quote mark and backslash.
def escape (c : CodePoint) : Text :=
  if c = .quoteMark ∨ c = .backslash then [.backslash, c] else [c]

def quote (text : Text) : Text := [.quoteMark] ++ text.flatMap escape ++ [.quoteMark]

-- Reads behind an opening quote mark: the text of the field and what follows its
-- closing quote mark. A field that is not closed has no reading.
def readBody : Text → Option (Text × Text)
  | [] => none
  | c :: rest =>
    if c = .quoteMark then some ([], rest)
    else if c = .backslash then
      match rest with
      | [] => none
      | literal :: rest => (readBody rest).map fun (text, after) => (literal :: text, after)
    else (readBody rest).map fun (text, after) => (c :: text, after)

def read : Text → Option (Text × Text)
  | [] => none
  | c :: rest => if c = .quoteMark then readBody rest else none

def readAt (line : Text) (position : Nat) : Option (Text × Nat) :=
  (read (line.drop position)).map fun (text, after) => (text, line.length - after.length)

end LineShell.Field
