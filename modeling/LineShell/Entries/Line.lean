import LineShell.Entries.Basic
import LineShell.Entries.Field

namespace LineShell.Entries

def commentMark : Text := "//"

-- A line that should hold an entry: neither empty nor a comment.
def isValueLine (line : Text) : Bool := !line.isEmpty && !commentMark.isPrefixOf line

def entryLine (key value : Text) : Text := Field.quote key ++ [.colon] ++ Field.quote value

-- Two quoted fields with a colon between them and nothing else on the line.
def parseLine (line : Text) : Option (Text × Text) :=
  match Field.read line with
  | none => none
  | some (_, []) => none
  | some (key, separator :: rest) =>
    if separator = .colon then
      match Field.read rest with
      | some (value, []) => some (key, value)
      | _ => none
    else none

def serialize (entries : Entries) : Text :=
  Text.joined [.newline] (entries.pairs.map fun (key, value) => entryLine key value)

end LineShell.Entries
