import LineShell.Text.Basic

namespace LineShell.Text

-- The lines of a text. A newline, a carriage return or both together end one; what
-- follows the last end is a line unless it is empty.
def lines : Text → List Text
  | [] => []
  | [c] => if c = .newline ∨ c = .carriageReturn then [[]] else [[c]]
  | c :: d :: rest =>
    if c = .newline then [] :: lines (d :: rest)
    else if c = .carriageReturn then [] :: (if d = .newline then lines rest else lines (d :: rest))
    else match lines (d :: rest) with
      | [] => [[c]]
      | line :: more => (c :: line) :: more

end LineShell.Text
