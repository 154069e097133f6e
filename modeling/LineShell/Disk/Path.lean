import LineShell.Text.Basic

namespace LineShell

-- Where a path starts. Two leading slashes are a start of their own; any other
-- number of them is the same as one.
inductive Anchor where
  | relative
  | root
  | doubleRoot
deriving Repr, DecidableEq

structure Path where
  anchor : Anchor
  names : List Text
deriving DecidableEq

namespace Path

def here : Text := [.dot]
def up : Text := [.dot, .dot]

def anchorOf (text : Text) : Anchor :=
  match (text.takeWhile (· = .slash)).length with
  | 0 => .relative
  | 2 => .doubleRoot
  | _ => .root

-- Empty names and single dots say nothing; two dots are kept, for where they lead
-- is known on the disk only.
def ofText (text : Text) : Path :=
  ⟨anchorOf text, (Text.pieces .slash text).filter fun name => name ≠ [] ∧ name ≠ here⟩

def text (path : Path) : Text :=
  let names := Text.joined [.slash] path.names
  match path.anchor with
  | .relative => if path.names = [] then here else names
  | .root => [.slash] ++ names
  | .doubleRoot => [.slash, .slash] ++ names

def join (base next : Path) : Path :=
  match next.anchor with
  | .relative => ⟨base.anchor, base.names ++ next.names⟩
  | _ => next

def child (base : Path) (name : Text) : Path := ⟨base.anchor, base.names ++ [name]⟩

def parent (path : Path) : Path := ⟨path.anchor, path.names.dropLast⟩

end Path

end LineShell
