import LineShell.Text.LoneByte

namespace LineShell

inductive Node where
  | file (content : Bytes)
  | directory
deriving DecidableEq

-- The names that lead from the root of the disk to one place on it. Names are the same
-- when their bytes are.
abbrev Location := List Bytes

-- The files and directories of a machine, and the directory from which relative
-- paths start. The root is always a directory.
structure Disk where
  nodes : List (Location × Node)
  working : Location

namespace Disk

def lookup (location : Location) : List (Location × Node) → Option Node
  | [] => none
  | (place, node) :: rest => if place = location then some node else lookup location rest

def replace (location : Location) (node : Node) : List (Location × Node) → List (Location × Node)
  | [] => [(location, node)]
  | (place, old) :: rest =>
    if place = location then (location, node) :: rest
    else (place, old) :: replace location node rest

def find? (disk : Disk) (location : Location) : Option Node :=
  if location = [] then some .directory else lookup location disk.nodes

def put (disk : Disk) (location : Location) (node : Node) : Disk :=
  { disk with nodes := replace location node disk.nodes }

theorem lookup_replace (location place : Location) (node : Node) (nodes : List (Location × Node)) :
    lookup place (replace location node nodes) =
      if place = location then some node else lookup place nodes := by
  induction nodes with
  | nil => simp [replace, lookup, eq_comm (a := location)]
  | cons head rest ih =>
    obtain ⟨first, old⟩ := head
    by_cases here : first = location
    · subst here
      by_cases same : place = first
      · simp [replace, lookup, same]
      · simp [replace, lookup, same, Ne.symm same]
    · by_cases same : place = location
      · subst same
        simp [replace, lookup, here, ih]
      · by_cases other : first = place
        · subst other
          simp [replace, lookup, here]
        · simp [replace, lookup, here, ih, same, other]

-- A write is seen at its own place and nowhere else.
theorem find?_put (disk : Disk) (location place : Location) (node : Node) :
    (disk.put location node).find? place =
      if place = [] then some .directory
      else if place = location then some node else disk.find? place := by
  by_cases root : place = []
  · simp [find?, root]
  · simp [find?, put, root, lookup_replace]

end Disk

end LineShell
