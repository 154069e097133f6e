import LineShell.Text.Order

namespace LineShell

-- A finite map from keys to values, held in ascending order of the keys. Equal
-- maps are therefore equal values, however they were built.
structure Entries where
  pairs : List (Text × Text)
  ascending : pairs.Pairwise (fun a b => a.1 < b.1)
deriving DecidableEq

namespace Entries

def empty : Entries := ⟨[], .nil⟩

instance : Inhabited Entries := ⟨empty⟩

def lookup (key : Text) : List (Text × Text) → Option Text
  | [] => none
  | (k, v) :: rest => if k = key then some v else lookup key rest

def place (key value : Text) : List (Text × Text) → List (Text × Text)
  | [] => [(key, value)]
  | (k, v) :: rest =>
    if k = key then (key, value) :: rest
    else if key < k then (key, value) :: (k, v) :: rest
    else (k, v) :: place key value rest

theorem mem_place {key value : Text} {pair : Text × Text} {pairs : List (Text × Text)}
    (present : pair ∈ place key value pairs) : pair = (key, value) ∨ pair ∈ pairs := by
  induction pairs with
  | nil => simpa [place] using present
  | cons head rest ih =>
    obtain ⟨k, v⟩ := head
    simp only [place] at present
    split at present
    · rcases List.mem_cons.mp present with rfl | old
      · exact .inl rfl
      · exact .inr (List.mem_cons_of_mem _ old)
    · split at present
      · rcases List.mem_cons.mp present with rfl | old
        · exact .inl rfl
        · exact .inr old
      · rcases List.mem_cons.mp present with rfl | old
        · exact .inr List.mem_cons_self
        · rcases ih old with new | old
          · exact .inl new
          · exact .inr (List.mem_cons_of_mem _ old)

theorem place_ascending (key value : Text) {pairs : List (Text × Text)}
    (ascending : pairs.Pairwise (fun a b => a.1 < b.1)) :
    (place key value pairs).Pairwise (fun a b => a.1 < b.1) := by
  induction pairs with
  | nil => simp [place]
  | cons head rest ih =>
    obtain ⟨k, v⟩ := head
    obtain ⟨first, tail⟩ := List.pairwise_cons.mp ascending
    simp only [place]
    split
    · rename_i same
      subst same
      exact List.pairwise_cons.mpr ⟨first, tail⟩
    · rename_i differ
      split
      · rename_i less
        refine List.pairwise_cons.mpr ⟨?_, ascending⟩
        intro pair present
        rcases List.mem_cons.mp present with rfl | later
        · exact less
        · exact Text.lt_trans less (first pair later)
      · rename_i notLess
        refine List.pairwise_cons.mpr ⟨?_, ih tail⟩
        intro pair present
        rcases mem_place present with rfl | later
        · exact Text.lt_of_not_lt_of_ne notLess (Ne.symm differ)
        · exact first pair later

def find? (entries : Entries) (key : Text) : Option Text := lookup key entries.pairs

def insert (entries : Entries) (key value : Text) : Entries :=
  ⟨place key value entries.pairs, place_ascending key value entries.ascending⟩

def erase (entries : Entries) (key : Text) : Entries :=
  ⟨entries.pairs.filter (fun pair => pair.1 ≠ key), entries.ascending.filter _⟩

-- A later pair of the same key replaces the value.
def insertAll (entries : Entries) (pairs : List (Text × Text)) : Entries :=
  pairs.foldl (fun entries pair => entries.insert pair.1 pair.2) entries

def ofList (pairs : List (Text × Text)) : Entries := empty.insertAll pairs

def toList (entries : Entries) : List (Text × Text) := entries.pairs

def keys (entries : Entries) : List Text := entries.pairs.map (·.1)

def size (entries : Entries) : Nat := entries.pairs.length

def contains (entries : Entries) (key : Text) : Bool := (entries.find? key).isSome

def override (lower upper : Entries) : Entries := lower.insertAll upper.pairs

end Entries

end LineShell
