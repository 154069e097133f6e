import LineShell.Proofs.Entries.Line
import LineShell.Proofs.Entries.Map
import Mathlib.Data.List.Induction

namespace LineShell

namespace Text

theorem joined_broken (mark : CodePoint) {lines : List Text} (present : lines ≠ []) :
    mark :: joined [mark] lines = lines.flatMap (mark :: ·) := by
  induction lines with
  | nil => exact absurd rfl present
  | cons line rest ih =>
    cases rest with
    | nil => simp [joined]
    | cons next more => simp [joined, ← ih (List.cons_ne_nil _ _)]

end Text

namespace Entries

variable {key value name given after behind : Text}

theorem quote_unique (same : Field.quote key ++ after = Field.quote name ++ behind) :
    key = name ∧ after = behind := by
  have read := Field.read_quote key after
  rw [same, Field.read_quote] at read
  cases read
  exact ⟨rfl, rfl⟩

-- An entry says itself where it ends, so that a newline inside it cannot be taken for the one
-- behind it.
theorem entryLine_unique (same : entryLine key value ++ after = entryLine name given ++ behind) :
    key = name ∧ value = given ∧ after = behind := by
  simp only [entryLine, List.append_assoc] at same
  obtain ⟨rfl, rest⟩ := quote_unique same
  obtain ⟨rfl, rfl⟩ := quote_unique (List.cons.inj rest).2
  exact ⟨rfl, rfl, rfl⟩

theorem lines_unique {pairs others : List (Text × Text)}
    (same : pairs.flatMap (fun pair => .newline :: entryLine pair.1 pair.2) =
      others.flatMap fun pair => .newline :: entryLine pair.1 pair.2) : pairs = others := by
  induction pairs generalizing others with
  | nil =>
    cases others with
    | nil => rfl
    | cons other more => simp at same
  | cons pair rest ih =>
    cases others with
    | nil => simp at same
    | cons other more =>
      simp only [List.flatMap_cons, List.cons_append, List.cons.injEq, true_and] at same
      obtain ⟨keys, values, behind⟩ := entryLine_unique same
      rw [Prod.ext keys values, ih behind]

theorem serialize_broken {entries : Entries} (present : entries.pairs ≠ []) :
    .newline :: entries.serialize =
      entries.pairs.flatMap fun pair => .newline :: entryLine pair.1 pair.2 := by
  rw [serialize, Text.joined_broken]
  · simp [List.flatMap_map]
  · simpa using present

theorem serialize_eq_nil {entries : Entries} : entries.serialize = [] ↔ entries.pairs = [] := by
  by_cases empty : entries.pairs = []
  · simp [serialize, empty, Text.joined]
  · have broken := serialize_broken empty
    obtain ⟨pair, rest, shape⟩ := List.exists_cons_of_ne_nil empty
    refine iff_of_false ?_ empty
    intro none
    simp [none, shape, entryLine_inside] at broken

theorem serialize_injective {one two : Entries} (same : one.serialize = two.serialize) : one = two := by
  have pairs : one.pairs = two.pairs := by
    by_cases empty : one.pairs = []
    · rw [empty, serialize_eq_nil.mp (same ▸ serialize_eq_nil.mpr empty)]
    · have present : two.pairs ≠ [] := fun none =>
        empty (serialize_eq_nil.mp (same.trans (serialize_eq_nil.mpr none)))
      have broken := serialize_broken empty
      rw [same, serialize_broken present] at broken
      exact (lines_unique broken).symm
  exact ext_find? fun key => congrArg (lookup key) pairs

-- Of the values that a key was given the last one stands.
theorem find?_ofList (pairs : List (Text × Text)) (key : Text) :
    (ofList pairs).find? key = lookup key pairs.reverse := by
  induction pairs using List.reverseRecOn with
  | nil => rfl
  | append_singleton rest pair ih =>
    have shape : ofList (rest ++ [pair]) = (ofList rest).insert pair.1 pair.2 := List.foldl_append
    rw [shape, find?_insert, ih, List.reverse_append, List.reverse_singleton, List.singleton_append,
      lookup]
    simp only [eq_comm]

-- The text of a map tells every map from every other one, and nothing else: neither the order
-- in which its entries were made nor the values that were replaced on the way.
theorem serialize_eq_iff :
    (∀ one two : Entries, one.serialize = two.serialize ↔ ∀ key, one.find? key = two.find? key) ∧
    ∀ pairs others : List (Text × Text), (ofList pairs).serialize = (ofList others).serialize ↔
      ∀ key, lookup key pairs.reverse = lookup key others.reverse := by
  have maps (one two : Entries) :
      one.serialize = two.serialize ↔ ∀ key, one.find? key = two.find? key := by
    constructor
    · intro same key
      rw [serialize_injective same]
    · intro same
      rw [ext_find? same]
  refine ⟨maps, ?_⟩
  intro pairs others
  simp only [maps, find?_ofList]

end Entries

end LineShell
