import LineShell.Entries.Line
import LineShell.Proofs.Entries.Field
import LineShell.Proofs.Text.Basic

namespace LineShell.Entries

-- All that the parser accepts: two fields with a colon between them, and nothing behind.
theorem parseLine_eq_some {line key value : Text} : parseLine line = some (key, value) ↔
    ∃ rest, Field.read line = some (key, .colon :: rest) ∧ Field.read rest = some (value, []) := by
  constructor
  · intro found
    unfold parseLine at found
    split at found
    · cases found
    · cases found
    · rename_i name separator rest first
      split at found
      · rename_i colon
        subst colon
        split at found
        · rename_i given second
          cases found
          exact ⟨rest, first, second⟩
        · cases found
      · cases found
  · rintro ⟨rest, first, second⟩
    unfold parseLine
    rw [first]
    dsimp only
    rw [if_pos rfl, second]

theorem parseLine_entryLine (key value : Text) : parseLine (entryLine key value) = some (key, value) := by
  have first : Field.read (entryLine key value) = some (key, .colon :: Field.quote value) := by
    rw [entryLine, List.append_assoc, Field.read_quote]
    rfl
  have second : Field.read (Field.quote value) = some (value, []) := by
    have whole := Field.read_quote value []
    rwa [List.append_nil] at whole
  exact parseLine_eq_some.mpr ⟨_, first, second⟩

theorem isValueLine_quoteMark (rest : Text) : isValueLine (.quoteMark :: rest) = true := rfl

theorem bareQuotes_parseLine {line : Text} {pair : Text × Text} (found : parseLine line = some pair) :
    Field.bareQuotes line = 4 := by
  obtain ⟨key, value⟩ := pair
  obtain ⟨rest, first, second⟩ := parseLine_eq_some.mp found
  have plain : ¬ (CodePoint.colon = .quoteMark ∨ CodePoint.colon = .backslash) := by decide
  rw [Field.bareQuotes_read first, Field.bareQuotes_plain plain, Field.bareQuotes_read second]
  rfl

-- What stands between the first and the last quote mark of an entry.
def insideOf (key value : Text) : Text :=
  key.flatMap Field.escape ++ .quoteMark :: .colon :: .quoteMark :: value.flatMap Field.escape

theorem entryLine_inside (key value : Text) :
    entryLine key value = .quoteMark :: (insideOf key value ++ [.quoteMark]) := by
  simp [entryLine, insideOf, Field.quote]

theorem bareQuotes_inside (key value rest : Text) :
    Field.bareQuotes (insideOf key value ++ rest) = Field.bareQuotes rest + 2 := by
  have plain : ¬ (CodePoint.colon = .quoteMark ∨ CodePoint.colon = .backslash) := by decide
  rw [insideOf, List.append_assoc, Field.bareQuotes_escape, List.cons_append,
    Field.bareQuotes_quoteMark, List.cons_append, Field.bareQuotes_plain plain, List.cons_append,
    Field.bareQuotes_quoteMark, Field.bareQuotes_escape]

theorem newline_mem_escaped (text : Text) : .newline ∈ text.flatMap Field.escape ↔ .newline ∈ text := by
  rw [List.mem_flatMap]
  constructor
  · intro found
    obtain ⟨c, present, inside⟩ := found
    unfold Field.escape at inside
    split at inside
    · rename_i special
      rcases List.mem_cons.mp inside with other | same
      · cases other
      · exact List.mem_singleton.mp same ▸ present
    · exact List.mem_singleton.mp inside ▸ present
  · intro present
    exact ⟨.newline, present, List.mem_cons_self⟩

theorem newline_mem_inside (key value : Text) :
    .newline ∈ insideOf key value ↔ .newline ∈ key ∨ .newline ∈ value := by
  have marks : CodePoint.newline ≠ .quoteMark ∧ CodePoint.newline ≠ .colon := by decide
  simp only [insideOf, List.mem_append, List.mem_cons, newline_mem_escaped, marks.1, marks.2, false_or]

-- An entry that fits on one line: no newline in its key or its value.
def OneLine (pair : Text × Text) : Prop := .newline ∉ pair.1 ∧ .newline ∉ pair.2

instance (pair : Text × Text) : Decidable (OneLine pair) :=
  inferInstanceAs (Decidable (.newline ∉ pair.1 ∧ .newline ∉ pair.2))

theorem entryLine_clean {pair : Text × Text} (fits : OneLine pair) :
    .newline ∉ entryLine pair.1 pair.2 := by
  have inside : .newline ∉ insideOf pair.1 pair.2 := by
    rw [newline_mem_inside]
    exact not_or.mpr fits
  rw [entryLine_inside]
  intro present
  rcases List.mem_cons.mp present with first | later
  · cases first
  · rcases List.mem_append.mp later with within | last
    · exact inside within
    · cases List.mem_singleton.mp last

theorem bareQuotes_newline (before after : Text) :
    Field.bareQuotes (before ++ .newline :: after) =
      Field.bareQuotes before + Field.bareQuotes after :=
  Field.bareQuotes_append (by decide) before after

-- A piece of a text has no more bare quote marks than the text.
theorem bareQuotes_piece {text piece : Text} (among : piece ∈ Text.pieces .newline text) :
    Field.bareQuotes piece ≤ Field.bareQuotes text := by
  induction text using Text.pieces_induction CodePoint.newline with
  | last text clean =>
    rw [Text.pieces_clean clean] at among
    exact Nat.le_of_eq (congrArg Field.bareQuotes (List.mem_singleton.mp among))
  | cut before after clean ih =>
    rw [bareQuotes_newline]
    rw [Text.pieces_append, Text.pieces_clean clean] at among
    rcases List.mem_cons.mp among with rfl | later
    · exact Nat.le_add_right _ _
    · have smaller := ih later
      omega

-- An entry that does not fit on one line falls into pieces, none of which holds the four
-- bare quote marks of an entry. The first one begins like an entry.
theorem entryLine_broken {pair : Text × Text} (broken : ¬ OneLine pair) :
    ∃ first rest, Text.pieces .newline (entryLine pair.1 pair.2) = (.quoteMark :: first) :: rest ∧
      ∀ piece ∈ (.quoteMark :: first) :: rest, Field.bareQuotes piece < 4 := by
  have present : .newline ∈ insideOf pair.1 pair.2 := by
    rw [newline_mem_inside]
    exact Decidable.or_iff_not_not_and_not.mpr broken
  have alone := bareQuotes_inside pair.1 pair.2 []
  have closed := bareQuotes_inside pair.1 pair.2 [.quoteMark]
  obtain ⟨before, after, shape, clean⟩ := List.eq_append_cons_of_mem present
  rw [List.append_nil, shape, bareQuotes_newline] at alone
  rw [shape, List.append_assoc, List.cons_append, bareQuotes_newline] at closed
  have opening : Field.bareQuotes (.quoteMark :: before) = Field.bareQuotes before + 1 :=
    Field.bareQuotes_quoteMark before
  have none : Field.bareQuotes [] = 0 := rfl
  have one : Field.bareQuotes [.quoteMark] = 1 := rfl
  refine ⟨before, Text.pieces .newline (after ++ [.quoteMark]), ?_, ?_⟩
  · have head : .newline ∉ CodePoint.quoteMark :: before := by
      intro among
      rcases List.mem_cons.mp among with first | later
      · cases first
      · exact clean later
    rw [entryLine_inside, shape, List.append_assoc, List.cons_append, ← List.cons_append,
      Text.pieces_append, Text.pieces_clean head]
    rfl
  · intro piece among
    rcases List.mem_cons.mp among with rfl | later
    · omega
    · have bound := bareQuotes_piece later
      omega

end LineShell.Entries
