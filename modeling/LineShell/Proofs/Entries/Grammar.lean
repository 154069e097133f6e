import LineShell.Proofs.Entries.Line

namespace LineShell

namespace Field

-- One item of a field as it is written: a code point that stands for itself, or any code
-- point behind a backslash.
inductive Item where
  | plain (c : CodePoint) (ordinary : c ≠ .quoteMark ∧ c ≠ .backslash)
  | escaped (c : CodePoint)

namespace Item

def form : Item → Text
  | .plain c _ => [c]
  | .escaped c => [.backslash, c]

def meaning : Item → CodePoint
  | .plain c _ => c
  | .escaped c => c

end Item

def form (items : List Item) : Text := items.flatMap Item.form

def meaning (items : List Item) : Text := items.map Item.meaning

variable {line text after behind : Text} {items others : List Item}

theorem form_cons (item : Item) (rest : List Item) : form (item :: rest) = item.form ++ form rest :=
  List.flatMap_cons

theorem readBody_item (item : Item) (rest : Text) :
    readBody (item.form ++ rest) =
      (readBody rest).map fun (text, after) => (item.meaning :: text, after) := by
  cases item with
  | plain c ordinary => exact readBody_plain (not_or.mpr ordinary) rest
  | escaped c => exact readBody_literal c rest

theorem readBody_form (items : List Item) (after : Text) :
    readBody (form items ++ .quoteMark :: after) = some (meaning items, after) := by
  induction items with
  | nil => exact readBody_quoteMark after
  | cons item rest ih =>
    rw [form_cons, List.append_assoc, readBody_item, ih]
    rfl

-- The other way round, what was read tells how it was written. The cases are those of the
-- reader, and each step of it that goes on adds one item.
theorem readBody_exact (found : readBody line = some (text, after)) :
    ∃ items, line = form items ++ .quoteMark :: after ∧ text = meaning items := by
  induction line using readBody.induct generalizing text with
  | case1 => cases found
  | case2 rest =>
    rw [readBody_quoteMark] at found
    cases found
    exact ⟨[], rfl, rfl⟩
  | case3 => cases found
  | case4 c rest _ ih =>
    obtain ⟨⟨tail, behind⟩, inner, equal⟩ := Option.map_eq_some_iff.mp found
    cases equal
    obtain ⟨items, rfl, rfl⟩ := ih inner
    exact ⟨.escaped c :: items, rfl, rfl⟩
  | case5 c rest noQuote noBackslash ih =>
    rw [readBody_plain (not_or.mpr ⟨noQuote, noBackslash⟩)] at found
    obtain ⟨⟨tail, behind⟩, inner, equal⟩ := Option.map_eq_some_iff.mp found
    cases equal
    obtain ⟨items, rfl, rfl⟩ := ih inner
    exact ⟨.plain c ⟨noQuote, noBackslash⟩ :: items, rfl, rfl⟩

theorem Item.form_ne_quoteMark (item : Item) (rest : Text) : item.form ++ rest ≠ .quoteMark :: after := by
  intro same
  cases item with
  | plain c ordinary => exact ordinary.1 (List.cons.inj same).1
  | escaped c => exact absurd (List.cons.inj same).1 (by decide)

theorem Item.form_unique {item other : Item} (same : item.form ++ after = other.form ++ behind) :
    item = other ∧ after = behind := by
  cases item with
  | plain c ordinary =>
    cases other with
    | plain d proper =>
      obtain ⟨rfl, tail⟩ := List.cons.inj same
      exact ⟨rfl, tail⟩
    | escaped d => exact absurd (List.cons.inj same).1 ordinary.2
  | escaped c =>
    cases other with
    | plain d proper => exact absurd (List.cons.inj same).1.symm proper.2
    | escaped d =>
      obtain ⟨rfl, tail⟩ := List.cons.inj (List.cons.inj same).2
      exact ⟨rfl, tail⟩

-- No two ways to write a field begin alike, whatever follows its closing quote mark.
theorem form_unique (same : form items ++ .quoteMark :: after = form others ++ .quoteMark :: behind) :
    items = others ∧ after = behind := by
  induction items generalizing others with
  | nil =>
    cases others with
    | nil => exact ⟨rfl, (List.cons.inj same).2⟩
    | cons other more =>
      rw [form_cons, List.append_assoc] at same
      exact absurd same.symm (other.form_ne_quoteMark _)
  | cons item rest ih =>
    rw [form_cons, List.append_assoc] at same
    cases others with
    | nil => exact absurd same (item.form_ne_quoteMark _)
    | cons other more =>
      rw [form_cons, List.append_assoc] at same
      obtain ⟨rfl, tail⟩ := Item.form_unique same
      obtain ⟨rfl, rfl⟩ := ih tail
      exact ⟨rfl, rfl⟩

theorem read_eq_some : read line = some (text, after) ↔
    ∃ items, line = .quoteMark :: (form items ++ .quoteMark :: after) ∧ text = meaning items := by
  constructor
  · intro found
    cases line with
    | nil => cases found
    | cons c rest =>
      rw [read] at found
      split at found
      · rename_i opening
        subst opening
        obtain ⟨items, shape, same⟩ := readBody_exact found
        exact ⟨items, congrArg _ shape, same⟩
      · cases found
  · rintro ⟨items, rfl, rfl⟩
    rw [read, if_pos rfl, readBody_form]

end Field

namespace Entries

structure Spelling where
  key : List Field.Item
  value : List Field.Item

def Spelling.line (spelling : Spelling) : Text :=
  [.quoteMark] ++ Field.form spelling.key ++ [.quoteMark, .colon, .quoteMark] ++
    Field.form spelling.value ++ [.quoteMark]

theorem Spelling.line_fields (spelling : Spelling) : spelling.line =
    .quoteMark :: (Field.form spelling.key ++ .quoteMark ::
      (.colon :: (.quoteMark :: (Field.form spelling.value ++ .quoteMark :: [])))) := by
  simp [line]

theorem Spelling.line_unique {one two : Spelling} (same : one.line = two.line) : one = two := by
  rw [line_fields, line_fields] at same
  obtain ⟨keys, behind⟩ := Field.form_unique (List.cons.inj same).2
  obtain ⟨values, _⟩ := Field.form_unique (List.cons.inj (List.cons.inj behind).2).2
  obtain ⟨key, value⟩ := one
  cases keys
  cases values
  rfl

theorem parseLine_spelling (spelling : Spelling) :
    parseLine spelling.line = some (Field.meaning spelling.key, Field.meaning spelling.value) := by
  have first := Field.read_eq_some.mpr ⟨spelling.key, spelling.line_fields, rfl⟩
  have second := Field.read_eq_some.mpr
    ⟨spelling.value, Eq.refl (.quoteMark :: (Field.form spelling.value ++ [.quoteMark])), rfl⟩
  exact parseLine_eq_some.mpr ⟨_, first, second⟩

theorem parseLine_exact {line key value : Text} (found : parseLine line = some (key, value)) :
    ∃ spelling : Spelling, spelling.line = line ∧ Field.meaning spelling.key = key ∧
      Field.meaning spelling.value = value := by
  obtain ⟨rest, first, second⟩ := parseLine_eq_some.mp found
  obtain ⟨keys, rfl, rfl⟩ := Field.read_eq_some.mp first
  obtain ⟨values, rfl, rfl⟩ := Field.read_eq_some.mp second
  exact ⟨⟨keys, values⟩, Spelling.line_fields _, rfl, rfl⟩

-- A line holds an entry exactly when it is spelled out by the grammar, and then in one way:
-- a quoted key, a colon, a quoted value and nothing else.
theorem parseLine_grammar (line : Text) :
    (∀ key value, parseLine line = some (key, value) ↔
      ∃ spelling : Spelling, spelling.line = line ∧ Field.meaning spelling.key = key ∧
        Field.meaning spelling.value = value) ∧
    (∀ one two : Spelling, one.line = line → two.line = line → one = two) ∧
    (parseLine line = none ↔ ∀ spelling : Spelling, spelling.line ≠ line) := by
  refine ⟨?_, ?_, ?_⟩
  · intro key value
    constructor
    · exact parseLine_exact
    · rintro ⟨spelling, rfl, rfl, rfl⟩
      exact parseLine_spelling spelling
  · rintro one two rfl same
    exact (Spelling.line_unique same).symm
  · constructor
    · rintro refused spelling rfl
      cases (parseLine_spelling spelling).symm.trans refused
    · intro unspelled
      rw [Option.eq_none_iff_forall_ne_some]
      rintro ⟨key, value⟩ found
      obtain ⟨spelling, same, _⟩ := parseLine_exact found
      exact unspelled spelling same

-- A backslash behind a backslash, in front of the closing quote mark, and one that need not be there.
theorem backslashes_spelled_once :
    let line := Text.ofString "\"\\\\\":\"\\a\\\"\""
    let spelling : Spelling :=
      ⟨[.escaped .backslash], [.escaped (CodePoint.ofChar 'a'), .escaped .quoteMark]⟩
    spelling.line = line ∧
      parseLine line = some (Text.ofString "\\", Text.ofString "a\"") ∧
      ∀ other : Spelling, other.line = line → other = spelling := by
  intro line spelling
  have same : spelling.line = line := by decide
  obtain ⟨exactly, unique, _⟩ := parseLine_grammar line
  exact ⟨same, (exactly _ _).mpr ⟨spelling, same, rfl, rfl⟩,
    fun other spelled => unique other spelling spelled same⟩

end Entries

end LineShell
