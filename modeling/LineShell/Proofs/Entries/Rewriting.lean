import LineShell.Proofs.Entries.Grammar

namespace LineShell

namespace Text

-- Puts another text in the place of every mark, all over the text.
def substitute (text : Text) (mark : CodePoint) (form : Text) : Text :=
  text.flatMap fun c => if c = mark then form else [c]

end Text

namespace Field

variable {line text after : Text}

-- A field can also be written by two passes over its whole text. The backslashes come first:
-- those that the second pass adds must not be doubled.
def quoteByPasses (text : Text) : Text :=
  [.quoteMark] ++ (text.substitute .backslash [.backslash, .backslash]).substitute .quoteMark
    [.backslash, .quoteMark] ++ [.quoteMark]

theorem escape_passes (c : CodePoint) :
    Text.substitute (if c = .backslash then [.backslash, .backslash] else [c]) .quoteMark
      [.backslash, .quoteMark] = escape c := by
  have apart : CodePoint.backslash ≠ .quoteMark := by decide
  by_cases back : c = .backslash
  · subst back
    simp [Text.substitute, escape, apart]
  · by_cases mark : c = .quoteMark
    · subst mark
      simp [Text.substitute, escape, back]
    · simp [Text.substitute, escape, back, mark]

theorem quote_passes (text : Text) : quote text = quoteByPasses text := by
  have passes : (text.substitute .backslash [.backslash, .backslash]).substitute .quoteMark
      [.backslash, .quoteMark] = text.flatMap escape := by
    rw [Text.substitute, Text.substitute, List.flatMap_assoc]
    exact congrArg (List.flatMap · text) (funext escape_passes)
  rw [quoteByPasses, passes, quote]

theorem read_suffix (found : read line = some (text, after)) : after <:+ line := by
  obtain ⟨items, rfl, _⟩ := read_eq_some.mp found
  exact ⟨.quoteMark :: (form items ++ [.quoteMark]), by simp⟩

-- Reading at a position, in terms of what is left of the line before and after.
theorem readAt_eq_some {position stop : Nat} : readAt line position = some (text, stop) ↔
    stop ≤ line.length ∧ read (line.drop position) = some (text, line.drop stop) := by
  rw [readAt, Option.map_eq_some_iff]
  constructor
  · rintro ⟨⟨inside, after⟩, found, equal⟩
    cases equal
    have suffix : after <:+ line := (read_suffix found).trans (List.drop_suffix _ _)
    rw [← List.suffix_iff_eq_drop.mp suffix]
    exact ⟨Nat.sub_le _ _, found⟩
  · rintro ⟨bound, found⟩
    refine ⟨_, found, ?_⟩
    dsimp only
    rw [List.length_drop, Nat.sub_sub_self bound]

-- The backslashes that need not be there: those in front of a code point that has no meaning of
-- its own. A backslash that the one in front makes literal makes nothing literal itself.
def needless : Text → Nat
  | [] => 0
  | c :: rest =>
    if c = .backslash then
      match rest with
      | [] => 0
      | literal :: rest =>
        needless rest + if literal = .quoteMark ∨ literal = .backslash then 0 else 1
    else needless rest

theorem needless_other {c : CodePoint} (other : c ≠ .backslash) (rest : Text) :
    needless (c :: rest) = needless rest := by
  rw [needless.eq_def]
  exact if_neg other

theorem needless_literal (c : CodePoint) (rest : Text) : needless (.backslash :: c :: rest) =
    needless rest + if c = .quoteMark ∨ c = .backslash then 0 else 1 := by
  rw [needless.eq_def]
  exact if_pos rfl

-- The same of one item of a field, and of a whole field.
def Item.needless : Item → Nat
  | .plain _ _ => 0
  | .escaped c => if c = .quoteMark ∨ c = .backslash then 0 else 1

def needlessIn : List Item → Nat
  | [] => 0
  | item :: rest => item.needless + needlessIn rest

theorem needless_item (item : Item) (rest : Text) :
    needless (item.form ++ rest) = item.needless + needless rest := by
  cases item with
  | plain c ordinary =>
    rw [Item.form, List.singleton_append, needless_other ordinary.2]
    exact (Nat.zero_add _).symm
  | escaped c =>
    rw [Item.form, List.cons_append, List.singleton_append, needless_literal]
    exact Nat.add_comm _ _

theorem needless_form (items : List Item) (rest : Text) :
    needless (form items ++ rest) = needlessIn items + needless rest := by
  induction items with
  | nil => exact (Nat.zero_add _).symm
  | cons item more ih =>
    rw [form_cons, List.append_assoc, needless_item, ih, needlessIn, Nat.add_assoc]

-- What an item means is written again without its backslash when that one was needless, and as
-- it was when not.
theorem Item.length_form (item : Item) :
    item.form.length = (escape item.meaning).length + item.needless := by
  cases item with
  | plain c ordinary =>
    rw [form, meaning, needless, escape, if_neg (not_or.mpr ordinary)]
    rfl
  | escaped c =>
    rw [form, meaning, needless, escape]
    split <;> rfl

theorem Item.form_of_needed {item : Item} (needed : item.needless = 0) :
    item.form = escape item.meaning := by
  cases item with
  | plain c ordinary => rw [form, meaning, escape, if_neg (not_or.mpr ordinary)]
  | escaped c =>
    rw [needless] at needed
    split at needed
    · rename_i special
      rw [form, meaning, escape, if_pos special]
    · cases needed

theorem length_form (items : List Item) :
    (form items).length = ((meaning items).flatMap escape).length + needlessIn items := by
  induction items with
  | nil => rfl
  | cons item rest ih =>
    have written : (meaning (item :: rest)).flatMap escape =
        escape item.meaning ++ (meaning rest).flatMap escape := List.flatMap_cons
    have count : needlessIn (item :: rest) = item.needless + needlessIn rest := rfl
    rw [form_cons, written, count, List.length_append, List.length_append, ih, item.length_form]
    omega

theorem form_of_needed {items : List Item} (needed : needlessIn items = 0) :
    form items = (meaning items).flatMap escape := by
  induction items with
  | nil => rfl
  | cons item rest ih =>
    have count : needlessIn (item :: rest) = item.needless + needlessIn rest := rfl
    have head : item.needless = 0 := by omega
    have tail : needlessIn rest = 0 := by omega
    rw [form_cons, Item.form_of_needed head, ih tail]
    exact List.flatMap_cons.symm

end Field

namespace Entries

-- The parser in terms of positions: two fields, the second of them ending with the line, and a
-- colon at the position between them.
theorem parseLine_positions {text key value : Text} : parseLine text = some (key, value) ↔
    ∃ middle, Field.readAt text 0 = some (key, middle) ∧ text[middle]? = some .colon ∧
      Field.readAt text (middle + 1) = some (value, text.length) := by
  simp only [parseLine_eq_some, Field.readAt_eq_some, ← List.head?_drop, List.drop_zero,
    List.drop_length]
  constructor
  · rintro ⟨rest, first, second⟩
    have behind := List.suffix_iff_eq_drop.mp (Field.read_suffix first)
    refine ⟨_, ⟨Nat.sub_le _ _, behind ▸ first⟩, behind ▸ rfl, Nat.le_refl _, ?_⟩
    rw [← List.drop_drop, ← behind]
    exact second
  · rintro ⟨middle, ⟨_, first⟩, colon, _, second⟩
    obtain ⟨rest, behind⟩ := List.head?_eq_some_iff.mp colon
    rw [← List.drop_drop, behind] at second
    exact ⟨rest, behind ▸ first, second⟩

-- Whatever the key and the value are, the line that is written for them is one that an entry is
-- due on, and gives back both: the key up to the colon, and the value up to the end.
theorem written_entry_read_back (key value : Text) :
    entryLine key value = Field.quoteByPasses key ++ [.colon] ++ Field.quoteByPasses value ∧
    isValueLine (entryLine key value) = true ∧
    parseLine (entryLine key value) = some (key, value) ∧
    ∃ middle, Field.readAt (entryLine key value) 0 = some (key, middle) ∧
      (entryLine key value)[middle]? = some .colon ∧
      Field.readAt (entryLine key value) (middle + 1) = some (value, (entryLine key value).length) := by
  have parsed := parseLine_entryLine key value
  refine ⟨?_, ?_, parsed, parseLine_positions.mp parsed⟩
  · rw [entryLine, Field.quote_passes, Field.quote_passes]
  · rw [entryLine_inside]
    exact isValueLine_quoteMark _

def Spelling.needless (spelling : Spelling) : Nat :=
  Field.needlessIn spelling.key + Field.needlessIn spelling.value

theorem needless_line (spelling : Spelling) : Field.needless spelling.line = spelling.needless := by
  have quoteMark : CodePoint.quoteMark ≠ .backslash := by decide
  have colon : CodePoint.colon ≠ .backslash := by decide
  rw [Spelling.line_fields, Field.needless_other quoteMark, Field.needless_form,
    Field.needless_other quoteMark, Field.needless_other colon, Field.needless_other quoteMark,
    Field.needless_form]
  rfl

theorem length_line (spelling : Spelling) : spelling.line.length =
    (entryLine (Field.meaning spelling.key) (Field.meaning spelling.value)).length +
      spelling.needless := by
  simp only [Spelling.line, entryLine, Field.quote, Spelling.needless, List.length_append,
    Field.length_form, List.length_cons, List.length_nil]
  omega

theorem line_of_needed {spelling : Spelling} (needed : spelling.needless = 0) :
    spelling.line = entryLine (Field.meaning spelling.key) (Field.meaning spelling.value) := by
  have key : Field.needlessIn spelling.key = 0 := Nat.eq_zero_of_add_eq_zero_right needed
  have value : Field.needlessIn spelling.value = 0 := Nat.eq_zero_of_add_eq_zero_left needed
  simp [Spelling.line, entryLine, Field.quote, Field.form_of_needed key,
    Field.form_of_needed value]

-- Reading an entry and writing it again takes its needless backslashes and nothing else, so that
-- the lines that are written are those that hold an entry and have none.
theorem rewritten_line_exact (line : Text) :
    (∀ key value, parseLine line = some (key, value) →
      parseLine (entryLine key value) = some (key, value) ∧
      (entryLine key value).length + Field.needless line = line.length ∧
      (entryLine key value = line ↔ Field.needless line = 0)) ∧
    ((∃ key value, entryLine key value = line) ↔
      (∃ key value, parseLine line = some (key, value)) ∧ Field.needless line = 0) := by
  have rewritten (key value : Text) (found : parseLine line = some (key, value)) :
      (entryLine key value).length + Field.needless line = line.length ∧
      (entryLine key value = line ↔ Field.needless line = 0) := by
    obtain ⟨spelling, rfl, rfl, rfl⟩ := parseLine_exact found
    have length := length_line spelling
    rw [needless_line]
    refine ⟨length.symm, ?_, fun needed => (line_of_needed needed).symm⟩
    intro same
    rw [same] at length
    omega
  refine ⟨?_, ?_, ?_⟩
  · intro key value found
    exact ⟨parseLine_entryLine key value, rewritten key value found⟩
  · rintro ⟨key, value, rfl⟩
    have parsed := parseLine_entryLine key value
    exact ⟨⟨key, value, parsed⟩, (rewritten key value parsed).2.mp rfl⟩
  · rintro ⟨⟨key, value, found⟩, needed⟩
    exact ⟨key, value, (rewritten key value found).2.mpr needed⟩

-- Behind an escaped backslash a letter is plain, and one behind a backslash of its own is not.
theorem needless_backslash_dropped :
    let line := Text.ofString "\"\\\\a\":\"\\b\\\"\""
    parseLine line = some (Text.ofString "\\a", Text.ofString "b\"") ∧ Field.needless line = 1 ∧
      (entryLine "\\a" "b\"").length + 1 = line.length ∧ entryLine "\\a" "b\"" ≠ line := by
  intro line
  have found : parseLine line = some (Text.ofString "\\a", Text.ofString "b\"") := by decide +kernel
  have one : Field.needless line = 1 := by decide +kernel
  obtain ⟨_, length, same⟩ := (rewritten_line_exact line).1 _ _ found
  rw [one] at length same
  exact ⟨found, one, length, fun equal => absurd (same.mp equal) (by decide)⟩

end Entries

end LineShell
