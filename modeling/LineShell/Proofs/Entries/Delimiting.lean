import LineShell.Proofs.Entries.Rewriting

namespace LineShell.Field

variable {line text field other after : Text} {items : List Item}

-- The backslashes that a text ends with, back to the last code point that is none.
def trailing (text : Text) : Nat := (text.reverse.takeWhile (· = .backslash)).length

-- A field from its opening to its closing quote mark, told without the reader. An odd run of
-- backslashes in front of a quote mark makes that one literal, and an even run does not.
def Complete (field : Text) : Prop :=
  ∃ body, field = .quoteMark :: (body ++ [.quoteMark]) ∧ trailing body % 2 = 0 ∧
    ∀ before after, body = before ++ .quoteMark :: after → trailing before % 2 = 1

-- Only a text of backslashes alone lets the run in front of it go on.
theorem trailing_append (front text : Text) : trailing (front ++ text) = trailing text ∨
    trailing text = text.length ∧ trailing (front ++ text) = trailing front + text.length := by
  simp only [trailing, List.reverse_append, List.takeWhile_append, List.length_reverse]
  split
  · rename_i all
    exact .inr ⟨all, by rw [List.length_append, List.length_reverse, Nat.add_comm]⟩
  · exact .inl rfl

theorem trailing_plain {c : CodePoint} (other : c ≠ .backslash) : trailing [c] = 0 := by
  simp [trailing, other]

theorem trailing_escaped (c : CodePoint) : trailing [.backslash, c] % 2 = 0 := by
  by_cases same : c = .backslash <;> simp [trailing, same]

-- An item never changes whether the run behind it is odd: it ends with none or with two backslashes.
theorem trailing_item (item : Item) (text : Text) :
    trailing (item.form ++ text) % 2 = trailing text % 2 := by
  have even : trailing item.form % 2 = 0 := by
    cases item with
    | plain c ordinary => rw [Item.form, trailing_plain ordinary.2]
    | escaped c => exact trailing_escaped c
  rcases trailing_append item.form text with same | ⟨all, further⟩ <;> omega

theorem trailing_form (items : List Item) : trailing (form items) % 2 = 0 := by
  induction items with
  | nil => rfl
  | cons item rest ih => rw [form_cons, trailing_item, ih]

theorem quoteMark_within {before : Text} (shape : form items = before ++ .quoteMark :: after) :
    trailing before % 2 = 1 := by
  induction items generalizing before with
  | nil => exact absurd shape.symm (List.append_ne_nil_of_right_ne_nil _ (List.cons_ne_nil _ _))
  | cons item rest ih =>
    rw [form_cons] at shape
    cases item with
    | plain c ordinary =>
      have shape : c :: form rest = before ++ .quoteMark :: after := shape
      cases before with
      | nil => exact absurd (List.cons.inj shape).1 ordinary.1
      | cons d more =>
        obtain ⟨rfl, tail⟩ := List.cons.inj shape
        exact (trailing_item (.plain c ordinary) more).trans (ih tail)
    | escaped c =>
      have shape : .backslash :: c :: form rest = before ++ .quoteMark :: after := shape
      cases before with
      | nil => exact absurd (List.cons.inj shape).1 (by decide)
      | cons d more =>
        obtain ⟨rfl, tail⟩ := List.cons.inj shape
        cases more with
        | nil => rfl
        | cons e more =>
          obtain ⟨rfl, behind⟩ := List.cons.inj tail
          exact (trailing_item (.escaped c) more).trans (ih behind)

-- The other way round. The cases are those of the reader: an odd run at the end would leave its
-- last backslash without a code point to make literal.
theorem form_of_runs {body : Text} (closed : trailing body % 2 = 0)
    (within : ∀ before after, body = before ++ .quoteMark :: after → trailing before % 2 = 1) :
    ∃ items, body = form items := by
  induction body using readBody.induct with
  | case1 => exact ⟨[], rfl⟩
  | case2 rest => exact absurd (within [] rest rfl) (by decide)
  | case3 => exact absurd closed (by decide)
  | case4 c rest _ ih =>
    have item := trailing_item (.escaped c)
    obtain ⟨items, rfl⟩ := ih ((item rest).symm.trans closed) fun before after shape =>
      (item before).symm.trans (within (.backslash :: c :: before) after (by rw [shape]; rfl))
    exact ⟨.escaped c :: items, rfl⟩
  | case5 c rest noQuote noBackslash ih =>
    have item := trailing_item (.plain c ⟨noQuote, noBackslash⟩)
    obtain ⟨items, rfl⟩ := ih ((item rest).symm.trans closed) fun before after shape =>
      (item before).symm.trans (within (c :: before) after (by rw [shape]; rfl))
    exact ⟨.plain c ⟨noQuote, noBackslash⟩ :: items, rfl⟩

theorem complete_iff : Complete field ↔ ∃ items, field = .quoteMark :: (form items ++ [.quoteMark]) := by
  constructor
  · intro complete
    obtain ⟨body, rfl, closed, within⟩ := complete
    obtain ⟨items, rfl⟩ := form_of_runs closed within
    exact ⟨items, rfl⟩
  · intro written
    obtain ⟨items, rfl⟩ := written
    exact ⟨form items, rfl, trailing_form items, fun before after => quoteMark_within⟩

-- What is read off the front of a line is a complete field, and every complete field is read.
theorem read_complete (found : read line = some (text, after)) :
    ∃ field, Complete field ∧ line = field ++ after ∧
      ∀ rest, read (field ++ rest) = some (text, rest) := by
  obtain ⟨items, rfl, rfl⟩ := read_eq_some.mp found
  refine ⟨_, complete_iff.mpr ⟨items, rfl⟩, by simp, fun rest => ?_⟩
  exact read_eq_some.mpr ⟨items, by simp, rfl⟩

theorem complete_read (complete : Complete field) (rest : Text) :
    ∃ text, read (field ++ rest) = some (text, rest) := by
  obtain ⟨items, rfl⟩ := complete_iff.mp complete
  exact ⟨_, read_eq_some.mpr ⟨items, by simp, rfl⟩⟩

theorem complete_unique (complete : Complete field) (also : Complete other)
    (front : field <+: other) : field = other := by
  obtain ⟨items, rfl⟩ := complete_iff.mp complete
  obtain ⟨others, rfl⟩ := complete_iff.mp also
  obtain ⟨rest, shape⟩ := front
  rw [List.cons_append, List.append_assoc] at shape
  obtain ⟨rfl, _⟩ := form_unique (List.cons.inj shape).2
  rfl

theorem Complete.two_le_length (complete : Complete field) : 2 ≤ field.length := by
  obtain ⟨body, rfl, _⟩ := complete
  simp

theorem readAt_placed (found : read (field ++ after) = some (text, after)) (before : Text) :
    readAt (before ++ field ++ after) before.length = some (text, before.length + field.length) := by
  refine readAt_eq_some.mpr ⟨by simp, ?_⟩
  rw [← List.length_append, List.drop_left, List.append_assoc, List.drop_left]
  exact found

-- Reading at a position, in terms of the line between the two positions.
theorem readAt_between {position stop : Nat} (found : readAt line position = some (text, stop)) :
    Complete (line.extract position stop) ∧ (line.extract position stop).length = stop - position ∧
      stop ≤ line.length ∧ ∀ rest, read (line.extract position stop ++ rest) = some (text, rest) := by
  obtain ⟨bound, inside⟩ := readAt_eq_some.mp found
  obtain ⟨field, complete, shape, reads⟩ := read_complete inside
  have length : field.length = stop - position := by
    have whole := congrArg List.length shape
    rw [List.length_append, List.length_drop, List.length_drop] at whole
    have two := complete.two_le_length
    omega
  have same : line.extract position stop = field := by
    rw [List.extract_eq_take_drop, shape, ← length, List.take_left]
  rw [same]
  exact ⟨complete, length, bound, reads⟩

theorem readAt_eq_none {position : Nat} : readAt line position = none ↔
    ∀ front, front <+: line.drop position → ¬ Complete front := by
  constructor
  · intro nothing front begins complete
    obtain ⟨rest, shape⟩ := begins
    obtain ⟨text, found⟩ := complete_read complete rest
    rw [readAt, ← shape, found] at nothing
    cases nothing
  · intro without
    apply Option.eq_none_iff_forall_ne_some.mpr
    intro answer found
    obtain ⟨text, stop⟩ := answer
    exact without _ (List.take_prefix _ _) (readAt_between found).1

-- A quoted field tells by itself where it ends, wherever it stands in a line. What is read is a
-- complete field from its first to its last code point; no part of it in front is one, and
-- nothing around it counts. Where nothing is read, no complete field begins.
theorem field_delimits_itself :
    (∀ before text after, readAt (before ++ quote text ++ after) before.length =
      some (text, before.length + (quote text).length)) ∧
    ∀ line position,
      (∀ text stop, readAt line position = some (text, stop) →
        position + 2 ≤ stop ∧ stop ≤ line.length ∧ Complete (line.extract position stop) ∧
        (∀ before after, before.length = position →
          readAt (before ++ line.extract position stop ++ after) position = some (text, stop)) ∧
        ∀ front, front <+: line.extract position stop → front ≠ line.extract position stop →
          ¬ Complete front) ∧
      (readAt line position = none ↔ ∀ front, front <+: line.drop position → ¬ Complete front) := by
  refine ⟨fun before text after => readAt_placed (read_quote text after) before, ?_⟩
  intro line position
  refine ⟨?_, readAt_eq_none⟩
  intro text stop found
  obtain ⟨complete, length, bound, reads⟩ := readAt_between found
  have two := complete.two_le_length
  refine ⟨by omega, bound, complete, ?_, ?_⟩
  · intro before after same
    subst same
    have placed := readAt_placed (reads after) before
    rwa [length, Nat.add_sub_of_le (by omega)] at placed
  · intro front begins shorter also
    exact shorter (complete_unique also complete begins)

-- The first quote mark within is literal, and the one behind two backslashes closes the field. The
-- last one of the line opens a field that nothing closes.
theorem escaped_quote_closes_nothing :
    let line := Text.ofString "x\"a\\\"\\\\\"y\""
    let field := Text.ofString "\"a\\\"\\\\\""
    let text := Text.ofString "a\"\\"
    readAt line 1 = some (text, 8) ∧ line.extract 1 8 = field ∧ Complete field ∧
      readAt ([.quoteMark] ++ field ++ [.quoteMark]) 1 = some (text, 8) ∧
      ¬ Complete (Text.ofString "\"a\\\"") ∧
      readAt line 9 = none ∧ ¬ Complete [.quoteMark] := by
  intro line field text
  have found : readAt line 1 = some (text, 8) := by decide +kernel
  have between : line.extract 1 8 = field := by decide +kernel
  have nothing : readAt line 9 = none := by decide +kernel
  obtain ⟨_, _, complete, around, shortest⟩ := (field_delimits_itself.2 line 1).1 text 8 found
  rw [between] at complete around shortest
  have unopened := (field_delimits_itself.2 line 9).2.mp nothing
  exact ⟨found, between, complete, around _ _ rfl, shortest _ (by decide +kernel) (by decide +kernel),
    nothing, unopened _ (by decide +kernel)⟩

end LineShell.Field
