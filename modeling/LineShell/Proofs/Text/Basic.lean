import LineShell.Text.Basic

namespace LineShell

section

variable {α : Type} {test : α → Bool} {front rest : List α}

-- Every list is parted where a test first fails, and only there.
theorem parted (test : α → Bool) (items : List α) :
    ∃ front rest, items = front ++ rest ∧ (∀ item ∈ front, test item = true) ∧
      ∀ item ∈ rest.head?, test item = false := by
  refine ⟨items.takeWhile test, items.dropWhile test, List.takeWhile_append_dropWhile.symm,
    List.all_eq_true.mp List.all_takeWhile, fun item first => ?_⟩
  have fails := List.head?_dropWhile_not test items
  rw [Option.mem_def.mp first] at fails
  exact fails

theorem parted_at (passed : ∀ item ∈ front, test item = true)
    (fails : ∀ item ∈ rest.head?, test item = false) :
    (front ++ rest).takeWhile test = front ∧ (front ++ rest).dropWhile test = rest := by
  rw [List.takeWhile_append_of_pos passed, List.dropWhile_append_of_pos passed]
  cases rest with
  | nil => exact ⟨List.append_nil _, rfl⟩
  | cons item more => simp [fails item rfl]

end

namespace Text

theorem pieces_ne_nil (mark : CodePoint) (text : Text) : pieces mark text ≠ [] := by
  cases text with
  | nil => exact List.cons_ne_nil _ _
  | cons c rest =>
    unfold pieces
    split
    · exact List.cons_ne_nil _ _
    · split <;> exact List.cons_ne_nil _ _

theorem pieces_cons_other {mark c : CodePoint} (other : c ≠ mark) {rest piece : Text}
    {more : List Text} (tail : pieces mark rest = piece :: more) :
    pieces mark (c :: rest) = (c :: piece) :: more := by
  rw [pieces, if_neg other, tail]

-- A mark ends one piece and begins the next, wherever it stands.
theorem pieces_append (mark : CodePoint) (before after : Text) :
    pieces mark (before ++ mark :: after) = pieces mark before ++ pieces mark after := by
  induction before with
  | nil =>
    change pieces mark (mark :: after) = [] :: pieces mark after
    rw [pieces]
    exact if_pos rfl
  | cons c rest ih =>
    by_cases here : c = mark
    · rw [List.cons_append, pieces, if_pos here, ih, pieces, if_pos here]
      rfl
    · cases whole : pieces mark rest with
      | nil => exact absurd whole (pieces_ne_nil mark rest)
      | cons piece more =>
        rw [whole, List.cons_append] at ih
        rw [List.cons_append, pieces_cons_other here ih, pieces_cons_other here whole]
        rfl

theorem pieces_clean {mark : CodePoint} {text : Text} (clean : mark ∉ text) :
    pieces mark text = [text] := by
  induction text with
  | nil => rfl
  | cons c rest ih =>
    obtain ⟨other, tail⟩ := not_or.mp fun either => clean (List.mem_cons.mpr either)
    exact pieces_cons_other (Ne.symm other) (ih tail)

-- Induction over the pieces of a text: the last one, and one in front of a mark.
@[elab_as_elim]
theorem pieces_induction (mark : CodePoint) {motive : Text → Prop} (text : Text)
    (last : ∀ text, mark ∉ text → motive text)
    (cut : ∀ before after, mark ∉ before → motive after → motive (before ++ mark :: after)) :
    motive text := by
  by_cases present : mark ∈ text
  · obtain ⟨before, after, shape, clean⟩ := List.eq_append_cons_of_mem present
    have shorter : after.length < text.length := by
      rw [shape, List.length_append, List.length_cons]
      omega
    rw [shape]
    exact cut before after clean (pieces_induction mark after last cut)
  · exact last text present
termination_by text.length

-- Joining keeps the pieces of every line; only no lines at all still make one empty piece.
theorem pieces_joined (mark : CodePoint) {lines : List Text} (present : lines ≠ []) :
    pieces mark (joined [mark] lines) = lines.flatMap (pieces mark) := by
  induction lines with
  | nil => exact absurd rfl present
  | cons line rest ih =>
    cases rest with
    | nil => simp [joined]
    | cons next more =>
      have tail := ih (List.cons_ne_nil _ _)
      rw [joined, List.append_assoc, List.singleton_append, pieces_append, tail]
      · rfl
      · exact List.cons_ne_nil _ _

theorem joined_subset {separator line : Text} {lines : List Text} (among : line ∈ lines) :
    line ⊆ joined separator lines := by
  induction lines with
  | nil => cases among
  | cons first rest ih =>
    cases rest with
    | nil => exact List.mem_singleton.mp among ▸ List.Subset.refl _
    | cons next more =>
      have shape : joined separator (first :: next :: more) =
          first ++ (separator ++ joined separator (next :: more)) := List.append_assoc _ _ _
      rw [shape]
      rcases List.mem_cons.mp among with rfl | later
      · exact List.subset_append_left _ _
      · exact List.Subset.trans (ih later)
          (List.Subset.trans (List.subset_append_right _ _) (List.subset_append_right _ _))

theorem mem_joined {separator : Text} {lines : List Text} {c : CodePoint}
    (inside : c ∈ joined separator lines) : c ∈ separator ∨ ∃ line ∈ lines, c ∈ line := by
  induction lines with
  | nil => cases inside
  | cons first rest ih =>
    cases rest with
    | nil => exact .inr ⟨first, List.mem_cons_self, inside⟩
    | cons next more =>
      rcases List.mem_append.mp inside with before | after
      · rcases List.mem_append.mp before with here | between
        · exact .inr ⟨first, List.mem_cons_self, here⟩
        · exact .inl between
      · rcases ih after with between | ⟨line, among, there⟩
        · exact .inl between
        · exact .inr ⟨line, List.mem_cons_of_mem _ among, there⟩

theorem joined_cons (separator first : Text) {rest : List Text} (present : rest ≠ []) :
    joined separator (first :: rest) = first ++ separator ++ joined separator rest := by
  cases rest with
  | nil => exact absurd rfl present
  | cons next more => rfl

-- The parts of a text between its marks. A mark ends a part, and nothing else does.
structure Divided (mark : CodePoint) (text : Text) (parts : List Text) : Prop where
  present : parts ≠ []
  clean : ∀ part ∈ parts, mark ∉ part
  whole : joined [mark] parts = text

theorem pieces_divided (mark : CodePoint) (text : Text) : Divided mark text (pieces mark text) := by
  induction text using pieces_induction mark with
  | last text clean =>
    rw [pieces_clean clean]
    exact ⟨List.cons_ne_nil _ _, List.forall_mem_singleton.mpr clean, rfl⟩
  | cut before after clean ih =>
    rw [pieces_append, pieces_clean clean, List.singleton_append]
    refine ⟨List.cons_ne_nil _ _, List.forall_mem_cons.mpr ⟨clean, ih.clean⟩, ?_⟩
    rw [joined_cons _ _ ih.present, ih.whole, List.append_assoc, List.singleton_append]

theorem pieces_of_clean {mark : CodePoint} {parts : List Text} (present : parts ≠ [])
    (clean : ∀ part ∈ parts, mark ∉ part) : pieces mark (joined [mark] parts) = parts := by
  induction parts with
  | nil => exact absurd rfl present
  | cons part rest ih =>
    obtain ⟨here, later⟩ := List.forall_mem_cons.mp clean
    by_cases last : rest = []
    · rw [last]
      exact pieces_clean here
    · rw [joined_cons _ _ last, List.append_assoc, List.singleton_append, pieces_append,
        pieces_clean here, ih last later, List.singleton_append]

theorem divided_iff {mark : CodePoint} {text : Text} {parts : List Text} :
    Divided mark text parts ↔ parts = pieces mark text := by
  constructor
  · rintro ⟨present, clean, rfl⟩
    exact (pieces_of_clean present clean).symm
  · rintro rfl
    exact pieces_divided mark text

theorem joined_ended (mark : Text) {lines : List Text} (present : lines ≠ []) :
    joined mark lines ++ mark = lines.flatMap (· ++ mark) := by
  induction lines with
  | nil => exact absurd rfl present
  | cons line rest ih =>
    cases rest with
    | nil => simp [joined]
    | cons next more => simp [joined, ← ih (List.cons_ne_nil _ _)]

theorem joined_prefix (separator : Text) (lines : List Text) (last : Text) :
    joined separator lines <+: joined separator (lines ++ [last]) := by
  induction lines with
  | nil => exact List.nil_prefix
  | cons first rest ih =>
    cases rest with
    | nil => exact List.prefix_append_of_prefix (List.prefix_append _ _)
    | cons next more => exact (List.prefix_append_right_inj _).mpr ih

variable {test : CodePoint → Bool}

-- A text is what is left of it and a tail of marks.
theorem dropLastWhile_tail (test : CodePoint → Bool) (text : Text) :
    ∃ tail, text = text.dropLastWhile test ++ tail ∧ ∀ c ∈ tail, test c = true := by
  refine ⟨(text.reverse.takeWhile test).reverse, ?_, ?_⟩
  · rw [dropLastWhile, ← List.reverse_append, List.takeWhile_append_dropWhile, List.reverse_reverse]
  · intro c present
    have passed := List.all_eq_true.mp (List.all_takeWhile (p := test) (l := text.reverse))
    exact passed c (List.mem_reverse.mp present)

theorem dropLastWhile_concat (text : Text) (c : CodePoint) :
    (text ++ [c]).dropLastWhile test = if test c then text.dropLastWhile test else text ++ [c] := by
  rw [dropLastWhile, List.reverse_append, List.reverse_singleton, List.singleton_append,
    List.dropWhile_cons]
  split
  · rfl
  · rw [List.reverse_cons, List.reverse_reverse]

theorem dropLastWhile_cons {c : CodePoint} (kept : test c = false) (rest : Text) :
    ∃ more, dropLastWhile test (c :: rest) = c :: more := by
  obtain ⟨tail, shape, marks⟩ := dropLastWhile_tail test (c :: rest)
  cases body : dropLastWhile test (c :: rest) with
  | nil =>
    rw [body, List.nil_append] at shape
    rw [marks c (shape ▸ List.mem_cons_self)] at kept
    cases kept
  | cons first more =>
    rw [body, List.cons_append] at shape
    cases (List.cons.inj shape).1
    exact ⟨more, rfl⟩

theorem cutLast?_none {mark : CodePoint} {text : Text} (whole : cutLast? mark text = none) :
    mark ∉ text := by
  induction text with
  | nil => exact List.not_mem_nil
  | cons c rest ih =>
    rw [cutLast?] at whole
    cases tail : cutLast? mark rest with
    | some pair =>
      rw [tail] at whole
      cases whole
    | none =>
      rw [tail] at whole
      dsimp only at whole
      split at whole
      · cases whole
      · rename_i other
        exact List.not_mem_cons_of_ne_of_not_mem (Ne.symm other) (ih tail)

theorem cutLast?_some {mark : CodePoint} {text before after : Text}
    (cut : cutLast? mark text = some (before, after)) :
    text = before ++ mark :: after ∧ mark ∉ after := by
  induction text generalizing before with
  | nil => cases cut
  | cons c rest ih =>
    rw [cutLast?] at cut
    cases tail : cutLast? mark rest with
    | some pair =>
      rw [tail] at cut
      cases cut
      obtain ⟨shape, clean⟩ := ih tail
      exact ⟨congrArg (c :: ·) shape, clean⟩
    | none =>
      rw [tail] at cut
      dsimp only at cut
      split at cut
      · rename_i here
        cases cut
        exact ⟨congrArg (· :: after) here, cutLast?_none tail⟩
      · cases cut

-- What follows the last mark of a text, and all of a text without one.
def afterLast (mark : CodePoint) (text : Text) : Text := (text.reverse.takeWhile (· ≠ mark)).reverse

theorem notMem_afterLast (mark : CodePoint) (text : Text) : mark ∉ afterLast mark text := by
  intro present
  have passed := List.all_eq_true.mp (List.all_takeWhile (p := (· ≠ mark)) (l := text.reverse))
  exact of_decide_eq_true (passed mark (List.mem_reverse.mp present)) rfl

theorem afterLast_append_clean {mark : CodePoint} {after : Text} (clean : mark ∉ after)
    (before : Text) : afterLast mark (before ++ after) = afterLast mark before ++ after := by
  have passed : ∀ c ∈ after.reverse, decide (c ≠ mark) = true := by
    intro c present
    exact decide_eq_true fun same => clean (same ▸ List.mem_reverse.mp present)
  rw [afterLast, List.reverse_append, List.takeWhile_append_of_pos passed, List.reverse_append,
    List.reverse_reverse]
  rfl

theorem afterLast_clean {mark : CodePoint} {text : Text} (clean : mark ∉ text) :
    afterLast mark text = text :=
  afterLast_append_clean clean []

theorem afterLast_append_mark {mark : CodePoint} {after : Text} (clean : mark ∉ after)
    (before : Text) : afterLast mark (before ++ mark :: after) = after := by
  have marked : afterLast mark (before ++ [mark]) = [] := by
    rw [afterLast, List.reverse_append, List.reverse_singleton, List.singleton_append,
      List.takeWhile_cons_of_neg (by simp)]
    rfl
  rw [List.append_cons, afterLast_append_clean clean, marked]
  rfl

-- Of what stands in front of a text, only the part behind its last mark can count.
theorem afterLast_append (mark : CodePoint) (before after : Text) :
    afterLast mark (afterLast mark before ++ after) = afterLast mark (before ++ after) := by
  cases cut : cutLast? mark after with
  | none =>
    have clean := cutLast?_none cut
    rw [afterLast_append_clean clean, afterLast_append_clean clean,
      afterLast_clean (notMem_afterLast mark before)]
  | some pair =>
    obtain ⟨shape, clean⟩ := cutLast?_some cut
    rw [shape, ← List.append_assoc, ← List.append_assoc, afterLast_append_mark clean,
      afterLast_append_mark clean]

end Text

end LineShell
