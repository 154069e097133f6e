import LineShell.Proofs.Text.Words

namespace LineShell.Text

-- In the text with the delimiter behind it, the delimiter stands nowhere but at the end. It then
-- has no place further left, and none that only begins in the text.
def OnlyLast (delimiter before : Text) : Prop :=
  ∀ front behind, before ++ delimiter = front ++ delimiter ++ behind → behind = []

-- All that looking for the first place of a delimiter can come to.
inductive Cuts (delimiter text : Text) : Option (Text × Text) → Prop where
  | nowhere (absent : ¬ delimiter <:+: text) : Cuts delimiter text none
  | first {before after : Text} (shape : text = before ++ delimiter ++ after)
      (last : OnlyLast delimiter before) : Cuts delimiter text (some (before, after))

-- A cut, for as long as there is one: the answer of a failed cut leaves the whole text.
def part? (delimiter text : Text) : Option (Text × Text) :=
  if (cut delimiter text).2 = text then none else some (cut delimiter text)

variable {delimiter text before after rest : Text} {c : CodePoint}

theorem onlyLast_nil (delimiter : Text) : OnlyLast delimiter [] := by
  intro front behind same
  have lengths := congrArg List.length same
  simp only [List.nil_append, List.length_append] at lengths
  exact List.eq_nil_of_length_eq_zero (by omega)

theorem onlyLast_cons (other : ¬ delimiter <+: c :: before ++ delimiter)
    (last : OnlyLast delimiter before) : OnlyLast delimiter (c :: before) := by
  intro front behind same
  cases front with
  | nil => exact absurd ⟨behind, same.symm⟩ other
  | cons d front => exact last front behind (List.cons.inj same).2

theorem OnlyLast.absent (last : OnlyLast delimiter before) (present : delimiter ≠ []) :
    ¬ delimiter <:+: before := by
  intro within
  obtain ⟨front, behind, rfl⟩ := within
  have nothing := last front (behind ++ delimiter) (by simp only [List.append_assoc])
  exact present (List.append_eq_nil_iff.mp nothing).2

theorem cutFirst?_here (delimiter rest : Text) :
    cutFirst? delimiter (delimiter ++ rest) = some ([], rest) := by
  have here : delimiter.isPrefixOf (delimiter ++ rest) = true :=
    List.isPrefixOf_iff_prefix.mpr (List.prefix_append _ _)
  rw [cutFirst?.eq_def, if_pos here, List.drop_left]

theorem cutFirst?_nil (present : delimiter ≠ []) : cutFirst? delimiter [] = none := by
  have other : ¬ delimiter.isPrefixOf [] = true := by
    rwa [List.isPrefixOf_iff_prefix, List.prefix_nil]
  rw [cutFirst?, if_neg other]

theorem cutFirst?_cons (other : ¬ delimiter <+: c :: rest) :
    cutFirst? delimiter (c :: rest) =
      (cutFirst? delimiter rest).map fun parts => (c :: parts.1, parts.2) := by
  rw [← List.isPrefixOf_iff_prefix] at other
  rw [cutFirst?, if_neg other]
  cases cutFirst? delimiter rest <;> rfl

theorem cutFirst?_sound (delimiter text : Text) : Cuts delimiter text (cutFirst? delimiter text) := by
  induction text with
  | nil =>
    by_cases empty : delimiter = []
    · subst empty
      exact .first rfl (onlyLast_nil [])
    · rw [cutFirst?_nil empty]
      exact .nowhere (by simpa using empty)
  | cons c rest ih =>
    by_cases here : delimiter <+: c :: rest
    · obtain ⟨after, same⟩ := here
      rw [← same, cutFirst?_here]
      exact .first rfl (onlyLast_nil delimiter)
    · rw [cutFirst?_cons here]
      generalize cutFirst? delimiter rest = parts at ih ⊢
      cases ih with
      | nowhere absent => exact .nowhere (by simp [List.infix_cons_iff, here, absent])
      | @first before after shape last =>
        subst shape
        have other : ¬ delimiter <+: c :: before ++ delimiter := fun within =>
          here (within.trans (List.prefix_append _ after))
        exact .first rfl (onlyLast_cons other last)

theorem cut_found (occurs : delimiter <:+: text) : ∃ before after,
    cut delimiter text = (before, after) ∧ text = before ++ delimiter ++ after ∧
      OnlyLast delimiter before := by
  have cuts := cutFirst?_sound delimiter text
  rw [cut]
  generalize cutFirst? delimiter text = parts at cuts ⊢
  cases cuts with
  | nowhere absent => exact absurd occurs absent
  | @first before after shape last => exact ⟨before, after, rfl, shape, last⟩

theorem cut_absent (absent : ¬ delimiter <:+: text) : cut delimiter text = ([], text) := by
  have cuts := cutFirst?_sound delimiter text
  rw [cut]
  generalize cutFirst? delimiter text = parts at cuts ⊢
  cases cuts with
  | nowhere _ => rfl
  | first shape _ => exact absurd ⟨_, _, shape.symm⟩ absent

theorem after_shorter (present : delimiter ≠ []) (shape : text = before ++ delimiter ++ after) :
    after.length < text.length := by
  have lengths := congrArg List.length shape
  have positive := List.length_pos_iff.mpr present
  simp only [List.length_append] at lengths
  omega

theorem cut_leaves_all (present : delimiter ≠ []) :
    (cut delimiter text).2 = text ↔ ¬ delimiter <:+: text := by
  constructor
  · intro whole occurs
    obtain ⟨before, after, same, shape, -⟩ := cut_found occurs
    rw [same] at whole
    exact Nat.ne_of_lt (after_shorter present shape) (congrArg List.length whole)
  · intro absent
    rw [cut_absent absent]

theorem part?_sound (present : delimiter ≠ []) (text : Text) :
    Cuts delimiter text (part? delimiter text) := by
  have leaves : (cut delimiter text).2 = text ↔ ¬ delimiter <:+: text := cut_leaves_all present
  rw [part?]
  split
  · rename_i whole
    exact .nowhere (leaves.mp whole)
  · rename_i less
    rw [leaves, Classical.not_not] at less
    obtain ⟨before, after, same, shape, last⟩ := cut_found less
    exact same ▸ .first shape last

theorem parts_end (present : delimiter ≠ []) (text : Text) :
    ∃ pieces left, Drains (part? delimiter) text pieces left := by
  refine drains_ends (fun {text piece rest} taken => ?_) text
  have cuts := part?_sound present text
  rw [taken] at cuts
  cases cuts with
  | first shape _ => exact after_shorter present shape

theorem parts_joined (present : delimiter ≠ []) {pieces : List Text} {left : Text}
    (drains : Drains (part? delimiter) text pieces left) :
    joined delimiter (pieces ++ [left]) = text ∧
      ∀ piece ∈ pieces ++ [left], ¬ delimiter <:+: piece := by
  induction drains with
  | @done text nothing =>
    have cuts := part?_sound present text
    rw [nothing] at cuts
    cases cuts with
    | nowhere absent => exact ⟨rfl, by simpa using absent⟩
  | @next text piece rest left pieces taken _ ih =>
    have cuts := part?_sound present text
    rw [taken] at cuts
    obtain ⟨whole, absent⟩ := ih
    cases cuts with
    | first shape last =>
      refine ⟨?_, List.forall_mem_cons.mpr ⟨last.absent present, absent⟩⟩
      rw [List.cons_append, joined_cons _ _ (by simp), whole, shape]

-- A text is cut at the leftmost place of the delimiter, and not at all where it has none: what is
-- left tells which. Cutting what is left again and again comes to an end, with pieces and a rest
-- in which the delimiter does not occur and which joined by it are the text.
theorem cuts_exact (present : delimiter ≠ []) (text : Text) :
    (delimiter <:+: text → ∃ before after, cut delimiter text = (before, after) ∧
      text = before ++ delimiter ++ after ∧ OnlyLast delimiter before) ∧
    (¬ delimiter <:+: text → cut delimiter text = ([], text)) ∧
    ((cut delimiter text).2 = text ↔ ¬ delimiter <:+: text) ∧
    ∃ pieces left, Drains (part? delimiter) text pieces left ∧
      joined delimiter (pieces ++ [left]) = text ∧
      ∀ piece ∈ pieces ++ [left], ¬ delimiter <:+: piece := by
  obtain ⟨pieces, left, drains⟩ := parts_end present text
  exact ⟨cut_found, cut_absent, cut_leaves_all present, pieces, left, drains,
    parts_joined present drains⟩

-- A delimiter that overlaps itself: the place it is found at hides the next one.
theorem overlapping_places_cut :
    let delimiter : Text := "aba"
    let text : Text := "ababa-aba"
    delimiter ≠ [] ∧ cut delimiter text = ([], ofString "ba-aba") ∧
      Drains (part? delimiter) text [[], ofString "ba-"] [] ∧
      ∃ pieces left, Drains (part? delimiter) text pieces left ∧
        joined delimiter (pieces ++ [left]) = text ∧
        ∀ piece ∈ pieces ++ [left], ¬ delimiter <:+: piece := by
  intro delimiter text
  have present : delimiter ≠ [] := by decide
  have first : part? delimiter text = some ([], ofString "ba-aba") := by
    decide +kernel
  have second : part? delimiter (ofString "ba-aba") = some (ofString "ba-", []) := by
    decide +kernel
  exact ⟨present, by decide +kernel, .next first (.next second (.done (if_pos rfl))),
    (cuts_exact present text).2.2.2⟩

end LineShell.Text
