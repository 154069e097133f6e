import LineShell.Text.Basic

namespace LineShell.Text

-- Texts are ordered by their first differing code point, a proper beginning first.
theorem lt_trans {a b c : Text} (one : a < b) (two : b < c) : a < c := List.lt_trans one two

theorem lt_irrefl (a : Text) : ¬ a < a := List.lt_irrefl a

theorem ne_of_lt {a b : Text} (less : a < b) : a ≠ b := by
  rintro rfl
  exact lt_irrefl a less

theorem lt_asymm {a b : Text} (less : a < b) : ¬ b < a := fun more => lt_irrefl a (lt_trans less more)

theorem lt_of_not_lt_of_ne {a b : Text} (notLess : ¬ a < b) (differ : a ≠ b) : b < a := by
  by_cases more : b < a
  · exact more
  · exact absurd (List.le_antisymm (List.not_lt.mp more) (List.not_lt.mp notLess)) differ

-- The texts in ascending order, repetitions kept.
def sorted (texts : List Text) : List Text := texts.mergeSort fun a b => !decide (b < a)

end LineShell.Text
