import LineShell.Proofs.Settings.Document.Scalars
import LineShell.Proofs.Settings.Document.Tokens
import LineShell.Proofs.Text.Basic

namespace LineShell.Document

-- How a word begins that can be a number.
def beginsNumber : Text → Bool
  | [] => false
  | c :: _ => (0x30 ≤ c.val && c.val ≤ 0x39) || c = .ofChar '-'

theorem ofInt_beginsNumber (n : Int) : beginsNumber (Text.ofInt n) = true := by
  cases n with
  | ofNat n =>
    obtain ⟨first, rest, digits, known⟩ := Text.ofNat_begins n
    simp [Text.ofInt, digits, beginsNumber, known]
  | negSucc n => simp [Text.ofInt, beginsNumber]

theorem notListed {words : List Text} {word : Text} (begins : beginsNumber word = true)
    (named : words.any beginsNumber = false) : words.contains word = false := by
  rw [List.contains_eq_mem, decide_eq_false_iff_not]
  intro among
  exact List.any_eq_false.mp named word among begins

theorem whole?_ofNat (n : Nat) : whole? (Text.ofNat n) = some n := by
  obtain rfl | positive := Nat.eq_zero_or_pos n
  · rfl
  obtain ⟨d, rest, nonzero, small, digits⟩ := Text.ofNat_head positive
  have first : ∀ d < 10, 0 < d → CodePoint.ofChar (Nat.digitChar d) ≠ .ofChar '0' ∧
      CodePoint.ofChar (Nat.digitChar d) ≠ .ofChar '_' := by decide
  obtain ⟨noZero, noLine⟩ := first d small nonzero
  have noColon : CodePoint.colon ∉ Text.ofNat n := by
    intro among
    exact absurd (Text.ofNat_digit among).2 (by decide)
  have bare : withoutUnderscores (Text.ofNat n) = Text.ofNat n := by
    refine List.filter_eq_self.mpr fun c among => ?_
    have high := (Text.ofNat_digit among).2
    simp only [decide_eq_true_eq, ne_eq]
    rintro rfl
    exact absurd high (by decide)
  have read := Text.numeral?_ofNat n
  have whole := Text.pieces_clean noColon
  rw [digits] at bare read whole ⊢
  simp only [whole?, noZero, noLine, whole, bare, read, if_false, List.mapM_nil]
  rfl

theorem int?_ofInt (n : Int) : int? (Text.ofInt n) = some n := by
  cases n with
  | ofNat n =>
    obtain ⟨first, rest, digits, known⟩ := Text.ofNat_begins n
    have noMinus : first ≠ .ofChar '-' := by rintro rfl; exact absurd known.1 (by decide)
    have noPlus : first ≠ .ofChar '+' := by rintro rfl; exact absurd known.1 (by decide)
    have read := whole?_ofNat n
    rw [Text.ofInt]
    rw [digits] at read ⊢
    simp [int?, noMinus, noPlus, read]
  | negSucc n =>
    simp [Text.ofInt, int?, whole?_ofNat, Int.negSucc_eq]

-- A number written out in decimal digits is read as that number.
theorem wordValue_ofInt (n : Int) : wordValue (Text.ofInt n) = .int n := by
  have begins := ofInt_beginsNumber n
  have noNull : nullWords.contains (Text.ofInt n) = false := notListed begins (by decide +kernel)
  have noTrue : trueWords.contains (Text.ofInt n) = false := notListed begins (by decide +kernel)
  have noFalse : falseWords.contains (Text.ofInt n) = false := notListed begins (by decide +kernel)
  simp only [wordValue, noNull, noTrue, noFalse, int?_ofInt]
  rfl

theorem bare_ofInt (n : Int) : Bare (Text.ofInt n) := by
  have letters : ∀ n, (Text.ofNat n).all isLetter = true := by
    intro n
    refine List.all_eq_true.mpr fun c among => ?_
    simp [isLetter, Text.ofNat_digit among]
  cases n with
  | ofNat n => exact .letters (Text.digits_ne_nil 10 n) (letters n)
  | negSucc n => exact .negative (Text.digits_ne_nil 10 (n + 1)) (letters (n + 1))

theorem Bare.ne_merge {word : Text} (bare : Bare word) : word ≠ mergeWord := by
  intro merge
  have angle : CodePoint.ofChar '<' ∈ word := by rw [merge]; decide
  exact absurd (bare.each angle) (by decide)

-- A key as a document can hold it: in quotes where it is a text, and else as the word for it.
def quoted (t : Text) : Text := .quoteMark :: (t.flatMap spelled ++ [.quoteMark])

def writeKey : Key → Text
  | .null => "null"
  | .bool b => if b then "true" else "false"
  | .int n => Text.ofInt n
  | .text t => quoted t

theorem writeKey_cases (key : Key) : (∃ t, key = .text t ∧ writeKey key = quoted t) ∨
    (Bare (writeKey key) ∧ wordValue (writeKey key) = key.value) := by
  cases key with
  | null => exact .inr ⟨.letters (by decide) (by decide), rfl⟩
  | bool b => cases b <;> exact .inr ⟨.letters (by decide) (by decide), rfl⟩
  | int n => exact .inr ⟨bare_ofInt n, wordValue_ofInt n⟩
  | text t => exact .inl ⟨t, rfl, rfl⟩

end LineShell.Document
