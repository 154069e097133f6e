import LineShell.Text.Numeral
import Mathlib.Data.List.Basic

namespace LineShell.Text

theorem digit?_digitChar {base d : Nat} (small : base ≤ 16) (below : d < base) :
    digit? base (.ofChar (Nat.digitChar d)) = some d := by
  have all : ∀ base ≤ 16, ∀ d < base, digit? base (.ofChar (Nat.digitChar d)) = some d := by decide
  exact all base small d below

theorem digit?_range {base d : Nat} {c : CodePoint} (digit : digit? base c = some d) :
    (0x30 ≤ c.val ∧ c.val ≤ 0x39) ∨ (0x41 ≤ c.val ∧ c.val ≤ 0x46) ∨ (0x61 ≤ c.val ∧ c.val ≤ 0x66) := by
  simp only [digit?, Bool.and_eq_true, decide_eq_true_eq] at digit
  split_ifs at digit <;> first | assumption | simp_all

-- The number that digits have. No digits at all have the number zero.
def Counts (base : Nat) (digits : Text) (n : Nat) : Prop :=
  ∃ values, digits.mapM (digit? base) = some values ∧
    values.foldl (fun n digit => n * base + digit) 0 = n

namespace Counts
variable {base n : Nat} {digits : Text} (counts : Counts base digits n)
include counts

theorem numeral (given : digits ≠ []) : numeral? base digits = some n := by
  obtain ⟨values, each, whole⟩ := counts
  obtain ⟨first, rest, rfl⟩ := List.exists_cons_of_ne_nil given
  simp only [numeral?, each, Option.map_some, whole]

theorem append {d : Nat} {c : CodePoint} (last : digit? base c = some d) :
    Counts base (digits ++ [c]) (n * base + d) := by
  obtain ⟨values, each, whole⟩ := counts
  refine ⟨values ++ [d], ?_, ?_⟩
  · rw [List.mapM_append, each]
    simp [last]
  · rw [List.foldl_append, whole]
    rfl

theorem digit {c : CodePoint} (among : c ∈ digits) : ∃ d, digit? base c = some d := by
  obtain ⟨values, each, -⟩ := counts
  induction digits generalizing values with
  | nil => exact absurd among List.not_mem_nil
  | cons first rest ih =>
    rw [List.mapM_cons] at each
    obtain ⟨d, one, later⟩ := Option.bind_eq_some_iff.mp each
    obtain ⟨others, rest, -⟩ := Option.bind_eq_some_iff.mp later
    rcases List.mem_cons.mp among with rfl | among
    · exact ⟨d, one⟩
    · exact ih among others rest

-- Zeros in front count for nothing.
theorem padded (zero : digit? base (.ofChar '0') = some 0) (width : Nat) :
    Counts base (List.replicate width (.ofChar '0') ++ digits) n := by
  induction width with
  | zero => exact counts
  | succ width ih =>
    obtain ⟨values, each, whole⟩ := ih
    refine ⟨0 :: values, ?_, ?_⟩
    · rw [List.replicate_succ, List.cons_append, List.mapM_cons, zero, each]
      rfl
    · rw [List.foldl_cons, Nat.zero_mul]
      exact whole

end Counts

theorem counts_digits {base : Nat} (two : 2 ≤ base) (small : base ≤ 16) (n : Nat) :
    Counts base ((Nat.toDigits base n).map .ofChar) n := by
  induction n using Nat.strongRecOn with
  | ind n ih =>
    by_cases below : n < base
    · have digit := digit?_digitChar small below
      rw [Nat.toDigits_of_lt_base below]
      simpa using Counts.append (⟨[], rfl, rfl⟩ : Counts base [] 0) digit
    · have less : n / base < n := Nat.div_lt_self (by omega) two
      have digit := digit?_digitChar small (Nat.mod_lt n (by omega))
      rw [Nat.toDigits_of_base_le two (by omega), List.map_append]
      have whole := (ih _ less).append digit
      rwa [Nat.mul_comm, Nat.div_add_mod] at whole

theorem digits_ne_nil (base n : Nat) : (Nat.toDigits base n).map CodePoint.ofChar ≠ [] := by
  intro none
  have long := @Nat.length_toDigits_pos base n
  rw [List.map_eq_nil_iff.mp none] at long
  exact Nat.lt_irrefl 0 long

theorem numeral?_ofNat (n : Nat) : numeral? 10 (ofNat n) = some n :=
  (counts_digits (by decide) (by decide) n).numeral (digits_ne_nil 10 n)

-- A number that is not zero begins with a digit that is not zero.
theorem ofNat_head {n : Nat} (positive : 0 < n) : ∃ d rest, 0 < d ∧ d < 10 ∧
    ofNat n = .ofChar (Nat.digitChar d) :: rest := by
  induction n using Nat.strongRecOn with
  | ind n ih =>
    by_cases below : n < 10
    · exact ⟨n, [], positive, below, by rw [ofNat, Nat.toDigits_of_lt_base below]; rfl⟩
    · obtain ⟨d, rest, nonzero, small, digits⟩ := ih (n / 10) (by omega) (by omega)
      refine ⟨d, rest ++ [.ofChar (Nat.digitChar (n % 10))], nonzero, small, ?_⟩
      rw [ofNat] at digits ⊢
      rw [Nat.toDigits_of_base_le (by decide) (by omega), List.map_append, digits]
      rfl

theorem ofNat_digit {n : Nat} {c : CodePoint} (among : c ∈ ofNat n) :
    0x30 ≤ c.val ∧ c.val ≤ 0x39 := by
  obtain ⟨digit, written, rfl⟩ := List.mem_map.mp among
  have known := Nat.isDigit_of_mem_toDigits (by decide) (by decide) written
  simp only [Char.isDigit, Bool.and_eq_true, decide_eq_true_eq, UInt32.le_iff_toNat_le] at known
  exact known

theorem ofNat_begins (n : Nat) : ∃ first rest, ofNat n = first :: rest ∧
    0x30 ≤ first.val ∧ first.val ≤ 0x39 := by
  obtain ⟨first, rest, digits⟩ := List.exists_cons_of_ne_nil (digits_ne_nil 10 n)
  have among : first ∈ ofNat n := by
    rw [ofNat, digits]
    exact List.mem_cons_self
  exact ⟨first, rest, digits, ofNat_digit among⟩

theorem hexadecimal_length {width n : Nat} (short : (Nat.toDigits 16 n).length ≤ width) :
    (hexadecimal width n).length = width := by
  simp only [hexadecimal, List.length_append, List.length_replicate, List.length_map]
  omega

theorem counts_hexadecimal (width n : Nat) : Counts 16 (hexadecimal width n) n :=
  (counts_digits (by decide) (by decide) n).padded rfl _

theorem numeral?_hexadecimal (width n : Nat) : numeral? 16 (hexadecimal width n) = some n :=
  (counts_hexadecimal width n).numeral (List.append_ne_nil_of_right_ne_nil _ (digits_ne_nil 16 n))

theorem hexadecimal_digit {width n : Nat} {c : CodePoint} (among : c ∈ hexadecimal width n) :
    0x30 ≤ c.val ∧ c.val ≤ 0x66 := by
  obtain ⟨d, digit⟩ := (counts_hexadecimal width n).digit among
  have range := digit?_range digit
  omega

end LineShell.Text
