import LineShell.Text.Utf8
import Mathlib.Data.List.TakeWhile

namespace LineShell

namespace CodePoint

-- The byte of a newline occurs in the form of no other code point, so a file can be
-- cut into lines before it is decoded.
theorem newline_mem_utf8 (c : CodePoint) : 0x0A ∈ c.utf8 ↔ c = .newline := by
  have bound := c.isLt
  have whole : c = .newline ↔ c.val = 0x0A := Fin.ext_iff
  rw [whole]
  unfold utf8
  dsimp only
  repeat' split
  all_goals
    simp only [List.mem_cons, List.not_mem_nil, or_false, ← UInt8.toNat_inj, UInt8.toNat_ofNat',
      UInt8.reduceToNat]
    omega

end CodePoint

namespace Bytes

theorem toNat_ofNat_byte {n : Nat} (small : n < 256) : (UInt8.ofNat n).toNat = n :=
  UInt8.toNat_ofNat_of_lt small

theorem toNat_continuation (n : Nat) : (UInt8.ofNat (0x80 + n % 64)).toNat = 0x80 + n % 64 :=
  toNat_ofNat_byte (by omega)

theorem isContinuation_ofNat (n : Nat) : isContinuation (.ofNat (0x80 + n % 64)) = true := by
  have byte := toNat_continuation n
  unfold isContinuation
  rw [byte, Bool.and_eq_true, decide_eq_true_iff, decide_eq_true_iff]
  exact ⟨by omega, by omega⟩

theorem payload_ofNat (n : Nat) : payload (.ofNat (0x80 + n % 64)) = n % 64 := by
  have byte := toNat_continuation n
  unfold payload
  omega

-- A code point is read back from its own bytes, whatever stands behind them. The cases
-- are the four lengths of the form.
theorem decode?_utf8_append (c : CodePoint) (plain : c.isSurrogate = false) (rest : Bytes) :
    decode? (c.utf8 ++ rest) = (decode? rest).map (c :: ·) := by
  obtain ⟨n, bound⟩ := c
  have outside : ¬ (0xD800 ≤ n ∧ n ≤ 0xDFFF) := by
    simpa [CodePoint.isSurrogate] using plain
  unfold CodePoint.utf8
  dsimp only
  split
  · rename_i one
    have lead : (UInt8.ofNat n).toNat = n := toNat_ofNat_byte (by omega)
    rw [List.singleton_append, decode?.eq_def]
    dsimp only
    rw [dif_pos (by rw [lead]; exact one)]
    simp only [lead]
  · split
    · rename_i long two
      have lead : (UInt8.ofNat (0xC0 + n / 64)).toNat = 0xC0 + n / 64 := toNat_ofNat_byte (by omega)
      have value : ofTwo (.ofNat (0xC0 + n / 64)) (.ofNat (0x80 + n % 64)) = n := by
        rw [ofTwo, payload_ofNat, lead]
        omega
      have tail := isContinuation_ofNat n
      rw [List.cons_append, List.singleton_append, decode?.eq_def]
      dsimp only
      rw [dif_neg (by omega), dif_pos ⟨by omega, by omega, tail, by omega, by omega⟩]
      simp only [value]
    · split
      · rename_i long longer three
        have lead : (UInt8.ofNat (0xE0 + n / 4096)).toNat = 0xE0 + n / 4096 :=
          toNat_ofNat_byte (by omega)
        have value : ofThree (.ofNat (0xE0 + n / 4096)) (.ofNat (0x80 + n / 64 % 64))
            (.ofNat (0x80 + n % 64)) = n := by
          rw [ofThree, payload_ofNat, payload_ofNat, lead]
          omega
        have second := isContinuation_ofNat (n / 64)
        have third := isContinuation_ofNat n
        rw [List.cons_append, List.cons_append, List.singleton_append, decode?.eq_def]
        dsimp only
        rw [dif_neg (by omega), dif_neg (by omega),
          dif_pos ⟨by omega, by omega, second, third, by omega, by omega, by omega⟩]
        simp only [value]
      · rename_i long longer longest
        have lead : (UInt8.ofNat (0xF0 + n / 262144)).toNat = 0xF0 + n / 262144 :=
          toNat_ofNat_byte (by omega)
        have value : ofFour (.ofNat (0xF0 + n / 262144)) (.ofNat (0x80 + n / 4096 % 64))
            (.ofNat (0x80 + n / 64 % 64)) (.ofNat (0x80 + n % 64)) = n := by
          rw [ofFour, payload_ofNat, payload_ofNat, payload_ofNat, lead]
          omega
        have second := isContinuation_ofNat (n / 4096)
        have third := isContinuation_ofNat (n / 64)
        have fourth := isContinuation_ofNat n
        rw [List.cons_append, List.cons_append, List.cons_append, List.singleton_append,
          decode?.eq_def]
        dsimp only
        rw [dif_neg (by omega), dif_neg (by omega), dif_neg (by omega),
          dif_pos ⟨by omega, second, third, fourth, by omega, by omega⟩]
        simp only [value]

theorem decode?_utf8 (text : Text) (encodable : text.Encodable) : decode? text.utf8 = some text := by
  induction text with
  | nil => rfl
  | cons c rest ih =>
    obtain ⟨plain, others⟩ := List.forall_mem_cons.mp encodable
    have joined : Text.utf8 (c :: rest) = c.utf8 ++ Text.utf8 rest := List.flatMap_cons
    rw [joined, decode?_utf8_append c plain, ih others]
    rfl

end Bytes

namespace Text

theorem utf8_append (one two : Text) : (one ++ two).utf8 = one.utf8 ++ two.utf8 :=
  List.flatMap_append

theorem newline_mem_utf8 (text : Text) : 0x0A ∈ text.utf8 ↔ .newline ∈ text := by
  simp only [utf8, List.mem_flatMap, CodePoint.newline_mem_utf8, exists_eq_right]

theorem utf8_eq_nil (text : Text) : text.utf8 = [] ↔ text = [] := by
  constructor
  · intro empty
    cases text with
    | nil => rfl
    | cons c rest =>
      have shape : c.utf8 ≠ [] := by
        unfold CodePoint.utf8
        dsimp only
        repeat' split
        all_goals exact List.cons_ne_nil _ _
      have joined : Text.utf8 (c :: rest) = c.utf8 ++ Text.utf8 rest := List.flatMap_cons
      rw [joined] at empty
      exact absurd (List.append_eq_nil_iff.mp empty).1 shape
  · rintro rfl
    rfl

theorem surrogateRun?_eq_none (text : Text) : text.surrogateRun? = none ↔ text.Encodable := by
  unfold surrogateRun?
  split
  · rename_i all
    simpa [Encodable] using List.dropWhile_eq_nil_iff.mp all
  · rename_i first rest found
    simp only [reduceCtorEq, false_iff]
    intro encodable
    have kept := List.dropWhile_eq_nil_iff.mpr
      (fun c (present : c ∈ text) => show (!c.isSurrogate) = true by simp [encodable c present])
    rw [kept] at found
    cases found

theorem encode_ok (text : Text) (encodable : text.Encodable) : text.encode = .ok text.utf8 := by
  rw [encode, (surrogateRun?_eq_none text).mpr encodable]

theorem encode_error {text : Text} {run : SurrogateRun} (fails : text.encode = .error run) :
    ¬ text.Encodable := by
  intro encodable
  rw [encode_ok text encodable] at fails
  cases fails

theorem encode_exact {text : Text} {content : Bytes} (encodes : text.encode = .ok content) :
    text.Encodable ∧ content = text.utf8 := by
  unfold encode at encodes
  split at encodes
  · cases encodes
  · rename_i none
    cases encodes
    exact ⟨(surrogateRun?_eq_none text).mp none, rfl⟩

end Text

end LineShell
