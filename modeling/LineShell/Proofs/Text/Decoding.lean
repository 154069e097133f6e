import LineShell.Proofs.Text.Utf8

namespace LineShell

namespace Bytes

theorem payload_lt {b : UInt8} (follows : isContinuation b = true) :
    0x80 ≤ b.toNat ∧ b.toNat = 0x80 + payload b ∧ payload b < 64 := by
  unfold isContinuation at follows
  rw [Bool.and_eq_true, decide_eq_true_iff, decide_eq_true_iff] at follows
  unfold payload
  omega

theorem ofNat_eq {n : Nat} (b : UInt8) (same : n = b.toNat) : UInt8.ofNat n = b := by
  rw [same, UInt8.ofNat_toNat]

-- The bytes that a code point was read from are its own form. One lemma for each length,
-- the bound of the length being what tells it from the shorter ones.
theorem utf8_one {a : UInt8} (small : a.toNat < 0x80) (bound : a.toNat < 0x110000) :
    CodePoint.utf8 ⟨a.toNat, bound⟩ = [a] := by
  unfold CodePoint.utf8
  dsimp only
  rw [if_pos small, UInt8.ofNat_toNat]

theorem utf8_two {a b : UInt8} (lead : 0xC0 ≤ a.toNat ∧ a.toNat < 0xE0)
    (second : isContinuation b = true) (low : 0x80 ≤ ofTwo a b) (bound : ofTwo a b < 0x110000) :
    CodePoint.utf8 ⟨ofTwo a b, bound⟩ = [a, b] := by
  obtain ⟨_, tail, small⟩ := payload_lt second
  have value : ofTwo a b = (a.toNat - 0xC0) * 64 + payload b := rfl
  unfold CodePoint.utf8
  dsimp only
  rw [if_neg (by omega), if_pos (by omega)]
  rw [ofNat_eq a (by omega), ofNat_eq b (by omega)]

theorem utf8_three {a b c : UInt8} (lead : 0xE0 ≤ a.toNat ∧ a.toNat < 0xF0)
    (second : isContinuation b = true) (third : isContinuation c = true)
    (low : 0x800 ≤ ofThree a b c) (bound : ofThree a b c < 0x110000) :
    CodePoint.utf8 ⟨ofThree a b c, bound⟩ = [a, b, c] := by
  obtain ⟨_, middle, narrow⟩ := payload_lt second
  obtain ⟨_, tail, small⟩ := payload_lt third
  have value : ofThree a b c = (a.toNat - 0xE0) * 4096 + payload b * 64 + payload c := rfl
  unfold CodePoint.utf8
  dsimp only
  rw [if_neg (by omega), if_neg (by omega), if_pos (by omega)]
  rw [ofNat_eq a (by omega), ofNat_eq b (by omega), ofNat_eq c (by omega)]

theorem utf8_four {a b c d : UInt8} (lead : 0xF0 ≤ a.toNat) (second : isContinuation b = true)
    (third : isContinuation c = true) (fourth : isContinuation d = true)
    (low : 0x10000 ≤ ofFour a b c d) (bound : ofFour a b c d < 0x110000) :
    CodePoint.utf8 ⟨ofFour a b c d, bound⟩ = [a, b, c, d] := by
  obtain ⟨_, front, narrow⟩ := payload_lt second
  obtain ⟨_, middle, slim⟩ := payload_lt third
  obtain ⟨_, tail, small⟩ := payload_lt fourth
  have value : ofFour a b c d =
      (a.toNat - 0xF0) * 262144 + payload b * 4096 + payload c * 64 + payload d := rfl
  unfold CodePoint.utf8
  dsimp only
  rw [if_neg (by omega), if_neg (by omega), if_neg (by omega)]
  rw [ofNat_eq a (by omega), ofNat_eq b (by omega), ofNat_eq c (by omega),
    ofNat_eq d (by omega)]

-- What decoding gives: a text without surrogates, and the bytes are its own form.
def Decodes (bytes : Bytes) (text : Text) : Prop := text.Encodable ∧ text.utf8 = bytes

theorem plain_of_outside {n : Nat} (bound : n < 0x110000) (apart : ¬ (0xD800 ≤ n ∧ n ≤ 0xDFFF)) :
    CodePoint.isSurrogate ⟨n, bound⟩ = false := by
  simpa [CodePoint.isSurrogate] using apart

theorem decodes_front {c : CodePoint} {form rest : Bytes} {text : Text}
    (plain : c.isSurrogate = false) (own : c.utf8 = form)
    (found : (decode? rest).map (c :: ·) = some text)
    (behind : ∀ {text}, decode? rest = some text → Decodes rest text) :
    Decodes (form ++ rest) text := by
  obtain ⟨tail, reads, rfl⟩ := Option.map_eq_some_iff.mp found
  obtain ⟨encodable, same⟩ := behind reads
  refine ⟨List.forall_mem_cons.mpr ⟨plain, encodable⟩, ?_⟩
  rw [Text.utf8, List.flatMap_cons, own]
  exact congrArg (form ++ ·) same

theorem decode?_sound {bytes : Bytes} {text : Text} (found : decode? bytes = some text) :
    Decodes bytes text := by
  induction bytes using decode?.induct generalizing text with
  | case1 =>
    cases found
    exact ⟨List.forall_mem_nil _, rfl⟩
  | case2 a rest small ih =>
    rw [decode?.eq_def] at found
    dsimp only at found
    rw [dif_pos small] at found
    have plain := plain_of_outside (Nat.lt_trans small (by decide)) (by omega)
    exact decodes_front plain (utf8_one small _) found ih
  | case3 a large =>
    rw [decode?.eq_def] at found
    dsimp only at found
    rw [dif_neg large] at found
    cases found
  | case4 a large b rest two ih =>
    rw [decode?.eq_def] at found
    dsimp only at found
    rw [dif_neg large, dif_pos two] at found
    obtain ⟨low, high, second, wide, bound⟩ := two
    have value : ofTwo a b = (a.toNat - 0xC0) * 64 + payload b := rfl
    have small := (payload_lt second).2.2
    have plain := plain_of_outside bound (by omega)
    exact decodes_front plain (utf8_two ⟨low, high⟩ second wide bound) found ih
  | case5 a large b other =>
    rw [decode?.eq_def] at found
    dsimp only at found
    rw [dif_neg large, dif_neg other] at found
    cases found
  | case6 a large b other c rest three ih =>
    rw [decode?.eq_def] at found
    dsimp only at found
    rw [dif_neg large, dif_neg other, dif_pos three] at found
    obtain ⟨low, high, second, third, wide, apart, bound⟩ := three
    have plain := plain_of_outside bound apart
    exact decodes_front plain (utf8_three ⟨low, high⟩ second third wide bound) found ih
  | case7 a large b other c another =>
    rw [decode?.eq_def] at found
    dsimp only at found
    rw [dif_neg large, dif_neg other, dif_neg another] at found
    cases found
  | case8 a large b other c another d rest four ih =>
    rw [decode?.eq_def] at found
    dsimp only at found
    rw [dif_neg large, dif_neg other, dif_neg another, dif_pos four] at found
    obtain ⟨low, second, third, fourth, wide, bound⟩ := four
    have plain := plain_of_outside bound (by omega)
    exact decodes_front plain (utf8_four low second third fourth wide bound) found ih
  | case9 a large b other c another d rest none =>
    rw [decode?.eq_def] at found
    dsimp only at found
    rw [dif_neg large, dif_neg other, dif_neg another, dif_neg none] at found
    cases found

-- Strict decoding reads a text's own form and nothing else.
theorem decode?_eq_some (bytes : Bytes) (text : Text) :
    decode? bytes = some text ↔ text.Encodable ∧ text.utf8 = bytes := by
  constructor
  · exact decode?_sound
  · rintro ⟨encodable, rfl⟩
    exact decode?_utf8 text encodable

end Bytes

namespace Text

-- A newline falls between two code points, never inside the bytes of one, so that what stands
-- before it and behind it are texts of their own.
theorem utf8_newline {text : Text} {before after : Bytes}
    (same : text.utf8 = before ++ 0x0A :: after) :
    ∃ front behind : Text, text = front ++ .newline :: behind ∧ front.utf8 = before ∧
      behind.utf8 = after := by
  induction text generalizing before with
  | nil => exact absurd same.symm (List.append_ne_nil_of_right_ne_nil _ (List.cons_ne_nil _ _))
  | cons c rest ih =>
    have whole : c.utf8 ++ Text.utf8 rest = before ++ 0x0A :: after := List.flatMap_cons.symm.trans same
    by_cases newline : c = .newline
    · subst newline
      cases before with
      | nil => exact ⟨[], rest, rfl, rfl, (List.cons.inj whole).2⟩
      | cons b more =>
        obtain ⟨rfl, tail⟩ := List.cons.inj whole
        obtain ⟨front, behind, rfl, rfl, rfl⟩ := ih tail
        exact ⟨.newline :: front, behind, rfl, rfl, rfl⟩
    · have free : 0x0A ∉ c.utf8 := fun inside => newline ((CodePoint.newline_mem_utf8 c).mp inside)
      obtain ⟨more, rfl, tail⟩ : ∃ more, before = c.utf8 ++ more ∧
          Text.utf8 rest = more ++ 0x0A :: after := by
        rcases List.append_eq_append_iff.mp whole with longer | ⟨more, shape, tail⟩
        · exact longer
        · cases more with
          | nil => exact ⟨[], by rw [shape, List.append_nil, List.append_nil], tail.symm⟩
          | cons b others =>
            obtain ⟨rfl, _⟩ := List.cons.inj tail
            exact absurd (shape ▸ List.mem_append_right _ List.mem_cons_self) free
      obtain ⟨front, behind, rfl, rfl, rfl⟩ := ih tail
      exact ⟨c :: front, behind, rfl, List.flatMap_cons, rfl⟩

end Text

namespace Bytes

-- Decoding is cut by a newline: each side is read on its own, and refused on its own.
theorem decode?_newline (before after : Bytes) : decode? (before ++ 0x0A :: after) =
    (decode? before).bind fun front =>
      (decode? after).map fun behind => front ++ .newline :: behind := by
  apply Option.ext
  intro text
  simp only [Option.bind_eq_some_iff, Option.map_eq_some_iff]
  constructor
  · intro found
    obtain ⟨encodable, same⟩ := decode?_sound found
    obtain ⟨front, behind, rfl, rfl, rfl⟩ := Text.utf8_newline same
    obtain ⟨inFront, rest⟩ := List.forall_mem_append.mp encodable
    obtain ⟨_, inBehind⟩ := List.forall_mem_cons.mp rest
    exact ⟨front, decode?_utf8 front inFront, behind, decode?_utf8 behind inBehind, rfl⟩
  · rintro ⟨front, reads, behind, readsBehind, rfl⟩
    obtain ⟨inFront, rfl⟩ := decode?_sound reads
    obtain ⟨inBehind, rfl⟩ := decode?_sound readsBehind
    have encodable : Text.Encodable (front ++ .newline :: behind) :=
      List.forall_mem_append.mpr ⟨inFront, List.forall_mem_cons.mpr ⟨rfl, inBehind⟩⟩
    exact (decode?_eq_some _ _).mpr ⟨encodable, Text.utf8_append front (.newline :: behind)⟩

end Bytes

end LineShell
