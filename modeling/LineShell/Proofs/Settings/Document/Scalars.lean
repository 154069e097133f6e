import LineShell.Proofs.Text.Numeral
import LineShell.Settings.Document.Token
import LineShell.Text.Inspect

namespace LineShell.Document

theorem visible_apart {c : CodePoint} (low : 0x21 ≤ c.val) (high : c.val ≤ 0x7E) :
    isGap c = false ∧ isBreak c = false := by
  constructor
  · simp only [isGap, Bool.or_eq_false_iff, decide_eq_false_iff_not]
    constructor <;> rintro rfl <;> revert low <;> decide
  · simp only [isBreak, lineBreak?]
    split_ifs with ends separates
    · rcases ends with rfl | rfl
      · exact absurd low (by decide)
      · exact absurd high (by decide)
    · rcases separates with rfl | rfl <;> exact absurd high (by decide)
    · rfl

-- A code point between quote marks: as it is where it is visible and nothing else, and by
-- its number otherwise.
def standsBare (c : CodePoint) : Bool :=
  0x21 ≤ c.val && c.val ≤ 0x7E && c ≠ .quoteMark && c ≠ .backslash

def spelled (c : CodePoint) : Text := if standsBare c then [c] else Text.numericEscape c

theorem spelled_cases (c : CodePoint) : (standsBare c = true ∧ spelled c = [c]) ∨
    ∃ mark width, escapeWidth? mark = some width ∧ (Nat.toDigits 16 c.val).length ≤ width ∧
      spelled c = .backslash :: mark :: Text.hexadecimal width c.val := by
  have low := c.isLt
  by_cases bare : standsBare c = true
  · exact .inl ⟨bare, if_pos bare⟩
  · refine .inr ?_
    rw [spelled, if_neg bare, Text.numericEscape]
    split_ifs with byte plane
    · exact ⟨.ofChar 'x', 2, rfl, (Nat.length_toDigits_le_iff (by decide) (by decide)).mpr byte, rfl⟩
    · exact ⟨.ofChar 'u', 4, rfl, (Nat.length_toDigits_le_iff (by decide) (by decide)).mpr plane, rfl⟩
    · exact ⟨.ofChar 'U', 8, rfl, (Nat.length_toDigits_le_iff (by decide) (by decide)).mpr (by omega), rfl⟩

theorem spelled_visible {c point : CodePoint} (among : c ∈ spelled point) :
    0x21 ≤ c.val ∧ c.val ≤ 0x7E := by
  rw [spelled] at among
  split_ifs at among with bare
  · obtain rfl := List.mem_singleton.mp among
    simp only [standsBare, Bool.and_eq_true, decide_eq_true_eq] at bare
    exact bare.1.1
  · have escape : ∀ mark : Text, (mark.all fun c => 0x21 ≤ c.val && c.val ≤ 0x7E) = true → ∀ width,
        c ∈ mark ++ Text.hexadecimal width point.val → 0x21 ≤ c.val ∧ c.val ≤ 0x7E := by
      intro mark visible width among
      rcases List.mem_append.mp among with among | among
      · simpa using List.all_eq_true.mp visible c among
      · have digit := Text.hexadecimal_digit among
        omega
    rw [Text.numericEscape] at among
    split_ifs at among
    · exact escape _ (by decide) _ among
    · exact escape _ (by decide) _ among
    · exact escape _ (by decide) _ among

theorem numbered?_hexadecimal (width : Nat) (c : CodePoint) :
    numbered? (Text.hexadecimal width c.val) = some c := by
  simp [numbered?, Text.numeral?_hexadecimal]

theorem readEscape_number {mark : CodePoint} {width : Nat} {c : CodePoint} {digits after : Remainder}
    {spot : Spot} (marked : spot.point = mark) (known : escapeWidth? mark = some width)
    (written : digits.map Spot.point = Text.hexadecimal width c.val)
    (short : (Nat.toDigits 16 c.val).length ≤ width) :
    readEscape (spot :: (digits ++ after)) = some ([c], after) := by
  have long : digits.length = width := by
    rw [← List.length_map (f := Spot.point), written, Text.hexadecimal_length short]
  rw [readEscape, marked, known]
  dsimp only
  rw [← long, List.take_left, List.drop_left, List.length_map, if_pos rfl, written,
    numbered?_hexadecimal]
  rfl

-- Every code point takes one step and is read as itself.
theorem readQuoted_spelled (t : Text) (fuel : Nat) (body after : Remainder) (closing : Spot)
    (written : body.map Spot.point = t.flatMap spelled) (closes : closing.point = .quoteMark)
    (enough : body.length < fuel) :
    readQuoted .quoteMark fuel (body ++ closing :: after) = some (t, after) := by
  induction t generalizing fuel body with
  | nil =>
    obtain rfl := List.map_eq_nil_iff.mp written
    obtain _ | fuel := fuel
    · exact absurd enough (Nat.not_lt_zero _)
    · have other : ¬ CodePoint.quoteMark = .apostrophe := by decide
      cases after <;> simp [readQuoted, closes, other]
  | cons c t ih =>
    obtain _ | fuel := fuel
    · exact absurd enough (Nat.not_lt_zero _)
    rw [List.flatMap_cons] at written
    obtain ⟨piece, body, rfl, first, later⟩ := List.map_eq_append_iff.mp written
    rw [List.append_assoc]
    rw [List.length_append] at enough
    obtain ⟨bare, alone⟩ | ⟨mark, width, known, short, escape⟩ := spelled_cases c
    · rw [alone] at first
      obtain ⟨spot, rfl, rfl⟩ := List.map_eq_singleton_iff.mp first
      simp only [standsBare, Bool.and_eq_true, decide_eq_true_eq] at bare
      obtain ⟨⟨⟨low, high⟩, noMark⟩, noEscape⟩ := bare
      obtain ⟨noGap, noBreak⟩ := visible_apart low high
      have rest := ih fuel body later (by simp at enough; omega)
      simp [readQuoted, noGap, noBreak, noMark, noEscape, rest]
    · rw [escape] at first
      obtain ⟨spot, more, rfl, slash, first⟩ := List.map_eq_cons_iff.mp first
      obtain ⟨markSpot, digits, rfl, marked, digit⟩ := List.map_eq_cons_iff.mp first
      have rest := ih fuel body later (by simp at enough; omega)
      have number : readEscape (markSpot :: (digits ++ (body ++ closing :: after))) =
          some ([c], body ++ closing :: after) := readEscape_number marked known digit short
      have noGap : isGap .backslash = false ∧ isBreak .backslash = false := visible_apart (by decide) (by decide)
      have noMark : ¬ CodePoint.backslash = .quoteMark := by decide
      simp [readQuoted, slash, noGap, noMark, number, rest]

-- Small letters and digits are no marks of a document.
def isLetter (c : CodePoint) : Bool :=
  (0x30 ≤ c.val && c.val ≤ 0x39) || (0x61 ≤ c.val && c.val ≤ 0x7A)

theorem isLetter_visible {c : CodePoint} (letter : isLetter c = true) :
    0x21 ≤ c.val ∧ c.val ≤ 0x7E := by
  simp only [isLetter, Bool.or_eq_true, Bool.and_eq_true, decide_eq_true_eq] at letter
  omega

theorem isLetter_ne {c mark : CodePoint} (letter : isLetter c = true) (other : isLetter mark = false) :
    c ≠ mark := by
  rintro rfl
  rw [letter] at other
  exact absurd other (by decide)

theorem isLetter_not_mem {c : CodePoint} {marks : Text} (letter : isLetter c = true)
    (others : marks.any isLetter = false) : c ∉ marks :=
  fun among => isLetter_ne letter (by simpa using List.any_eq_false.mp others c among) rfl

-- Words that are read as they stand: letters, with a dash in front at most.
inductive Bare : Text → Prop where
  | letters {word : Text} (given : word ≠ []) (each : word.all isLetter = true) : Bare word
  | negative {word : Text} (given : word ≠ []) (each : word.all isLetter = true) :
      Bare (.ofChar '-' :: word)

theorem Bare.each {word : Text} (bare : Bare word) {c : CodePoint} (among : c ∈ word) :
    isLetter c = true ∨ c = .ofChar '-' := by
  cases bare with
  | letters _ each => exact .inl (List.all_eq_true.mp each c among)
  | negative _ each =>
    rcases List.mem_cons.mp among with rfl | among
    · exact .inr rfl
    · exact .inl (List.all_eq_true.mp each c among)

theorem Bare.ne_nil {word : Text} (bare : Bare word) : word ≠ [] := by
  cases bare with
  | letters given _ => exact given
  | negative _ _ => exact List.cons_ne_nil _ _

-- What stands inside a word is visible, and no mark begins with it.
theorem inside_word {c : CodePoint} (inside : isLetter c = true ∨ c = .ofChar '-') :
    0x21 ≤ c.val ∧ c.val ≤ 0x7E ∧ c ≠ .hash := by
  rcases inside with letter | rfl
  · exact ⟨(isLetter_visible letter).1, (isLetter_visible letter).2, isLetter_ne letter rfl⟩
  · decide

-- What may follow a word: a mark that ends it, and no gap in front of that.
def Stops (inFlow : Bool) (after : Remainder) : Prop :=
  endsWord inFlow after = true ∧ ∀ spot ∈ after.head?, isGap spot.point = false ∧ isBreak spot.point = false

theorem stops_nil (inFlow : Bool) : Stops inFlow [] := ⟨rfl, by simp⟩

theorem endsWord_word {inFlow : Bool} {spot : Spot} {rest : Remainder}
    (inside : isLetter spot.point = true ∨ spot.point = .ofChar '-') :
    endsWord inFlow (spot :: rest) = false := by
  rcases inside with letter | dash
  · obtain ⟨low, high⟩ := isLetter_visible letter
    obtain ⟨noGap, noBreak⟩ := visible_apart low high
    have noColon : spot.point ≠ .colon := isLetter_ne letter (by decide)
    have noMark : spot.point ∉ flowMarks := isLetter_not_mem letter (by decide)
    have noAsk : spot.point ≠ .ofChar '?' := isLetter_ne letter (by decide)
    simp [endsWord, noGap, noBreak, noColon, noMark, noAsk]
  · have noGap : isGap (.ofChar '-') = false ∧ isBreak (.ofChar '-') = false :=
      visible_apart (by decide) (by decide)
    have noColon : (CodePoint.ofChar '-') ≠ .colon := by decide
    have noMark : (CodePoint.ofChar '-') ∉ flowMarks := by decide
    have noAsk : (CodePoint.ofChar '-') ≠ .ofChar '?' := by decide
    simp [endsWord, dash, noGap, noColon, noMark, noAsk]

theorem takeWord_word {inFlow : Bool} {after : Remainder} (stops : endsWord inFlow after = true)
    (word : Remainder) (each : ∀ c ∈ word.map Spot.point, isLetter c = true ∨ c = .ofChar '-') :
    takeWord inFlow (word ++ after) = (word.map Spot.point, after) := by
  induction word with
  | nil =>
    cases after with
    | nil => rfl
    | cons spot after => simp [takeWord, stops]
  | cons spot word ih =>
    rw [List.map_cons] at each
    obtain ⟨first, later⟩ := List.forall_mem_cons.mp each
    simp [takeWord, endsWord_word first, ih later]

theorem WordGap.read_stop {inFlow : Bool} {after : Remainder} (stops : Stops inFlow after) :
    WordGap.read after = ⟨[], false, after⟩ := by
  cases after with
  | nil => rfl
  | cons spot after =>
    obtain ⟨noGap, noBreak⟩ := stops.2 spot rfl
    simp only [isGap, Bool.or_eq_false_iff, decide_eq_false_iff_not] at noGap
    have noLine : lineBreak? spot.point = none := by simpa [isBreak] using noBreak
    simp [WordGap.read, noGap.1, noLine]

theorem PlainScalar.read_word {inFlow : Bool} (least fuel : Nat) {word after : Remainder}
    (bare : Bare (word.map Spot.point)) (stops : Stops inFlow after) :
    PlainScalar.read inFlow least (fuel + 1) (word ++ after) = ⟨word.map Spot.point, false, after⟩ := by
  simp [PlainScalar.read, takeWord_word stops.1 word (fun _ => bare.each), WordGap.read_stop stops,
    WordGap.goesOn]

end LineShell.Document
