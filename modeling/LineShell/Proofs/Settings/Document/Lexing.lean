import LineShell.Proofs.Settings.Document.Words

namespace LineShell.Document

-- What the lexer reads does not depend on where it stands, as long as nothing is laid out
-- by columns.

theorem atMarker_other {spot : Spot} {rest : Remainder} (noDash : spot.point ≠ .ofChar '-')
    (noDot : spot.point ≠ .dot) : atMarker (spot :: rest) = false := by
  rcases rest with _ | ⟨_, _ | ⟨_, rest⟩⟩
  · rfl
  · rfl
  · simp [atMarker, noDash, noDot]

theorem skipBlank_visible {spot : Spot} {rest : Remainder} (low : 0x21 ≤ spot.point.val)
    (high : spot.point.val ≤ 0x7E) (noHash : spot.point ≠ .hash) :
    skipBlank false (spot :: rest) = (false, spot :: rest) := by
  obtain ⟨noGap, noBreak⟩ := visible_apart low high
  simp only [isGap, Bool.or_eq_false_iff, decide_eq_false_iff_not] at noGap
  simp [skipBlank, noBreak, noGap.1, noHash]

-- A word begins with a letter, or with a dash and a letter behind it.
theorem Bare.begins {spot : Spot} {word : Remainder} (bare : Bare ((spot :: word).map Spot.point)) :
    isLetter spot.point = true ∨ spot.point = .ofChar '-' ∧
      ∃ next more, word = next :: more ∧ isLetter next.point = true := by
  generalize whole : (spot :: word).map Spot.point = points at bare
  cases bare with
  | letters _ each =>
    subst whole
    exact .inl (List.all_eq_true.mp each _ List.mem_cons_self)
  | @negative letters given each =>
    obtain ⟨dash, rest⟩ := List.cons_eq_cons.mp whole
    obtain _ | ⟨next, more⟩ := word
    · exact absurd rest.symm given
    · subst rest
      exact .inr ⟨dash, next, more, rfl, List.all_eq_true.mp each _ List.mem_cons_self⟩

namespace Lexer

-- No block ends or begins here, and no key is called for.
structure Loose (lexer : Lexer) : Prop where
  blocks : lexer.inFlow = true ∨ lexer.columns = []
  free : lexer.candidate.any Candidate.required = false

def proposed (lexer : Lexer) (spot : Spot) : Lexer :=
  if lexer.mayKey then
    { lexer with candidate := some ⟨lexer.tokens.length, false, spot⟩ }
  else lexer

@[simp] theorem proposed_tokens (lexer : Lexer) (spot : Spot) :
    (lexer.proposed spot).tokens = lexer.tokens := by
  unfold proposed
  split_ifs <;> rfl

@[simp] theorem proposed_columns (lexer : Lexer) (spot : Spot) :
    (lexer.proposed spot).columns = lexer.columns := by
  unfold proposed
  split_ifs <;> rfl

@[simp] theorem proposed_outside (lexer : Lexer) (spot : Spot) :
    (lexer.proposed spot).outside = lexer.outside := by
  unfold proposed
  split_ifs <;> rfl

section
variable {lexer : Lexer} (loose : lexer.Loose)
include loose

theorem endBlocks_loose (column : Nat) : lexer.endBlocks column = lexer := by
  obtain ⟨tokens, columns, outside, candidate, mayKey⟩ := lexer
  rcases loose.blocks with inside | none
  · simp [endBlocks, inside]
  · obtain rfl : columns = [] := none
    simp [endBlocks]

theorem drop?_loose : lexer.drop? = some { lexer with candidate := none } := by
  simp [drop?, loose.free]

theorem propose?_loose (spot : Spot) : lexer.propose? spot = some (lexer.proposed spot) := by
  unfold propose? proposed
  rw [drop?_loose loose]
  split_ifs
  · rcases loose.blocks with inside | none
    · simp_all [inFlow]
    · simp [level, none]
  · rfl

theorem proposed_free (spot : Spot) : (lexer.proposed spot).candidate.any Candidate.required = false := by
  unfold proposed
  split_ifs
  · rfl
  · exact loose.free

end

-- From one state and rest the lexer comes to the others, whatever fuel is left to it.
def Reaches (lexer : Lexer) (rest : Remainder) (later : Lexer) (left : Remainder) : Prop :=
  ∀ fuel, rest.length < fuel →
    ∃ less, left.length < less ∧ lexer.tokens? fuel rest = later.tokens? less left

namespace Reaches

theorem trans {one two three : Lexer} {rest more left : Remainder} (first : Reaches one rest two more)
    (second : Reaches two more three left) : Reaches one rest three left := by
  intro fuel enough
  obtain ⟨less, enough, same⟩ := first fuel enough
  obtain ⟨least, enough, again⟩ := second less enough
  exact ⟨least, enough, same.trans again⟩

theorem space {lexer : Lexer} {spot : Spot} {rest : Remainder} (gap : spot.point = .space) :
    Reaches lexer (spot :: rest) lexer rest := by
  intro fuel enough
  obtain ⟨fuel, rfl⟩ : ∃ less, fuel = less + 1 := ⟨fuel - 1, by omega⟩
  refine ⟨fuel + 1, by simp at enough; omega, ?_⟩
  have noBreak : isBreak .space = false := by decide
  simp [tokens?, skipBlank, gap, noBreak]

-- One token is read, in front of which there is nothing to skip.
theorem token {lexer later : Lexer} {spot : Spot} {rest left : Remainder} (loose : lexer.Loose)
    (low : 0x21 ≤ spot.point.val) (high : spot.point.val ≤ 0x7E) (noHash : spot.point ≠ .hash)
    (shorter : left.length ≤ rest.length)
    (read : ∀ fuel, rest.length < fuel → lexer.token? fuel spot rest = some (later, left)) :
    Reaches lexer (spot :: rest) later left := by
  intro fuel enough
  simp only [List.length_cons] at enough
  obtain ⟨fuel, rfl⟩ : ∃ less, fuel = less + 1 := ⟨fuel - 1, by omega⟩
  refine ⟨fuel, by omega, ?_⟩
  rw [tokens?, skipBlank_visible low high noHash]
  dsimp only
  rw [if_neg Bool.false_ne_true, endBlocks_loose loose, read _ (by omega)]

end Reaches

section
variable {lexer : Lexer} (loose : lexer.Loose)
include loose

theorem token?_quoted {fuel : Nat} {spot : Spot} {rest after : Remainder} {t : Text}
    (marked : spot.point = .quoteMark) (read : readQuoted .quoteMark fuel rest = some (t, after)) :
    lexer.token? fuel spot rest =
      some ({ (lexer.proposed spot).emit (.scalar (.text t)) with mayKey := false }, after) := by
  have apart : atMarker (spot :: rest) = false :=
    atMarker_other (by rw [marked]; decide) (by rw [marked]; decide)
  unfold token?
  simp +decide only [apart, marked, read, propose?_loose loose]
  rfl

theorem token?_word {fuel : Nat} {spot : Spot} {word after : Remainder}
    (bare : Bare ((spot :: word).map Spot.point)) (stops : Stops lexer.inFlow after) :
    lexer.token? (fuel + 1) spot (word ++ after) =
      some ({ (lexer.proposed spot).emit (.scalar (wordValue ((spot :: word).map Spot.point))) with
        mayKey := false }, after) := by
  have scalar := PlainScalar.read_word lexer.level fuel bare stops
  rw [List.cons_append] at scalar
  have noMerge : ¬ spot.point :: word.map Spot.point = mergeWord := bare.ne_merge
  unfold token?
  rcases bare.begins with letter | ⟨dash, next, more, split, letter⟩
  · have other : ∀ mark, isLetter mark = false → spot.point ≠ mark := fun _ => isLetter_ne letter
    have apart : atMarker (spot :: (word ++ after)) = false := atMarker_other (other _ rfl) (other _ rfl)
    have begins : beginsPlain lexer.inFlow (spot :: (word ++ after)) = true := by
      obtain ⟨low, high⟩ := isLetter_visible letter
      obtain ⟨noGap, noBreak⟩ := visible_apart low high
      have noMark : spot.point ∉ reservedMarks := isLetter_not_mem letter (by decide)
      simp [beginsPlain, noGap, noBreak, noMark]
    simp [apart, other (.ofChar '[') rfl, other (.ofChar '\x7b') rfl, other (.ofChar ']') rfl,
      other (.ofChar '\x7d') rfl, other (.ofChar ',') rfl, other (.ofChar '-') rfl, other (.ofChar '?') rfl,
      other .colon rfl, other .apostrophe rfl, other .quoteMark rfl, begins, scalar, noMerge,
      propose?_loose loose]
  · have noMarker : atMarker (spot :: (word ++ after)) = false := by
      have other : next.point ≠ .ofChar '-' := isLetter_ne letter rfl
      rw [split]
      rcases h : more ++ after with _ | ⟨third, rest⟩
      · simp [atMarker, h]
      · simp [atMarker, h, dash, other]
    have together : endsMark (word ++ after) = false := by
      obtain ⟨low, high⟩ := isLetter_visible letter
      rw [split]
      simp [endsMark, visible_apart low high]
    have begins : beginsPlain lexer.inFlow (spot :: (word ++ after)) = true := by
      simp [beginsPlain, together, dash]
    rw [dash] at noMerge
    simp +decide [noMarker, dash, together, begins, scalar, noMerge, propose?_loose loose]

-- A key in quotes, or the word for it.
theorem reaches_key (key : Key) {body after : Remainder} (written : body.map Spot.point = writeKey key)
    (stops : Stops lexer.inFlow after) : ∃ spot, Reaches lexer (body ++ after)
      { (lexer.proposed spot).emit (.scalar key.value) with mayKey := false } after := by
  rcases writeKey_cases key with ⟨t, rfl, quotes⟩ | ⟨bare, word⟩
  · rw [quotes, quoted] at written
    obtain ⟨spot, inside, rfl, marked, written⟩ := List.map_eq_cons_iff.mp written
    obtain ⟨text, last, rfl, spells, written⟩ := List.map_eq_append_iff.mp written
    obtain ⟨closing, rfl, closes⟩ := List.map_eq_singleton_iff.mp written
    refine ⟨spot, ?_⟩
    rw [List.cons_append, List.append_assoc, List.singleton_append]
    refine Reaches.token loose (by rw [marked]; decide) (by rw [marked]; decide)
      (by rw [marked]; decide) (by simp; omega) fun fuel enough => ?_
    exact token?_quoted loose marked (readQuoted_spelled t fuel text after closing spells closes
      (by simp at enough; omega))
  · rw [← written] at bare word
    obtain _ | ⟨spot, letters⟩ := body
    · exact absurd rfl bare.ne_nil
    refine ⟨spot, ?_⟩
    have inside : isLetter spot.point = true ∨ spot.point = .ofChar '-' := bare.each List.mem_cons_self
    obtain ⟨low, high, noHash⟩ := inside_word inside
    rw [List.cons_append, ← word]
    refine Reaches.token loose low high noHash (by simp) fun fuel enough => ?_
    obtain ⟨fuel, rfl⟩ : ∃ less, fuel = less + 1 := ⟨fuel - 1, by omega⟩
    exact token?_word loose bare stops

-- A mark of one code point.
theorem reaches_mark {later : Lexer} {spot : Spot} {rest : Remainder} {mark : CodePoint}
    (marked : spot.point = mark)
    (kind : (0x21 ≤ mark.val ∧ mark.val ≤ 0x7E) ∧ mark ≠ .hash ∧ mark ≠ .ofChar '-' ∧ mark ≠ .dot)
    (read : ∀ fuel, atMarker (spot :: rest) = false → lexer.token? fuel spot rest = some (later, rest)) :
    Reaches lexer (spot :: rest) later rest := by
  subst marked
  obtain ⟨⟨low, high⟩, noHash, noDash, noDot⟩ := kind
  exact Reaches.token loose low high noHash (Nat.le_refl _) fun fuel _ =>
    read fuel (atMarker_other noDash noDot)

theorem reaches_open {spot : Spot} {token : Token} (rest : Remainder)
    (mark : spot.point = .ofChar '[' ∧ token = .openList ∨ spot.point = .ofChar '\x7b' ∧ token = .openMap) :
    Reaches lexer (spot :: rest) { (lexer.proposed spot).emit token with
      outside := (lexer.proposed spot).candidate :: (lexer.proposed spot).outside, candidate := none,
      mayKey := true } rest := by
  rcases mark with ⟨mark, rfl⟩ | ⟨mark, rfl⟩ <;>
  · refine reaches_mark loose mark (by decide) fun fuel apart => ?_
    simp +decide [token?, apart, mark, openFlow?, propose?_loose loose]

theorem reaches_close {spot : Spot} {token : Token} {candidate : Option Candidate}
    {outer : List (Option Candidate)} (rest : Remainder) (around : lexer.outside = candidate :: outer)
    (mark : spot.point = .ofChar ']' ∧ token = .closeList ∨ spot.point = .ofChar '\x7d' ∧ token = .closeMap) :
    Reaches lexer (spot :: rest)
      { lexer.emit token with outside := outer, candidate := candidate, mayKey := false } rest := by
  rcases mark with ⟨mark, rfl⟩ | ⟨mark, rfl⟩ <;>
  · refine reaches_mark loose mark (by decide) fun fuel apart => ?_
    simp +decide [token?, apart, mark, closeFlow?, drop?_loose loose, around, emit]

theorem reaches_comma {spot : Spot} (rest : Remainder) (mark : spot.point = .ofChar ',') :
    Reaches lexer (spot :: rest) { lexer.emit .comma with candidate := none, mayKey := true } rest := by
  refine reaches_mark loose mark (by decide) fun fuel apart => ?_
  simp +decide [token?, apart, mark, drop?_loose loose, emit]

theorem reaches_ask {spot : Spot} (rest : Remainder) (inside : lexer.inFlow = true)
    (mark : spot.point = .ofChar '?') :
    Reaches lexer (spot :: rest) { lexer.emit .key with candidate := none, mayKey := false } rest := by
  refine reaches_mark loose mark (by decide) fun fuel apart => ?_
  simp +decide [token?, apart, mark, beginPart?, inside, drop?_loose loose, emit]

theorem reaches_colon {spot : Spot} (rest : Remainder) (inside : lexer.inFlow = true)
    (none : lexer.candidate = none) (mark : spot.point = .colon) :
    Reaches lexer (spot :: rest) { lexer.emit .value with mayKey := false } rest := by
  refine reaches_mark loose mark (by decide) fun fuel apart => ?_
  simp +decide [token?, apart, mark, colon?, none, beginPart?, inside, drop?_loose loose, emit]

end

end Lexer

end LineShell.Document
