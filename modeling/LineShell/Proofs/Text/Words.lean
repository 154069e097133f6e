import LineShell.Text.Words
import LineShell.Proofs.Text.Basic

namespace LineShell.Text

-- A loop that takes pieces off a text for as long as there is one to take: the pieces in
-- their order, and what was left. A loop without an end is related to nothing.
inductive Drains (take? : Text → Option (Text × Text)) : Text → List Text → Text → Prop where
  | done {text : Text} (nothing : take? text = none) : Drains take? text [] text
  | next {text piece rest left : Text} {pieces : List Text}
      (taken : take? text = some (piece, rest)) (later : Drains take? rest pieces left) :
      Drains take? text (piece :: pieces) left

theorem drains_ends {take? : Text → Option (Text × Text)}
    (shorter : ∀ {text piece rest}, take? text = some (piece, rest) → rest.length < text.length)
    (text : Text) : ∃ pieces left, Drains take? text pieces left := by
  cases answer : take? text with
  | none => exact ⟨[], text, .done answer⟩
  | some taken =>
    obtain ⟨piece, rest⟩ := taken
    obtain ⟨pieces, left, later⟩ := drains_ends shorter rest
    exact ⟨piece :: pieces, left, .next answer later⟩
termination_by text.length
decreasing_by exact shorter answer

structure IsWord (delimiters word : Text) : Prop where
  present : word ≠ []
  clean : ∀ c ∈ word, c ∉ delimiters

-- What may stand behind a word: nothing, or a delimiter and more.
def Breaks (delimiters rest : Text) : Prop := ∀ c ∈ rest.head?, c ∈ delimiters

-- The two shapes of a text: delimiters alone, or a gap, a word and what breaks it off.
inductive Shape (delimiters : Text) : Text → Prop where
  | gap {gap : Text} (skipped : gap ⊆ delimiters) : Shape delimiters gap
  | word {gap word rest : Text} (skipped : gap ⊆ delimiters) (isWord : IsWord delimiters word)
      (breaks : Breaks delimiters rest) : Shape delimiters (gap ++ word ++ rest)

section

variable {delimiters gap word rest text : Text}

theorem breaks_append (first : Breaks delimiters rest) (behind : Breaks delimiters text) :
    Breaks delimiters (rest ++ text) := by
  cases rest with
  | nil => exact behind
  | cons c more => exact first

theorem IsWord.not_breaks (isWord : IsWord delimiters word) (rest : Text) :
    ¬ Breaks delimiters (word ++ rest) := by
  obtain ⟨c, more, rfl⟩ := List.exists_cons_of_ne_nil isWord.present
  exact fun breaks => isWord.clean c List.mem_cons_self (breaks c rfl)

theorem gap_parted (skipped : gap ⊆ delimiters) (kept : ∀ c ∈ rest.head?, c ∉ delimiters) :
    (gap ++ rest).dropWhile delimiters.contains = rest :=
  (parted_at (fun _ present => List.contains_iff_mem.mpr (skipped present)) (by simpa using kept)).2

theorem nextWord?_gap (skipped : gap ⊆ delimiters) : nextWord? delimiters gap = none := by
  have body : (gap ++ []).dropWhile delimiters.contains = [] := gap_parted skipped (by simp)
  rw [List.append_nil] at body
  rw [nextWord?, body]
  rfl

theorem nextWord?_word (skipped : gap ⊆ delimiters) (isWord : IsWord delimiters word)
    (breaks : Breaks delimiters rest) :
    nextWord? delimiters (gap ++ word ++ rest) = some (word, rest) := by
  have body : (gap ++ (word ++ rest)).dropWhile delimiters.contains = word ++ rest := by
    obtain ⟨c, more, rfl⟩ := List.exists_cons_of_ne_nil isWord.present
    have kept := isWord.clean c List.mem_cons_self
    exact gap_parted skipped (by simpa using kept)
  obtain ⟨read, left⟩ : (word ++ rest).takeWhile (!delimiters.contains ·) = word ∧
      (word ++ rest).dropWhile (!delimiters.contains ·) = rest :=
    parted_at (by simpa using isWord.clean) (by simpa [Breaks] using breaks)
  rw [nextWord?, List.append_assoc, body, read, left]
  exact if_neg isWord.present

theorem shaped (delimiters text : Text) : Shape delimiters text := by
  obtain ⟨gap, body, rfl, passed, kept⟩ := parted delimiters.contains text
  obtain ⟨word, rest, rfl, clean, fails⟩ := parted (!delimiters.contains ·) body
  have skipped : gap ⊆ delimiters := fun c present => List.contains_iff_mem.mp (passed c present)
  have breaks : Breaks delimiters rest := by simpa [Breaks] using fails
  rw [← List.append_assoc]
  by_cases present : word = []
  · subst present
    cases rest with
    | nil => exact .gap (by simpa using skipped)
    | cons c more =>
      have here : c ∈ delimiters := breaks c rfl
      simp [here] at kept
  · exact .word skipped ⟨present, by simpa using clean⟩ breaks

theorem nextWord?_eq_none : nextWord? delimiters text = none ↔ text ⊆ delimiters := by
  constructor
  · intro nothing
    cases shaped delimiters text with
    | gap skipped => exact skipped
    | word skipped isWord breaks =>
      rw [nextWord?_word skipped isWord breaks] at nothing
      cases nothing
  · exact nextWord?_gap

theorem nextWord?_eq_some : nextWord? delimiters text = some (word, rest) ↔
    ∃ gap, text = gap ++ word ++ rest ∧ gap ⊆ delimiters ∧ IsWord delimiters word ∧
      Breaks delimiters rest := by
  constructor
  · intro found
    cases shaped delimiters text with
    | gap skipped =>
      rw [nextWord?_gap skipped] at found
      cases found
    | word skipped isWord breaks =>
      rw [nextWord?_word skipped isWord breaks] at found
      cases found
      exact ⟨_, rfl, skipped, isWord, breaks⟩
  · intro parts
    obtain ⟨gap, rfl, skipped, isWord, breaks⟩ := parts
    exact nextWord?_word skipped isWord breaks

-- A text with its first word: delimiters, the word, and what begins with a delimiter if with anything.
structure Worded (delimiters text gap word rest : Text) : Prop where
  shape : text = gap ++ word ++ rest
  skipped : gap ⊆ delimiters
  isWord : IsWord delimiters word
  breaks : Breaks delimiters rest

-- There is a first word unless the text is delimiters alone, and then in one place only. What
-- follows it is shorter than the text, and the delimiters in front of it make no difference.
theorem first_word_exact (delimiters text : Text) :
    (nextWord? delimiters text = none ↔ ∀ c ∈ text, c ∈ delimiters) ∧
    ((∃ c ∈ text, c ∉ delimiters) → ∃ gap word rest,
      nextWord? delimiters text = some (word, rest) ∧ Worded delimiters text gap word rest ∧
      (∀ front other behind, Worded delimiters text front other behind →
        front = gap ∧ other = word ∧ behind = rest) ∧
      rest.length < text.length ∧ nextWord? delimiters (word ++ rest) = some (word, rest)) := by
  refine ⟨nextWord?_eq_none, ?_⟩
  intro another
  obtain ⟨c, present, kept⟩ := another
  cases answer : nextWord? delimiters text with
  | none => exact absurd (nextWord?_eq_none.mp answer present) kept
  | some parts =>
    obtain ⟨word, rest⟩ := parts
    obtain ⟨gap, shape, skipped, isWord, breaks⟩ := nextWord?_eq_some.mp answer
    refine ⟨gap, word, rest, rfl, ⟨shape, skipped, isWord, breaks⟩, ?_, nextWord?_shorter answer,
      nextWord?_word (List.nil_subset _) isWord breaks⟩
    intro front other behind worded
    have again := nextWord?_word worded.skipped worded.isWord worded.breaks
    rw [← worded.shape, answer] at again
    obtain ⟨rfl, rfl⟩ := Prod.mk.inj (Option.some.inj again)
    have same := shape.symm.trans worded.shape
    rw [List.append_assoc, List.append_assoc, List.append_left_inj] at same
    exact ⟨same.symm, rfl, rfl⟩

-- Delimiters on both sides of the word and inside what follows it. Without delimiters the whole
-- text is the word.
theorem padded_word_first :
    let text : Text := " ,key=a b"
    (∃ c ∈ text, c ∉ wordDelimiters) ∧ (∃ c ∈ text, c ∉ ([] : Text)) ∧
      (∃ gap, Worded wordDelimiters text gap (ofString "key") (ofString "=a b")) ∧
      nextWord? wordDelimiters (ofString "key" ++ ofString "=a b") =
        some (ofString "key", ofString "=a b") ∧
      ∃ gap, Worded [] text gap text [] := by
  intro text
  have kept : ∃ c ∈ text, c ∉ wordDelimiters := ⟨CodePoint.ofChar 'k', by decide, by decide⟩
  have any : ∃ c ∈ text, c ∉ ([] : Text) := ⟨.space, by decide, by decide⟩
  have found : nextWord? wordDelimiters text = some (ofString "key", ofString "=a b") := by
    decide +kernel
  have all : nextWord? [] text = some (text, []) := by decide +kernel
  obtain ⟨gap, word, rest, answer, worded, -, -, again⟩ := (first_word_exact wordDelimiters text).2 kept
  cases found.symm.trans answer
  obtain ⟨front, word, rest, undivided, alone, -⟩ := (first_word_exact [] text).2 any
  cases all.symm.trans undivided
  exact ⟨kept, any, ⟨gap, worded⟩, again, front, alone⟩

theorem words_gap (skipped : gap ⊆ delimiters) : words delimiters gap = [] := by
  rw [words, nextWord?_gap skipped]

theorem words_word (skipped : gap ⊆ delimiters) (isWord : IsWord delimiters word)
    (breaks : Breaks delimiters rest) :
    words delimiters (gap ++ word ++ rest) = word :: words delimiters rest := by
  rw [words, nextWord?_word skipped isWord breaks]

-- Induction over the words of a text, from the last gap backwards.
@[elab_as_elim]
theorem words_induction (delimiters : Text) {motive : Text → Prop} (text : Text)
    (gap : ∀ gap, gap ⊆ delimiters → motive gap)
    (word : ∀ gap word rest, gap ⊆ delimiters → IsWord delimiters word → Breaks delimiters rest →
      motive rest → motive (gap ++ word ++ rest)) : motive text := by
  cases shaped delimiters text with
  | gap skipped => exact gap _ skipped
  | @word _ _ rest skipped isWord breaks =>
    have shorter := nextWord?_shorter (nextWord?_word skipped isWord breaks)
    exact word _ _ rest skipped isWord breaks (words_induction delimiters rest gap word)
termination_by text.length
decreasing_by exact shorter

theorem drained_words {found : List Text} {left : Text}
    (drains : Drains (nextWord? delimiters) text found left) : found = words delimiters text := by
  induction drains with
  | done nothing => exact (words_gap (nextWord?_eq_none.mp nothing)).symm
  | next taken _ ih =>
    obtain ⟨gap, rfl, skipped, isWord, breaks⟩ := nextWord?_eq_some.mp taken
    rw [words_word skipped isWord breaks, ih]

theorem words_drain (delimiters text : Text) :
    ∃ left, Drains (nextWord? delimiters) text (words delimiters text) left := by
  obtain ⟨found, left, drains⟩ := drains_ends nextWord?_shorter text
  exact ⟨left, drained_words drains ▸ drains⟩

theorem words_isWord (among : word ∈ words delimiters text) : IsWord delimiters word := by
  induction text using words_induction delimiters with
  | gap gap skipped =>
    rw [words_gap skipped] at among
    cases among
  | word gap first rest skipped isWord breaks ih =>
    rw [words_word skipped isWord breaks] at among
    rcases List.mem_cons.mp among with rfl | later
    · exact isWord
    · exact ih later

-- The words hold all of the text that is no delimiter, in order.
theorem words_flatten (delimiters text : Text) :
    (words delimiters text).flatten = text.filter (!delimiters.contains ·) := by
  have gone : ∀ {gap : Text}, gap ⊆ delimiters → gap.filter (!delimiters.contains ·) = [] := by
    intro gap skipped
    exact List.filter_eq_nil_iff.mpr fun c present => by simpa using skipped present
  induction text using words_induction delimiters with
  | gap gap skipped => rw [words_gap skipped, gone skipped, List.flatten_nil]
  | word gap word rest skipped isWord breaks ih =>
    have kept : word.filter (!delimiters.contains ·) = word :=
      List.filter_eq_self.mpr (by simpa using isWord.clean)
    rw [words_word skipped isWord breaks, List.flatten_cons, ih, List.filter_append,
      List.filter_append, gone skipped, kept, List.nil_append]

end

-- A text laid out as a first gap, and words each with the gap behind it.
structure Spacing where
  front : Text
  rest : List (Text × Text)

namespace Spacing

def text (spacing : Spacing) : Text :=
  spacing.front ++ spacing.rest.flatMap fun pair => pair.1 ++ pair.2

def words (spacing : Spacing) : List Text := spacing.rest.map (·.1)

-- Gaps are made of delimiters, and only the first and the last one may be empty.
structure Proper (delimiters : Text) (spacing : Spacing) : Prop where
  front : spacing.front ⊆ delimiters
  words : ∀ pair ∈ spacing.rest, IsWord delimiters pair.1
  gaps : ∀ pair ∈ spacing.rest, pair.2 ⊆ delimiters
  between : ∀ pair ∈ spacing.rest.dropLast, pair.2 ≠ []

variable {delimiters front word gap : Text} {more : List (Text × Text)}

theorem text_cons (front word gap : Text) (more : List (Text × Text)) :
    text ⟨front, (word, gap) :: more⟩ = front ++ word ++ text ⟨gap, more⟩ := by
  simp [text]

-- A gap in front of more words may not be empty, as the word before them would go on.
theorem breaks_iff (skipped : gap ⊆ delimiters) (words : ∀ pair ∈ more, IsWord delimiters pair.1) :
    Breaks delimiters (text ⟨gap, more⟩) ↔ (more ≠ [] → gap ≠ []) := by
  cases gap with
  | cons c gap =>
    have first : c ∈ delimiters := skipped List.mem_cons_self
    simpa [text, Breaks] using first
  | nil =>
    cases more with
    | nil => simp [text, Breaks]
    | cons pair more =>
      obtain ⟨word, gap⟩ := pair
      have isWord : IsWord delimiters word := words _ List.mem_cons_self
      simpa [text_cons] using isWord.not_breaks (text ⟨gap, more⟩)

theorem proper_cons : Proper delimiters ⟨front, (word, gap) :: more⟩ ↔
    front ⊆ delimiters ∧ IsWord delimiters word ∧ Breaks delimiters (text ⟨gap, more⟩) ∧
      Proper delimiters ⟨gap, more⟩ := by
  have last : (∀ pair ∈ ((word, gap) :: more).dropLast, pair.2 ≠ []) ↔
      (more ≠ [] → gap ≠ []) ∧ ∀ pair ∈ more.dropLast, pair.2 ≠ [] := by
    cases more <;> simp
  constructor
  · intro proper
    obtain ⟨isWord, words⟩ := List.forall_mem_cons.mp proper.words
    obtain ⟨skipped, gaps⟩ := List.forall_mem_cons.mp proper.gaps
    obtain ⟨present, between⟩ := last.mp proper.between
    exact ⟨proper.front, isWord, (breaks_iff skipped words).mpr present, skipped, words, gaps, between⟩
  · intro parts
    obtain ⟨front, isWord, breaks, proper⟩ := parts
    have present := (breaks_iff proper.front proper.words).mp breaks
    exact ⟨front, List.forall_mem_cons.mpr ⟨isWord, proper.words⟩,
      List.forall_mem_cons.mpr ⟨proper.front, proper.gaps⟩, last.mpr ⟨present, proper.between⟩⟩

theorem words_text {spacing : Spacing} (proper : spacing.Proper delimiters) :
    Text.words delimiters spacing.text = spacing.words := by
  obtain ⟨front, rest⟩ := spacing
  induction rest generalizing front with
  | nil => exact words_gap (by simpa [text] using proper.front)
  | cons pair more ih =>
    obtain ⟨skipped, isWord, breaks, proper⟩ := proper_cons.mp proper
    rw [text_cons, words_word skipped isWord breaks, ih _ proper]
    rfl

theorem of_words (delimiters text : Text) : ∃ spacing : Spacing, spacing.Proper delimiters ∧
    spacing.text = text ∧ spacing.words = Text.words delimiters text := by
  induction text using words_induction delimiters with
  | gap gap skipped =>
    refine ⟨⟨gap, []⟩, ⟨skipped, by simp, by simp, by simp⟩, List.append_nil _, ?_⟩
    rw [words_gap skipped]
    rfl
  | word front word rest skipped isWord breaks ih =>
    obtain ⟨⟨gap, more⟩, proper, rfl, same⟩ := ih
    refine ⟨⟨front, (word, gap) :: more⟩, proper_cons.mpr ⟨skipped, isWord, breaks, proper⟩,
      text_cons .., ?_⟩
    rw [words_word skipped isWord breaks, ← same]
    rfl

end Spacing

-- Taking word after word off a text comes to an end, whatever the delimiters. The words taken
-- are those, and the only ones, that lay the text out with gaps of delimiters around them.
theorem words_exact (delimiters text : Text) :
    (∀ found, (∃ left, Drains (nextWord? delimiters) text found left) ↔
      found = words delimiters text) ∧
    (∀ found, (∃ spacing : Spacing, spacing.Proper delimiters ∧ spacing.text = text ∧
      spacing.words = found) ↔ found = words delimiters text) ∧
    (words delimiters text).flatten = text.filter (!delimiters.contains ·) := by
  refine ⟨fun found => ⟨?_, ?_⟩, fun found => ⟨?_, ?_⟩, words_flatten delimiters text⟩
  · intro drained
    obtain ⟨left, drains⟩ := drained
    exact drained_words drains
  · intro same
    exact same ▸ words_drain delimiters text
  · intro spaced
    obtain ⟨spacing, proper, rfl, rfl⟩ := spaced
    exact (Spacing.words_text proper).symm
  · intro same
    exact same ▸ Spacing.of_words delimiters text

-- Without delimiters all of a text is one word.
example : words [] ", a b" = [ofString ", a b"] := by decide +kernel

end LineShell.Text
