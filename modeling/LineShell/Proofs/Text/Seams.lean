import LineShell.Startup
import LineShell.Proofs.Text.Words

namespace LineShell.Text

variable {delimiters gap behind word : Text} {d : CodePoint}

theorem words_skip (skipped : gap ⊆ delimiters) (text : Text) :
    words delimiters (gap ++ text) = words delimiters text := by
  cases shaped delimiters text with
  | gap alone => rw [words_gap (List.append_subset.mpr ⟨skipped, alone⟩), words_gap alone]
  | @word front word rest first isWord breaks =>
    have shape : gap ++ (front ++ word ++ rest) = gap ++ front ++ word ++ rest := by simp
    rw [shape, words_word (List.append_subset.mpr ⟨skipped, first⟩) isWord breaks,
      words_word first isWord breaks]

-- A text that no word can run into brings its own words to those in front of it.
theorem words_append (breaks : Breaks delimiters behind) (front : Text) :
    words delimiters (front ++ behind) = words delimiters front ++ words delimiters behind := by
  induction front using words_induction delimiters with
  | gap gap skipped => rw [words_skip skipped, words_gap skipped, List.nil_append]
  | word gap word rest skipped isWord broken ih =>
    rw [List.append_assoc, words_word skipped isWord (breaks_append broken breaks),
      words_word skipped isWord broken, ih, List.cons_append]

theorem words_seam (among : d ∈ delimiters) (front behind : Text) :
    words delimiters (front ++ d :: behind) = words delimiters front ++ words delimiters behind := by
  have skipped : [d] ⊆ delimiters := by simpa using among
  have breaks : Breaks delimiters (d :: behind) := by simpa [Breaks] using among
  rw [words_append breaks, ← words_skip skipped behind]
  rfl

theorem words_ended (among : d ∈ delimiters) (texts : List Text) :
    words delimiters (texts.flatMap (· ++ [d])) = texts.flatMap (words delimiters) := by
  induction texts with
  | nil => exact words_gap (List.nil_subset _)
  | cons text rest ih =>
    rw [List.flatMap_cons, List.flatMap_cons, List.append_assoc, List.singleton_append,
      words_seam among, ih]

theorem words_joined (among : d ∈ delimiters) (texts : List Text) :
    words delimiters (joined [d] texts) = texts.flatMap (words delimiters) := by
  by_cases present : texts = []
  · subst present
    exact words_gap (List.nil_subset _)
  · have ended := words_seam among (joined [d] texts) []
    rw [joined_ended [d] present, words_ended among, words_gap (List.nil_subset _),
      List.append_nil] at ended
    exact ended.symm

theorem words_of_word (isWord : IsWord delimiters word) : words delimiters word = [word] := by
  have nothing : ([] : Text) ⊆ delimiters := List.nil_subset delimiters
  have breaks : Breaks delimiters [] := by simp [Breaks]
  have alone := words_word nothing isWord breaks
  rwa [words_gap nothing, List.append_nil, List.nil_append] at alone

-- What cannot be told apart from its own words is what consists of words.
theorem flatMap_words_eq_iff {texts : List Text} :
    texts.flatMap (words delimiters) = texts ↔ ∀ text ∈ texts, IsWord delimiters text := by
  constructor
  · intro same text among
    rw [← same] at among
    obtain ⟨source, -, inside⟩ := List.mem_flatMap.mp among
    exact words_isWord inside
  · intro isWords
    induction texts with
    | nil => rfl
    | cons text rest ih =>
      obtain ⟨isWord, isWords⟩ := List.forall_mem_cons.mp isWords
      rw [List.flatMap_cons, words_of_word isWord, ih isWords, List.singleton_append]

-- A delimiter parts the words in front of it from those behind it, so that joining words with
-- one and reading them again changes nothing. The command made of the arguments has the words
-- of each in turn, and these are the arguments themselves only where each one is a word.
theorem words_parted :
    (∀ delimiters : Text, ∀ d ∈ delimiters,
      (∀ front behind, words delimiters (front ++ d :: behind) =
        words delimiters front ++ words delimiters behind) ∧
      ∀ text, words delimiters (joined [d] (words delimiters text)) = words delimiters text) ∧
    ∀ arguments,
      words wordDelimiters (Startup.joinArguments arguments) =
        arguments.flatMap (words wordDelimiters) ∧
      (words wordDelimiters (Startup.joinArguments arguments) = arguments ↔
        ∀ argument ∈ arguments, IsWord wordDelimiters argument) := by
  constructor
  · intro delimiters d among
    refine ⟨words_seam among, fun text => ?_⟩
    rw [words_joined among]
    exact flatMap_words_eq_iff.mpr fun _ => words_isWord
  · intro arguments
    have command : words wordDelimiters (Startup.joinArguments arguments) =
        arguments.flatMap (words wordDelimiters) := words_ended (by decide) arguments
    refine ⟨command, ?_⟩
    rw [command]
    exact flatMap_words_eq_iff

-- A seam among other delimiters, delimiters at both ends, and arguments of which one is empty
-- and one is two words.
theorem ragged_words_parted :
    let front : Text := ",key "
    let behind : Text := "=a;b."
    let arguments : List Text := [ofString "set", ofString "", ofString "a=1"]
    CodePoint.colon ∈ wordDelimiters ∧
      words wordDelimiters (front ++ .colon :: behind) =
        words wordDelimiters front ++ words wordDelimiters behind ∧
      words wordDelimiters (joined [.colon] (words wordDelimiters behind)) =
        words wordDelimiters behind ∧
      words wordDelimiters behind = [ofString "a", ofString "b"] ∧
      words wordDelimiters (Startup.joinArguments arguments) ≠ arguments := by
  intro front behind arguments
  have among : CodePoint.colon ∈ wordDelimiters := by decide
  obtain ⟨seam, again⟩ := words_parted.1 wordDelimiters .colon among
  have two : ¬ ∀ argument ∈ arguments, IsWord wordDelimiters argument := fun all =>
    (all (ofString "") (by decide)).present rfl
  exact ⟨among, seam front behind, again behind, by decide +kernel,
    mt (words_parted.2 arguments).2.mp two⟩

end LineShell.Text
