import LineShell.Entries.Field

namespace LineShell.Field

theorem readBody_quoteMark (rest : Text) : readBody (.quoteMark :: rest) = some ([], rest) := by
  rw [readBody.eq_def]
  exact if_pos rfl

theorem readBody_literal (c : CodePoint) (rest : Text) :
    readBody (.backslash :: c :: rest) = (readBody rest).map fun (text, after) => (c :: text, after) :=
  rfl

theorem readBody_plain {c : CodePoint} (plain : ¬ (c = .quoteMark ∨ c = .backslash)) (rest : Text) :
    readBody (c :: rest) = (readBody rest).map fun (text, after) => (c :: text, after) := by
  obtain ⟨noQuote, noBackslash⟩ := not_or.mp plain
  rw [readBody.eq_def]
  dsimp only
  rw [if_neg noQuote, if_neg noBackslash]

-- What the writer puts between the quote marks is read back up to the closing one.
theorem readBody_escape (text rest : Text) :
    readBody (text.flatMap escape ++ .quoteMark :: rest) = some (text, rest) := by
  induction text with
  | nil => exact readBody_quoteMark rest
  | cons c more ih =>
    rw [List.flatMap_cons, List.append_assoc]
    by_cases special : c = .quoteMark ∨ c = .backslash
    · rw [escape, if_pos special, List.cons_append, List.singleton_append, readBody_literal, ih]
      rfl
    · rw [escape, if_neg special, List.singleton_append, readBody_plain special, ih]
      rfl

theorem read_quote (text rest : Text) : read (quote text ++ rest) = some (text, rest) := by
  rw [quote, List.append_assoc, List.append_assoc, List.singleton_append, List.singleton_append, read,
    if_pos rfl]
  exact readBody_escape text rest

theorem subset_quote (text : Text) : text ⊆ quote text := by
  intro c present
  have inside : c ∈ text.flatMap escape := by
    refine List.mem_flatMap.mpr ⟨c, present, ?_⟩
    unfold escape
    split
    · exact List.mem_cons_of_mem _ List.mem_cons_self
    · exact List.mem_cons_self
  exact List.mem_append_left _ (List.mem_append_right _ inside)

-- The quote marks that no backslash in front makes literal. A line that holds an entry
-- has exactly four of them, and cutting a text never makes one.
def bareQuotes : Text → Nat
  | [] => 0
  | c :: rest =>
    if c = .quoteMark then bareQuotes rest + 1
    else if c = .backslash then
      match rest with
      | [] => 0
      | _ :: rest => bareQuotes rest
    else bareQuotes rest

theorem bareQuotes_quoteMark (rest : Text) :
    bareQuotes (.quoteMark :: rest) = bareQuotes rest + 1 := by
  rw [bareQuotes.eq_def]
  exact if_pos rfl

theorem bareQuotes_plain {c : CodePoint} (plain : ¬ (c = .quoteMark ∨ c = .backslash)) (rest : Text) :
    bareQuotes (c :: rest) = bareQuotes rest := by
  obtain ⟨noQuote, noBackslash⟩ := not_or.mp plain
  rw [bareQuotes.eq_def]
  dsimp only
  rw [if_neg noQuote, if_neg noBackslash]

theorem bareQuotes_literal (c : CodePoint) (rest : Text) :
    bareQuotes (.backslash :: c :: rest) = bareQuotes rest := rfl

-- Around a code point without a meaning of its own the two sides count on their own, even
-- when a backslash in front of it makes it literal.
theorem bareQuotes_append {c : CodePoint} (plain : ¬ (c = .quoteMark ∨ c = .backslash))
    (before after : Text) :
    bareQuotes (before ++ c :: after) = bareQuotes before + bareQuotes after := by
  induction before using bareQuotes.induct with
  | case1 => rw [List.nil_append, bareQuotes_plain plain, bareQuotes, Nat.zero_add]
  | case2 rest ih =>
    rw [List.cons_append, bareQuotes_quoteMark, bareQuotes_quoteMark, ih]
    omega
  | case3 differ =>
    rw [List.cons_append, List.nil_append, bareQuotes_literal]
    exact (Nat.zero_add _).symm
  | case4 literal rest differ ih =>
    rw [List.cons_append, List.cons_append, bareQuotes_literal, bareQuotes_literal, ih]
  | case5 other rest noQuote noBackslash ih =>
    have inert : ¬ (other = .quoteMark ∨ other = .backslash) := not_or.mpr ⟨noQuote, noBackslash⟩
    rw [List.cons_append, bareQuotes_plain inert, bareQuotes_plain inert, ih]

theorem bareQuotes_escape (text rest : Text) :
    bareQuotes (text.flatMap escape ++ rest) = bareQuotes rest := by
  induction text with
  | nil => rfl
  | cons c more ih =>
    rw [List.flatMap_cons, List.append_assoc]
    by_cases special : c = .quoteMark ∨ c = .backslash
    · rw [escape, if_pos special, List.cons_append, List.singleton_append, bareQuotes_literal, ih]
    · rw [escape, if_neg special, List.singleton_append, bareQuotes_plain special, ih]

-- Reading a field up to its end passes its closing quote mark and no other bare one.
theorem bareQuotes_readBody {line text after : Text} (found : readBody line = some (text, after)) :
    bareQuotes line = bareQuotes after + 1 := by
  induction line using readBody.induct generalizing text with
  | case1 => cases found
  | case2 rest =>
    rw [readBody_quoteMark] at found
    cases found
    exact bareQuotes_quoteMark _
  | case3 => cases found
  | case4 literal rest _ ih =>
    rw [readBody_literal] at found
    obtain ⟨⟨tail, behind⟩, inner, equal⟩ := Option.map_eq_some_iff.mp found
    cases equal
    rw [bareQuotes_literal, ih inner]
  | case5 c rest noQuote noBackslash ih =>
    have plain : ¬ (c = .quoteMark ∨ c = .backslash) := not_or.mpr ⟨noQuote, noBackslash⟩
    rw [readBody_plain plain] at found
    obtain ⟨⟨tail, behind⟩, inner, equal⟩ := Option.map_eq_some_iff.mp found
    cases equal
    rw [bareQuotes_plain plain, ih inner]

theorem bareQuotes_read {line text after : Text} (found : read line = some (text, after)) :
    bareQuotes line = bareQuotes after + 2 := by
  cases line with
  | nil => cases found
  | cons c rest =>
    rw [read] at found
    split at found
    · rename_i opening
      subst opening
      rw [bareQuotes_quoteMark, bareQuotes_readBody found]
    · cases found

end LineShell.Field
