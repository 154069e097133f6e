import LineShell.Proofs.Text.Cutting

namespace LineShell.Text

-- What a cutter leaves of a text, and what it has then consumed of it.
def Cutter.remainder (cutter : Cutter) (text : Text) : Text := ((cutter.take text).map (·.2)).getD text

def Cutter.consumed (cutter : Cutter) (text : Text) : Text :=
  text.take (text.length - (cutter.remainder text).length)

-- For each of the cutters in turn, what it consumed and what it left.
def ledger : List Cutter → Text → List (Text × Text)
  | [], _ => []
  | cutter :: rest, text =>
    (cutter.consumed text, cutter.remainder text) :: ledger rest (cutter.remainder text)

-- All that a cutter can do with a text: what it answers, what it consumes and what it leaves.
inductive Takes : Cutter → Text → Option (Text × Text) → Text → Text → Prop where
  | word {delimiters text gap word rest : Text} (shape : text = gap ++ word ++ rest)
      (skipped : gap ⊆ delimiters) (isWord : IsWord delimiters word)
      (breaks : Breaks delimiters rest) :
      Takes (.word delimiters) text (some (word, rest)) (gap ++ word) rest
  | wordless {delimiters text : Text} (skipped : text ⊆ delimiters) :
      Takes (.word delimiters) text none [] text
  | split {delimiter text before after : Text} (shape : text = before ++ delimiter ++ after)
      (last : OnlyLast delimiter before) :
      Takes (.upTo delimiter) text (some (before, after)) (before ++ delimiter) after
  | unsplit {delimiter text : Text} (absent : ¬ delimiter <:+: text) :
      Takes (.upTo delimiter) text (some ([], text)) [] text

-- Cutters one after another, each given what the one before it left.
inductive Consumes : List Cutter → Text → List (Option (Text × Text)) → List (Text × Text) → Prop where
  | done {text : Text} : Consumes [] text [] []
  | next {cutter : Cutter} {rest : List Cutter} {text piece left : Text}
      {answer : Option (Text × Text)} {answers : List (Option (Text × Text))}
      {entries : List (Text × Text)} (takes : Takes cutter text answer piece left)
      (later : Consumes rest left answers entries) :
      Consumes (cutter :: rest) text (answer :: answers) ((piece, left) :: entries)

variable {cutter : Cutter} {cutters : List Cutter} {text piece left : Text}
  {answer : Option (Text × Text)} {answers : List (Option (Text × Text))}
  {entries : List (Text × Text)}

theorem Takes.whole (takes : Takes cutter text answer piece left) : text = piece ++ left := by
  cases takes with
  | word shape _ _ _ => exact shape
  | wordless _ => rfl
  | split shape _ => exact shape
  | unsplit _ => rfl

theorem Takes.remainder (takes : Takes cutter text answer piece left) :
    (answer.map (·.2)).getD text = left := by
  cases takes <;> rfl

theorem word_takes (delimiters text : Text) :
    ∃ piece left, Takes (.word delimiters) text (nextWord? delimiters text) piece left := by
  cases found : nextWord? delimiters text with
  | none => exact ⟨[], text, .wordless (nextWord?_eq_none.mp found)⟩
  | some parts =>
    obtain ⟨gap, shape, skipped, isWord, breaks⟩ := nextWord?_eq_some.mp found
    exact ⟨gap ++ parts.1, parts.2, .word shape skipped isWord breaks⟩

theorem upTo_takes (delimiter text : Text) :
    ∃ piece left, Takes (.upTo delimiter) text (some (cut delimiter text)) piece left := by
  have cuts := cutFirst?_sound delimiter text
  rw [cut]
  generalize cutFirst? delimiter text = parts at cuts ⊢
  cases cuts with
  | nowhere absent => exact ⟨[], text, .unsplit absent⟩
  | first shape last => exact ⟨_, _, .split shape last⟩

theorem take_sound (cutter : Cutter) (text : Text) :
    Takes cutter text (cutter.take text) (cutter.consumed text) (cutter.remainder text) := by
  obtain ⟨piece, left, takes⟩ : ∃ piece left, Takes cutter text (cutter.take text) piece left := by
    cases cutter with
    | word delimiters => exact word_takes delimiters text
    | upTo delimiter => exact upTo_takes delimiter text
  have remains : cutter.remainder text = left := takes.remainder
  have gone : cutter.consumed text = piece := by
    rw [Cutter.consumed, remains, takes.whole, List.length_append, Nat.add_sub_cancel, List.take_left]
  rwa [remains, gone]

theorem takeEach_consumes (cutters : List Cutter) (text : Text) :
    Consumes cutters text (takeEach cutters text) (ledger cutters text) := by
  induction cutters generalizing text with
  | nil => exact .done
  | cons cutter rest ih => exact .next (take_sound cutter text) (ih (cutter.remainder text))

-- At every entry of the ledger, the text is all that was consumed up to there and what was left.
theorem Consumes.accounts (consumes : Consumes cutters text answers entries)
    {earlier later : List (Text × Text)} (place : entries = earlier ++ (piece, left) :: later) :
    text = earlier.flatMap (·.1) ++ piece ++ left := by
  induction consumes generalizing earlier with
  | done => simp at place
  | next takes _ ih =>
    cases earlier with
    | nil =>
      obtain ⟨entry, -⟩ := List.cons.inj place
      cases entry
      exact takes.whole
    | cons entry earlier =>
      obtain ⟨same, more⟩ := List.cons.inj place
      subst same
      rw [takes.whole, ih more, List.flatMap_cons, List.append_assoc, List.append_assoc, List.append_assoc]

-- Whatever cutters follow one another, with whatever delimiters: every one is given what the one
-- before it left, and behind each one the text is what was consumed so far and the suffix left.
theorem mixed_cutters_account (cutters : List Cutter) (text : Text) :
    Consumes cutters text (takeEach cutters text) (ledger cutters text) ∧
      ∀ earlier piece left later, ledger cutters text = earlier ++ (piece, left) :: later →
        left <:+ text ∧ text = earlier.flatMap (·.1) ++ piece ++ left := by
  have consumes := takeEach_consumes cutters text
  refine ⟨consumes, fun earlier piece left later place => ?_⟩
  have whole := consumes.accounts place
  exact ⟨⟨_, whole.symm⟩, whole⟩

-- A word, a cut, two cuts that consume nothing (one fails, one finds the empty delimiter in front),
-- a text of delimiters alone, and a word again.
theorem mixed_ledger_accounts :
    let text : Text := "  key=a::b::c"
    let cutters : List Cutter :=
      [.word " =", .upTo "::", .upTo "zz", .upTo "", .word "bc:", .word ":"]
    let earlier : List (Text × Text) := [(ofString "  key", ofString "=a::b::c"),
      (ofString "=a::", ofString "b::c"), ([], ofString "b::c"), ([], ofString "b::c"),
      ([], ofString "b::c")]
    ledger cutters text = earlier ++ [(ofString "b", ofString "::c")] ∧ ofString "::c" <:+ text ∧
      text = earlier.flatMap (·.1) ++ ofString "b" ++ ofString "::c" := by
  intro text cutters earlier
  have place : ledger cutters text = earlier ++ [(ofString "b", ofString "::c")] := by
    decide +kernel
  exact ⟨place, (mixed_cutters_account cutters text).2 earlier _ _ [] place⟩

end LineShell.Text
