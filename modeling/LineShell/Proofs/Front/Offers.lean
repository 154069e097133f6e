import LineShell.Proofs.Front.Completion
import LineShell.Proofs.Text.Basic

namespace LineShell

namespace Text

theorem sorted_perm (texts : List Text) : (sorted texts).Perm texts := List.mergeSort_perm _ _

theorem sorted_ascending (texts : List Text) : (sorted texts).Pairwise fun a b => ¬ b < a := by
  have trans (a b c : Text) (one : (!decide (b < a)) = true) (two : (!decide (c < b)) = true) :
      (!decide (c < a)) = true := by
    simp only [Bool.not_eq_true', decide_eq_false_iff_not, List.not_lt] at one two ⊢
    exact List.le_trans one two
  have total (a b : Text) : (!decide (b < a) || !decide (a < b)) = true := by
    simp only [Bool.or_eq_true, Bool.not_eq_true', decide_eq_false_iff_not, List.not_lt]
    exact List.le_total _ _
  exact (List.pairwise_mergeSort trans total texts).imp fun passed => by simpa using passed

-- The white space in front of a text, and what follows it.
structure Indented (text blank word : Text) : Prop where
  whole : text = blank ++ word
  blank : ∀ c ∈ blank, c.isBlank = true
  bare : ∀ c ∈ word.head?, c.isBlank = false

end Text

-- A line in the making, with a cursor in it.
structure Draft where
  text : Text
  cursor : Nat

namespace Draft

def before (draft : Draft) : Text := draft.text.take draft.cursor

def behind (draft : Draft) : Text := draft.text.drop draft.cursor

def offers (draft : Draft) (settings : Settings) : Except SettingsError (List Completion) :=
  Completion.ofSettings (some settings) draft.before

-- An offer that is accepted changes nothing behind the cursor.
def accept (draft : Draft) (offer : Completion) : Text :=
  Completion.accept draft.before offer ++ draft.behind

end Draft

namespace Completion

variable {triggers : List Text} {before blank word : Text}

theorem indented_iff : Text.Indented before blank word ↔ blank = indent before ∧ word = token before := by
  constructor
  · rintro ⟨rfl, blank, bare⟩
    have split := parted_at blank bare
    exact ⟨split.1.symm, split.2.symm⟩
  · rintro ⟨rfl, rfl⟩
    obtain ⟨front, rest, whole, blank, bare⟩ := parted CodePoint.isBlank before
    have split := parted_at blank bare
    rw [← whole] at split
    rw [indent, token, Text.trimStart, split.1, split.2]
    exact ⟨whole, blank, bare⟩

theorem offers_silent (silent : token before = [] ∨ .space ∈ token before) :
    offers triggers before = [] := by
  rw [offers]
  rw [if_pos]
  simpa using silent

theorem offers_texts (present : token before ≠ []) (single : .space ∉ token before) :
    (offers triggers before).map Completion.text = (Text.sorted triggers).filter fun trigger =>
      (token before).isPrefixOf trigger && trigger ≠ token before := by
  rw [offers]
  rw [if_neg, List.map_map]
  · exact List.map_id _
  · simp [present, single]

-- Offers come in the order of their texts, each as often as it is among the triggers.
theorem offers_ascending (triggers : List Text) (before : Text) :
    ((offers triggers before).map Completion.text).Pairwise fun a b => ¬ b < a := by
  by_cases silent : token before = [] ∨ .space ∈ token before
  · rw [offers_silent silent]
    exact .nil
  · obtain ⟨present, single⟩ := not_or.mp silent
    rw [offers_texts present single]
    exact (Text.sorted_ascending triggers).filter _

theorem count_offers {offer : Completion} (offered : offer ∈ offers triggers before) :
    ((offers triggers before).map Completion.text).count offer.text = triggers.count offer.text := by
  obtain ⟨present, single, trigger, _, begins, more, rfl⟩ := mem_offers.mp offered
  rw [offers_texts present single, List.count_filter, (Text.sorted_perm triggers).count_eq]
  simpa [more] using begins

end Completion

namespace Draft

open Completion (indent token)

-- What is offered are the triggers that the word in front of the cursor begins and that are longer
-- than it: in ascending order, each as often as it is given, and accepted in place of that word
-- alone. The word is all behind the white space, so nothing is offered where it is empty or a
-- space stands in it.
theorem offers_exact (settings : Settings) {triggers : List Text}
    (given : settings.quitTriggers = .ok triggers) (draft : Draft) :
    ∃ blank word offers, Text.Indented draft.before blank word ∧
      draft.offers settings = .ok offers ∧
      (∀ other : Draft, other.before = draft.before → other.offers settings = .ok offers) ∧
      (∀ offer ∈ offers, offer.start = -word.length ∧
        draft.accept offer = blank ++ offer.text ++ draft.behind ∧
        word ≠ [] ∧ word <+: offer.text ∧ word ≠ offer.text) ∧
      (offers.map Completion.text).Pairwise (fun a b => ¬ b < a) ∧
      (∀ offer ∈ offers, (offers.map Completion.text).count offer.text = triggers.count offer.text) ∧
      (∀ trigger ∈ triggers, ∀ white part, Text.Indented draft.before white part →
        part ≠ [] → part <+: trigger → part ≠ trigger → .space ∉ part →
        ∃ offer ∈ offers, offer.text = trigger) ∧
      (word = [] ∨ .space ∈ word → offers = []) := by
  refine ⟨indent draft.before, token draft.before, Completion.offers triggers draft.before,
    Completion.indented_iff.mpr ⟨rfl, rfl⟩, Completion.ofSettings_ok given _, ?_, ?_,
    Completion.offers_ascending _ _, fun _ => Completion.count_offers, ?_, Completion.offers_silent⟩
  · intro other same
    rw [← same]
    exact Completion.ofSettings_ok given _
  · intro offer offered
    obtain ⟨present, _, trigger, _, begins, more, rfl⟩ := Completion.mem_offers.mp offered
    refine ⟨rfl, ?_, present, begins, Ne.symm more⟩
    rw [accept, Completion.accept_token]
  · intro trigger listed white part split present begins more single
    obtain ⟨_, rfl⟩ := Completion.indented_iff.mp split
    exact ⟨_, Completion.mem_offers.mpr ⟨present, single, trigger, listed, begins, Ne.symm more, rfl⟩, rfl⟩

-- A trigger that is given twice, behind white space and with more of the line behind the cursor.
theorem doubled_trigger_offered_twice :
    let settings : Settings := ⟨.map [(.text "commands", .map [(.text "quit", .map [(.text "triggers",
      .list [.text "quit", .text "q", .text " quit", .text "quit"])])])]⟩
    let draft : Draft := ⟨"\t qu!", 4⟩
    settings.quitTriggers = .ok ["quit", "q", " quit", "quit"] ∧
      ∃ offers, draft.offers settings = .ok offers ∧
        (∃ offer ∈ offers, offer.text = "quit" ∧ draft.accept offer = Text.ofString "\t quit!") ∧
        (offers.map Completion.text).count (Text.ofString "quit") = 2 := by
  intro settings draft
  have given : settings.quitTriggers = .ok ["quit", "q", " quit", "quit"] := rfl
  obtain ⟨blank, word, offers, split, made, _, each, _, counted, all, _⟩ :=
    offers_exact settings given draft
  have known : blank = Text.ofString "\t " ∧ word = Text.ofString "qu" := by
    obtain ⟨rfl, rfl⟩ := Completion.indented_iff.mp split
    decide
  obtain ⟨offer, offered, text⟩ := all "quit" (by decide) blank word split
    (by rw [known.2]; decide) (by rw [known.2]; decide) (by rw [known.2]; decide)
    (by rw [known.2]; decide)
  refine ⟨given, offers, made, ⟨offer, offered, text, ?_⟩, ?_⟩
  · rw [(each offer offered).2.1, known.1, text]
    decide
  · rw [← text, counted offer offered, text]
    decide

end Draft

end LineShell
