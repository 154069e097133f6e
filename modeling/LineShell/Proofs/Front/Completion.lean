import LineShell.Front.Completion
import LineShell.Interpreter

namespace LineShell

theorem Text.mem_sorted {text : Text} {texts : List Text} : text ∈ sorted texts ↔ text ∈ texts :=
  List.mem_mergeSort

theorem Event.ofLine_eq_quit {triggers : List Text} {line : Text} :
    ofLine triggers line = .quit ↔ line ∈ triggers := by
  unfold ofLine
  split
  · rename_i listed
    exact iff_of_true rfl (List.contains_iff_mem.mp listed)
  · rename_i other
    refine iff_of_false ?_ fun listed => other (List.contains_iff_mem.mpr listed)
    intro same
    cases same

-- Settings that are a map speak somehow, so their triggers are all that an interpreter needs.
theorem Interpreter.ofSettings_map {fields : List (Key × Value)} {triggers : List Text}
    (given : (Settings.mk (.map fields)).quitTriggers = .ok triggers) (path : Path) :
    ∃ wording, ofSettings path ⟨.map fields⟩ = .ok ⟨path, wording, triggers⟩ := by
  unfold ofSettings
  rw [given]
  exact ⟨_, rfl⟩

namespace Completion

-- The line that an offer makes of the text before the cursor, once it is accepted: it
-- takes the place of as many code points as its start is counted back.
def accept (before : Text) (offer : Completion) : Text :=
  before.take (before.length - (-offer.start).toNat) ++ offer.text

def indent (before : Text) : Text := before.takeWhile CodePoint.isBlank

theorem indent_token (before : Text) : indent before ++ token before = before :=
  List.takeWhile_append_dropWhile

theorem accept_token (before text : Text) :
    accept before ⟨text, -(token before).length⟩ = indent before ++ text := by
  have split := indent_token before
  have counted : before.length - (token before).length = (indent before).length := by
    have whole := congrArg List.length split
    rw [List.length_append] at whole
    omega
  have kept : before.take (indent before).length = indent before :=
    (congrArg (List.take (indent before).length) split.symm).trans List.take_left
  rw [accept]
  dsimp only
  rw [Int.neg_neg, Int.toNat_natCast, counted, kept]

theorem mem_offers {triggers : List Text} {before : Text} {offer : Completion} :
    offer ∈ offers triggers before ↔ token before ≠ [] ∧ .space ∉ token before ∧
      ∃ trigger ∈ triggers, token before <+: trigger ∧ trigger ≠ token before ∧
        offer = ⟨trigger, -(token before).length⟩ := by
  unfold offers
  dsimp only
  split
  · rename_i silent
    refine iff_of_false List.not_mem_nil ?_
    rintro ⟨present, single, _⟩
    simp [present, single] at silent
  · rename_i asked
    simp only [Bool.or_eq_true, List.isEmpty_iff, List.contains_iff_mem, not_or] at asked
    simp only [List.mem_map, List.mem_filter, Text.mem_sorted, Bool.and_eq_true,
      List.isPrefixOf_iff_prefix, decide_eq_true_eq]
    constructor
    · rintro ⟨trigger, ⟨listed, begins, more⟩, rfl⟩
      exact ⟨asked.1, asked.2, trigger, listed, begins, more, rfl⟩
    · rintro ⟨_, _, trigger, listed, begins, more, rfl⟩
      exact ⟨trigger, ⟨listed, begins, more⟩, rfl⟩

-- Triggers that are not looked up, because nothing could be offered, change no answer.
theorem ofSettings_ok {settings : Settings} {triggers : List Text}
    (given : settings.quitTriggers = .ok triggers) (before : Text) :
    ofSettings (some settings) before = .ok (offers triggers before) := by
  unfold ofSettings offers
  dsimp only
  split
  · rfl
  · rw [given]
    rfl

-- Accepting an offer makes a trigger of the word at the cursor and leaves the white space in
-- front of it. Lines are compared whole, so the line stops the session exactly when there is
-- no such white space, or it is part of another trigger.
theorem accepted_offer_quits_iff (fields : List (Key × Value)) (path : Path) (before : Text)
    {triggers : List Text} (given : (Settings.mk (.map fields)).quitTriggers = .ok triggers) :
    ∃ interpreter offers, Interpreter.ofSettings path ⟨.map fields⟩ = .ok interpreter ∧
      ofSettings (some ⟨.map fields⟩) before = .ok offers ∧
      ∀ offer ∈ offers, offer.text ∈ triggers ∧ accept before offer = indent before ++ offer.text ∧
        (interpreter.classify (accept before offer) = .quit ↔
          indent before = [] ∨ accept before offer ∈ triggers) := by
  obtain ⟨wording, made⟩ := Interpreter.ofSettings_map given path
  refine ⟨_, _, made, ofSettings_ok given before, ?_⟩
  intro offer offered
  obtain ⟨_, _, trigger, listed, _, _, rfl⟩ := mem_offers.mp offered
  have line := accept_token before trigger
  refine ⟨listed, line, ?_⟩
  refine Event.ofLine_eq_quit.trans ⟨.inr, ?_⟩
  rintro (bare | same)
  · rw [line, bare]
    exact listed
  · exact same

-- A trigger of two words, with and without a space in front.
def spacedFields : List (Key × Value) :=
  [(.text "commands", .map [(.text "quit", .map [(.text "triggers",
    .list [.text "log out", .text " log out"])])])]

theorem spaced_offer_quits :
    (Settings.mk (.map spacedFields)).quitTriggers = .ok ["log out", " log out"] ∧
      ∃ interpreter offers, Interpreter.ofSettings (Path.ofText "kept") ⟨.map spacedFields⟩ =
          .ok interpreter ∧
        ofSettings (some ⟨.map spacedFields⟩) " lo" = .ok offers ∧ ⟨"log out", -2⟩ ∈ offers ∧
        accept " lo" ⟨"log out", -2⟩ = Text.ofString " log out" ∧
        interpreter.classify (accept " lo" ⟨"log out", -2⟩) = .quit := by
  have given : (Settings.mk (.map spacedFields)).quitTriggers = .ok ["log out", " log out"] := rfl
  obtain ⟨interpreter, offers, made, shown, each⟩ :=
    accepted_offer_quits_iff spacedFields (Path.ofText "kept") " lo" given
  have offered : ⟨"log out", -2⟩ ∈ offers := by
    cases shown.symm.trans (ofSettings_ok given " lo")
    exact mem_offers.mpr
      ⟨by decide, by decide, "log out", by decide, by decide, by decide, rfl⟩
  refine ⟨given, interpreter, offers, made, shown, offered, by decide, ?_⟩
  exact ((each _ offered).2.2).mpr (.inr (by decide))

-- The white space in front of a word stays there, and makes another line of it.
theorem indented_offer_goes_on :
    let settings : Settings := ⟨.map []⟩
    let offer : Completion := ⟨"quit", -1⟩
    ∃ interpreter offers, Interpreter.ofSettings (Path.ofText "kept") settings = .ok interpreter ∧
      ofSettings (some settings) " q" = .ok offers ∧ offer ∈ offers ∧
      accept " q" offer = Text.ofString " quit" ∧
      interpreter.classify (accept " q" offer) = .command " quit" := by
  intro settings offer
  have given : settings.quitTriggers = .ok ["quit", "q"] := rfl
  obtain ⟨wording, made⟩ := Interpreter.ofSettings_map given (Path.ofText "kept")
  refine ⟨_, _, made, ofSettings_ok given " q", ?_, by decide, ?_⟩
  · exact mem_offers.mpr ⟨by decide, by decide, "quit", by decide, by decide, by decide, rfl⟩
  · change Event.ofLine ["quit", "q"] _ = _
    decide

end Completion

end LineShell
