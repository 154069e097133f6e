import Mathlib.Data.List.Forall2
import LineShell.Screen

namespace LineShell

namespace Event

-- What an event adds to the text on display.
def added (wording : Wording) : Event → Text
  | .idle => []
  | .quit => wording.farewell
  | .command _ => wording.notice ++ wording.marker

def stops : Event → Bool
  | .quit => true
  | _ => false

end Event

namespace Delivery

-- What is refused adds nothing, and stops nothing.
def added (wording : Wording) : Delivery → Text
  | .event made => made.added wording
  | .stray _ => []

def stops : Delivery → Bool
  | .event made => made.stops
  | .stray _ => false

-- The same delivery, or two commands of any texts.
inductive Alike : Delivery → Delivery → Prop where
  | same (delivery : Delivery) : Alike delivery delivery
  | commands (one other : Text) : Alike (.event (.command one)) (.event (.command other))

end Delivery

namespace Screen

-- The screen that stands behind a delivery: a refused one leaves it as it was.
def after (wording : Wording) (screen : Screen) (delivery : Delivery) : Screen :=
  match screen.accept wording delivery with
  | .ok next => next
  | .error _ => screen

def afterAll (wording : Wording) (screen : Screen) (deliveries : List Delivery) : Screen :=
  deliveries.foldl (after wording) screen

-- All that can become of a delivery: the answer to it, and the screen behind it.
inductive Takes (wording : Wording) (screen : Screen) :
    Delivery → Except StrayValue Screen → Screen → Prop where
  | event (event : Event) :
      Takes wording screen (.event event) (.ok (screen.update wording event))
        (screen.update wording event)
  | stray (value : Value) : Takes wording screen (.stray value) (.error ⟨value⟩) screen

variable {wording : Wording} {screen : Screen} {one other : List Delivery}

theorem update_prompt (wording : Wording) (screen : Screen) (event : Event) :
    (screen.update wording event).prompt = screen.prompt ++ event.added wording := by
  cases event with
  | idle => exact (List.append_nil _).symm
  | quit => rfl
  | command text => exact List.append_assoc _ _ _

theorem update_quit (wording : Wording) (screen : Screen) (event : Event) :
    (screen.update wording event).quit = (screen.quit || event.stops) := by
  cases event with
  | quit => exact (Bool.or_true _).symm
  | idle | command _ => exact (Bool.or_false _).symm

theorem accept_takes (wording : Wording) (screen : Screen) (delivery : Delivery) :
    Takes wording screen delivery (screen.accept wording delivery) (screen.after wording delivery) := by
  cases delivery with
  | event event => exact .event event
  | stray value => exact .stray value

theorem after_prompt (wording : Wording) (screen : Screen) (delivery : Delivery) :
    (screen.after wording delivery).prompt = screen.prompt ++ delivery.added wording := by
  cases delivery with
  | event event => exact update_prompt wording screen event
  | stray value => exact (List.append_nil _).symm

theorem after_quit (wording : Wording) (screen : Screen) (delivery : Delivery) :
    (screen.after wording delivery).quit = (screen.quit || delivery.stops) := by
  cases delivery with
  | event event => exact update_quit wording screen event
  | stray value => exact (Bool.or_false _).symm

theorem afterAll_prompt (wording : Wording) (screen : Screen) (deliveries : List Delivery) :
    (screen.afterAll wording deliveries).prompt =
      screen.prompt ++ deliveries.flatMap (Delivery.added wording) := by
  induction deliveries generalizing screen with
  | nil => exact (List.append_nil _).symm
  | cons delivery rest ih =>
    rw [afterAll, List.foldl_cons, ← afterAll, ih, after_prompt, List.flatMap_cons,
      List.append_assoc]

theorem afterAll_quit (wording : Wording) (screen : Screen) (deliveries : List Delivery) :
    (screen.afterAll wording deliveries).quit =
      (screen.quit || deliveries.any Delivery.stops) := by
  induction deliveries generalizing screen with
  | nil => exact (Bool.or_false _).symm
  | cons delivery rest ih =>
    rw [afterAll, List.foldl_cons, ← afterAll, ih, after_quit, List.any_cons, Bool.or_assoc]

theorem afterAll_append (wording : Wording) (screen : Screen) (first second : List Delivery) :
    screen.afterAll wording (first ++ second) =
      (screen.afterAll wording first).afterAll wording second := List.foldl_append

theorem acceptEach_cons (wording : Wording) (screen : Screen) (delivery : Delivery)
    (rest : List Delivery) : screen.acceptEach wording (delivery :: rest) =
      screen.accept wording delivery :: (screen.after wording delivery).acceptEach wording rest := rfl

theorem acceptEach_append (wording : Wording) (screen : Screen) (first second : List Delivery) :
    screen.acceptEach wording (first ++ second) =
      screen.acceptEach wording first ++
        (screen.afterAll wording first).acceptEach wording second := by
  induction first generalizing screen with
  | nil => rfl
  | cons delivery rest ih =>
    rw [List.cons_append, acceptEach_cons, ih, acceptEach_cons, List.cons_append]
    rfl

theorem length_acceptEach (wording : Wording) (screen : Screen) (deliveries : List Delivery) :
    (screen.acceptEach wording deliveries).length = deliveries.length := by
  induction deliveries generalizing screen with
  | nil => rfl
  | cons delivery rest ih => rw [acceptEach_cons, List.length_cons, List.length_cons, ih]

-- Each delivery is answered by the screen that those in front of it have left.
theorem acceptEach_takes (wording : Wording) (screen : Screen) (before : List Delivery)
    (delivery : Delivery) (rest : List Delivery) :
    ∃ answer, (screen.acceptEach wording (before ++ delivery :: rest))[before.length]? = some answer ∧
      Takes wording (screen.afterAll wording before) delivery answer
        (screen.afterAll wording (before ++ [delivery])) := by
  refine ⟨(screen.afterAll wording before).accept wording delivery, ?_, ?_⟩
  · rw [acceptEach_append, ← length_acceptEach wording screen before,
      List.getElem?_append_right (Nat.le_refl _), Nat.sub_self, acceptEach_cons,
      List.getElem?_cons_zero]
  · rw [afterAll_append]
    exact accept_takes _ _ _

-- No part of a screen comes from the text of a command.
theorem accept_alike {delivery again : Delivery} (alike : delivery.Alike again) :
    screen.accept wording delivery = screen.accept wording again := by
  cases alike with
  | same delivery => rfl
  | commands one other => rfl

theorem after_alike {delivery again : Delivery} (alike : delivery.Alike again) :
    screen.after wording delivery = screen.after wording again := by
  rw [after, accept_alike alike, after]

theorem afterAll_alike (alike : List.Forall₂ Delivery.Alike one other) :
    screen.afterAll wording one = screen.afterAll wording other := by
  induction alike generalizing screen with
  | nil => rfl
  | cons first _ ih =>
    rw [afterAll, List.foldl_cons, after_alike first]
    exact ih

theorem acceptEach_alike (alike : List.Forall₂ Delivery.Alike one other) :
    screen.acceptEach wording one = screen.acceptEach wording other := by
  induction alike generalizing screen with
  | nil => rfl
  | cons first _ ih =>
    rw [acceptEach_cons, acceptEach_cons, accept_alike first, after_alike first, ih]

-- Deliveries made one after the other add their texts to the screen in order and stop it when one
-- of them is a quit, whatever it was before. What is no event is refused and changes nothing, two
-- rows of deliveries are made as one, and the texts of the commands are never seen.
theorem deliveries_fold (wording : Wording) (screen : Screen) (deliveries : List Delivery) :
    (screen.afterAll wording deliveries).prompt =
      screen.prompt ++ deliveries.flatMap (Delivery.added wording) ∧
    (screen.afterAll wording deliveries).quit = (screen.quit || deliveries.any Delivery.stops) ∧
    (screen.acceptEach wording deliveries).length = deliveries.length ∧
    (∀ before delivery rest, deliveries = before ++ delivery :: rest → ∃ answer,
      (screen.acceptEach wording deliveries)[before.length]? = some answer ∧
        Takes wording (screen.afterAll wording before) delivery answer
          (screen.afterAll wording (before ++ [delivery]))) ∧
    (∀ more, screen.afterAll wording (deliveries ++ more) =
        (screen.afterAll wording deliveries).afterAll wording more ∧
      screen.acceptEach wording (deliveries ++ more) = screen.acceptEach wording deliveries ++
        (screen.afterAll wording deliveries).acceptEach wording more) ∧
    ∀ others, List.Forall₂ Delivery.Alike deliveries others →
      screen.acceptEach wording deliveries = screen.acceptEach wording others ∧
      ∀ count, screen.afterAll wording (deliveries.take count) =
        screen.afterAll wording (others.take count) := by
  refine ⟨afterAll_prompt _ _ _, afterAll_quit _ _ _, length_acceptEach _ _ _, ?_, ?_, ?_⟩
  · rintro before delivery rest rfl
    exact acceptEach_takes wording screen before delivery rest
  · intro more
    exact ⟨afterAll_append _ _ _ _, acceptEach_append _ _ _ _⟩
  · intro others alike
    exact ⟨acceptEach_alike alike, fun count => afterAll_alike (List.forall₂_take count alike)⟩

end Screen

end LineShell
