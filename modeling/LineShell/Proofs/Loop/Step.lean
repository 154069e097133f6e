import LineShell.Loop.Basic

namespace LineShell

namespace Effect

def reading? : Effect → Option Reading
  | .asked _ reading => some reading
  | _ => none

def writing? : Effect → Option (Option Fault)
  | .wrote _ => some none
  | .writeFailed _ fault => some (some fault)
  | _ => none

end Effect

namespace Turn

variable {α : Type}

def taken (turn : Turn α) : List Event := turn.effects.filterMap Effect.taken?
def entered (turn : Turn α) : List Event := turn.effects.filterMap Effect.queued?
def readings (turn : Turn α) : List Reading := turn.effects.filterMap Effect.reading?
def writings (turn : Turn α) : List (Option Fault) := turn.effects.filterMap Effect.writing?

theorem after_after (first second : List Effect) (turn : Turn α) :
    (turn.after second).after first = turn.after (first ++ second) := by
  unfold after
  rw [List.append_assoc]

theorem after_taken (before : List Effect) (turn : Turn α) :
    (turn.after before).taken = before.filterMap Effect.taken? ++ turn.taken :=
  List.filterMap_append

theorem after_entered (before : List Effect) (turn : Turn α) :
    (turn.after before).entered = before.filterMap Effect.queued? ++ turn.entered :=
  List.filterMap_append

theorem after_readings (before : List Effect) (turn : Turn α) :
    (turn.after before).readings = before.filterMap Effect.reading? ++ turn.readings :=
  List.filterMap_append

theorem after_writings (before : List Effect) (turn : Turn α) :
    (turn.after before).writings = before.filterMap Effect.writing? ++ turn.writings :=
  List.filterMap_append

end Turn

-- The answers that lead from one script to another one. A script that has run out
-- still answers: the input is at its end, and the write succeeds.
structure Script.Answers (before : Script) (readings : List Reading)
    (writings : List (Option Fault)) (after : Script) : Prop where
  reads : ∃ count, readings ++ after.reads =
    before.reads ++ List.replicate count (.failed .endOfInput)
  writes : ∃ count, writings ++ after.writes = before.writes ++ List.replicate count none

namespace Script

theorem extended_trans {α : Type} {first second : List α} {before middle after : List α} {filler : α}
    (left : ∃ count, first ++ middle = before ++ List.replicate count filler)
    (right : ∃ count, second ++ after = middle ++ List.replicate count filler) :
    ∃ count, (first ++ second) ++ after = before ++ List.replicate count filler := by
  obtain ⟨one, earlier⟩ := left
  obtain ⟨two, later⟩ := right
  refine ⟨one + two, ?_⟩
  rw [List.append_assoc, later, ← List.append_assoc, earlier, List.append_assoc,
    List.replicate_append_replicate]

theorem Answers.refl (script : Script) : script.Answers [] [] script :=
  ⟨⟨0, by simp⟩, ⟨0, by simp⟩⟩

theorem Answers.trans {before middle after : Script} {first second : List Reading}
    {one two : List (Option Fault)} (left : before.Answers first one middle)
    (right : middle.Answers second two after) :
    before.Answers (first ++ second) (one ++ two) after :=
  ⟨extended_trans left.reads right.reads, extended_trans left.writes right.writes⟩

theorem read_answers {script left : Script} {reading : Reading}
    (read : script.read = (reading, left)) : script.Answers [reading] [] left := by
  obtain ⟨reads, writes⟩ := script
  cases reads with
  | nil =>
    cases read
    exact ⟨⟨1, rfl⟩, ⟨0, by simp⟩⟩
  | cons head rest =>
    cases read
    exact ⟨⟨0, by simp⟩, ⟨0, by simp⟩⟩

theorem write_answers {script left : Script} {outcome : Option Fault}
    (written : script.write = (outcome, left)) : script.Answers [] [outcome] left := by
  obtain ⟨reads, writes⟩ := script
  cases writes with
  | nil =>
    cases written
    exact ⟨⟨0, by simp⟩, ⟨1, rfl⟩⟩
  | cons head rest =>
    cases written
    exact ⟨⟨0, by simp⟩, ⟨0, by simp⟩⟩

end Script

-- The failures of a read that end the session in the ordinary way.
def Fault.endsInput (fault : Fault) : Prop := fault.kind = .endOfInput ∨ fault.kind = .interrupt

instance (fault : Fault) : Decidable fault.endsInput :=
  inferInstanceAs (Decidable (fault.kind = .endOfInput ∨ fault.kind = .interrupt))

namespace Loop

-- All that waiting for a line can come to.
inductive Receives (loop : Loop) (script : Script) : Turn Bool → Prop where
  | line {text : Text} {left : Script} (read : script.read = (.line text, left)) :
      Receives loop script ⟨.ok true, loop.push (loop.interpreter.classify text), left,
        [.asked [] (.line text), .queued (loop.interpreter.classify text)]⟩
  | ended {fault : Fault} {left : Script} (read : script.read = (.failed fault, left))
      (ends : fault.endsInput) :
      Receives loop script ⟨.ok true, loop.push .quit, left,
        [.asked [] (.failed fault), .queued .quit]⟩
  | left {fault : Fault} {left : Script} (read : script.read = (.failed fault, left))
      (exits : fault.kind = .exit) :
      Receives loop script ⟨.error fault, loop, left, [.asked [] (.failed fault)]⟩
  | told {fault : Fault} {left last : Script} (read : script.read = (.failed fault, left))
      (broken : ¬ fault.endsInput) (stays : fault.isLeaving = false)
      (written : left.write = (none, last)) :
      Receives loop script ⟨.ok true, loop.push .quit, last,
        [.asked [] (.failed fault), .reported { fault }, .wrote (inputFailed fault), .queued .quit]⟩
  | untold {fault failure : Fault} {left last : Script} (read : script.read = (.failed fault, left))
      (broken : ¬ fault.endsInput) (stays : fault.isLeaving = false)
      (written : left.write = (some failure, last)) :
      Receives loop script ⟨.error failure, loop, last,
        [.asked [] (.failed fault), .reported { fault }, .writeFailed (inputFailed fault) failure]⟩

theorem receive_sound (loop : Loop) (script : Script) : Receives loop script (loop.receive script) := by
  cases read : script.read with
  | mk reading left =>
    cases reading with
    | line text =>
      simp only [receive, read]
      exact .line read
    | failed fault =>
      simp only [receive, read]
      split
      · next ends => exact .ended read ends
      · next broken =>
        split
        · next leaves =>
          refine .left read ?_
          simp only [Fault.isLeaving, Bool.or_eq_true, decide_eq_true_eq] at leaves
          exact leaves.resolve_right fun stopped => broken (.inr stopped)
        · next stays =>
          have stays : fault.isLeaving = false := Bool.eq_false_iff.mpr stays
          cases written : left.write with
          | mk outcome last =>
            cases outcome with
            | none => exact .told read broken stays written
            | some failure => exact .untold read broken stays written

-- All that one turn can come to. Whatever the writes do, the event was taken and
-- applied before the first of them.
inductive Steps (loop : Loop) (script : Script) : Turn Bool → Prop where
  | unshown {failure : Fault} {left : Script} (written : script.write = (some failure, left)) :
      Steps loop script (.after loop.taking ⟨.error failure, loop.advance, left,
        [.writeFailed loop.advance.screen.prompt failure]⟩)
  | last {left : Script} (written : script.write = (none, left))
      (stopped : loop.advance.screen.quit = true) :
      Steps loop script (.after loop.taking ⟨.ok false, loop.advance, left,
        [.wrote loop.advance.screen.prompt]⟩)
  | waits {left : Script} {turn : Turn Bool} (written : script.write = (none, left))
      (going : loop.advance.screen.quit = false) (received : Receives loop.advance left turn) :
      Steps loop script (.after loop.taking (turn.after [.wrote loop.advance.screen.prompt]))

theorem step_sound (loop : Loop) (script : Script) : Steps loop script (loop.step script) := by
  cases written : script.write with
  | mk outcome left =>
    cases outcome with
    | some failure =>
      simp only [step, written]
      exact .unshown written
    | none =>
      simp only [step, written]
      cases stopped : loop.advance.screen.quit with
      | true => exact .last written stopped
      | false =>
        have waits := Steps.waits written stopped (receive_sound loop.advance left)
        rw [Turn.after_after] at waits
        exact waits

theorem receive_complete {loop : Loop} {script : Script} {turn : Turn Bool}
    (received : Receives loop script turn) : loop.receive script = turn := by
  cases received with
  | line read => simp only [receive, read, List.cons_append, List.nil_append]
  | ended read ends =>
    simp only [receive, read, if_pos (show _ ∨ _ from ends), List.cons_append, List.nil_append]
  | left read exits => simp [receive, read, exits, Fault.isLeaving]
  | told read broken stays written =>
    simp [receive, read, written, stays, if_neg (show ¬ (_ ∨ _) from broken)]
  | untold read broken stays written =>
    simp [receive, read, written, stays, if_neg (show ¬ (_ ∨ _) from broken)]

-- So a turn that is one of these is the turn of its loop.
theorem step_complete {loop : Loop} {script : Script} {turn : Turn Bool}
    (stepped : Steps loop script turn) : loop.step script = turn := by
  cases stepped with
  | unshown written => simp [step, written, Turn.after]
  | last written stopped => simp [step, written, stopped, Turn.after]
  | waits written going received =>
    simp [step, written, going, receive_complete received, Turn.after]

def oldest (loop : Loop) : List Event := loop.queue.head?.toList

theorem taking_silent {β : Type} (project : Effect → Option β) (loop : Loop)
    (silent : ∀ event, project (.took event) = none) : loop.taking.filterMap project = [] := by
  rw [taking]
  cases loop.queue with
  | nil => rfl
  | cons event rest => exact List.filterMap_cons_none (silent event)

-- Taking an event is all that a turn does before it writes.
theorem taking_taken (loop : Loop) (turn : Turn Bool) :
    (turn.after loop.taking).taken = loop.oldest ++ turn.taken := by
  rw [Turn.after_taken, taking, oldest]
  cases loop.queue <;> rfl

theorem taking_entered (loop : Loop) (turn : Turn Bool) :
    (turn.after loop.taking).entered = turn.entered := by
  rw [Turn.after_entered, taking_silent Effect.queued? loop fun _ => rfl, List.nil_append]

theorem taking_readings (loop : Loop) (turn : Turn Bool) :
    (turn.after loop.taking).readings = turn.readings := by
  rw [Turn.after_readings, taking_silent Effect.reading? loop fun _ => rfl, List.nil_append]

theorem taking_writings (loop : Loop) (turn : Turn Bool) :
    (turn.after loop.taking).writings = turn.writings := by
  rw [Turn.after_writings, taking_silent Effect.writing? loop fun _ => rfl, List.nil_append]

theorem advance_queue (loop : Loop) : loop.queue = loop.oldest ++ loop.advance.queue := by
  obtain ⟨interpreter, screen, queue, current⟩ := loop
  cases queue <;> rfl

-- An idle event changes no screen, so only what was taken is applied.
theorem advance_screen (loop : Loop) :
    loop.advance.screen = loop.oldest.foldl loop.interpreter.update loop.screen := by
  obtain ⟨interpreter, screen, queue, current⟩ := loop
  cases queue <;> rfl

theorem advance_interpreter (loop : Loop) : loop.advance.interpreter = loop.interpreter := by
  obtain ⟨interpreter, screen, queue, current⟩ := loop
  cases queue <;> rfl

theorem receive_answers {loop : Loop} {script : Script} {turn : Turn Bool}
    (received : Receives loop script turn) :
    script.Answers turn.readings turn.writings turn.script := by
  cases received with
  | line read => exact Script.read_answers read
  | ended read _ => exact Script.read_answers read
  | left read _ => exact Script.read_answers read
  | told read _ _ written => exact (Script.read_answers read).trans (Script.write_answers written)
  | untold read _ _ written => exact (Script.read_answers read).trans (Script.write_answers written)

theorem step_answers {loop : Loop} {script : Script} {turn : Turn Bool}
    (stepped : Steps loop script turn) :
    script.Answers turn.readings turn.writings turn.script := by
  cases stepped with
  | unshown written =>
    rw [taking_readings, taking_writings]
    exact Script.write_answers written
  | last written _ =>
    rw [taking_readings, taking_writings]
    exact Script.write_answers written
  | waits written _ received =>
    rw [taking_readings, taking_writings]
    exact (Script.write_answers written).trans (receive_answers received)

-- A turn that raises, or that ends the session, has done no more to it than take its event.
theorem step_advances {loop : Loop} {script : Script} {turn : Turn Bool}
    (stepped : Steps loop script turn) (still : turn.outcome ≠ .ok true) :
    turn.loop = loop.advance := by
  cases stepped with
  | unshown _ => rfl
  | last _ _ => rfl
  | waits _ _ received =>
    cases received with
    | line _ => exact absurd rfl still
    | ended _ _ => exact absurd rfl still
    | left _ _ => rfl
    | told _ _ _ _ => exact absurd rfl still
    | untold _ _ _ _ => rfl

theorem raised_advances {loop : Loop} {script : Script} {turn : Turn Bool} {fault : Fault}
    (stepped : Steps loop script turn) (raised : turn.outcome = .error fault) :
    turn.loop = loop.advance := by
  apply step_advances stepped
  rw [raised]
  simp

-- One turn takes all that waits. This is so from the first turn on: each one takes an event
-- before it enters one.
def Drained (loop : Loop) : Prop := loop.advance.queue = []

theorem start_drained (interpreter : Interpreter) (command : Text) :
    Drained (start interpreter command) := rfl

theorem empty_drained {loop : Loop} (empty : loop.queue = []) : loop.Drained := by
  have split := loop.advance_queue
  rw [empty] at split
  exact (List.append_eq_nil_iff.mp split.symm).2

theorem push_drained {loop : Loop} (empty : loop.queue = []) (event : Event) :
    (loop.push event).Drained := by
  obtain ⟨interpreter, screen, queue, current⟩ := loop
  cases empty
  rfl

theorem receive_drained {loop : Loop} {script : Script} {turn : Turn Bool} (empty : loop.queue = [])
    (received : Receives loop script turn) : turn.loop.Drained := by
  cases received with
  | line _ => exact push_drained empty _
  | ended _ _ => exact push_drained empty _
  | left _ _ => exact empty_drained empty
  | told _ _ _ _ => exact push_drained empty _
  | untold _ _ _ _ => exact empty_drained empty

theorem step_drained {loop : Loop} {script : Script} {turn : Turn Bool} (drained : loop.Drained)
    (stepped : Steps loop script turn) : turn.loop.Drained := by
  cases stepped with
  | unshown _ => exact empty_drained drained
  | last _ _ => exact empty_drained drained
  | waits _ _ received =>
    have waiting := receive_drained drained received
    exact waiting

-- What the next turn will show when nothing waits, and when one event does.
theorem advance_empty {loop : Loop} (empty : loop.queue = []) :
    loop.advance.screen = loop.screen := by
  rw [advance_screen, oldest, empty]
  rfl

theorem advance_push {loop : Loop} (empty : loop.queue = []) (event : Event) :
    (loop.push event).advance.screen = loop.interpreter.update loop.screen event := by
  obtain ⟨interpreter, screen, queue, current⟩ := loop
  cases empty
  rfl

theorem oldest_push {loop : Loop} (empty : loop.queue = []) (event : Event) :
    (loop.push event).oldest = [event] := by
  rw [oldest, push, empty]
  rfl

end Loop

end LineShell
