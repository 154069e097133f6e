import LineShell.Proofs.Loop.Effects
import LineShell.Proofs.Text.Utf8

namespace LineShell

-- What an output makes of each text: it takes it, or refuses it with a fault.
structure Stream where
  refusal? : Text → Option Fault

namespace Stream

def Takes (stream : Stream) (texts : List Text) : Prop := ∀ text ∈ texts, stream.refusal? text = none

-- These writes came to what the stream makes of their texts.
def Answers (stream : Stream) (writings : List Writing) : Prop :=
  ∀ writing ∈ writings, writing.refusal = stream.refusal? writing.text

variable {stream : Stream}

theorem Takes.append {first second : List Text} :
    stream.Takes (first ++ second) ↔ stream.Takes first ∧ stream.Takes second :=
  List.forall_mem_append

theorem Answers.append {first second : List Writing} :
    stream.Answers (first ++ second) ↔ stream.Answers first ∧ stream.Answers second :=
  List.forall_mem_append

end Stream

theorem Script.read_same {script left other : Script} {reading : Reading}
    (reads : script.reads = other.reads) (read : script.read = (reading, left)) :
    ∃ right, other.read = (reading, right) ∧ left.reads = right.reads := by
  obtain ⟨readings, writes⟩ := script
  obtain ⟨_, others⟩ := other
  cases reads
  cases readings <;> cases read <;> exact ⟨_, rfl, rfl⟩

-- Two turns that differ at most in the answers that their writes have left.
structure Turn.Same {α : Type} (one other : Turn α) : Prop where
  outcome : one.outcome = other.outcome
  loop : one.loop = other.loop
  reads : one.script.reads = other.script.reads
  effects : one.effects = other.effects

theorem Turn.Same.after {α : Type} {one other : Turn α} (same : one.Same other) (before : List Effect) :
    (one.after before).Same (other.after before) :=
  ⟨same.outcome, same.loop, same.reads, congrArg (before ++ ·) same.effects⟩

namespace Loop

variable {stream : Stream} {loop : Loop} {script other : Script}

theorem receive_same {turn : Turn Bool} (calm : script.Calm) (reads : script.reads = other.reads)
    (received : Receives loop script turn) : turn.Same (loop.receive other) := by
  cases received with
  | line read =>
    obtain ⟨right, again, rest⟩ := Script.read_same reads read
    rw [receive_complete (.line again)]
    exact ⟨rfl, rfl, rest, rfl⟩
  | ended read ends =>
    obtain ⟨right, again, rest⟩ := Script.read_same reads read
    rw [receive_complete (.ended again ends)]
    exact ⟨rfl, rfl, rest, rfl⟩
  | left read exits =>
    rcases Script.read_ordinary calm.ordinary read with ended | interrupted
    · cases exits.symm.trans ended
    · cases exits.symm.trans interrupted
  | told read broken _ _ => exact absurd (Script.read_ordinary calm.ordinary read) broken
  | untold read broken _ _ => exact absurd (Script.read_ordinary calm.ordinary read) broken

-- The first write of a turn shows its screen, so an output that takes the screen lets the turn go
-- on as it does where nothing fails.
theorem step_same {turn : Turn Bool} (calm : script.Calm) (reads : script.reads = other.reads)
    (takes : stream.refusal? loop.advance.screen.prompt = none)
    (answers : stream.Answers ((loop.step other).effects.filterMap Effect.attempt?))
    (stepped : Steps loop script turn) : turn.Same (loop.step other) := by
  cases written : other.write with
  | mk outcome right =>
    have unread : script.reads = right.reads := reads.trans (Script.write_reads written).symm
    cases outcome with
    | some failure =>
      rw [step_complete (.unshown written)] at answers
      have refused := answers ⟨loop.advance.screen.prompt, some failure⟩ (by simp [Turn.after, Effect.attempt?])
      cases refused.trans takes
    | none =>
      cases stepped with
      | unshown failed => cases (calm.write failed).1
      | last shown stopped =>
        rw [step_complete (.last written stopped)]
        exact ⟨rfl, rfl, (Script.write_reads shown).trans unread, rfl⟩
      | waits shown going received =>
        rw [step_complete (.waits written going (receive_sound _ _))]
        have left := (Script.write_reads shown).trans unread
        exact ((receive_same (calm.write shown).2 left received).after _).after _

theorem step_shows {turn : Turn Bool} (calm : script.Calm) (stepped : Steps loop script turn) :
    loop.advance.screen.prompt ∈ turn.effects.filterMap Effect.written? := by
  cases stepped with
  | unshown failed => cases (calm.write failed).1
  | last _ _ => simp [Turn.after, Effect.written?]
  | waits _ _ _ => simp [Turn.after, Effect.written?]

theorem run_step_answers (answers : stream.Answers ((loop.run other).effects.filterMap Effect.attempt?)) :
    stream.Answers ((loop.step other).effects.filterMap Effect.attempt?) := by
  obtain ⟨_, _, ends⟩ := run_counted loop other
  obtain ⟨later, whole⟩ := run_begins ends
  rw [whole, List.filterMap_append] at answers
  exact (Stream.Answers.append.mp answers).1

-- An output that takes all that a session shows where nothing fails makes no difference to any
-- session with the same input. The induction is on the turns of the one where nothing fails, and
-- none of them raises.
theorem run_same {count : Nat} {whole : Turn Screen} (ends : Ends loop script count whole)
    (calm : script.Calm) (reads : script.reads = other.reads)
    (takes : stream.Takes (whole.effects.filterMap Effect.written?))
    (answers : stream.Answers ((loop.run other).effects.filterMap Effect.attempt?)) :
    whole.Same (loop.run other) := by
  induction ends generalizing other with
  | @last loop script turn stepped finished =>
    subst stepped
    have turned := step_sound loop script
    have same := step_same calm reads (takes _ (step_shows calm turned)) (run_step_answers answers) turned
    rw [run_last (same.outcome.symm.trans finished)]
    exact ⟨congrArg (fun loop => Except.ok loop.screen) same.loop, same.loop, same.reads, same.effects⟩
  | @next loop script turn _ rest stepped another ends ih =>
    subst stepped
    have turned := step_sound loop script
    simp only [Turn.after, List.filterMap_append] at takes
    obtain ⟨shown, later⟩ := Stream.Takes.append.mp takes
    have same := step_same calm reads (shown _ (step_shows calm turned)) (run_step_answers answers) turned
    rw [run_next (same.outcome.symm.trans another)] at answers ⊢
    simp only [Turn.after, List.filterMap_append] at answers
    obtain ⟨_, rests⟩ := Stream.Answers.append.mp answers
    rw [← same.loop] at rests ⊢
    rw [← same.effects]
    exact (ih (step_calm calm turned).1 same.reads later rests).after _
  | leaves stepped raised _ => exact absurd raised (step_returns calm stepped)
  | resumes stepped raised _ _ _ _ => exact absurd raised (step_returns calm stepped)
  | fails stepped raised _ _ => exact absurd raised (step_returns calm stepped)

end Loop

end LineShell
