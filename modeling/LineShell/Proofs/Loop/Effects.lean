import LineShell.Proofs.Loop.Conversation

namespace LineShell

-- The loop hands no prompt of its own to a read: all that is to be seen is written before.
def Effect.Unprompted (effect : Effect) : Prop :=
  ∀ prompt reading, effect = .asked prompt reading → prompt = []

-- An input that only ends or is interrupted, and a screen that takes every text.
structure Script.Calm (script : Script) : Prop where
  ordinary : script.Ordinary
  written : script.writes = []

namespace Script

variable {script left : Script}

theorem Calm.write {outcome : Option Fault} (calm : script.Calm)
    (written : script.write = (outcome, left)) : outcome = none ∧ left.Calm := by
  obtain ⟨reads, writes⟩ := script
  obtain ⟨ordinary, none⟩ := calm
  cases none
  cases written
  exact ⟨rfl, ordinary, rfl⟩

theorem Calm.read {reading : Reading} (calm : script.Calm) (read : script.read = (reading, left)) :
    left.Calm := by
  refine ⟨(read_answers read).ordinary calm.ordinary, ?_⟩
  rw [← calm.written]
  obtain ⟨reads, writes⟩ := script
  cases reads <;> cases read <;> rfl

end Script

namespace Loop

theorem mem_taking {loop : Loop} {effect : Effect} (among : effect ∈ loop.taking) :
    ∃ event, effect = .took event := by
  obtain ⟨event, _, same⟩ := List.mem_map.mp among
  exact ⟨event, same.symm⟩

theorem receive_unprompted {loop : Loop} {script : Script} {turn : Turn Bool}
    (received : Receives loop script turn) : ∀ effect ∈ turn.effects, effect.Unprompted := by
  cases received <;> simp [Effect.Unprompted]

theorem step_unprompted {loop : Loop} {script : Script} {turn : Turn Bool}
    (stepped : Steps loop script turn) : ∀ effect ∈ turn.effects, effect.Unprompted := by
  have taken : ∀ effect ∈ loop.taking, effect.Unprompted := by
    intro effect among
    obtain ⟨event, rfl⟩ := mem_taking among
    simp [Effect.Unprompted]
  cases stepped with
  | unshown _ =>
    refine List.forall_mem_append.mpr ⟨taken, ?_⟩
    simp [Effect.Unprompted]
  | last _ _ =>
    refine List.forall_mem_append.mpr ⟨taken, ?_⟩
    simp [Effect.Unprompted]
  | waits _ _ received =>
    refine List.forall_mem_append.mpr ⟨taken, List.forall_mem_append.mpr ⟨?_, ?_⟩⟩
    · simp [Effect.Unprompted]
    · exact receive_unprompted received

theorem run_unprompted {loop : Loop} {script : Script} {count : Nat} {whole : Turn Screen}
    (ends : Ends loop script count whole) : ∀ effect ∈ whole.effects, effect.Unprompted := by
  induction ends with
  | last stepped _ =>
    subst stepped
    exact step_unprompted (step_sound _ _)
  | next stepped _ _ ih =>
    subst stepped
    exact List.forall_mem_append.mpr ⟨step_unprompted (step_sound _ _), ih⟩
  | leaves stepped _ _ =>
    subst stepped
    exact step_unprompted (step_sound _ _)
  | resumes stepped _ _ _ _ ih =>
    subst stepped
    simp only [Turn.after, List.forall_mem_append]
    refine ⟨⟨⟨step_unprompted (step_sound _ _), ?_⟩, ?_⟩, ih⟩
    · simp [Effect.Unprompted, caught]
    · simp [Effect.Unprompted]
  | fails stepped _ _ _ =>
    subst stepped
    simp only [List.forall_mem_append]
    refine ⟨⟨step_unprompted (step_sound _ _), ?_⟩, ?_⟩
    · simp [Effect.Unprompted, caught]
    · simp [Effect.Unprompted]

-- Where nothing fails no turn raises, and nothing is reported.
theorem receive_calm {loop : Loop} {script : Script} {turn : Turn Bool} (calm : script.Calm)
    (received : Receives loop script turn) : turn.script.Calm ∧ turn.outcome = .ok true ∧
      turn.effects.filterMap Effect.report? = [] := by
  cases received with
  | line read => exact ⟨calm.read read, rfl, rfl⟩
  | ended read _ => exact ⟨calm.read read, rfl, rfl⟩
  | left read exits =>
    rcases Script.read_ordinary calm.ordinary read with ended | interrupted
    · cases exits.symm.trans ended
    · cases exits.symm.trans interrupted
  | told read broken _ _ => exact absurd (Script.read_ordinary calm.ordinary read) broken
  | untold read broken _ _ => exact absurd (Script.read_ordinary calm.ordinary read) broken

theorem step_calm {loop : Loop} {script : Script} {turn : Turn Bool} (calm : script.Calm)
    (stepped : Steps loop script turn) : turn.script.Calm ∧ (∃ going, turn.outcome = .ok going) ∧
      turn.effects.filterMap Effect.report? = [] := by
  have taken := taking_silent Effect.report? loop fun _ => rfl
  cases stepped with
  | unshown written => cases (calm.write written).1
  | last written _ =>
    refine ⟨(calm.write written).2, ⟨false, rfl⟩, ?_⟩
    rw [Turn.after, List.filterMap_append, taken]
    rfl
  | waits written _ received =>
    obtain ⟨left, another, quiet⟩ := receive_calm (calm.write written).2 received
    refine ⟨left, ⟨true, another⟩, ?_⟩
    simp only [Turn.after, List.filterMap_append, taken, quiet]
    rfl

theorem step_returns {loop : Loop} {script : Script} {turn : Turn Bool} {fault : Fault}
    (calm : script.Calm) (stepped : loop.step script = turn) : turn.outcome ≠ .error fault := by
  subst stepped
  obtain ⟨_, ⟨going, returned⟩, _⟩ := step_calm calm (step_sound loop script)
  intro raised
  cases returned.symm.trans raised

theorem run_calm {loop : Loop} {script : Script} {count : Nat} {whole : Turn Screen}
    (ends : Ends loop script count whole) (calm : script.Calm) :
    (∃ screen, whole.outcome = .ok screen) ∧ whole.effects.filterMap Effect.report? = [] := by
  induction ends with
  | last stepped _ =>
    subst stepped
    exact ⟨⟨_, rfl⟩, (step_calm calm (step_sound _ _)).2.2⟩
  | next stepped _ _ ih =>
    subst stepped
    obtain ⟨left, _, quiet⟩ := step_calm calm (step_sound _ _)
    obtain ⟨returned, later⟩ := ih left
    refine ⟨returned, ?_⟩
    rw [Turn.after, List.filterMap_append, quiet, later]
    rfl
  | leaves stepped raised _ => exact absurd raised (step_returns calm stepped)
  | resumes stepped raised _ _ _ _ => exact absurd raised (step_returns calm stepped)
  | fails stepped raised _ _ => exact absurd raised (step_returns calm stepped)

end Loop

end LineShell
