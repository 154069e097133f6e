import LineShell.Loop.Basic

namespace LineShell.Loop

-- How many turns the queue can take before a quit is applied, reads apart.
def queueRank : List Event → Nat
  | [] => 1
  | .quit :: _ => 0
  | _ :: rest => queueRank rest + 1

def rank (loop : Loop) : Nat := if loop.screen.quit then 0 else queueRank loop.queue

-- Falls with every turn that another one follows.
def measure (loop : Loop) (script : Script) : Nat := 2 * script.size + loop.rank

theorem queueRank_push (queue : List Event) (event : Event) :
    queueRank (queue ++ [event]) ≤ queueRank queue + 1 := by
  induction queue with
  | nil => cases event <;> simp [queueRank]
  | cons head rest ih => cases head <;> simp [queueRank] <;> omega

theorem queueRank_push_quit (queue : List Event) :
    queueRank (queue ++ [.quit]) < queueRank queue ∨
      queueRank (queue ++ [.quit]) = queueRank queue ∧ .quit ∈ queue := by
  induction queue with
  | nil => simp [queueRank]
  | cons head rest ih =>
    cases head with
    | quit => simp [queueRank]
    | idle => simpa [queueRank] using ih
    | command text => simpa [queueRank] using ih

theorem queueRank_push_quit_le (queue : List Event) :
    queueRank (queue ++ [.quit]) ≤ queueRank queue := by
  rcases queueRank_push_quit queue with less | ⟨same, _⟩ <;> omega

theorem write_size (script : Script) :
    script.write.2.size ≤ script.size ∧
      (script.write.1 ≠ none → script.write.2.size < script.size) := by
  obtain ⟨reads, writes⟩ := script
  cases writes <;> simp [Script.write, Script.size]

theorem read_size (script : Script) :
    script.read = (.failed .endOfInput, script) ∨ script.read.2.size < script.size := by
  obtain ⟨reads, writes⟩ := script
  cases reads with
  | nil => exact .inl rfl
  | cons reading rest =>
    right
    simp [Script.read, Script.size]

-- Taking an event leaves the rank or lowers it, and leaves room for one more event.
theorem advance_rank (loop : Loop) (going : loop.advance.screen.quit = false) :
    queueRank loop.advance.queue ≤ loop.rank ∧
      queueRank (loop.advance.queue ++ [.quit]) < loop.rank ∧
      ∀ event, queueRank (loop.advance.queue ++ [event]) ≤ loop.rank + 1 := by
  obtain ⟨interpreter, screen, queue, current⟩ := loop
  cases queue with
  | nil =>
    have still : screen.quit = false := going
    refine ⟨?_, ?_, ?_⟩
    · simp [advance, rank, still]
    · simp [advance, rank, still, queueRank]
    · intro event
      have bound := queueRank_push [] event
      simpa [advance, rank, still, queueRank] using bound
  | cons head rest =>
    cases head with
    | quit => simp [advance, Interpreter.update, Screen.update] at going
    | idle =>
      have still : screen.quit = false := going
      have quits := queueRank_push_quit_le rest
      refine ⟨?_, ?_, ?_⟩
      · simp [advance, rank, still, queueRank]
      · simp [advance, rank, still, queueRank]
        omega
      · intro event
        have bound := queueRank_push rest event
        simp [advance, rank, still, queueRank]
        omega
    | command text =>
      have still : screen.quit = false := going
      have quits := queueRank_push_quit_le rest
      refine ⟨?_, ?_, ?_⟩
      · simp [advance, rank, still, queueRank]
      · simp [advance, rank, still, queueRank]
        omega
      · intro event
        have bound := queueRank_push rest event
        simp [advance, rank, still, queueRank]
        omega

theorem rank_le_queueRank (loop : Loop) : loop.rank ≤ queueRank loop.queue := by
  unfold rank
  split <;> omega

theorem receive_measure (loop : Loop) (script : Script) (bound : Nat)
    (kept : queueRank loop.queue ≤ bound)
    (quits : queueRank (loop.queue ++ [.quit]) < bound)
    (pushes : ∀ event, queueRank (loop.queue ++ [event]) ≤ bound + 1) :
    measure (loop.receive script).loop (loop.receive script).script < 2 * script.size + bound := by
  have whole := rank_le_queueRank loop
  have pushed (event : Event) := rank_le_queueRank (loop.push event)
  simp only [push] at pushed
  unfold measure receive
  rcases read_size script with ended | shorter
  · have stop := pushed .quit
    simp only [ended, Fault.endOfInput, true_or, if_true, push]
    omega
  · generalize script.read = answer at shorter
    obtain ⟨reading, left⟩ := answer
    have written := (write_size left).1
    cases reading with
    | line text =>
      have added := pushed (loop.interpreter.classify text)
      have room := pushes (loop.interpreter.classify text)
      simp only [push] at *
      omega
    | failed fault =>
      have stop := pushed .quit
      simp only [push] at *
      split
      · simp only
        omega
      · split
        · simp only
          omega
        · split <;> (simp only; omega)

-- Every turn but the last one lowers the measure.
theorem step_measure (loop : Loop) (script : Script)
    (another : (loop.step script).outcome ≠ .ok false) :
    measure (loop.step script).loop (loop.step script).script < measure loop script := by
  have written := write_size script
  unfold step at another ⊢
  generalize script.write = answer at written another ⊢
  obtain ⟨failure, left⟩ := answer
  cases failure with
  | some failure =>
    have shorter := written.2 (by simp)
    simp only [measure] at *
    cases stops : loop.advance.screen.quit with
    | true =>
      have low : loop.advance.rank = 0 := by simp [rank, stops]
      omega
    | false =>
      have low := (advance_rank loop stops).1
      have whole := rank_le_queueRank loop.advance
      omega
  | none =>
    cases stops : loop.advance.screen.quit with
    | true => simp [stops] at another
    | false =>
      obtain ⟨kept, quits, pushes⟩ := advance_rank loop stops
      have smaller := receive_measure loop.advance left loop.rank kept quits pushes
      simp only [stops, Bool.false_eq_true, if_false, Turn.after, measure] at *
      omega

-- Turns until one shows the last screen. A fault that leaves a turn is reported and
-- the session goes on, unless it is a request to leave or cannot even be shown.
def run (loop : Loop) (script : Script) : Turn Screen :=
  let turn := loop.step script
  match _ended : turn.outcome with
  | .ok false => ⟨.ok turn.loop.screen, turn.loop, turn.script, turn.effects⟩
  | .ok true => (run turn.loop turn.script).after turn.effects
  | .error fault =>
    if fault.isLeaving then ⟨.error fault, turn.loop, turn.script, turn.effects⟩
    else
      let report : Report :=
        { fault, command := turn.loop.current.text, screen := some turn.loop.screen }
      let text := unhandled fault
      let effects := turn.effects ++ [.reported report]
      match turn.script.write.1 with
      | some failure =>
        ⟨.error failure, turn.loop, turn.script.write.2, effects ++ [.writeFailed text failure]⟩
      | none => (run turn.loop turn.script.write.2).after (effects ++ [.wrote text])
termination_by measure loop script
decreasing_by
  · exact step_measure loop script (by rw [show (loop.step script).outcome = _ from _ended]; simp)
  · have smaller := step_measure loop script
      (by rw [show (loop.step script).outcome = _ from _ended]; simp)
    have written := (write_size (loop.step script).script).1
    simp only [measure] at *
    omega

end LineShell.Loop
