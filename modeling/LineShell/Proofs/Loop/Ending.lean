import LineShell.Proofs.Loop.Run

namespace LineShell

-- Two writes, one right behind the other, and both raised.
def Consecutive (first second : Fault) (writings : List (Option Fault)) : Prop :=
  [some first, some second] <:+: writings

namespace Consecutive

variable {first second : Fault} {writings : List (Option Fault)}

theorem written_iff : Consecutive first second (none :: writings) ↔ Consecutive first second writings := by
  unfold Consecutive
  rw [List.infix_cons_iff, List.cons_prefix_cons]
  constructor
  · intro found
    rcases found with ⟨same, _⟩ | later
    · cases same
    · exact later
  · exact .inr

theorem all_written_iff (count : Nat) :
    Consecutive first second (List.replicate count none ++ writings) ↔
      Consecutive first second writings := by
  induction count with
  | zero => rfl
  | succ count ih =>
    rw [List.replicate_succ, List.cons_append]
    exact written_iff.trans ih

theorem not_nil : ¬ Consecutive first second [] := by
  intro found
  cases List.eq_nil_of_infix_nil found

theorem not_single (fault : Fault) : ¬ Consecutive first second [some fault] := by
  unfold Consecutive
  rw [List.infix_cons_iff, List.cons_prefix_cons]
  intro found
  rcases found with ⟨_, rest⟩ | later
  · cases List.eq_nil_of_prefix_nil rest
  · exact not_nil later

theorem recovered_iff (fault : Fault) :
    Consecutive first second (some fault :: none :: writings) ↔
      Consecutive first second writings := by
  refine Iff.trans ?_ written_iff
  unfold Consecutive
  rw [List.infix_cons_iff, List.cons_prefix_cons, List.cons_prefix_cons]
  constructor
  · intro found
    rcases found with ⟨_, same, _⟩ | later
    · cases same
    · exact later
  · exact .inr

theorem pair_iff (fault failure : Fault) :
    Consecutive first second [some fault, some failure] ↔ first = fault ∧ second = failure := by
  constructor
  · intro found
    rcases List.infix_cons_iff.mp found with start | later
    · obtain ⟨one, rest⟩ := List.cons_prefix_cons.mp start
      obtain ⟨two, _⟩ := List.cons_prefix_cons.mp rest
      exact ⟨Option.some.inj one, Option.some.inj two⟩
    · exact absurd later (not_single failure)
  · intro same
    obtain ⟨rfl, rfl⟩ := same
    exact List.infix_rfl

end Consecutive

-- The two effects that a fault can leave at: a write that raised it, or a read that was
-- told to leave.
inductive Escapes (effects : List Effect) (fault : Fault) : Prop where
  | write (text : Text) (last : effects.getLast? = some (.writeFailed text fault))
  | read (last : effects.getLast? = some (.asked [] (.failed fault))) (exits : fault.kind = .exit)

namespace Escapes

variable {effects : List Effect} {fault : Fault}

theorem after (before : List Effect) (escapes : Escapes effects fault) :
    Escapes (before ++ effects) fault := by
  cases escapes with
  | write text last =>
    refine .write text ?_
    rw [List.getLast?_append, last, Option.some_or]
  | read last exits =>
    refine .read ?_ exits
    rw [List.getLast?_append, last, Option.some_or]

theorem of_write (before : List Effect) (text : Text) (fault : Fault) :
    Escapes (before ++ [.writeFailed text fault]) fault :=
  .write text List.getLast?_concat

end Escapes

namespace Script.Answers

variable {before after : Script} {readings : List Reading} {writings : List (Option Fault)}
  {fault : Fault}

theorem scripted_write (answers : before.Answers readings writings after)
    (raised : some fault ∈ writings) : some fault ∈ before.writes := by
  obtain ⟨count, same⟩ := answers.writes
  have present : some fault ∈ before.writes ++ List.replicate count none := by
    rw [← same]
    exact List.mem_append_left _ raised
  rcases List.mem_append.mp present with scripted | filler
  · exact scripted
  · cases List.eq_of_mem_replicate filler

theorem scripted_read (answers : before.Answers readings writings after)
    (raised : .failed fault ∈ readings) (more : fault ≠ .endOfInput) :
    .failed fault ∈ before.reads := by
  obtain ⟨count, same⟩ := answers.reads
  have present : .failed fault ∈ before.reads ++ List.replicate count (.failed .endOfInput) := by
    rw [← same]
    exact List.mem_append_left _ raised
  rcases List.mem_append.mp present with scripted | filler
  · exact scripted
  · cases List.eq_of_mem_replicate filler
    exact absurd rfl more

end Script.Answers

namespace Loop

theorem receive_escapes {loop : Loop} {script : Script} {turn : Turn Bool} {fault : Fault}
    (received : Receives loop script turn) (raised : turn.outcome = .error fault) :
    Escapes turn.effects fault := by
  cases received with
  | line _ => cases raised
  | ended _ _ => cases raised
  | left _ exits =>
    cases raised
    exact .read rfl exits
  | told _ _ _ _ => cases raised
  | untold _ _ _ _ =>
    cases raised
    exact .write _ rfl

theorem step_escapes {loop : Loop} {script : Script} {turn : Turn Bool} {fault : Fault}
    (stepped : Steps loop script turn) (raised : turn.outcome = .error fault) :
    Escapes turn.effects fault := by
  cases stepped with
  | unshown _ =>
    cases raised
    exact .of_write _ _ _
  | last _ _ => cases raised
  | waits _ _ received => exact ((receive_escapes received raised).after _).after _

theorem step_stops {loop : Loop} {script : Script} {turn : Turn Bool}
    (stepped : Steps loop script turn) (finished : turn.outcome = .ok false) :
    turn.loop.screen.quit = true := by
  cases stepped with
  | unshown _ => cases finished
  | last _ stopped => exact stopped
  | waits _ _ received => cases received <;> cases finished

-- What a turn writes. All of it is written, but for a last text that raises the fault
-- which leaves the turn.
theorem step_writings {loop : Loop} {script : Script} {turn : Turn Bool}
    (stepped : Steps loop script turn) :
    ∃ count, (turn.writings = List.replicate count none ∧
        ∀ fault, turn.outcome = .error fault → fault.isLeaving = true) ∨
      ∃ fault, turn.writings = List.replicate count none ++ [some fault] ∧
        turn.outcome = .error fault := by
  cases stepped with
  | @unshown failure _ _ =>
    refine ⟨0, .inr ⟨failure, ?_, rfl⟩⟩
    rw [taking_writings]
    rfl
  | last _ _ =>
    refine ⟨1, .inl ⟨?_, ?_⟩⟩
    · rw [taking_writings]
      rfl
    · intro fault raised
      cases raised
  | waits _ _ received =>
    rw [taking_writings, Turn.after_writings]
    cases received with
    | line _ =>
      refine ⟨1, .inl ⟨rfl, ?_⟩⟩
      intro fault raised
      cases raised
    | ended _ _ =>
      refine ⟨1, .inl ⟨rfl, ?_⟩⟩
      intro fault raised
      cases raised
    | left _ exits =>
      refine ⟨1, .inl ⟨rfl, ?_⟩⟩
      intro fault raised
      cases raised
      simp [Fault.isLeaving, exits]
    | told _ _ _ _ =>
      refine ⟨2, .inl ⟨rfl, ?_⟩⟩
      intro fault raised
      cases raised
    | @untold _ failure _ _ _ _ _ _ => exact ⟨1, .inr ⟨failure, rfl, rfl⟩⟩

theorem step_returned {loop : Loop} {script : Script} {turn : Turn Bool} {going : Bool}
    (stepped : Steps loop script turn) (returned : turn.outcome = .ok going) :
    ∃ count, turn.writings = List.replicate count none := by
  obtain ⟨count, ⟨written, _⟩ | ⟨fault, _, raised⟩⟩ := step_writings stepped
  · exact ⟨count, written⟩
  · cases returned.symm.trans raised

theorem step_raised {loop : Loop} {script : Script} {turn : Turn Bool} {fault : Fault}
    (stepped : Steps loop script turn) (raised : turn.outcome = .error fault)
    (stays : fault.isLeaving = false) :
    ∃ count, turn.writings = List.replicate count none ++ [some fault] := by
  obtain ⟨count, ⟨_, leaving⟩ | ⟨other, written, same⟩⟩ := step_writings stepped
  · cases stays.symm.trans (leaving fault raised)
  · cases raised.symm.trans same
    exact ⟨count, written⟩

theorem step_never_consecutive {loop : Loop} {script : Script} {turn : Turn Bool}
    (stepped : Steps loop script turn) (first second : Fault) :
    ¬ Consecutive first second turn.writings := by
  obtain ⟨count, ⟨written, _⟩ | ⟨fault, written, _⟩⟩ := step_writings stepped
  · rw [written, ← List.append_nil (List.replicate count none), Consecutive.all_written_iff]
    exact Consecutive.not_nil
  · rw [written, Consecutive.all_written_iff]
    exact Consecutive.not_single fault

theorem run_stops {loop : Loop} {script : Script} {count : Nat} {whole : Turn Screen}
    (ends : Ends loop script count whole) {screen : Screen} (returned : whole.outcome = .ok screen) :
    screen.quit = true ∧ whole.loop.screen = screen := by
  induction ends with
  | last stepped finished =>
    subst stepped
    cases returned
    exact ⟨step_stops (step_sound _ _) finished, rfl⟩
  | next _ _ _ ih => exact ih returned
  | leaves _ _ _ => cases returned
  | resumes _ _ _ _ _ ih => exact ih returned
  | fails _ _ _ _ => cases returned

theorem run_escapes {loop : Loop} {script : Script} {count : Nat} {whole : Turn Screen}
    (ends : Ends loop script count whole) {fault : Fault} (raised : whole.outcome = .error fault) :
    Escapes whole.effects fault := by
  induction ends with
  | last _ _ => cases raised
  | next _ _ _ ih => exact (ih raised).after _
  | leaves stepped left _ =>
    subst stepped
    cases raised
    exact step_escapes (step_sound _ _) left
  | resumes _ _ _ _ _ ih => exact (ih raised).after _
  | fails _ _ _ _ =>
    cases raised
    exact .of_write _ _ _

theorem run_scripted {loop : Loop} {script : Script} {count : Nat} {whole : Turn Screen}
    (ends : Ends loop script count whole) {fault : Fault} (raised : whole.outcome = .error fault) :
    (∃ text, whole.effects.getLast? = some (.writeFailed text fault) ∧ some fault ∈ script.writes) ∨
      whole.effects.getLast? = some (.asked [] (.failed fault)) ∧ .failed fault ∈ script.reads ∧
        fault.kind = .exit := by
  have answers := run_answers ends
  cases run_escapes ends raised with
  | write text last =>
    have raised : some fault ∈ whole.writings :=
      List.mem_filterMap.mpr ⟨_, List.mem_of_getLast? last, rfl⟩
    exact .inl ⟨text, last, answers.scripted_write raised⟩
  | read last exits =>
    have raised : .failed fault ∈ whole.readings :=
      List.mem_filterMap.mpr ⟨_, List.mem_of_getLast? last, rfl⟩
    refine .inr ⟨last, answers.scripted_read raised ?_, exits⟩
    intro same
    subst same
    cases exits

-- A fault of a turn stands right before the write of its report, so two faults stand
-- side by side only where the report could not be written, and that ends the session.
theorem run_consecutive {loop : Loop} {script : Script} {count : Nat} {whole : Turn Screen}
    (ends : Ends loop script count whole) (second : Fault) :
    (whole.outcome = .error second ∧ second.isLeaving = false) ↔
      ∃ first, first.isLeaving = false ∧ second.isLeaving = false ∧
        Consecutive first second whole.writings := by
  induction ends with
  | last stepped _ =>
    subst stepped
    constructor
    · intro escaped
      cases escaped.1
    · intro pair
      obtain ⟨first, _, _, found⟩ := pair
      exact absurd found (step_never_consecutive (step_sound _ _) first second)
  | next stepped another _ ih =>
    subst stepped
    obtain ⟨count, written⟩ := step_returned (step_sound _ _) another
    refine ih.trans ?_
    rw [Turn.after_writings, ← Turn.writings, written]
    simp only [Consecutive.all_written_iff]
  | leaves stepped _ leaving =>
    subst stepped
    constructor
    · intro escaped
      obtain ⟨raised, stays⟩ := escaped
      cases raised
      cases stays.symm.trans leaving
    · intro pair
      obtain ⟨first, _, _, found⟩ := pair
      exact absurd found (step_never_consecutive (step_sound _ _) first second)
  | resumes stepped raised stays _ _ ih =>
    subst stepped
    obtain ⟨count, written⟩ := step_raised (step_sound _ _) raised stays
    refine ih.trans ?_
    rw [Turn.after_writings, handled_writings _ _ rfl, written]
    simp only [List.append_assoc, List.cons_append, List.nil_append, Consecutive.all_written_iff,
      Consecutive.recovered_iff]
  | @fails _ _ _ _ fault failure stepped raised stays _ =>
    subst stepped
    obtain ⟨count, written⟩ := step_raised (step_sound _ _) raised stays
    rw [Turn.writings, handled_writings _ _ rfl, written]
    simp only [List.append_assoc, List.cons_append, List.nil_append, Consecutive.all_written_iff,
      Consecutive.pair_iff]
    constructor
    · intro escaped
      obtain ⟨same, kept⟩ := escaped
      cases same
      exact ⟨fault, stays, kept, rfl, rfl⟩
    · intro pair
      obtain ⟨first, _, kept, _, same⟩ := pair
      exact ⟨congrArg Except.error same.symm, kept⟩

theorem queueRank_le_length (queue : List Event) : queueRank queue ≤ queue.length + 1 := by
  induction queue with
  | nil => exact Nat.le_refl 1
  | cons head rest ih => cases head <;> simp only [queueRank, List.length_cons] <;> omega

-- Every session ends, and in one of these ways: with a last screen, by a fault that
-- asks to leave, or because a write and the report of its fault failed in a row.
theorem run_ends (loop : Loop) (script : Script) :
    (∃ count ≤ 2 * script.size + loop.queue.length + 2, Ends loop script count (loop.run script)) ∧
      (match (loop.run script).outcome with
        | .ok screen => screen.quit = true ∧ (loop.run script).loop.screen = screen
        | .error fault =>
          (∃ text, (loop.run script).effects.getLast? = some (.writeFailed text fault) ∧
            some fault ∈ script.writes) ∨
          (loop.run script).effects.getLast? = some (.asked [] (.failed fault)) ∧
            .failed fault ∈ script.reads ∧ fault.kind = .exit) ∧
      ∀ second, ((loop.run script).outcome = .error second ∧ second.isLeaving = false) ↔
        ∃ first, first.isLeaving = false ∧ second.isLeaving = false ∧
          Consecutive first second (loop.run script).writings := by
  obtain ⟨count, bound, ends⟩ := run_counted loop script
  refine ⟨⟨count, ?_, ends⟩, ?_, run_consecutive ends⟩
  · have whole := rank_le_queueRank loop
    have length := queueRank_le_length loop.queue
    unfold measure at bound
    omega
  · cases outcome : (loop.run script).outcome with
    | ok screen => exact run_stops ends outcome
    | error fault => exact run_scripted ends outcome

end Loop

end LineShell
