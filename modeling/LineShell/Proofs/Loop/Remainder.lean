import LineShell.Proofs.Loop.Input
import LineShell.Proofs.Loop.Survival
import LineShell.Proofs.Text.Basic

namespace LineShell

section
variable {α : Type} [DecidableEq α] {mark : α} {before after : List α}

-- What stands in front of the first of its kind, and what stands behind it.
def ahead (mark : α) (items : List α) : List α := items.takeWhile (· ≠ mark)
def behind (mark : α) (items : List α) : List α := (items.dropWhile (· ≠ mark)).tail

theorem before_unmarked (first : mark ∉ before) : ∀ item ∈ before, decide (item ≠ mark) = true :=
  fun _ among => decide_eq_true (ne_of_mem_of_not_mem among first)

theorem ahead_append (first : mark ∉ before) : ahead mark (before ++ mark :: after) = before :=
  (parted_at (before_unmarked first) (by simp)).1

theorem behind_append (first : mark ∉ before) : behind mark (before ++ mark :: after) = after := by
  rw [behind, (parted_at (before_unmarked first) (by simp)).2, List.tail_cons]

end

def Effect.failed : Effect → Bool
  | .writeFailed _ _ => true
  | _ => false

-- What becomes of events that arrive one behind the other: those before the first quit are
-- taken, then the quit, and of those behind it one more for each write that fails from then on.
def Remains (arrivals : List Event) (effects : List Effect) (left : List Event) : Prop :=
  ∃ before behind earlier later,
    arrivals = before ++ .quit :: behind ∧ .quit ∉ before ∧
      effects = earlier ++ .took .quit :: later ∧ earlier.filterMap Effect.taken? = before ∧
      later.filterMap Effect.taken? = behind.take (later.countP Effect.failed) ∧
      left = behind.drop (later.countP Effect.failed)

-- What is taken before the first quit changes nothing for what stands behind it.
theorem Remains.after {queue entered middle more left : List Event} {first effects : List Effect}
    (conserved : queue ++ entered = first.filterMap Effect.taken? ++ middle)
    (live : .quit ∉ first.filterMap Effect.taken?) (remains : Remains (middle ++ more) effects left) :
    Remains (queue ++ (entered ++ more)) (first ++ effects) left := by
  obtain ⟨before, behind, earlier, later, arrivals, fresh, shape, taken, account⟩ := remains
  refine ⟨first.filterMap Effect.taken? ++ before, behind, first ++ earlier, later, ?_, ?_, ?_, ?_, account⟩
  · rw [← List.append_assoc, conserved, List.append_assoc, arrivals, List.append_assoc]
  · simp [live, fresh]
  · rw [shape, List.append_assoc]
  · rw [List.filterMap_append, taken]

namespace Loop

variable {loop : Loop} {script : Script} {screen : Screen}

theorem taking_events (loop : Loop) :
    loop.taking.filterMap Effect.taken? = loop.queue.take 1 ∧
      loop.taking.countP Effect.failed = 0 := by
  rw [taking]
  cases loop.queue <;> exact ⟨rfl, rfl⟩

theorem advance_drop (loop : Loop) : loop.advance.queue = loop.queue.drop 1 := by
  obtain ⟨interpreter, screen, queue, current⟩ := loop
  cases queue <;> rfl

-- A turn that is to be the last one enters nothing, and its screen is shown or fails to be.
structure Closes (loop : Loop) (turn : Turn Bool) : Prop where
  advanced : turn.loop = loop.advance
  entered : turn.entered = []
  attempt : ∃ attempt, turn.effects = loop.taking ++ [attempt] ∧ attempt.taken? = none ∧
    (turn.outcome = .ok false ∧ attempt.failed = false ∨
      ∃ fault, turn.outcome = .error fault ∧ attempt.failed = true)

theorem step_closes {turn : Turn Bool} (stepped : Steps loop script turn)
    (stopped : loop.advance.screen.quit = true) : Closes loop turn := by
  cases stepped with
  | unshown _ => exact ⟨rfl, taking_entered loop _, _, rfl, rfl, .inr ⟨_, rfl, rfl⟩⟩
  | last _ _ => exact ⟨rfl, taking_entered loop _, _, rfl, rfl, .inl ⟨rfl, rfl⟩⟩
  | waits _ going _ => cases stopped.symm.trans going

-- From the turn of the quit on each turn that fails is followed by one that takes one more
-- event, until the screen is shown.
theorem stopped_remainder {count : Nat} {whole : Turn Screen} (ends : Ends loop script count whole)
    (stopped : loop.advance.screen.quit = true) (returned : whole.outcome = .ok screen) :
    whole.entered = [] ∧ ∃ later, whole.effects = loop.taking ++ later ∧
      later.filterMap Effect.taken? = loop.advance.queue.take (later.countP Effect.failed) ∧
      whole.loop.queue = loop.advance.queue.drop (later.countP Effect.failed) := by
  induction ends with
  | @last loop script _ stepped finished =>
    subst stepped
    obtain ⟨advanced, entered, attempt, shape, silent, ⟨_, shown⟩ | ⟨_, raised, _⟩⟩ :=
      step_closes (step_sound loop script) stopped
    · refine ⟨entered, [attempt], shape, ?_, ?_⟩
      · simp [shown, silent]
      · simp [shown, advanced]
    · cases finished.symm.trans raised
  | @next loop script _ _ _ stepped another _ _ =>
    subst stepped
    have turned := step_sound loop script
    exact absurd (step_silent turned stopped) (step_asks turned another)
  | leaves _ _ _ => cases returned
  | @resumes loop script _ _ fault _ rest stepped raised _ _ _ ih =>
    subst stepped
    obtain ⟨advanced, entered, attempt, shape, silent, ⟨finished, _⟩ | ⟨_, _, unshown⟩⟩ :=
      step_closes (step_sound loop script) stopped
    · cases finished.symm.trans raised
    · have still : loop.advance.advance.screen.quit = true := (advance_quit _).mpr (.inl stopped)
      obtain ⟨nothing, later, effects, taken, left⟩ := ih (advanced.symm ▸ still) returned
      obtain ⟨took, unfailed⟩ := loop.advance.taking_events
      rw [advanced] at effects taken left
      rw [advance_drop] at taken left
      let behind := attempt :: caught loop.advance fault :: .wrote (unhandled fault) :: rest.effects
      have failures : behind.countP Effect.failed = 1 + later.countP Effect.failed := by
        have reported : (caught loop.advance fault).failed = false := rfl
        have shown : (Effect.wrote (unhandled fault)).failed = false := rfl
        simp [behind, effects, unshown, unfailed, reported, shown, Nat.add_comm]
      refine ⟨?_, behind, ?_, ?_, ?_⟩
      · rw [Turn.after_entered, handled_entered _ _ rfl, entered, nothing]
        rfl
      · simp [Turn.after, shape, advanced, behind]
      · rw [failures, List.take_add, ← took, ← taken, ← List.filterMap_append, ← effects]
        exact List.filterMap_cons_none silent
      · rw [failures, ← List.drop_drop]
        exact left
  | fails _ _ _ _ => cases returned

theorem quit_queue (fresh : loop.screen.quit = false) (quits : loop.advance.screen.quit = true) :
    loop.queue = .quit :: loop.advance.queue ∧ loop.taking = [.took .quit] := by
  rw [advance_quit, fresh, oldest] at quits
  rw [loop.advance_drop, taking]
  cases waiting : loop.queue with
  | nil => simp [waiting] at quits
  | cons event rest => simpa [waiting, eq_comm] using quits

-- A session that returns takes its first quit at some turn.
theorem quit_remains {count : Nat} {whole : Turn Screen} (ends : Ends loop script count whole)
    (fresh : loop.screen.quit = false) (quits : loop.advance.screen.quit = true)
    (returned : whole.outcome = .ok screen) :
    Remains (loop.queue ++ whole.entered) whole.effects whole.loop.queue := by
  obtain ⟨waiting, taking⟩ := quit_queue fresh quits
  obtain ⟨nothing, later, effects, taken, left⟩ := stopped_remainder ends quits returned
  refine ⟨[], loop.advance.queue, [], later, ?_, List.not_mem_nil, ?_, rfl, taken, left⟩
  · rw [nothing, List.append_nil, waiting]
    rfl
  · rw [effects, taking]
    rfl

theorem step_live {turn : Turn Bool} (stepped : Steps loop script turn)
    (going : loop.advance.screen.quit = false) : .quit ∉ turn.taken ∧ turn.loop.screen.quit = false := by
  rw [step_screen stepped, step_taken stepped]
  refine ⟨fun among => ?_, going⟩
  have stopped := (advance_quit loop).mpr (.inr among)
  cases stopped.symm.trans going

theorem run_remains {count : Nat} {whole : Turn Screen} (ends : Ends loop script count whole)
    (fresh : loop.screen.quit = false) (returned : whole.outcome = .ok screen) :
    Remains (loop.queue ++ whole.entered) whole.effects whole.loop.queue := by
  induction ends with
  | @last loop script _ stepped finished =>
    subst stepped
    have turned := step_sound loop script
    have quits : loop.advance.screen.quit = true := (step_screen turned) ▸ step_stops turned finished
    exact quit_remains (.last rfl finished) fresh quits returned
  | @next loop script _ _ _ stepped another ends ih =>
    subst stepped
    have turned := step_sound loop script
    cases quits : loop.advance.screen.quit with
    | true => exact quit_remains (.next rfl another ends) fresh quits returned
    | false =>
      obtain ⟨live, going⟩ := step_live turned quits
      rw [Turn.after_entered]
      exact (ih going returned).after (step_conserves turned).queue live
  | leaves _ _ _ => cases returned
  | @resumes loop script _ _ _ _ _ stepped raised stays shown ends ih =>
    subst stepped
    have turned := step_sound loop script
    cases quits : loop.advance.screen.quit with
    | true => exact quit_remains (.resumes rfl raised stays shown ends) fresh quits returned
    | false =>
      obtain ⟨live, going⟩ := step_live turned quits
      rw [Turn.after_entered, handled_entered _ _ rfl]
      refine (ih going returned).after ?_ ?_
      · rw [handled_taken _ _ rfl]
        exact (step_conserves turned).queue
      · rw [handled_taken _ _ rfl]
        exact live
  | fails _ _ _ _ => cases returned

-- A session that returns takes all that arrived up to the first quit, and one more event for each
-- write that fails behind it. So what stands behind the quit waits exactly if there is nothing
-- there or no such write fails.
theorem behind_quit_waits_iff (loop : Loop) (script : Script) (screen : Screen)
    (fresh : loop.screen.quit = false) (returned : (loop.run script).outcome = .ok screen) :
    let whole := loop.run script
    let arrivals := loop.queue ++ whole.entered
    let failures := (behind (.took .quit) whole.effects).countP Effect.failed
    .quit ∈ arrivals ∧
      whole.taken = ahead .quit arrivals ++ .quit :: (behind .quit arrivals).take failures ∧
      whole.loop.queue = (behind .quit arrivals).drop failures ∧
      ((whole.taken.filter (· ≠ .idle) = (ahead .quit arrivals).filter (· ≠ .idle) ++ [.quit] ∧
          whole.loop.queue = behind .quit arrivals) ↔
        behind .quit arrivals = [] ∨ failures = 0) := by
  intro whole arrivals failures
  obtain ⟨_, _, ends⟩ := run_counted loop script
  obtain ⟨before, rest, earlier, later, shape, first, effects, taken, account, left⟩ :=
    run_remains ends fresh returned
  have unquit : .took .quit ∉ earlier := by
    intro among
    exact first (taken ▸ List.mem_filterMap.mpr ⟨_, among, rfl⟩)
  have counted : later.countP Effect.failed = failures := by
    simp only [failures, whole, effects, behind_append unquit]
  rw [counted] at account left
  have takes : whole.taken = before ++ .quit :: rest.take failures := by
    rw [Turn.taken, effects, List.filterMap_append, taken, ← account]
    rfl
  rw [show arrivals = _ from shape, ahead_append first, behind_append first]
  refine ⟨by simp, takes, left, ?_⟩
  rw [takes, show whole.loop.queue = _ from left]
  constructor
  · rintro ⟨_, whole⟩
    have lengths := congrArg List.length whole
    rw [List.length_drop] at lengths
    rw [← List.length_eq_zero_iff]
    omega
  · rintro (none | unfailed)
    · simp [none]
    · simp [unfailed]

-- The first screen cannot be shown, but that is in front of the quit.
theorem shown_quit_keeps_command :
    let interpreter : Interpreter := { path := Path.ofText "kept" }
    let loop : Loop := { start interpreter [] with queue := [.command "a", .quit, .command "b"] }
    let whole := loop.run { writes := [some ⟨.value, "full"⟩] }
    let last := interpreter.update (interpreter.update interpreter.start (.command "a")) .quit
    loop.screen.quit = false ∧ whole.outcome = .ok last ∧
      whole.taken = [.command "a", .quit] ∧ whole.loop.queue = [.command "b"] := by
  intro interpreter loop whole last
  have run : whole = _ := ends_run (.resumes rfl rfl rfl rfl (.last rfl rfl))
  have returned : whole.outcome = .ok last := by
    rw [run]
    rfl
  obtain ⟨_, taken, left, _⟩ := behind_quit_waits_iff loop _ last rfl returned
  refine ⟨rfl, returned, taken.trans ?_, left.trans ?_⟩
  · rw [show loop.run _ = _ from run]
    decide
  · rw [show loop.run _ = _ from run]
    decide

-- The screen of the quit cannot be shown. The turn behind it takes the command.
theorem unshown_quit_takes_command :
    let interpreter : Interpreter := { path := Path.ofText "kept" }
    let loop : Loop := { start interpreter [] with queue := [.quit, .command "x"] }
    let whole := loop.run { writes := [some ⟨.value, "full"⟩] }
    loop.screen.quit = false ∧ (∃ screen, whole.outcome = .ok screen) ∧
      whole.taken = [.quit, .command "x"] ∧ whole.loop.queue = [] := by
  intro interpreter loop whole
  have run : whole = _ := ends_run (.resumes rfl rfl rfl rfl (.last rfl rfl))
  rw [run]
  exact ⟨rfl, ⟨_, rfl⟩, by decide, rfl⟩

end Loop

end LineShell
