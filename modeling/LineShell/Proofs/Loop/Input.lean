import LineShell.Proofs.Loop.Conservation
import LineShell.Proofs.Loop.Ending

namespace LineShell

-- A read that failed although the input had neither ended nor been interrupted.
def Fault.breaksInput (fault : Fault) : Prop := ¬ fault.endsInput ∧ fault.isLeaving = false

instance (fault : Fault) : Decidable fault.breaksInput :=
  inferInstanceAs (Decidable (¬ fault.endsInput ∧ fault.isLeaving = false))

def Stops (after : List Effect) : Prop :=
  after.filterMap Effect.reading? = [] ∧ (after.filterMap Effect.taken?).head? = some .quit

-- The user has been told of a broken read, right behind it.
def Owned (fault : Fault) (after : List Effect) : Prop :=
  [.reported { fault }, .wrote (Loop.inputFailed fault)] <+: after

-- Behind each broken read the session stops exactly if the user could be told of it.
def Heeds : List Effect → Prop
  | [] => True
  | effect :: after =>
    (∀ prompt fault, effect = .asked prompt (.failed fault) → fault.breaksInput →
      (Stops after ↔ Owned fault after)) ∧ Heeds after

namespace Heeds

variable {effect : Effect} {before after : List Effect} {prompt : Text} {reading : Reading} {fault : Fault}

theorem quiet (silent : effect.reading? = none) (rest : Heeds after) : Heeds (effect :: after) := by
  refine ⟨?_, rest⟩
  intro prompt fault same
  subst same
  cases silent

theorem sound (answer : ∀ fault, reading = .failed fault → ¬ fault.breaksInput) (rest : Heeds after) :
    Heeds (.asked prompt reading :: after) := by
  refine ⟨?_, rest⟩
  intro prompt fault same broken
  cases same
  exact absurd broken (answer fault rfl)

theorem broken (exactly : Stops after ↔ Owned fault after) (rest : Heeds after) :
    Heeds (.asked prompt (.failed fault) :: after) := by
  refine ⟨?_, rest⟩
  intro _ _ same _
  cases same
  exact exactly

theorem split (heeds : Heeds (before ++ .asked prompt (.failed fault) :: after))
    (breaks : fault.breaksInput) : Stops after ↔ Owned fault after := by
  induction before with
  | nil => exact heeds.1 prompt fault rfl breaks
  | cons effect rest ih => exact ih heeds.2

end Heeds

namespace Loop

theorem taking_heeds (loop : Loop) {after : List Effect} (rest : Heeds after) :
    Heeds (loop.taking ++ after) := by
  rw [taking]
  cases loop.queue with
  | nil => exact rest
  | cons event more => exact .quiet rfl rest

-- A last screen that cannot be shown is shown again, and no line is asked for.
theorem step_silent {loop : Loop} {script : Script} {turn : Turn Bool}
    (stepped : Steps loop script turn) (stopped : loop.advance.screen.quit = true) :
    turn.readings = [] := by
  cases stepped with
  | unshown _ =>
    rw [taking_readings]
    rfl
  | last _ _ =>
    rw [taking_readings]
    rfl
  | waits _ going _ => cases stopped.symm.trans going

theorem step_asks {loop : Loop} {script : Script} {turn : Turn Bool}
    (stepped : Steps loop script turn) (another : turn.outcome = .ok true) : turn.readings ≠ [] := by
  cases stepped with
  | unshown _ => cases another
  | last _ _ => cases another
  | waits _ _ received =>
    rw [taking_readings, Turn.after_readings]
    cases received <;> exact List.cons_ne_nil _ _

theorem run_silent {loop : Loop} {script : Script} {count : Nat} {whole : Turn Screen}
    (ends : Ends loop script count whole) (drained : loop.Drained)
    (stopped : loop.advance.screen.quit = true) : whole.readings = [] := by
  induction ends with
  | last stepped _ =>
    subst stepped
    exact step_silent (step_sound _ _) stopped
  | next stepped another _ _ =>
    subst stepped
    exact absurd (step_silent (step_sound _ _) stopped) (step_asks (step_sound _ _) another)
  | leaves stepped _ _ =>
    subst stepped
    exact step_silent (step_sound _ _) stopped
  | @resumes loop script _ _ _ _ _ stepped raised _ _ _ ih =>
    subst stepped
    have turned := step_sound loop script
    have same := raised_advances turned raised
    rw [Turn.after_readings, handled_readings _ _ rfl, step_silent turned stopped, List.nil_append]
    refine ih (step_drained drained turned) ?_
    rw [same, advance_empty drained]
    exact stopped
  | fails stepped _ _ _ =>
    subst stepped
    rw [Turn.readings, handled_readings _ _ rfl]
    exact step_silent (step_sound _ _) stopped

theorem run_takes {loop : Loop} {script : Script} {count : Nat} {whole : Turn Screen}
    (ends : Ends loop script count whole) : ∃ later, whole.taken = loop.oldest ++ later := by
  obtain ⟨later, begins⟩ := run_begins ends
  refine ⟨later.filterMap Effect.taken?, ?_⟩
  rw [Turn.taken, begins, List.filterMap_append, ← Turn.taken, step_taken (step_sound _ _)]

-- When nothing waits only a line can bring an event.
theorem run_starved {loop : Loop} {script : Script} {count : Nat} {whole : Turn Screen}
    (ends : Ends loop script count whole) (empty : loop.queue = []) (going : loop.screen.quit = false)
    (unread : whole.readings = []) : whole.taken = [] := by
  induction ends with
  | @last loop script _ stepped finished =>
    subst stepped
    have turned := step_sound loop script
    have stopped := step_stops turned finished
    rw [step_advances turned (by rw [finished]; simp), advance_empty empty, going] at stopped
    cases stopped
  | next stepped another _ _ =>
    subst stepped
    rw [Turn.after_readings, List.append_eq_nil_iff] at unread
    exact absurd unread.1 (step_asks (step_sound _ _) another)
  | leaves stepped _ _ =>
    subst stepped
    exact step_takes_nothing (step_sound _ _) empty
  | @resumes loop script _ _ _ _ _ stepped raised _ _ _ ih =>
    subst stepped
    have turned := step_sound loop script
    have same := raised_advances turned raised
    rw [Turn.after_readings, List.append_eq_nil_iff] at unread
    have later := ih (by rw [same]; exact empty_drained empty)
      (by rw [same, advance_empty empty]; exact going) unread.2
    rw [Turn.after_taken, handled_taken _ _ rfl, step_takes_nothing turned empty, later]
    rfl
  | fails stepped _ _ _ =>
    subst stepped
    rw [Turn.taken, handled_taken _ _ rfl]
    exact step_takes_nothing (step_sound _ _) empty

-- What a turn has to be followed by, so that each broken read in it is heeded: a quit if it
-- entered one and nothing else, and no end of the reading if a fault left it.
theorem receive_heeds {loop : Loop} {script : Script} {turn : Turn Bool} {after : List Effect}
    (received : Receives loop script turn) (rest : Heeds after)
    (stops : turn.outcome = .ok true → turn.loop = loop.push .quit → Stops after)
    (starves : turn.outcome ≠ .ok true → ¬ Stops after) : Heeds (turn.effects ++ after) := by
  cases received with
  | line _ =>
    refine .sound ?_ (.quiet rfl rest)
    intro fault same
    cases same
  | ended _ ends =>
    refine .sound ?_ (.quiet rfl rest)
    intro fault same breaks
    cases same
    exact breaks.1 ends
  | left _ exits =>
    refine .sound ?_ rest
    intro fault same breaks
    cases same
    simp [Fault.breaksInput, Fault.isLeaving, exits] at breaks
  | @told fault _ _ _ _ _ _ =>
    have stopping := stops rfl rfl
    have owned : Owned fault (.reported { fault } :: .wrote (inputFailed fault) ::
        .queued .quit :: after) := List.prefix_append [_, _] _
    exact .broken (iff_of_true stopping owned) (.quiet rfl (.quiet rfl (.quiet rfl rest)))
  | untold _ _ _ _ =>
    have starving := starves (by simp)
    refine .broken (iff_of_false starving ?_) (.quiet rfl (.quiet rfl rest))
    intro owned
    cases (List.cons_prefix_cons.mp (List.cons_prefix_cons.mp owned).2).1

theorem step_heeds {loop : Loop} {script : Script} {turn : Turn Bool} {after : List Effect}
    (stepped : Steps loop script turn) (rest : Heeds after)
    (stops : turn.outcome = .ok true → turn.loop = loop.advance.push .quit → Stops after)
    (starves : turn.outcome ≠ .ok true → loop.advance.screen.quit = false → ¬ Stops after) :
    Heeds (turn.effects ++ after) := by
  cases stepped with
  | unshown _ =>
    rw [Turn.after, List.append_assoc]
    exact taking_heeds loop (.quiet rfl rest)
  | last _ _ =>
    rw [Turn.after, List.append_assoc]
    exact taking_heeds loop (.quiet rfl rest)
  | waits _ going received =>
    have heeds := receive_heeds received rest stops fun still => starves still going
    rw [Turn.after, List.append_assoc]
    exact taking_heeds loop (.quiet rfl heeds)

theorem not_stops_nil : ¬ Stops [] := by
  intro stops
  cases stops.2

theorem run_heeds {loop : Loop} {script : Script} {count : Nat} {whole : Turn Screen}
    (ends : Ends loop script count whole) (drained : loop.Drained) : Heeds whole.effects := by
  induction ends with
  | last stepped finished =>
    subst stepped
    rw [← List.append_nil (Turn.effects _)]
    refine step_heeds (step_sound _ _) True.intro ?_ fun _ _ => not_stops_nil
    intro another
    cases finished.symm.trans another
  | @next loop script _ _ rest stepped another ends ih =>
    subst stepped
    have turned := step_sound loop script
    refine step_heeds turned (ih (step_drained drained turned)) ?_ ?_
    · intro _ entered
      have quits : (loop.step script).loop.advance.screen.quit = true := by
        rw [entered, advance_push drained]
        rfl
      obtain ⟨later, taken⟩ := run_takes ends
      refine ⟨run_silent ends (step_drained drained turned) quits, ?_⟩
      rw [← Turn.taken, taken, entered, oldest_push drained]
      rfl
    · intro still
      exact absurd another still
  | leaves stepped raised _ =>
    subst stepped
    rw [← List.append_nil (Turn.effects _)]
    refine step_heeds (step_sound _ _) True.intro ?_ fun _ _ => not_stops_nil
    intro another
    cases raised.symm.trans another
  | @resumes loop script _ _ _ _ rest stepped raised _ _ ends ih =>
    subst stepped
    have turned := step_sound loop script
    have same := raised_advances turned raised
    have later := ih (step_drained drained turned)
    rw [Turn.after, List.append_assoc, List.append_assoc]
    refine step_heeds turned (.quiet rfl (.quiet rfl later)) ?_ ?_
    · intro another
      cases raised.symm.trans another
    · -- The fault left nothing in the queue, and out of an empty queue comes no quit.
      intro _ going stops
      have empty : (loop.step script).loop.queue = [] := by
        rw [same]
        exact drained
      have still : (loop.step script).loop.screen.quit = false := by
        rw [same]
        exact going
      have next : rest.taken.head? = some .quit := stops.2
      rw [run_starved ends empty still stops.1] at next
      cases next
  | fails stepped raised _ _ =>
    subst stepped
    dsimp only
    rw [List.append_assoc]
    refine step_heeds (step_sound _ _) (.quiet rfl (.quiet rfl True.intro)) ?_ ?_
    · intro another
      cases raised.symm.trans another
    · intro _ _ stops
      cases stops.2

-- A broken input ends the reading exactly if the text that tells of it can be written. The
-- quit is entered behind that write; when it raises nothing waits, and the next turn reads
-- again.
theorem broken_input_stops_iff (interpreter : Interpreter) (command : Text) (script : Script)
    (before after : List Effect) (prompt : Text) (fault : Fault)
    (occurs : ((start interpreter command).run script).effects =
      before ++ .asked prompt (.failed fault) :: after)
    (unexpected : ¬ fault.endsInput) (failure : fault.isLeaving = false) :
    (after.filterMap Effect.reading? = [] ∧ (after.filterMap Effect.taken?).head? = some .quit) ↔
      [.reported { fault }, .wrote (inputFailed fault)] <+: after := by
  obtain ⟨_, _, ends⟩ := run_counted (start interpreter command) script
  have heeds := run_heeds ends (start_drained interpreter command)
  rw [occurs] at heeds
  exact heeds.split ⟨unexpected, failure⟩

-- Screens fail to be written, but the text that tells of the break does not.
def breaking : Script :=
  ⟨[.line "a", .failed ⟨.value, "closed"⟩, .line "b"],
    [some ⟨.system, "full"⟩, none, none, none, none, some ⟨.system, "full"⟩]⟩

theorem breaking_session_stops :
    let whole := (start { path := Path.ofText "kept" } "go").run breaking
    let before := whole.effects.take 9
    let after := whole.effects.drop 10
    let fault : Fault := ⟨.value, "closed"⟩
    whole.effects = before ++ .asked [] (.failed fault) :: after ∧ ¬ fault.endsInput ∧
      fault.isLeaving = false ∧ after.filterMap Effect.reading? = [] ∧
      (after.filterMap Effect.taken?).head? = some .quit := by
  intro whole before after fault
  have run : whole = _ := ends_run (.resumes rfl rfl rfl rfl (.next rfl rfl (.next rfl rfl
    (.resumes rfl rfl rfl rfl (.last rfl rfl)))))
  have occurs : whole.effects = before ++ .asked [] (.failed fault) :: after := by
    change whole.effects = whole.effects.take 9 ++ .asked [] (.failed fault) :: whole.effects.drop 10
    rw [run]
    decide
  have unexpected : ¬ fault.endsInput := by decide
  have failure : fault.isLeaving = false := rfl
  have owned : [.reported { fault }, .wrote (inputFailed fault)] <+: after := by
    change _ <+: whole.effects.drop 10
    rw [run]
    decide
  exact ⟨occurs, unexpected, failure,
    (broken_input_stops_iff _ "go" breaking before after [] fault occurs unexpected failure).mpr owned⟩

def unheeded : Script := ⟨[.failed ⟨.value, "closed"⟩, .line "again"], [none, some ⟨.system, "full"⟩]⟩

-- Nobody could be told: the session reads on, and what it takes next is the line that it read.
theorem unheeded_break_reads_on :
    let whole := (start { path := Path.ofText "kept" } "").run unheeded
    whole.readings = [.failed ⟨.value, "closed"⟩, .line "again", .failed .endOfInput] ∧
      whole.taken = [.command [], .command "again", .quit] := by
  intro whole
  have run : whole = _ := ends_run (.resumes rfl rfl rfl rfl (.next rfl rfl (.next rfl rfl (.last rfl rfl))))
  rw [run]
  decide

end Loop

end LineShell
