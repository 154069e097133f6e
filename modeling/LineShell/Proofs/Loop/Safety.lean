import LineShell.Proofs.Loop.Conservation
import LineShell.Proofs.Loop.Input
import LineShell.Proofs.Loop.Survival

namespace LineShell

-- No two effects of which the first takes a quit and the second reads.
def Unread (effects : List Effect) : Prop :=
  effects.Pairwise fun earlier later => earlier = .took .quit → later.reading? = none

namespace Loop

-- The moments of a run between its turns, each with what was done since the run began.
inductive Amid (loop : Loop) (script : Script) : List Effect → Loop → Script → Prop where
  | first : Amid loop script [] loop script
  | next {done : List Effect} {other : Loop} {left : Script} (amid : Amid loop script done other left)
      (another : (other.step left).outcome = .ok true) :
      Amid loop script (done ++ (other.step left).effects) (other.step left).loop (other.step left).script
  | resumes {done : List Effect} {other : Loop} {left last : Script} {fault : Fault}
      (amid : Amid loop script done other left) (raised : (other.step left).outcome = .error fault)
      (stays : fault.isLeaving = false) (shown : (other.step left).script.write = (none, last)) :
      Amid loop script (done ++ (other.step left).effects ++
        [(other.step left).loop.caught fault, .wrote (unhandled fault)]) (other.step left).loop last

-- What a fresh session can come to when it is stepped and run, whatever each call is answered
-- and however it ends, with all that was done since its start. A turn in the middle of a run
-- counts as well.
inductive Reached (interpreter : Interpreter) (command : Text) : List Effect → Loop → Prop where
  | start : Reached interpreter command [] (.start interpreter command)
  | step {past : List Effect} {loop : Loop} (script : Script)
      (reached : Reached interpreter command past loop) :
      Reached interpreter command (past ++ (loop.step script).effects) (loop.step script).loop
  | run {past : List Effect} {loop : Loop} (script : Script)
      (reached : Reached interpreter command past loop) :
      Reached interpreter command (past ++ (loop.run script).effects) (loop.run script).loop
  | amid {past done : List Effect} {loop other : Loop} {script left : Script}
      (reached : Reached interpreter command past loop) (amid : Amid loop script done other left) :
      Reached interpreter command (past ++ done) other

-- What ties a session to its past: at most one event waits, a quit that was taken is on the
-- screen, and nothing was read behind it.
structure Safe (past : List Effect) (loop : Loop) : Prop where
  drained : loop.Drained
  stopped : .took .quit ∈ past → loop.screen.quit = true
  unread : Unread past

variable {loop : Loop} {script : Script} {past : List Effect}

theorem start_safe (interpreter : Interpreter) (command : Text) :
    Safe [] (start interpreter command) :=
  ⟨start_drained interpreter command, by simp, .nil⟩

-- A report and what is written of it change nothing.
theorem Safe.silent {quiet : List Effect} (safe : Safe past loop)
    (silent : ∀ effect ∈ quiet, effect.taken? = none ∧ effect.reading? = none) :
    Safe (past ++ quiet) loop := by
  have kept : .took .quit ∉ quiet := fun among => by simpa [Effect.taken?] using silent _ among
  refine ⟨safe.drained, ?_, ?_⟩
  · simpa [kept] using safe.stopped
  · refine List.pairwise_append.mpr ⟨safe.unread, ?_, ?_⟩
    · exact List.pairwise_of_forall_mem_list fun _ _ later among _ => (silent later among).2
    · exact fun _ _ later among _ => (silent later among).2

-- A turn behind a quit, its own included, reads nothing.
theorem Safe.step (safe : Safe past loop) (script : Script) :
    Safe (past ++ (loop.step script).effects) (loop.step script).loop := by
  have turned := step_sound loop script
  have stopped : .took .quit ∈ past ++ (loop.step script).effects →
      loop.advance.screen.quit = true := by
    intro took
    rcases List.mem_append.mp took with before | now
    · exact (advance_quit loop).mpr (.inl (safe.stopped before))
    · exact step_quits turned now
  have silent : .took .quit ∈ past ++ (loop.step script).effects →
      ∀ effect ∈ (loop.step script).effects, effect.reading? = none :=
    fun took => List.filterMap_eq_nil_iff.mp (step_silent turned (stopped took))
  refine ⟨step_drained safe.drained turned, ?_, List.pairwise_append.mpr ⟨safe.unread, ?_, ?_⟩⟩
  · rw [step_screen turned]
    exact stopped
  · refine List.pairwise_of_forall_mem_list fun earlier took later among same => ?_
    exact silent (List.mem_append_right _ (same ▸ took)) later among
  · intro earlier took later among same
    exact silent (List.mem_append_left _ (same ▸ took)) later among

theorem Safe.handled {last : Effect} (safe : Safe past loop) (fault : Fault)
    (taken : last.taken? = none) (reading : last.reading? = none) :
    Safe (past ++ [loop.caught fault, last]) loop := by
  refine safe.silent (List.forall_mem_cons.mpr ⟨⟨rfl, rfl⟩, ?_⟩)
  exact List.forall_mem_singleton.mpr ⟨taken, reading⟩

theorem Safe.run {count : Nat} {whole : Turn Screen} (ends : Ends loop script count whole)
    (safe : Safe past loop) : Safe (past ++ whole.effects) whole.loop := by
  induction ends generalizing past with
  | last stepped _ =>
    subst stepped
    exact safe.step _
  | next stepped _ _ ih =>
    subst stepped
    simpa [Turn.after] using ih (safe.step _)
  | leaves stepped _ _ =>
    subst stepped
    exact safe.step _
  | resumes stepped _ _ _ _ ih =>
    subst stepped
    simpa [Turn.after] using ih ((safe.step _).handled _ rfl rfl)
  | fails stepped _ _ _ =>
    subst stepped
    simpa using (safe.step _).handled _ rfl rfl

theorem Safe.amid {done : List Effect} {other : Loop} {left : Script}
    (amid : Amid loop script done other left) (safe : Safe past loop) : Safe (past ++ done) other := by
  induction amid with
  | first => simpa using safe
  | next _ _ ih => simpa using ih.step _
  | resumes _ _ _ _ ih => simpa using (ih.step _).handled _ rfl rfl

theorem reached_safe {interpreter : Interpreter} {command : Text}
    (reached : Reached interpreter command past loop) : Safe past loop := by
  induction reached with
  | start => exact start_safe interpreter command
  | step script _ ih => exact ih.step script
  | run script _ ih =>
    obtain ⟨_, _, ends⟩ := run_counted _ script
    exact ih.run ends
  | amid _ amid ih => exact ih.amid amid

-- Events only add to the text on display.
theorem foldl_prompt (interpreter : Interpreter) (events : List Event) (screen : Screen) :
    screen.prompt <+: (events.foldl interpreter.update screen).prompt := by
  induction events generalizing screen with
  | nil => exact List.prefix_rfl
  | cons event rest ih =>
    refine List.IsPrefix.trans ?_ (ih (interpreter.update screen event))
    rw [Interpreter.update, Screen.update_prompt]
    exact List.prefix_append _ _

theorem step_prompt {turn : Turn Bool} (stepped : Steps loop script turn) :
    loop.screen.prompt <+: turn.loop.screen.prompt := by
  rw [step_screen stepped, advance_screen]
  exact foldl_prompt _ _ _

theorem step_stays {turn : Turn Bool} (stepped : Steps loop script turn)
    (stopped : loop.screen.quit = true) : turn.loop.screen.quit = true := by
  rw [step_screen stepped]
  exact (advance_quit loop).mpr (.inl stopped)

theorem Drained.length_le (drained : loop.Drained) : loop.queue.length ≤ 1 := by
  rw [loop.advance_queue, show loop.advance.queue = [] from drained, List.append_nil, oldest]
  exact Option.length_toList_le

-- A turn that another one follows has entered the only event that waits.
theorem step_waits {turn : Turn Bool} (drained : loop.Drained) (stepped : Steps loop script turn)
    (another : turn.outcome = .ok true) : turn.loop.queue.length = 1 := by
  have empty : loop.advance.queue = [] := drained
  cases stepped with
  | unshown _ => cases another
  | last _ _ => cases another
  | waits _ _ received =>
    cases received with
    | line _ => simp [Turn.after, push, empty]
    | ended _ _ => simp [Turn.after, push, empty]
    | left _ _ => cases another
    | told _ _ _ _ => simp [Turn.after, push, empty]
    | untold _ _ _ _ => cases another

-- However a session is stepped and run, at most one event waits, and exactly one behind a turn
-- that asks for another; the text on display only grows, the flag stays once it is set, and
-- behind the quit nothing is read.
theorem reached_loop_safe {interpreter : Interpreter} {command : Text}
    (reached : Reached interpreter command past loop) :
    loop.queue.length ≤ 1 ∧
      (∀ before after, past = before ++ .took .quit :: after → after.filterMap Effect.reading? = []) ∧
      (∀ script, let turn := loop.step script
        (turn.outcome = .ok true → turn.loop.queue.length = 1) ∧
        loop.screen.prompt <+: turn.loop.screen.prompt ∧
        (loop.screen.quit = true → turn.loop.screen.quit = true) ∧
        (loop.screen.quit = true ∨ turn.loop.screen.quit = true → turn.readings = [])) ∧
      ∀ script, let whole := loop.run script
        loop.screen.prompt <+: whole.loop.screen.prompt ∧
        (loop.screen.quit = true → whole.loop.screen.quit = true ∧ whole.readings = []) := by
  have safe := reached_safe reached
  refine ⟨safe.drained.length_le, ?_, ?_, ?_⟩
  · intro before after same
    have unread := safe.unread
    rw [Unread, same, List.pairwise_append, List.pairwise_cons] at unread
    exact List.filterMap_eq_nil_iff.mpr fun effect among => unread.2.1.1 effect among rfl
  · intro script turn
    have turned := step_sound loop script
    refine ⟨step_waits safe.drained turned, step_prompt turned, step_stays turned, ?_⟩
    intro quits
    refine step_silent turned ?_
    rw [step_screen turned] at quits
    rcases quits with before | behind
    · exact (advance_quit loop).mpr (.inl before)
    · exact behind
  · intro script whole
    obtain ⟨_, _, ends⟩ := run_counted loop script
    rw [(run_conserves ends).screen]
    refine ⟨foldl_prompt _ _ _, ?_⟩
    intro stopped
    exact ⟨(foldl_quit _ _ _).mpr (.inl stopped),
      run_silent ends safe.drained ((advance_quit loop).mpr (.inl stopped))⟩

-- The last screen was interrupted, and the session is stepped and run again.
theorem interrupted_session_reads_nothing :
    let interpreter : Interpreter := { path := Path.ofText "kept" }
    let left := (start interpreter "go").run ⟨[.line "q"], [none, some ⟨.interrupt, []⟩]⟩
    let again : Script := { reads := [.line "again"] }
    left.outcome = .error ⟨.interrupt, []⟩ ∧ left.readings = [.line "q"] ∧
      Reached interpreter "go" left.effects left.loop ∧ left.loop.queue.length ≤ 1 ∧
      (left.loop.step again).readings = [] ∧ (left.loop.run again).readings = [] := by
  intro interpreter left again
  have run : left = _ := ends_run (.next rfl rfl (.leaves rfl rfl rfl))
  have reached : Reached interpreter "go" left.effects left.loop := .run _ .start
  have stopped : left.loop.screen.quit = true := by rw [run]; rfl
  obtain ⟨waits, _, steps, runs⟩ := reached_loop_safe reached
  refine ⟨by rw [run]; rfl, by rw [run]; rfl, reached, waits, ?_, ?_⟩
  · exact (steps again).2.2.2 (.inl stopped)
  · exact ((runs again).2 stopped).2

end Loop

end LineShell
