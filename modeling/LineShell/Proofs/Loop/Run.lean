import LineShell.Loop.Run
import LineShell.Proofs.Loop.Step

namespace LineShell.Loop

def caught (loop : Loop) (fault : Fault) : Effect :=
  .reported { fault, command := loop.current.text, screen := some loop.screen }

-- The loop as it is meant: turn after turn, counted, with no bound given beforehand. A
-- fault that is no request to leave is reported and shown, and only a report that
-- cannot be shown ends the session.
inductive Ends : Loop → Script → Nat → Turn Screen → Prop where
  | last {loop : Loop} {script : Script} {turn : Turn Bool} (stepped : loop.step script = turn)
      (finished : turn.outcome = .ok false) :
      Ends loop script 1 ⟨.ok turn.loop.screen, turn.loop, turn.script, turn.effects⟩
  | next {loop : Loop} {script : Script} {turn : Turn Bool} {count : Nat} {rest : Turn Screen}
      (stepped : loop.step script = turn) (another : turn.outcome = .ok true)
      (ends : Ends turn.loop turn.script count rest) :
      Ends loop script (count + 1) (rest.after turn.effects)
  | leaves {loop : Loop} {script : Script} {turn : Turn Bool} {fault : Fault}
      (stepped : loop.step script = turn) (raised : turn.outcome = .error fault)
      (leaving : fault.isLeaving = true) :
      Ends loop script 1 ⟨.error fault, turn.loop, turn.script, turn.effects⟩
  | resumes {loop : Loop} {script left : Script} {turn : Turn Bool} {fault : Fault} {count : Nat}
      {rest : Turn Screen} (stepped : loop.step script = turn) (raised : turn.outcome = .error fault)
      (stays : fault.isLeaving = false) (shown : turn.script.write = (none, left))
      (ends : Ends turn.loop left count rest) :
      Ends loop script (count + 1)
        (rest.after (turn.effects ++ [turn.loop.caught fault] ++ [.wrote (unhandled fault)]))
  | fails {loop : Loop} {script left : Script} {turn : Turn Bool} {fault failure : Fault}
      (stepped : loop.step script = turn) (raised : turn.outcome = .error fault)
      (stays : fault.isLeaving = false) (unshown : turn.script.write = (some failure, left)) :
      Ends loop script 1 ⟨.error failure, turn.loop, left,
        turn.effects ++ [turn.loop.caught fault] ++ [.writeFailed (unhandled fault) failure]⟩

-- Whatever becomes of a session, it begins with one whole turn.
theorem run_begins {loop : Loop} {script : Script} {count : Nat} {whole : Turn Screen}
    (ends : Ends loop script count whole) :
    ∃ later, whole.effects = (loop.step script).effects ++ later := by
  cases ends with
  | last stepped _ =>
    subst stepped
    exact ⟨[], (List.append_nil _).symm⟩
  | next stepped _ _ =>
    subst stepped
    exact ⟨_, rfl⟩
  | leaves stepped _ _ =>
    subst stepped
    exact ⟨[], (List.append_nil _).symm⟩
  | resumes stepped _ _ _ _ =>
    subst stepped
    exact ⟨_, (List.append_assoc _ _ _).trans (List.append_assoc _ _ _)⟩
  | fails stepped _ _ _ =>
    subst stepped
    exact ⟨_, List.append_assoc _ _ _⟩

theorem write_measure (loop : Loop) (script : Script) :
    measure loop script.write.2 ≤ measure loop script := by
  have smaller := (write_size script).1
  unfold measure
  omega

theorem run_counted (loop : Loop) (script : Script) :
    ∃ count ≤ measure loop script + 1, Ends loop script count (loop.run script) := by
  fun_induction run loop script with
  | case1 loop script turn finished => exact ⟨1, by omega, .last rfl finished⟩
  | case2 loop script turn another ih =>
    obtain ⟨count, bound, ends⟩ := ih
    have fewer : measure turn.loop turn.script < measure loop script :=
      step_measure loop script (fun finished => nomatch another.symm.trans finished)
    exact ⟨count + 1, by omega, .next rfl another ends⟩
  | case3 loop script turn fault raised leaving => exact ⟨1, by omega, .leaves rfl raised leaving⟩
  | case4 loop script turn fault raised leaving report text effects failure unshown =>
    have stays : fault.isLeaving = false := Bool.eq_false_iff.mpr leaving
    exact ⟨1, by omega, .fails rfl raised stays (Prod.ext unshown rfl)⟩
  | case5 loop script turn fault raised leaving report text effects shown ih =>
    obtain ⟨count, bound, ends⟩ := ih
    have stays : fault.isLeaving = false := Bool.eq_false_iff.mpr leaving
    have fewer : measure turn.loop turn.script < measure loop script :=
      step_measure loop script (fun finished => nomatch raised.symm.trans finished)
    have same := write_measure turn.loop turn.script
    exact ⟨count + 1, by omega, .resumes rfl raised stays (Prod.ext shown rfl) ends⟩

-- What the handler adds to a turn that raised: one write, and neither an event nor a read.
theorem handled_silent {β : Type} (project : Effect → Option β) (turn : Turn Bool) (fault : Fault)
    {last : Effect} (report : ∀ report, project (.reported report) = none)
    (silent : project last = none) :
    (turn.effects ++ [turn.loop.caught fault] ++ [last]).filterMap project =
      turn.effects.filterMap project := by
  have quiet : [last].filterMap project = [] := List.filterMap_cons_none silent
  have unread : [turn.loop.caught fault].filterMap project = [] := List.filterMap_cons_none (report _)
  rw [List.filterMap_append, List.filterMap_append, quiet, unread, List.append_nil, List.append_nil]

theorem handled_taken (turn : Turn Bool) (fault : Fault) {last : Effect}
    (silent : last.taken? = none) :
    (turn.effects ++ [turn.loop.caught fault] ++ [last]).filterMap Effect.taken? = turn.taken :=
  handled_silent Effect.taken? turn fault (fun _ => rfl) silent

theorem handled_entered (turn : Turn Bool) (fault : Fault) {last : Effect}
    (silent : last.queued? = none) :
    (turn.effects ++ [turn.loop.caught fault] ++ [last]).filterMap Effect.queued? = turn.entered :=
  handled_silent Effect.queued? turn fault (fun _ => rfl) silent

theorem handled_readings (turn : Turn Bool) (fault : Fault) {last : Effect}
    (silent : last.reading? = none) :
    (turn.effects ++ [turn.loop.caught fault] ++ [last]).filterMap Effect.reading? = turn.readings :=
  handled_silent Effect.reading? turn fault (fun _ => rfl) silent

theorem handled_writings (turn : Turn Bool) (fault : Fault) {last : Effect} {outcome : Option Fault}
    (written : last.writing? = some outcome) :
    (turn.effects ++ [turn.loop.caught fault] ++ [last]).filterMap Effect.writing? =
      turn.writings ++ [outcome] := by
  have told : [last].filterMap Effect.writing? = [outcome] := List.filterMap_cons_some written
  rw [List.filterMap_append, List.filterMap_append, told]
  exact congrArg (· ++ [outcome]) (List.append_nil _)

theorem run_answers {loop : Loop} {script : Script} {count : Nat} {whole : Turn Screen}
    (ends : Ends loop script count whole) :
    script.Answers whole.readings whole.writings whole.script := by
  induction ends with
  | last stepped _ =>
    subst stepped
    exact step_answers (step_sound _ _)
  | next stepped _ _ ih =>
    subst stepped
    rw [Turn.after_readings, Turn.after_writings]
    exact (step_answers (step_sound _ _)).trans ih
  | leaves stepped _ _ =>
    subst stepped
    exact step_answers (step_sound _ _)
  | resumes stepped _ _ shown _ ih =>
    subst stepped
    have turned := (step_answers (step_sound _ _)).trans (Script.write_answers shown)
    rw [Turn.after_readings, Turn.after_writings, handled_readings _ _ rfl, handled_writings _ _ rfl]
    rw [List.append_nil] at turned
    exact turned.trans ih
  | fails stepped _ _ unshown =>
    subst stepped
    have turned := (step_answers (step_sound _ _)).trans (Script.write_answers unshown)
    rw [Turn.readings, Turn.writings, handled_readings _ _ rfl, handled_writings _ _ rfl]
    rw [List.append_nil] at turned
    exact turned

-- A session has one course: what its turns come to is what running it gives.
theorem ends_run {loop : Loop} {script : Script} {count : Nat} {whole : Turn Screen}
    (ends : Ends loop script count whole) : loop.run script = whole := by
  induction ends with
  | last stepped finished =>
    subst stepped
    rw [run]
    split <;> simp_all
  | next stepped another _ ih =>
    subst stepped
    rw [run]
    split <;> simp_all
  | leaves stepped raised leaving =>
    subst stepped
    rw [run]
    split <;> simp_all
  | resumes stepped raised stays shown _ ih =>
    subst stepped
    rw [run]
    split <;> simp_all [caught]
  | fails stepped raised stays unshown =>
    subst stepped
    rw [run]
    split <;> simp_all [caught]

-- The course of a session by its next turn.
theorem run_last {loop : Loop} {script : Script}
    (finished : (loop.step script).outcome = .ok false) :
    let turn := loop.step script
    loop.run script = ⟨.ok turn.loop.screen, turn.loop, turn.script, turn.effects⟩ :=
  ends_run (.last rfl finished)

theorem run_next {loop : Loop} {script : Script}
    (another : (loop.step script).outcome = .ok true) :
    let turn := loop.step script
    loop.run script = (turn.loop.run turn.script).after turn.effects := by
  obtain ⟨_, _, ends⟩ := run_counted (loop.step script).loop (loop.step script).script
  exact ends_run (.next rfl another ends)

end LineShell.Loop
