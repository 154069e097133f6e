import LineShell.Proofs.Loop.Conservation
import LineShell.Proofs.Loop.Ending
import LineShell.Proofs.Screen

namespace LineShell

namespace Effect

-- What went wrong where nothing had to, and what is said about it.
def trouble? : Effect → Option (Fault × Text)
  | .writeFailed _ fault =>
    if fault.isLeaving then none else some (fault, Loop.unhandled fault)
  | .asked _ (.failed fault) =>
    if fault.endsInput ∨ fault.isLeaving then none else some (fault, Loop.inputFailed fault)
  | _ => none

-- The text of a write, whether it could be written or not.
def text? : Effect → Option Text
  | .wrote text => some text
  | .writeFailed text _ => some text
  | _ => none

theorem writeFailed_trouble? {text : Text} {fault : Fault} (stays : fault.isLeaving = false) :
    (writeFailed text fault).trouble? = some (fault, Loop.unhandled fault) :=
  if_neg (Bool.eq_false_iff.mp stays)

theorem asked_trouble? {prompt : Text} {fault : Fault} (broken : ¬ fault.endsInput)
    (stays : fault.isLeaving = false) :
    (asked prompt (.failed fault)).trouble? = some (fault, Loop.inputFailed fault) :=
  if_neg (not_or.mpr ⟨broken, Bool.eq_false_iff.mp stays⟩)

theorem ended_trouble? {prompt : Text} {fault : Fault} (ends : fault.endsInput) :
    (asked prompt (.failed fault)).trouble? = none :=
  if_pos (.inl ends)

end Effect

-- Right behind the trouble stand a report and a write that says what is wrong, or fails to.
def Told (trouble : Fault × Text) (after : List Effect) : Prop :=
  ∃ report attempt rest, after = .reported report :: attempt :: rest ∧
    report.fault = trouble.1 ∧ attempt.text? = some trouble.2

def Answered : List Effect → Prop
  | [] => True
  | effect :: after =>
    (∀ trouble, effect.trouble? = some trouble → Told trouble after) ∧ Answered after

namespace Answered

variable {effect attempt : Effect} {after first second : List Effect} {report : Report}
  {fault : Fault} {text : Text}

theorem quiet (calm : effect.trouble? = none) (rest : Answered after) :
    Answered (effect :: after) := by
  refine ⟨?_, rest⟩
  intro trouble found
  cases calm.symm.trans found

theorem told (found : effect.trouble? = some (fault, text)) (reported : report.fault = fault)
    (tried : attempt.text? = some text) (rest : Answered (attempt :: after)) :
    Answered (effect :: .reported report :: attempt :: after) := by
  refine ⟨?_, quiet rfl rest⟩
  intro trouble same
  cases found.symm.trans same
  exact ⟨report, attempt, after, rfl, reported, tried⟩

theorem append (left : Answered first) (right : Answered second) : Answered (first ++ second) := by
  induction first with
  | nil => exact right
  | cons effect rest ih =>
    refine ⟨?_, ih left.2⟩
    intro trouble found
    obtain ⟨report, attempt, more, shape, reported, tried⟩ := left.1 trouble found
    rw [shape]
    exact ⟨report, attempt, more ++ second, rfl, reported, tried⟩

end Answered

namespace Loop

theorem taking_answered (loop : Loop) : Answered loop.taking := by
  rw [taking]
  cases loop.queue with
  | nil => exact True.intro
  | cons event rest => exact .quiet rfl True.intro

theorem receive_answered {loop : Loop} {script : Script} {turn : Turn Bool} {going : Bool}
    (received : Receives loop script turn) (returned : turn.outcome = .ok going) :
    Answered turn.effects := by
  cases received with
  | line _ => exact .quiet rfl (.quiet rfl True.intro)
  | ended _ ends => exact .quiet (Effect.ended_trouble? ends) (.quiet rfl True.intro)
  | left _ _ => cases returned
  | told _ broken stays _ =>
    exact .told (Effect.asked_trouble? broken stays) rfl rfl (.quiet rfl (.quiet rfl True.intro))
  | untold _ _ _ _ => cases returned

theorem step_answered {loop : Loop} {script : Script} {turn : Turn Bool} {going : Bool}
    (stepped : Steps loop script turn) (returned : turn.outcome = .ok going) :
    Answered turn.effects := by
  cases stepped with
  | unshown _ => cases returned
  | last _ _ => exact (taking_answered loop).append (.quiet rfl True.intro)
  | waits _ _ received =>
    exact (taking_answered loop).append (.quiet rfl (receive_answered received returned))

-- The handler answers for the write that failed last.
theorem caught_answered (loop : Loop) (text : Text) {fault : Fault} (stays : fault.isLeaving = false) :
    Answered [.writeFailed text fault, loop.caught fault, .wrote (unhandled fault)] := by
  apply Answered.told (Effect.writeFailed_trouble? stays)
  · rfl
  · rfl
  · exact .quiet rfl True.intro

theorem receive_handled {loop : Loop} {script : Script} {turn : Turn Bool} {fault : Fault}
    (received : Receives loop script turn) (raised : turn.outcome = .error fault)
    (stays : fault.isLeaving = false) :
    Answered (turn.effects ++ [turn.loop.caught fault, .wrote (unhandled fault)]) := by
  cases received with
  | line _ => cases raised
  | ended _ _ => cases raised
  | left _ exits =>
    cases raised
    simp [Fault.isLeaving, exits] at stays
  | told _ _ _ _ => cases raised
  | @untold first _ _ _ _ broken kept _ =>
    cases raised
    apply Answered.told (Effect.asked_trouble? broken kept)
    · rfl
    · rfl
    · exact caught_answered loop (inputFailed first) stays

-- The fault that leaves a turn is the last that is heard of it.
theorem handled_answered {loop : Loop} {script : Script} {turn : Turn Bool} {fault : Fault}
    (stepped : Steps loop script turn) (raised : turn.outcome = .error fault)
    (stays : fault.isLeaving = false) :
    Answered (turn.effects ++ [turn.loop.caught fault] ++ [.wrote (unhandled fault)]) := by
  rw [List.append_assoc, List.singleton_append]
  cases stepped with
  | unshown _ =>
    cases raised
    have ending := caught_answered loop.advance loop.advance.screen.prompt stays
    rw [Turn.after, List.append_assoc]
    exact (taking_answered loop).append ending
  | last _ _ => cases raised
  | waits _ _ received =>
    have ending := receive_handled received raised stays
    rw [Turn.after, List.append_assoc]
    exact (taking_answered loop).append (.quiet rfl ending)

theorem run_answered {loop : Loop} {script : Script} {count : Nat} {whole : Turn Screen}
    (ends : Ends loop script count whole) {screen : Screen} (returned : whole.outcome = .ok screen) :
    Answered whole.effects := by
  induction ends with
  | last stepped finished =>
    subst stepped
    exact step_answered (step_sound _ _) finished
  | next stepped another _ ih =>
    subst stepped
    exact (step_answered (step_sound _ _) another).append (ih returned)
  | leaves _ _ _ => cases returned
  | resumes stepped raised stays _ _ ih =>
    subst stepped
    exact (handled_answered (step_sound _ _) raised stays).append (ih returned)
  | fails _ _ _ _ => cases returned

-- Only a quit sets the flag, and nothing takes it back.
theorem foldl_quit (interpreter : Interpreter) (events : List Event) (screen : Screen) :
    (events.foldl interpreter.update screen).quit = true ↔ screen.quit = true ∨ .quit ∈ events := by
  induction events generalizing screen with
  | nil => simp
  | cons event rest ih =>
    rw [List.foldl_cons, ih, List.mem_cons, Interpreter.update, Screen.update_quit]
    cases event with
    | quit => simp [Event.stops]
    | idle | command _ => simp [Event.stops]

theorem advance_quit (loop : Loop) :
    loop.advance.screen.quit = true ↔ loop.screen.quit = true ∨ .quit ∈ loop.oldest := by
  rw [advance_screen, foldl_quit]

theorem step_quits {loop : Loop} {script : Script} {turn : Turn Bool}
    (stepped : Steps loop script turn) (took : .took .quit ∈ turn.effects) :
    loop.advance.screen.quit = true := by
  have oldest : .quit ∈ turn.taken := List.mem_filterMap.mpr ⟨_, took, rfl⟩
  rw [step_taken stepped] at oldest
  exact (advance_quit loop).mpr (.inr oldest)

theorem run_quits {loop : Loop} {script : Script} {count : Nat} {whole : Turn Screen}
    (ends : Ends loop script count whole) (fresh : loop.screen.quit = false) {screen : Screen}
    (returned : whole.outcome = .ok screen) : .quit ∈ whole.taken := by
  obtain ⟨stopped, same⟩ := run_stops ends returned
  rw [← same, (run_conserves ends).screen, foldl_quit, fresh] at stopped
  exact stopped.resolve_left Bool.false_ne_true

-- A session outlives every fault, each of them reported and shown, or at least tried to be,
-- until a quit ends it: exactly as long as no two writes in a row fail. The second one would be
-- that of the report of the first, and nobody is left to report it to.
theorem session_survives_iff (interpreter : Interpreter) (command : Text) (script : Script)
    (stays : ∀ fault, .failed fault ∈ script.reads → fault.kind ≠ .exit)
    (failures : ∀ fault, some fault ∈ script.writes → fault.isLeaving = false) :
    (∃ screen, ((start interpreter command).run script).outcome = .ok screen ∧ screen.quit = true ∧
        .quit ∈ ((start interpreter command).run script).taken ∧
        Answered ((start interpreter command).run script).effects) ↔
      ∀ first second, ¬ Consecutive first second ((start interpreter command).run script).writings := by
  obtain ⟨_, _, ends⟩ := run_counted (start interpreter command) script
  generalize (start interpreter command).run script = whole at ends
  have answers := run_answers ends
  constructor
  · intro survives first second found
    obtain ⟨screen, returned, _⟩ := survives
    have one := answers.scripted_write (found.subset List.mem_cons_self)
    have two := answers.scripted_write (found.subset (List.mem_cons_of_mem _ List.mem_cons_self))
    have escaped := (run_consecutive ends second).mpr
      ⟨first, failures first one, failures second two, found⟩
    cases returned.symm.trans escaped.1
  · intro apart
    cases outcome : whole.outcome with
    | ok screen =>
      exact ⟨screen, rfl, (run_stops ends outcome).1, run_quits ends rfl outcome,
        run_answered ends outcome⟩
    | error fault =>
      rcases run_scripted ends outcome with ⟨_, _, raised⟩ | ⟨_, scripted, exits⟩
      · obtain ⟨first, _, _, found⟩ := (run_consecutive ends fault).mp ⟨outcome, failures fault raised⟩
        exact absurd found (apart first fault)
      · exact absurd exits (stays fault scripted)

-- Behind each write that fails stands one that succeeds.
def troubled : Script :=
  ⟨[.line "a", .failed ⟨.value, "closed"⟩],
    [some ⟨.system, "full"⟩, none, none, none, some ⟨.system, "full"⟩, none, none,
      some ⟨.system, "full"⟩]⟩

theorem troubled_session_survives :
    let interpreter : Interpreter := { path := Path.ofText "kept" }
    (∀ fault, .failed fault ∈ troubled.reads → fault.kind ≠ .exit) ∧
      (∀ fault, some fault ∈ troubled.writes → fault.isLeaving = false) ∧
      ∃ screen, ((start interpreter "go").run troubled).outcome = .ok screen ∧ screen.quit = true ∧
        .quit ∈ ((start interpreter "go").run troubled).taken ∧
        Answered ((start interpreter "go").run troubled).effects := by
  intro interpreter
  have stays : ∀ fault, .failed fault ∈ troubled.reads → fault.kind ≠ .exit := by
    simp [troubled]
  have failures : ∀ fault, some fault ∈ troubled.writes → fault.isLeaving = false := by
    simp [troubled, Fault.isLeaving]
  refine ⟨stays, failures, (session_survives_iff interpreter "go" troubled stays failures).mpr ?_⟩
  intro first second
  have ends : Ends (start interpreter "go") troubled _ _ :=
    .resumes rfl rfl rfl rfl (.next rfl rfl (.resumes rfl rfl rfl rfl
      (.next rfl rfl (.resumes rfl rfl rfl rfl (.last rfl rfl)))))
  have run := ends_run ends
  have written : ((start interpreter "go").run troubled).writings =
      [some ⟨.system, "full"⟩, none, none, none, some ⟨.system, "full"⟩, none, none,
        some ⟨.system, "full"⟩, none, none] := by
    rw [run]
    decide
  rw [written, Consecutive.recovered_iff, Consecutive.written_iff, Consecutive.written_iff,
    Consecutive.recovered_iff, Consecutive.written_iff, Consecutive.recovered_iff,
    Consecutive.written_iff]
  exact Consecutive.not_nil

def hopeless : Script := ⟨[.line "q"], [some ⟨.value, "a"⟩, some ⟨.value, "b"⟩]⟩

-- The second fault leaves the session, before any line was read and without a quit.
theorem unshown_report_escapes :
    let whole := (start { path := Path.ofText "kept" } "").run hopeless
    (∀ fault, .failed fault ∈ hopeless.reads → fault.kind ≠ .exit) ∧
      (∀ fault, some fault ∈ hopeless.writes → fault.isLeaving = false) ∧
      whole.outcome = .error ⟨.value, "b"⟩ ∧ whole.readings = [] ∧ .quit ∉ whole.taken := by
  intro whole
  have run : whole = _ := ends_run (.fails rfl rfl rfl rfl)
  refine ⟨by simp [hopeless], by simp [hopeless, Fault.isLeaving], ?_⟩
  rw [run]
  exact ⟨rfl, rfl, by decide⟩

end Loop

end LineShell
