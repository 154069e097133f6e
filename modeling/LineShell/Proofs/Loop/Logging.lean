import LineShell.Proofs.CrashLog.Contents
import LineShell.Proofs.Loop.Input
import LineShell.Proofs.Loop.Run

namespace LineShell

-- What there is to say about the next write that fails: the screen, the command at work, and
-- whether the write is only there to tell of one that failed before it.
structure Moment where
  screen : Screen
  command : Text := []
  telling : Bool := false

namespace Moment

def after (interpreter : Interpreter) (moment : Moment) : Effect → Moment
  | .took event =>
    { moment with screen := interpreter.update moment.screen event, command := event.text }
  | .writeFailed _ _ => { moment with telling := true }
  | .wrote _ => if moment.telling then { screen := moment.screen } else moment
  | _ => moment

-- The report that something which has just happened is due. Nothing is due for an input that
-- ends, for a request to leave, and for a write that was to tell of a fault.
def due (moment : Moment) : Effect → Option Report
  | .asked _ (.failed fault) => if fault.breaksInput then some { fault } else none
  | .writeFailed _ fault =>
    if moment.telling = true ∨ fault.isLeaving = true then none
    else some { fault, command := moment.command, screen := some moment.screen }
  | _ => none

def afterAll (interpreter : Interpreter) (moment : Moment) (effects : List Effect) : Moment :=
  effects.foldl (after interpreter) moment

def allDue (interpreter : Interpreter) : Moment → List Effect → List Report
  | _, [] => []
  | moment, effect :: rest =>
    (moment.due effect).toList ++ allDue interpreter (moment.after interpreter effect) rest

variable {interpreter : Interpreter} {moment : Moment}

theorem afterAll_append (first second : List Effect) :
    moment.afterAll interpreter (first ++ second) =
      (moment.afterAll interpreter first).afterAll interpreter second :=
  List.foldl_append

theorem allDue_append (first second : List Effect) :
    moment.allDue interpreter (first ++ second) =
      moment.allDue interpreter first ++
        (moment.afterAll interpreter first).allDue interpreter second := by
  induction first generalizing moment with
  | nil => rfl
  | cons effect rest ih => simp [allDue, afterAll, ih]

end Moment

namespace Turn

variable {α : Type}

def reports (turn : Turn α) : List Report := turn.effects.filterMap Effect.report?

theorem after_reports (before : List Effect) (turn : Turn α) :
    (turn.after before).reports = before.filterMap Effect.report? ++ turn.reports :=
  List.filterMap_append

-- What the handler is going to report of a turn.
def raised (turn : Turn Bool) : List Report :=
  match turn.outcome with
  | .ok _ => []
  | .error fault =>
    if fault.isLeaving then []
    else [{ fault, command := turn.loop.current.text, screen := some turn.loop.screen }]

end Turn

namespace Loop

-- A moment between two turns. Where nothing waits the next turn takes no command.
structure Between (loop : Loop) (moment : Moment) : Prop where
  screen : moment.screen = loop.screen
  quiet : moment.telling = false
  idle : loop.queue = [] → moment.command = []

-- Whatever is due in a turn is reported in it or by the handler behind it.
structure Reports (interpreter : Interpreter) (moment : Moment) (turn : Turn Bool) : Prop where
  due : moment.allDue interpreter turn.effects = turn.reports ++ turn.raised
  next : turn.outcome = .ok true → Between turn.loop (moment.afterAll interpreter turn.effects)
  raised {fault : Fault} : turn.outcome = .error fault → fault.isLeaving = false →
    moment.afterAll interpreter turn.effects = ⟨turn.loop.screen, turn.loop.current.text, true⟩

variable {loop : Loop} {script : Script} {turn : Turn Bool} {moment : Moment}

theorem Between.taking (between : Between loop moment) :
    moment.allDue loop.interpreter loop.taking = [] ∧
      moment.afterAll loop.interpreter loop.taking =
        ⟨loop.advance.screen, loop.advance.current.text, false⟩ := by
  obtain ⟨interpreter, screen, queue, current⟩ := loop
  obtain ⟨shown, command, telling⟩ := moment
  obtain ⟨rfl, rfl, idle⟩ := between
  cases queue with
  | nil =>
    obtain rfl := idle rfl
    exact ⟨rfl, rfl⟩
  | cons event rest => exact ⟨rfl, rfl⟩

theorem Reports.after {interpreter : Interpreter} {before : List Effect}
    (nothing : moment.allDue interpreter before = []) (unreported : before.filterMap Effect.report? = [])
    (rest : Reports interpreter (moment.afterAll interpreter before) turn) :
    Reports interpreter moment (turn.after before) := by
  have effects : (turn.after before).effects = before ++ turn.effects := rfl
  have same : (turn.after before).raised = turn.raised := rfl
  refine ⟨?_, fun another => ?_, fun raised stays => ?_⟩
  · simp [effects, same, Moment.allDue_append, nothing, rest.due, Turn.after_reports, unreported]
  · rw [effects, Moment.afterAll_append]
    exact rest.next another
  · rw [effects, Moment.afterAll_append]
    exact rest.raised raised stays

theorem Reports.after_taking (between : Between loop moment)
    (rest : Reports loop.interpreter ⟨loop.advance.screen, loop.advance.current.text, false⟩ turn) :
    Reports loop.interpreter moment (turn.after loop.taking) := by
  obtain ⟨nothing, taken⟩ := between.taking
  apply Reports.after nothing
  · exact taking_silent Effect.report? loop fun _ => rfl
  · rwa [taken]

theorem Reports.exact {interpreter : Interpreter} (reports : Reports interpreter moment turn)
    (nothing : turn.raised = []) : moment.allDue interpreter turn.effects = turn.reports := by
  simp [reports.due, nothing]

-- What waits now will be taken before the next write.
theorem push_between (loop : Loop) (event : Event) (command : Text) :
    Between (loop.push event) ⟨loop.screen, command, false⟩ :=
  ⟨rfl, rfl, fun empty => absurd empty (List.append_ne_nil_of_right_ne_nil _ (List.cons_ne_nil _ _))⟩

theorem receive_reports (interpreter : Interpreter) (received : Receives loop script turn) :
    Reports interpreter ⟨loop.screen, loop.current.text, false⟩ turn := by
  cases received with
  | line _ => exact ⟨rfl, fun _ => push_between _ _ _, by simp⟩
  | @ended fault _ _ ends =>
    have expected : ¬ fault.breaksInput := fun breaks => breaks.1 ends
    refine ⟨?_, fun _ => push_between _ _ _, by simp⟩
    simp [Moment.allDue, Moment.due, Turn.reports, Turn.raised, Effect.report?, expected]
  | @left fault _ _ exits =>
    have leaves : fault.isLeaving = true := by simp [Fault.isLeaving, exits]
    have unreported : ¬ fault.breaksInput := by simp [Fault.breaksInput, leaves]
    refine ⟨?_, by simp, fun raised stays => ?_⟩
    · simp [Moment.allDue, Moment.due, Turn.reports, Turn.raised, Effect.report?, unreported, leaves]
    · cases raised
      simp [leaves] at stays
  | @told fault _ _ _ broken stays _ =>
    have breaks : fault.breaksInput := ⟨broken, stays⟩
    refine ⟨?_, fun _ => push_between _ _ _, by simp⟩
    simp [Moment.allDue, Moment.due, Turn.reports, Turn.raised, List.filterMap_cons, Effect.report?, breaks]
  | @untold fault failure _ _ _ broken stays _ =>
    have breaks : fault.breaksInput := ⟨broken, stays⟩
    refine ⟨?_, by simp, fun raised _ => ?_⟩
    · cases leaves : failure.isLeaving <;>
        simp [Moment.allDue, Moment.due, Moment.after, Turn.reports, Turn.raised, List.filterMap_cons,
          Effect.report?, breaks, leaves]
    · cases raised
      rfl

theorem step_reports (between : Between loop moment) (stepped : Steps loop script turn) :
    Reports loop.interpreter moment turn := by
  cases stepped with
  | @unshown failure _ _ =>
    apply Reports.after_taking between
    refine ⟨?_, by simp, fun raised _ => ?_⟩
    · cases leaves : failure.isLeaving <;>
        simp [Moment.allDue, Moment.due, Turn.reports, Turn.raised, Effect.report?, leaves]
    · cases raised
      rfl
  | last _ _ =>
    apply Reports.after_taking between
    exact ⟨rfl, by simp, by simp⟩
  | waits _ _ received =>
    apply Reports.after_taking between
    exact .after rfl rfl (receive_reports loop.interpreter received)

variable {interpreter : Interpreter} {fault : Fault}

-- The handler reports the fault that left the turn, and whatever becomes of its write, no more
-- is due.
theorem handled_due (reports : Reports interpreter moment turn) (raised : turn.outcome = .error fault)
    (stays : fault.isLeaving = false) {last : Effect} {outcome : Option Fault}
    (tried : last.writing? = some outcome) :
    let handled := turn.effects ++ [turn.loop.caught fault] ++ [last]
    moment.allDue interpreter handled = handled.filterMap Effect.report? := by
  intro handled
  have telling := reports.raised raised stays
  have caught : turn.raised = [turn.loop.caught fault].filterMap Effect.report? := by
    simp [Turn.raised, raised, stays, Loop.caught, Effect.report?]
  have nothing : Moment.allDue interpreter ⟨turn.loop.screen, turn.loop.current.text, true⟩
      ([turn.loop.caught fault] ++ [last]) = [] := by
    cases last <;> simp_all [Effect.writing?, Moment.allDue, Moment.due, Moment.after, Loop.caught]
  have unreported : [last].filterMap Effect.report? = [] := by
    cases last <;> simp_all [Effect.writing?, Effect.report?]
  calc moment.allDue interpreter handled
      = moment.allDue interpreter turn.effects ++ [] := by
        rw [← nothing, ← telling, ← Moment.allDue_append, ← List.append_assoc]
    _ = turn.reports ++ [turn.loop.caught fault].filterMap Effect.report? := by
        rw [reports.due, caught, List.append_nil]
    _ = handled.filterMap Effect.report? := by
        simp only [handled, List.filterMap_append, unreported, List.append_nil]
        rfl

theorem handled_between (reports : Reports interpreter moment turn) (raised : turn.outcome = .error fault)
    (stays : fault.isLeaving = false) (text : Text) :
    Between turn.loop (moment.afterAll interpreter
      (turn.effects ++ [turn.loop.caught fault] ++ [.wrote text])) := by
  rw [List.append_assoc, Moment.afterAll_append, reports.raised raised stays]
  exact ⟨rfl, rfl, fun _ => rfl⟩

theorem run_reports {count : Nat} {whole : Turn Screen} (ends : Ends loop script count whole)
    (between : Between loop moment) :
    moment.allDue loop.interpreter whole.effects = whole.reports := by
  induction ends generalizing moment with
  | @last loop script _ stepped finished =>
    subst stepped
    exact (step_reports between (step_sound loop script)).exact (by simp [Turn.raised, finished])
  | @next loop script _ _ _ stepped another _ ih =>
    subst stepped
    have reports := step_reports between (step_sound loop script)
    have due := reports.exact (by simp [Turn.raised, another])
    have later := ih (reports.next another)
    rw [(step_conserves (step_sound loop script)).interpreter] at later
    rw [Turn.after_reports, Turn.after, Moment.allDue_append, due, later]
    rfl
  | @leaves loop script _ _ stepped raised leaving =>
    subst stepped
    exact (step_reports between (step_sound loop script)).exact (by simp [Turn.raised, raised, leaving])
  | @resumes loop script _ _ fault _ _ stepped raised stays _ _ ih =>
    subst stepped
    have reports := step_reports between (step_sound loop script)
    have later := ih (handled_between reports raised stays (unhandled fault))
    rw [(step_conserves (step_sound loop script)).interpreter] at later
    rw [Turn.after_reports, Turn.after, Moment.allDue_append, handled_due reports raised stays rfl, later]
  | @fails loop script _ _ _ _ stepped raised stays _ =>
    subst stepped
    exact handled_due (step_reports between (step_sound loop script)) raised stays rfl

-- Each broken read and each write that fails in a turn has one entry in the log, in the order in
-- which they happened, and nothing else has.
theorem every_failure_logged_once (interpreter : Interpreter) (command : Text) (script : Script) :
    let whole := (start interpreter command).run script
    let fresh : Moment := { screen := interpreter.start }
    let due := fresh.allDue interpreter whole.effects
    whole.reports = due ∧
    ∀ (environment : Environment) (disk : Disk) (stamps : Nat → CrashLog.Stamp),
      CrashLog.opens environment disk = true →
      (∀ given ∈ CrashLog.stamped stamps due, (CrashLog.entry given.1 given.2).Encodable) →
      CrashLog.Logs environment disk (CrashLog.bytes (CrashLog.stamped stamps due))
        (CrashLog.appendEach environment disk (CrashLog.stamped stamps whole.reports)) := by
  intro whole fresh due
  obtain ⟨_, _, ends⟩ := run_counted (start interpreter command) script
  have between : Between (start interpreter command) fresh :=
    ⟨rfl, rfl, fun empty => absurd empty (List.cons_ne_nil _ _)⟩
  have exactly : whole.reports = due := (run_reports ends between).symm
  refine ⟨exactly, fun environment disk stamps opens encodable => ?_⟩
  have logs := CrashLog.appendEach_logs environment disk (CrashLog.stamped stamps due)
  rw [CrashLog.admitted_all opens encodable] at logs
  rwa [exactly]

def noisy : Script :=
  ⟨[.line "a", .failed ⟨.value, "closed"⟩],
    [some ⟨.system, "full"⟩, none, none, none, some ⟨.system, "gone"⟩]⟩

-- The input breaks, and the report of that cannot be shown: two entries behind that of the first
-- screen.
theorem noisy_session_logged :
    let interpreter : Interpreter := { path := Path.ofText "kept" }
    let whole := (start interpreter "go").run noisy
    let environment := Environment.ofList [("CRATCHIT_DATA_HOME", "/d")]
    let disk : Disk := ⟨[], []⟩
    let stamp : CrashLog.Stamp := ⟨"now", "trace"⟩
    let screen : Screen := interpreter.update interpreter.start (.command "go")
    let last : Screen := interpreter.update screen (.command "a")
    let due : List Report :=
      [⟨⟨.system, "full"⟩, "go", some screen⟩, ⟨⟨.value, "closed"⟩, [], none⟩,
        ⟨⟨.system, "gone"⟩, "a", some last⟩]
    whole.reports = due ∧ CrashLog.opens environment disk = true ∧
      (∀ given ∈ CrashLog.stamped (fun _ => stamp) due, (CrashLog.entry given.1 given.2).Encodable) ∧
      CrashLog.Logs environment disk (CrashLog.bytes (CrashLog.stamped (fun _ => stamp) due))
        (CrashLog.appendAll environment stamp disk whole.reports) := by
  intro interpreter whole environment disk stamp screen last due
  have ends : Ends (start interpreter "go") noisy _ _ :=
    .resumes rfl rfl rfl rfl (.next rfl rfl (.resumes rfl rfl rfl rfl
      (.next rfl rfl (.last rfl rfl))))
  have run : whole = _ := ends_run ends
  have reported : whole.reports = due := by
    rw [run]
    decide +kernel
  have opens : CrashLog.opens environment disk = true := by decide +kernel
  have encodable : ∀ given ∈ CrashLog.stamped (fun _ => stamp) due,
      (CrashLog.entry given.1 given.2).Encodable := by decide +kernel
  obtain ⟨exactly, logs⟩ := every_failure_logged_once interpreter "go" noisy
  have same := exactly.symm.trans reported
  have logged := logs environment disk fun _ => stamp
  rw [same] at logged
  rw [CrashLog.appendAll_each]
  exact ⟨reported, opens, encodable, logged opens encodable⟩

end Loop

end LineShell
