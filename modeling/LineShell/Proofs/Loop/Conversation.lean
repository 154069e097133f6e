import LineShell.Proofs.Loop.Ending

namespace LineShell

-- A line is an event of its own, and an input that gives none asks to stop.
def Reading.event (interpreter : Interpreter) : Reading → Event
  | .line text => interpreter.classify text
  | .failed _ => .quit

-- What a session comes to, told without its turns and its writes.
structure Conversation where
  screen : Screen
  asked : List Reading
  unread : List Reading

def Conversation.after (before : List Reading) (conversation : Conversation) : Conversation :=
  { conversation with asked := before ++ conversation.asked }

def Interpreter.converse (interpreter : Interpreter) (screen : Screen) :
    List Reading → Conversation
  | [] =>
    if screen.quit then ⟨screen, [], []⟩
    else ⟨interpreter.update screen .quit, [.failed .endOfInput], []⟩
  | reading :: rest =>
    if screen.quit then ⟨screen, [], reading :: rest⟩
    else (interpreter.converse (interpreter.update screen (reading.event interpreter)) rest).after
      [reading]

namespace Interpreter

theorem converse_quit (interpreter : Interpreter) {screen : Screen} (stopped : screen.quit = true)
    (readings : List Reading) : interpreter.converse screen readings = ⟨screen, [], readings⟩ := by
  cases readings with
  | nil => rw [converse, if_pos stopped]
  | cons reading rest => rw [converse, if_pos stopped]

theorem converse_read (interpreter : Interpreter) {screen : Screen} (going : screen.quit = false)
    {script left : Script} {reading : Reading} (read : script.read = (reading, left)) :
    interpreter.converse screen script.reads =
      (interpreter.converse (interpreter.update screen (reading.event interpreter)) left.reads).after
        [reading] := by
  have live : ¬ screen.quit = true := Bool.eq_false_iff.mp going
  obtain ⟨reads, writes⟩ := script
  cases reads with
  | nil =>
    cases read
    have stopped : (interpreter.update screen .quit).quit = true := rfl
    rw [Reading.event, converse_quit interpreter stopped, converse, if_neg live]
    rfl
  | cons head rest =>
    cases read
    rw [converse, if_neg live]

end Interpreter

-- The input gives lines, ends or is interrupted, and never fails otherwise.
def Script.Ordinary (script : Script) : Prop := ∀ fault, .failed fault ∈ script.reads → fault.endsInput

namespace Script

theorem read_ordinary {script left : Script} {fault : Fault} (ordinary : script.Ordinary)
    (read : script.read = (.failed fault, left)) : fault.endsInput := by
  obtain ⟨reads, writes⟩ := script
  cases reads with
  | nil =>
    cases read
    exact .inl rfl
  | cons head rest =>
    cases read
    exact ordinary fault List.mem_cons_self

theorem Answers.ordinary {before after : Script} {readings : List Reading}
    {writings : List (Option Fault)} (answers : before.Answers readings writings after)
    (ordinary : before.Ordinary) : after.Ordinary := by
  intro fault present
  obtain ⟨count, same⟩ := answers.reads
  have kept : .failed fault ∈ before.reads ++ List.replicate count (.failed .endOfInput) := by
    rw [← same]
    exact List.mem_append_right _ present
  rcases List.mem_append.mp kept with scripted | filler
  · exact ordinary fault scripted
  · cases List.eq_of_mem_replicate filler
    exact .inl rfl

theorem write_reads {script left : Script} {outcome : Option Fault}
    (written : script.write = (outcome, left)) : left.reads = script.reads := by
  obtain ⟨reads, writes⟩ := script
  cases writes <;> cases written <;> rfl

end Script

namespace Loop

-- What is still to come of a session, seen right before a turn.
def remaining (loop : Loop) (script : Script) : Conversation :=
  loop.interpreter.converse loop.advance.screen script.reads

theorem remaining_push {loop : Loop} {script left : Script} {reading : Reading}
    (empty : loop.queue = []) (going : loop.screen.quit = false)
    (read : script.read = (reading, left)) :
    loop.interpreter.converse loop.screen script.reads =
      ((loop.push (reading.event loop.interpreter)).remaining left).after [reading] := by
  rw [remaining, advance_push empty, Interpreter.converse_read loop.interpreter going read]
  rfl

theorem receive_remaining {loop : Loop} {script : Script} {turn : Turn Bool}
    (empty : loop.queue = []) (going : loop.screen.quit = false) (ordinary : script.Ordinary)
    (received : Receives loop script turn) :
    loop.interpreter.converse loop.screen script.reads =
      (turn.loop.remaining turn.script).after turn.readings := by
  cases received with
  | line read => exact remaining_push empty going read
  | ended read _ => exact remaining_push empty going read
  | left read exits =>
    rcases Script.read_ordinary ordinary read with ended | interrupted
    · cases exits.symm.trans ended
    · cases exits.symm.trans interrupted
  | told read broken _ _ => exact absurd (Script.read_ordinary ordinary read) broken
  | untold read broken _ _ => exact absurd (Script.read_ordinary ordinary read) broken

-- A turn that another one follows takes its readings off what is still to come. One
-- whose text cannot be written takes none, and the next one shows the same screen again.
theorem step_remaining {loop : Loop} {script : Script} {turn : Turn Bool} (drained : loop.Drained)
    (ordinary : script.Ordinary) (stepped : Steps loop script turn)
    (another : turn.outcome ≠ .ok false) :
    loop.remaining script = (turn.loop.remaining turn.script).after turn.readings := by
  cases stepped with
  | unshown written =>
    have unread := Script.write_reads written
    rw [taking_readings]
    simp only [remaining, Turn.after, advance_empty drained, advance_interpreter, unread]
    rfl
  | last _ _ => exact absurd rfl another
  | waits written going received =>
    have unread := Script.write_reads written
    have kept : Script.Ordinary _ := (Script.write_answers written).ordinary ordinary
    have rest := receive_remaining drained going kept received
    rw [taking_readings, Turn.after_readings]
    rw [unread, advance_interpreter] at rest
    exact rest

theorem step_finishes {loop : Loop} {script : Script} {turn : Turn Bool}
    (stepped : Steps loop script turn) (finished : turn.outcome = .ok false) :
    loop.remaining script = ⟨turn.loop.screen, turn.readings, turn.script.reads⟩ := by
  cases stepped with
  | unshown _ => cases finished
  | last written stopped =>
    rw [taking_readings, remaining, Interpreter.converse_quit _ stopped, ← Script.write_reads written]
    rfl
  | waits _ _ received => cases received <;> cases finished

theorem run_remaining {loop : Loop} {script : Script} {count : Nat} {whole : Turn Screen}
    (ends : Ends loop script count whole) (drained : loop.Drained) (ordinary : script.Ordinary)
    {screen : Screen} (returned : whole.outcome = .ok screen) :
    loop.remaining script = ⟨screen, whole.readings, whole.script.reads⟩ := by
  induction ends with
  | last stepped finished =>
    subst stepped
    cases returned
    exact step_finishes (step_sound _ _) finished
  | @next loop script _ _ _ stepped another _ ih =>
    subst stepped
    have turned := step_sound loop script
    have more := ih (step_drained drained turned) ((step_answers turned).ordinary ordinary) returned
    rw [step_remaining drained ordinary turned (by rw [another]; simp), more, Turn.after_readings]
    rfl
  | leaves _ _ _ => cases returned
  | @resumes loop script _ _ _ _ _ stepped raised _ shown _ ih =>
    subst stepped
    have turned := step_sound loop script
    have later := (step_answers turned).trans (Script.write_answers shown)
    have more := ih (step_drained drained turned) (later.ordinary ordinary) returned
    rw [remaining, Script.write_reads shown] at more
    rw [step_remaining drained ordinary turned (by rw [raised]; simp), remaining, more,
      Turn.after_readings, handled_readings _ _ rfl]
    rfl
  | fails _ _ _ _ => cases returned

theorem run_returns {loop : Loop} {script : Script} {count : Nat} {whole : Turn Screen}
    (ends : Ends loop script count whole) (ordinary : script.Ordinary)
    (written : ∀ fault, some fault ∉ script.writes) : ∃ screen, whole.outcome = .ok screen := by
  cases outcome : whole.outcome with
  | ok screen => exact ⟨screen, rfl⟩
  | error fault =>
    rcases run_scripted ends outcome with ⟨_, _, raised⟩ | ⟨_, scripted, exits⟩
    · exact absurd raised (written fault)
    · rcases ordinary fault scripted with ended | interrupted
      · cases exits.symm.trans ended
      · cases exits.symm.trans interrupted

-- Writes that fail cost a session no line and change no screen: one that returns all the
-- same has read what it would have read, and stops where it would have stopped.
theorem failed_writes_change_nothing (interpreter : Interpreter) (command : Text) (script : Script)
    (ordinary : script.Ordinary) (screen : Screen)
    (returned : ((start interpreter command).run script).outcome = .ok screen) :
    ((start interpreter command).run { script with writes := [] }).outcome = .ok screen ∧
      ((start interpreter command).run { script with writes := [] }).readings =
        ((start interpreter command).run script).readings ∧
      ((start interpreter command).run { script with writes := [] }).script.reads =
        ((start interpreter command).run script).script.reads := by
  obtain ⟨_, _, failing⟩ := run_counted (start interpreter command) script
  obtain ⟨_, _, calm⟩ := run_counted (start interpreter command) { script with writes := [] }
  have drained := start_drained interpreter command
  obtain ⟨other, finished⟩ := run_returns calm ordinary (fun _ => List.not_mem_nil)
  have one := run_remaining failing drained ordinary returned
  have two := run_remaining calm drained ordinary finished
  have same := two.symm.trans one
  rw [Conversation.mk.injEq] at same
  obtain ⟨rfl, asked, unread⟩ := same
  exact ⟨finished, asked, unread⟩

-- The first screen and the last one cannot be written at once.
def shaky : Script :=
  ⟨[.line "a", .failed ⟨.interrupt, []⟩, .line "b"],
    [some ⟨.system, "full"⟩, none, none, none, some ⟨.system, "full"⟩]⟩

theorem shaky_session_unchanged :
    let interpreter : Interpreter := { path := Path.ofText "kept" }
    let screen := interpreter.update (interpreter.update (interpreter.update interpreter.start
      (.command "go")) (.command "a")) .quit
    shaky.Ordinary ∧ ((start interpreter "go").run shaky).outcome = .ok screen ∧
      ((start interpreter "go").run { shaky with writes := [] }).outcome = .ok screen ∧
      ((start interpreter "go").run { shaky with writes := [] }).script.reads = [.line "b"] := by
  intro interpreter screen
  have ordinary : shaky.Ordinary := by
    intro fault present
    rcases List.mem_cons.mp present with same | later
    · cases same
    · rcases List.mem_cons.mp later with same | later
      · cases same
        exact .inr rfl
      · cases List.mem_singleton.mp later
  have ends : Ends (start interpreter "go") shaky _ _ :=
    .resumes rfl rfl rfl rfl (.next rfl rfl (.next rfl rfl (.resumes rfl rfl rfl rfl (.last rfl rfl))))
  have run := ends_run ends
  have returned : ((start interpreter "go").run shaky).outcome = .ok screen := by
    rw [run]
    rfl
  obtain ⟨calm, _, unread⟩ := failed_writes_change_nothing interpreter "go" shaky ordinary screen returned
  refine ⟨ordinary, returned, calm, unread.trans ?_⟩
  rw [run]
  rfl

end Loop

end LineShell
