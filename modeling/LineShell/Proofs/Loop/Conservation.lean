import LineShell.Proofs.Loop.Run

namespace LineShell

namespace Loop

-- What a piece of the loop makes of the events: those that it took were the oldest ones
-- and were applied in their order, and those that it entered stand behind all others.
structure Conserves (before : Loop) (taken entered : List Event) (after : Loop) : Prop where
  queue : before.queue ++ entered = taken ++ after.queue
  screen : after.screen = taken.foldl before.interpreter.update before.screen
  interpreter : after.interpreter = before.interpreter

theorem Conserves.refl (loop : Loop) : Conserves loop [] [] loop :=
  ⟨List.append_nil _, rfl, rfl⟩

theorem Conserves.trans {before middle after : Loop} {first second one two : List Event}
    (left : Conserves before first one middle) (right : Conserves middle second two after) :
    Conserves before (first ++ second) (one ++ two) after := by
  refine ⟨?_, ?_, right.interpreter.trans left.interpreter⟩
  · rw [← List.append_assoc, left.queue, List.append_assoc, right.queue, List.append_assoc]
  · rw [right.screen, left.screen, left.interpreter, List.foldl_append]

theorem push_conserves (loop : Loop) (event : Event) :
    Conserves loop [] [event] (loop.push event) :=
  ⟨rfl, rfl, rfl⟩

theorem advance_conserves (loop : Loop) : Conserves loop loop.oldest [] loop.advance :=
  ⟨(List.append_nil _).trans loop.advance_queue, loop.advance_screen, loop.advance_interpreter⟩

theorem receive_conserves {loop : Loop} {script : Script} {turn : Turn Bool}
    (received : Receives loop script turn) : Conserves loop [] turn.entered turn.loop := by
  cases received with
  | line _ => exact push_conserves loop _
  | ended _ _ => exact push_conserves loop _
  | left _ _ => exact .refl loop
  | told _ _ _ _ => exact push_conserves loop _
  | untold _ _ _ _ => exact .refl loop

theorem receive_taken {loop : Loop} {script : Script} {turn : Turn Bool}
    (received : Receives loop script turn) : turn.taken = [] := by
  cases received <;> rfl

theorem step_taken {loop : Loop} {script : Script} {turn : Turn Bool}
    (stepped : Steps loop script turn) : turn.taken = loop.oldest := by
  cases stepped with
  | unshown _ =>
    rw [taking_taken]
    exact List.append_nil _
  | last _ _ =>
    rw [taking_taken]
    exact List.append_nil _
  | waits _ _ received =>
    rw [taking_taken, Turn.after_taken, receive_taken received]
    exact List.append_nil _

theorem step_takes_nothing {loop : Loop} {script : Script} {turn : Turn Bool}
    (stepped : Steps loop script turn) (empty : loop.queue = []) : turn.taken = [] := by
  rw [step_taken stepped, oldest, empty]
  rfl

theorem step_conserves {loop : Loop} {script : Script} {turn : Turn Bool}
    (stepped : Steps loop script turn) : Conserves loop turn.taken turn.entered turn.loop := by
  rw [step_taken stepped]
  cases stepped with
  | unshown _ =>
    rw [taking_entered]
    exact advance_conserves loop
  | last _ _ =>
    rw [taking_entered]
    exact advance_conserves loop
  | waits _ _ received =>
    have whole := (advance_conserves loop).trans (receive_conserves received)
    rw [List.append_nil] at whole
    rw [taking_entered]
    exact whole

theorem step_screen {loop : Loop} {script : Script} {turn : Turn Bool}
    (stepped : Steps loop script turn) : turn.loop.screen = loop.advance.screen := by
  rw [(step_conserves stepped).screen, step_taken stepped, advance_screen]

-- A whole session conserves its events as its turns do: reporting a fault neither takes
-- nor enters one.
theorem run_conserves {loop : Loop} {script : Script} {count : Nat} {whole : Turn Screen}
    (ends : Ends loop script count whole) : Conserves loop whole.taken whole.entered whole.loop := by
  induction ends with
  | last stepped _ =>
    subst stepped
    exact step_conserves (step_sound _ _)
  | next stepped _ _ ih =>
    subst stepped
    rw [Turn.after_taken, Turn.after_entered]
    exact (step_conserves (step_sound _ _)).trans ih
  | leaves stepped _ _ =>
    subst stepped
    exact step_conserves (step_sound _ _)
  | resumes stepped _ _ _ _ ih =>
    subst stepped
    rw [Turn.after_taken, Turn.after_entered, handled_taken _ _ rfl, handled_entered _ _ rfl]
    exact (step_conserves (step_sound _ _)).trans ih
  | fails stepped _ _ _ =>
    subst stepped
    rw [Turn.taken, Turn.entered, handled_taken _ _ rfl, handled_entered _ _ rfl]
    exact step_conserves (step_sound _ _)

end Loop

-- What a reading brings. A line and an input that has ended or was interrupted always
-- bring their event; any other failure brings a quit unless a fault leaves the turn.
def Reading.brings (interpreter : Interpreter) (completed : Bool) : Reading → List Event
  | .line text => [interpreter.classify text]
  | .failed fault => if fault.endsInput ∨ completed = true then [.quit] else []

namespace Loop

theorem quit_brought (interpreter : Interpreter) {fault : Fault} {completed : Bool}
    (quits : fault.endsInput ∨ completed = true) :
    [Reading.failed fault].flatMap (·.brings interpreter completed) = [.quit] := by
  show (if fault.endsInput ∨ completed = true then [.quit] else []) ++ [] = [Event.quit]
  rw [if_pos quits]
  rfl

theorem nothing_brought (interpreter : Interpreter) {fault : Fault} {completed : Bool}
    (broken : ¬ fault.endsInput) (raised : completed = false) :
    [Reading.failed fault].flatMap (·.brings interpreter completed) = [] := by
  show (if fault.endsInput ∨ completed = true then [Event.quit] else []) ++ [] = []
  rw [if_neg]
  · rfl
  · intro quits
    rcases quits with ends | finished
    · exact broken ends
    · cases raised.symm.trans finished

theorem receive_brings {loop : Loop} {script : Script} {turn : Turn Bool}
    (received : Receives loop script turn) :
    turn.entered = turn.readings.flatMap (·.brings loop.interpreter turn.outcome.isOk) := by
  cases received with
  | line _ => rfl
  | ended _ ends => exact (quit_brought loop.interpreter (.inl ends)).symm
  | left _ exits =>
    refine (nothing_brought loop.interpreter ?_ rfl).symm
    intro ends
    rcases ends with ended | interrupted
    · cases exits.symm.trans ended
    · cases exits.symm.trans interrupted
  | told _ _ _ _ => exact (quit_brought loop.interpreter (.inr rfl)).symm
  | untold _ broken _ _ => exact (nothing_brought loop.interpreter broken rfl).symm

theorem step_brings {loop : Loop} {script : Script} {turn : Turn Bool}
    (stepped : Steps loop script turn) :
    turn.entered = turn.readings.flatMap (·.brings loop.interpreter turn.outcome.isOk) := by
  cases stepped with
  | unshown _ =>
    rw [taking_entered, taking_readings]
    rfl
  | last _ _ =>
    rw [taking_entered, taking_readings]
    rfl
  | waits _ _ received =>
    have brought := receive_brings received
    rw [advance_interpreter] at brought
    rw [taking_entered, taking_readings]
    exact brought

-- What a caller may do with a session between two looks at it.
inductive Call where
  | step
  | push (event : Event)
deriving DecidableEq

def call (loop : Loop) (script : Script) : Call → Turn Bool
  | .step => loop.step script
  | .push event => ⟨.ok true, loop.push event, script, [.queued event]⟩

def Call.brings (interpreter : Interpreter) (turn : Turn Bool) : Call → List Event
  | .step => turn.readings.flatMap (·.brings interpreter turn.outcome.isOk)
  | .push event => [event]

theorem call_conserves (loop : Loop) (script : Script) (call : Call) :
    Conserves loop (loop.call script call).taken (loop.call script call).entered
      (loop.call script call).loop := by
  cases call with
  | step => exact step_conserves (step_sound loop script)
  | push event => exact push_conserves loop event

theorem call_brings (loop : Loop) (script : Script) (call : Call) :
    (loop.call script call).entered = call.brings loop.interpreter (loop.call script call) := by
  cases call with
  | step => exact step_brings (step_sound loop script)
  | push event => rfl

theorem call_answers (loop : Loop) (script : Script) (call : Call) :
    script.Answers (loop.call script call).readings (loop.call script call).writings
      (loop.call script call).script := by
  cases call with
  | step => exact step_answers (step_sound loop script)
  | push event => exact .refl script

end Loop

-- A session under its calls so far, each with what came of it. A fault that left a call
-- changes nothing for the next one: it finds the state that was left behind.
structure Course where
  loop : Loop
  script : Script
  turns : List (Loop.Call × Turn Bool) := []

namespace Course

def add (course : Course) (call : Loop.Call) : Course :=
  let turn := course.loop.call course.script call
  ⟨turn.loop, turn.script, course.turns ++ [(call, turn)]⟩

def run (interpreter : Interpreter) (command : Text) (script : Script) (calls : List Loop.Call) :
    Course :=
  calls.foldl add ⟨.start interpreter command, script, []⟩

def taken (course : Course) : List Event := course.turns.flatMap (·.2.taken)
def entered (course : Course) : List Event := course.turns.flatMap (·.2.entered)
def readings (course : Course) : List Reading := course.turns.flatMap (·.2.readings)
def writings (course : Course) : List (Option Fault) := course.turns.flatMap (·.2.writings)

-- What the calls and the readings bring, told from the answers of the script alone.
def brought (interpreter : Interpreter) (course : Course) : List Event :=
  course.turns.flatMap fun (call, turn) => call.brings interpreter turn

theorem add_taken (course : Course) (call : Loop.Call) :
    (course.add call).taken = course.taken ++ (course.loop.call course.script call).taken := by
  simp only [taken, add, List.flatMap_append, List.flatMap_singleton]

theorem add_entered (course : Course) (call : Loop.Call) :
    (course.add call).entered = course.entered ++ (course.loop.call course.script call).entered := by
  simp only [entered, add, List.flatMap_append, List.flatMap_singleton]

theorem add_readings (course : Course) (call : Loop.Call) :
    (course.add call).readings = course.readings ++ (course.loop.call course.script call).readings := by
  simp only [readings, add, List.flatMap_append, List.flatMap_singleton]

theorem add_writings (course : Course) (call : Loop.Call) :
    (course.add call).writings = course.writings ++ (course.loop.call course.script call).writings := by
  simp only [writings, add, List.flatMap_append, List.flatMap_singleton]

theorem add_brought (interpreter : Interpreter) (course : Course) (call : Loop.Call) :
    (course.add call).brought interpreter = course.brought interpreter ++
      call.brings interpreter (course.loop.call course.script call) := by
  simp only [brought, add, List.flatMap_append, List.flatMap_singleton]

-- What holds of a session however it has been called so far.
structure Sound (interpreter : Interpreter) (command : Text) (script : Script) (course : Course) :
    Prop where
  conserves : Loop.Conserves (.start interpreter command) course.taken course.entered course.loop
  brought : course.entered = course.brought interpreter
  answers : script.Answers course.readings course.writings course.script

theorem add_sound {interpreter : Interpreter} {command : Text} {script : Script} {course : Course}
    (sound : Sound interpreter command script course) (call : Loop.Call) :
    Sound interpreter command script (course.add call) := by
  have kept : course.loop.interpreter = interpreter := sound.conserves.interpreter
  refine ⟨?_, ?_, ?_⟩
  · rw [add_taken, add_entered]
    exact sound.conserves.trans (Loop.call_conserves course.loop course.script call)
  · rw [add_entered, add_brought, sound.brought, Loop.call_brings, kept]
  · rw [add_readings, add_writings]
    exact sound.answers.trans (Loop.call_answers course.loop course.script call)

theorem foldl_sound {interpreter : Interpreter} {command : Text} {script : Script}
    (calls : List Loop.Call) {course : Course} (sound : Sound interpreter command script course) :
    Sound interpreter command script (calls.foldl add course) := by
  induction calls generalizing course with
  | nil => exact sound
  | cons call rest ih => exact ih (add_sound sound call)

theorem run_sound (interpreter : Interpreter) (command : Text) (script : Script)
    (calls : List Loop.Call) :
    Sound interpreter command script (run interpreter command script calls) :=
  foldl_sound calls ⟨.refl _, rfl, .refl _⟩

-- Every event that ever entered the queue was applied once, in the order of its
-- arrival, or still waits, whichever reads and writes failed and left a call.
theorem events_conserved (interpreter : Interpreter) (command : Text) (script : Script)
    (calls : List Loop.Call) :
    let course := run interpreter command script calls
    .command command :: course.entered = course.taken ++ course.loop.queue ∧
      course.loop.screen = course.taken.foldl interpreter.update interpreter.start ∧
      course.entered = course.brought interpreter ∧
      script.Answers course.readings course.writings course.script := by
  have sound := run_sound interpreter command script calls
  exact ⟨sound.conserves.queue, sound.conserves.screen, sound.brought, sound.answers⟩

end Course

end LineShell
