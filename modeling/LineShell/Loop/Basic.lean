import LineShell.Interpreter
import LineShell.Loop.Script

namespace LineShell

-- A session at work: its screen, the events that wait, oldest first, and the event
-- that was taken last.
structure Loop where
  interpreter : Interpreter
  screen : Screen
  queue : List Event
  current : Event := .idle
deriving DecidableEq

-- What a piece of the loop comes to. A fault that leaves it is told beside the state
-- that it leaves behind.
structure Turn (α : Type) where
  outcome : Except Fault α
  loop : Loop
  script : Script
  effects : List Effect

def Turn.after {α : Type} (before : List Effect) (turn : Turn α) : Turn α :=
  { turn with effects := before ++ turn.effects }

def Event.text : Event → Text
  | .command text => text
  | _ => []

namespace Loop

def start (interpreter : Interpreter) (command : Text) : Loop :=
  { interpreter, screen := interpreter.start, queue := [.command command] }

def push (loop : Loop) (event : Event) : Loop := { loop with queue := loop.queue ++ [event] }

def advance (loop : Loop) : Loop :=
  match loop.queue with
  | [] => { loop with current := .idle, screen := loop.interpreter.update loop.screen .idle }
  | event :: rest =>
    { loop with queue := rest, current := event, screen := loop.interpreter.update loop.screen event }

def inputFailed (fault : Fault) : Text := "\n[ERROR] Input failed: " ++ fault.described

def unhandled (fault : Fault) : Text := "\n[ERROR] Unhandled exception: " ++ fault.described

def taking (loop : Loop) : List Effect := loop.queue.head?.toList.map .took

-- Waits for a line. When the input is at its end or was interrupted the session is
-- to stop in the ordinary way; an input that fails otherwise is reported first.
def receive (loop : Loop) (script : Script) : Turn Bool :=
  let (reading, script) := script.read
  let asked : List Effect := [.asked [] reading]
  match reading with
  | .line text =>
    let event := loop.interpreter.classify text
    ⟨.ok true, loop.push event, script, asked ++ [.queued event]⟩
  | .failed fault =>
    if fault.kind = .endOfInput ∨ fault.kind = .interrupt then
      ⟨.ok true, loop.push .quit, script, asked ++ [.queued .quit]⟩
    else if fault.isLeaving then ⟨.error fault, loop, script, asked⟩
    else
      let text := inputFailed fault
      let (failure, script) := script.write
      let asked := asked ++ [.reported { fault }]
      match failure with
      | some failure => ⟨.error failure, loop, script, asked ++ [.writeFailed text failure]⟩
      | none => ⟨.ok true, loop.push .quit, script, asked ++ [.wrote text, .queued .quit]⟩

-- One turn: apply an event, show the screen, and wait for a line unless the screen
-- is the last one. The answer tells whether there is another turn.
def step (loop : Loop) (script : Script) : Turn Bool :=
  let took := loop.taking
  let loop := loop.advance
  let text := loop.screen.prompt
  let (failure, script) := script.write
  match failure with
  | some failure => ⟨.error failure, loop, script, took ++ [.writeFailed text failure]⟩
  | none =>
    let shown := took ++ [.wrote text]
    if loop.screen.quit then ⟨.ok false, loop, script, shown⟩
    else (loop.receive script).after shown

end Loop

end LineShell
