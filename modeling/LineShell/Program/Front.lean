import LineShell.Front.HeldLine
import LineShell.Program.Session

namespace LineShell.Program

-- Which of the two front ends is at work: the plain one whenever the input is no
-- terminal or the user asks for it.
def isPlain (environment : Environment) (terminal : Bool) : Bool :=
  environment.find? "CRATCHIT_LEGACY_UI" = some (Text.ofString "1") || !terminal

def header (launch : Launch) : Text :=
  "\nPATH=" ++ launch.startup.display launch.settings.unsetDisplay

-- A whole run of the program: what ended it early, what it had for the two streams or what
-- the terminal received, and the disk afterwards.
structure PlainRun where
  failure : Option Failure
  writings : List Writing
  errors : Text
  disk : Disk

-- What standard output has received.
def PlainRun.output (run : PlainRun) : Text := (run.writings.filterMap Writing.taken?).flatten

structure TerminalRun where
  failure : Option Failure
  outputs : List HeldLine.Output
  line : HeldLine
  disk : Disk

-- A run that nothing ended early gives the code zero, and one that a failure leaves gives none.
def exitCode? (failure : Option Failure) : Option Nat := if failure.isNone then some 0 else none

def noticeLine (notice : Entries.Notice) : Text := notice.text ++ [.newline]

-- Without a terminal the texts go out as they are, notices to the error stream, and a newline
-- ends the output of a run that nothing ended early. The script answers the header too, before
-- there is a session, and the newline behind it: standard output may refuse either.
def runPlain (launch : Launch) (script : Script) : PlainRun :=
  let (refusal, script) := script.write
  let first : Writing := ⟨header launch, refusal⟩
  match refusal with
  | some fault => ⟨some (.fault fault), [first], [], launch.disk⟩
  | none =>
    let session := Session.run launch script
    let errors := (session.loading ++ session.saving).flatMap noticeLine
    let writings := [first] ++ session.effects.filterMap Effect.attempt?
    match session.failure with
    | some failure => ⟨some failure, writings, errors, session.disk⟩
    | none =>
      let (refusal, _) := session.script.write
      ⟨refusal.map .fault, writings ++ [⟨[.newline], refusal⟩], errors, session.disk⟩

def terminalCall? : Effect → Option HeldLine.Call
  | .wrote text => some (.write text)
  | .asked prompt _ => some (.read prompt)
  | _ => none

-- All that is done at a terminal, which takes every text: what it cannot show it replaces.
-- Whatever ended the session, nothing stays held back, and a newline comes last.
def terminalCalls (launch : Launch) (session : Session) : List HeldLine.Call :=
  [.write (header launch)] ++
    session.loading.map (fun notice => .write (noticeLine notice)) ++
    session.effects.filterMap terminalCall? ++
    session.saving.map (fun notice => .write (noticeLine notice)) ++
    [.flush, .write [.newline]]

def runTerminal (launch : Launch) (reads : List Reading) : TerminalRun :=
  let session := Session.run launch { reads }
  let (line, outputs) := HeldLine.run {} (terminalCalls launch session)
  { failure := session.failure, outputs, line, disk := session.disk }

end LineShell.Program
