import LineShell.CrashLog

namespace LineShell

inductive Reading where
  | line (text : Text)
  | failed (fault : Fault)
deriving DecidableEq

-- What the outside world will answer. After the last reading the input is at its
-- end for ever, and after the last write named here every write succeeds.
structure Script where
  reads : List Reading := []
  writes : List (Option Fault) := []
deriving DecidableEq

namespace Script

def read (script : Script) : Reading × Script :=
  match script.reads with
  | [] => (.failed .endOfInput, script)
  | reading :: rest => (reading, { script with reads := rest })

def write (script : Script) : Option Fault × Script :=
  match script.writes with
  | [] => (none, script)
  | outcome :: rest => (outcome, { script with writes := rest })

-- How many answers are still to come. A read that is not the end of the input and a
-- write that fails use one up.
def size (script : Script) : Nat := script.reads.length + script.writes.length

end Script

-- What the loop does, in order: events that it takes from its queue and puts into it,
-- texts that it writes or fails to write, reads, and faults that it reports.
inductive Effect where
  | took (event : Event)
  | queued (event : Event)
  | wrote (text : Text)
  | writeFailed (text : Text) (fault : Fault)
  | asked (prompt : Text) (reading : Reading)
  | reported (report : Report)
deriving DecidableEq

-- A text on its way out, and the fault that it was refused with, if it was.
structure Writing where
  text : Text
  refusal : Option Fault
deriving DecidableEq

def Writing.taken? (writing : Writing) : Option Text :=
  if writing.refusal.isNone then some writing.text else none

namespace Effect

def taken? : Effect → Option Event
  | .took event => some event
  | _ => none

def queued? : Effect → Option Event
  | .queued event => some event
  | _ => none

def written? : Effect → Option Text
  | .wrote text => some text
  | _ => none

def attempt? : Effect → Option Writing
  | .wrote text => some ⟨text, none⟩
  | .writeFailed text fault => some ⟨text, some fault⟩
  | _ => none

def prompt? : Effect → Option Text
  | .asked prompt _ => some prompt
  | _ => none

def report? : Effect → Option Report
  | .reported report => some report
  | _ => none

end Effect

end LineShell
