import LineShell.Text.Inspect

namespace LineShell

-- What a fault is called. Those that ask to leave and those that end an input are told apart by
-- it; every other failure is known by its name alone.
inductive FaultKind where
  | value
  | runtime
  | type
  | system
  | key
  | zeroDivision
  | endOfInput
  | exit
  | interrupt
  | other (name : Text)
deriving Repr, DecidableEq

def FaultKind.name : FaultKind → Text
  | .value => "ValueError"
  | .runtime => "RuntimeError"
  | .type => "TypeError"
  | .system => "OSError"
  | .key => "KeyError"
  | .zeroDivision => "ZeroDivisionError"
  | .endOfInput => "EOFError"
  | .exit => "SystemExit"
  | .interrupt => "KeyboardInterrupt"
  | .other name => name

structure Fault where
  kind : FaultKind
  detail : Text
deriving DecidableEq

namespace Fault

-- A fault of a key shows the key as a quoted text, every other one its detail.
def message (fault : Fault) : Text :=
  if fault.kind = .key then fault.detail.inspect else fault.detail

def described (fault : Fault) : Text := fault.kind.name ++ Text.ofString ": " ++ fault.message

-- A request to leave is no failure: nothing may hold it back.
def isLeaving (fault : Fault) : Bool := fault.kind = .exit || fault.kind = .interrupt

def endOfInput : Fault := ⟨.endOfInput, []⟩

end Fault

end LineShell
