import LineShell.Event
import LineShell.Wording

namespace LineShell

-- All that the interpreter knows at one moment: the text on display, and whether it
-- has been told to stop.
structure Screen where
  prompt : Text := []
  quit : Bool := false
deriving DecidableEq

inductive Delivery where
  | event (event : Event)
  | stray (value : Value)

structure StrayValue where
  value : Value

namespace StrayValue

def shownLength : Nat := 100

def message (stray : StrayValue) : Text :=
  let shown := stray.value.inspect
  "Expected code to be unreachable, but got: " ++
    if shownLength < shown.length then shown.take shownLength ++ Text.ofString "..." else shown

end StrayValue

namespace Screen

-- An event only ever adds to the text, and only a quit sets the flag.
def update (wording : Wording) (screen : Screen) : Event → Screen
  | .idle => screen
  | .quit => { prompt := screen.prompt ++ wording.farewell, quit := true }
  | .command _ => { screen with prompt := screen.prompt ++ wording.notice ++ wording.marker }

def accept (wording : Wording) (screen : Screen) : Delivery → Except StrayValue Screen
  | .event event => .ok (screen.update wording event)
  | .stray value => .error ⟨value⟩

-- The answer to each delivery in turn. One that is refused leaves the screen for the next.
def acceptEach (wording : Wording) (screen : Screen) : List Delivery → List (Except StrayValue Screen)
  | [] => []
  | delivery :: rest =>
    let answer := screen.accept wording delivery
    let next := match answer with
      | .ok next => next
      | .error _ => screen
    answer :: next.acceptEach wording rest

end Screen

end LineShell
