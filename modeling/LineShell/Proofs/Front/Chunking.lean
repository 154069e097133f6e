import LineShell.Proofs.Front.HeldLine

namespace LineShell

-- The texts of a list, gathered before its first stop and behind each one. A stop has no text.
def gather {α : Type} (text? : α → Option Text) : List α → Text × List Text
  | [] => ([], [])
  | item :: rest =>
    let (first, more) := gather text? rest
    match text? item with
    | some text => (text ++ first, more)
    | none => ([], first :: more)

namespace HeldLine

theorem write_nil (line : HeldLine) : line.write [] = (line, []) := if_pos rfl

theorem write_conserves (line : HeldLine) (text : Text) :
    transcript (line.write text).2 ++ (line.write text).1.held = line.held ++ text :=
  apply_conserves line (.write text)

theorem write_reading (line : HeldLine) (text : Text) :
    (line.write text).1.reading = line.reading := by
  have wrote := write_sound line text
  generalize line.write text = result at wrote ⊢
  cases wrote <;> rfl

theorem write_held (line : HeldLine) {text : Text} (present : text ≠ []) :
    (line.write text).1.held = Text.afterLast .newline (line.held ++ text) := by
  have wrote := write_sound line text
  generalize line.write text = result at wrote ⊢
  cases wrote with
  | holds short => exact (Text.afterLast_clean (short.resolve_left present)).symm
  | prints shape clean => rw [shape, Text.afterLast_append_mark clean]

-- Two writes leave the line that one write of both texts leaves.
theorem write_write (line : HeldLine) (first second : Text) :
    ((line.write first).1.write second).1 = (line.write (first ++ second)).1 := by
  by_cases begins : first = []
  · simp [begins, write_nil]
  by_cases ends : second = []
  · simp [ends, write_nil]
  have held : ((line.write first).1.write second).1.held = (line.write (first ++ second)).1.held := by
    have whole : first ++ second ≠ [] := List.append_ne_nil_of_left_ne_nil begins _
    rw [write_held _ ends, write_held _ begins, write_held _ whole, Text.afterLast_append,
      List.append_assoc]
  have reading : ((line.write first).1.write second).1.reading =
      (line.write (first ++ second)).1.reading := by simp only [write_reading]
  exact (HeldLine.mk.injEq ..).mpr ⟨held, reading⟩

-- Since nothing is lost, they print the same as well.
theorem write_write_transcript (line : HeldLine) (first second : Text) :
    transcript (line.write first).2 ++ transcript ((line.write first).1.write second).2 =
      transcript (line.write (first ++ second)).2 := by
  have whole := calc
    transcript (line.write first).2 ++ transcript ((line.write first).1.write second).2 ++
        (line.write (first ++ second)).1.held
      = transcript (line.write first).2 ++ ((line.write first).1.held ++ second) := by
        rw [← write_write, List.append_assoc, write_conserves]
    _ = line.held ++ first ++ second := by rw [← List.append_assoc, write_conserves]
    _ = transcript (line.write (first ++ second)).2 ++ (line.write (first ++ second)).1.held := by
        rw [write_conserves, List.append_assoc]
  exact List.append_cancel_right whole

namespace Call

-- Reads and flushes stop the writes.
def stops : Call → Bool
  | .write _ => false
  | _ => true

def written? : Call → Option Text
  | .write text => some text
  | _ => none

end Call

end HeldLine

namespace Terminal

open HeldLine (Call transcript)

-- What a terminal did, told for the reads and flushes one by one, each with all that came of it,
-- and for the writes between them by what they printed together.
structure Seen where
  stops : List (Call × Reply)
  printed : Text × List Text
  left : Terminal

def printed? : Call × Reply → Option Text
  | (.write _, reply) => some (transcript reply.outputs)
  | _ => none

def seen (terminal : Terminal) (calls : List Call) : Seen :=
  let history := calls.zip (terminal.performAll calls)
  ⟨history.filter (·.1.stops), gather printed? history, terminal.after calls⟩

variable {terminal : Terminal} {calls one other : List Call}

theorem seen_write (terminal : Terminal) (text : Text) (calls : List Call) :
    terminal.seen (.write text :: calls) =
      let reply := terminal.perform (.write text)
      let later := reply.terminal.seen calls
      ⟨later.stops, (transcript reply.outputs ++ later.printed.1, later.printed.2), later.left⟩ := rfl

theorem seen_stop {call : Call} (stops : call.stops = true) (terminal : Terminal) (calls : List Call) :
    terminal.seen (call :: calls) =
      let reply := terminal.perform call
      let later := reply.terminal.seen calls
      ⟨(call, reply) :: later.stops, ([], later.printed.1 :: later.printed.2), later.left⟩ := by
  cases call with
  | write _ => cases stops
  | flush => rfl
  | read _ => rfl

theorem seen_write_nil (terminal : Terminal) (calls : List Call) :
    terminal.seen (.write [] :: calls) = terminal.seen calls := by
  rw [seen_write]
  rfl

theorem seen_write_write (terminal : Terminal) (first second : Text) (calls : List Call) :
    terminal.seen (.write first :: .write second :: calls) =
      terminal.seen (.write (first ++ second) :: calls) := by
  have line := terminal.line.write_write first second
  have printed := terminal.line.write_write_transcript first second
  simp only [seen_write, perform, HeldLine.apply, line, ← printed, List.append_assoc]

theorem seen_cons (call : Call) (same : ∀ terminal : Terminal, terminal.seen one = terminal.seen other)
    (terminal : Terminal) : terminal.seen (call :: one) = terminal.seen (call :: other) := by
  cases stops : call.stops with
  | true => simp only [seen_stop stops, same]
  | false =>
    cases call with
    | write text => simp only [seen_write, same]
    | _ => cases stops

-- The same calls with each stretch of writes made at once.
def behind : List Text → List Call → List Call
  | text :: more, call :: rest => call :: .write text :: behind more rest
  | _, _ => []

def rejoined (calls : List Call) : List Call :=
  let (first, more) := gather Call.written? calls
  .write first :: behind more (calls.filter Call.stops)

theorem seen_rejoined (terminal : Terminal) (calls : List Call) :
    terminal.seen (rejoined calls) = terminal.seen calls := by
  induction calls generalizing terminal with
  | nil => exact seen_write_nil terminal []
  | cons call rest ih =>
    rw [← seen_cons call ih]
    cases call with
    | write text => exact (seen_write_write terminal text _ _).symm
    | flush => exact seen_write_nil terminal _
    | read prompt => exact seen_write_nil terminal _

-- However the text between two reads or flushes is cut into writes, the reads are asked with the
-- same messages and the flushes print the same, what the writes print comes to the same text, and
-- the terminal is left the same.
theorem chunking_unseen (terminal : Terminal)
    (stops : one.filter Call.stops = other.filter Call.stops)
    (texts : gather Call.written? one = gather Call.written? other) :
    terminal.seen one = terminal.seen other := by
  have same : rejoined one = rejoined other := by rw [rejoined, rejoined, stops, texts]
  rw [← seen_rejoined terminal one, same, seen_rejoined]

-- A newline in front, inside and at the end of what is cut, empty writes, and a read that raises.
theorem awkward_cuts_unseen :
    let terminal : Terminal := { answers := [.failed ⟨.interrupt, []⟩] }
    let one : List Call := [.write "a\nb", .write [], .write "c\n", .read "> ", .write "\n",
      .write "d", .flush, .write "e\nf"]
    let other : List Call := [.write "a", .write "\nbc\n", .read "> ", .write "\nd", .flush,
      .write [], .write "e", .write "\n", .write "f"]
    one.filter Call.stops = other.filter Call.stops ∧
      gather Call.written? one = gather Call.written? other ∧
      terminal.seen one = terminal.seen other ∧
      (terminal.seen one).printed =
        (Text.ofString "a\nbc\n", [Text.ofString "\n", Text.ofString "e\n"]) := by
  intro terminal one other
  have stops : one.filter Call.stops = other.filter Call.stops := rfl
  have texts : gather Call.written? one = gather Call.written? other := by decide
  exact ⟨stops, texts, chunking_unseen terminal stops texts, by decide⟩

end Terminal

end LineShell
