import Mathlib.Data.List.Forall2
import LineShell.Proofs.Loop.Run

namespace LineShell

-- What is left of each when the texts of commands are left out.
def Event.blank : Event → Event
  | .command _ => .command []
  | event => event

def Reading.blank : Reading → Reading
  | .line _ => .line []
  | reading => reading

def Report.blank (report : Report) : Report := { report with command := [] }

def Effect.blank : Effect → Effect
  | .took event => .took event.blank
  | .queued event => .queued event.blank
  | .asked prompt reading => .asked prompt reading.blank
  | .reported report => .reported report.blank
  | effect => effect

-- The same answer, or two lines neither of which stops the session.
inductive Reading.Alike (triggers : List Text) : Reading → Reading → Prop where
  | same (reading : Reading) : Alike triggers reading reading
  | lines {first second : Text} (one : first ∉ triggers) (other : second ∉ triggers) :
      Alike triggers (.line first) (.line second)

structure Script.Alike (triggers : List Text) (one other : Script) : Prop where
  reads : List.Forall₂ (Reading.Alike triggers) one.reads other.reads
  writes : one.writes = other.writes

-- Two sessions of one interpreter that only the texts of commands tell apart.
structure Loop.Alike (interpreter : Interpreter) (one other : Loop) : Prop where
  first : one.interpreter = interpreter
  second : other.interpreter = interpreter
  screen : one.screen = other.screen
  queue : one.queue.map Event.blank = other.queue.map Event.blank

structure Turn.Alike {α : Type} (interpreter : Interpreter) (one other : Turn α) : Prop where
  outcome : one.outcome = other.outcome
  loop : one.loop.Alike interpreter other.loop
  script : one.script.Alike interpreter.triggers other.script
  effects : one.effects.map Effect.blank = other.effects.map Effect.blank

-- What is seen of an effect without its command is the same in both sessions.
theorem Effect.blank_project {β : Type} (project : Effect → Option β) (clear : β → β)
    (blind : ∀ effect, project effect.blank = (project effect).map clear)
    {effects others : List Effect} (same : effects.map Effect.blank = others.map Effect.blank) :
    (effects.filterMap project).map clear = (others.filterMap project).map clear := by
  have blanked (these : List Effect) :
      (these.map Effect.blank).filterMap project = (these.filterMap project).map clear := by
    rw [List.filterMap_map, List.map_filterMap]
    exact congrArg (List.filterMap · these) (funext blind)
  rw [← blanked, ← blanked, same]

namespace Script

variable {triggers : List Text} {one other left : Script}

theorem Alike.write (alike : one.Alike triggers other) {outcome : Option Fault}
    (written : one.write = (outcome, left)) :
    ∃ right, other.write = (outcome, right) ∧ left.Alike triggers right := by
  obtain ⟨reads, writes⟩ := one
  obtain ⟨others, _⟩ := other
  obtain ⟨same, rfl⟩ := alike
  cases writes <;> cases written <;> exact ⟨_, rfl, same, rfl⟩

theorem Alike.read (alike : one.Alike triggers other) {reading : Reading}
    (read : one.read = (reading, left)) :
    ∃ next right, other.read = (next, right) ∧ reading.Alike triggers next ∧
      left.Alike triggers right := by
  obtain ⟨reads, writes⟩ := one
  obtain ⟨others, _⟩ := other
  obtain ⟨same, rfl⟩ := alike
  cases same with
  | nil =>
    cases read
    exact ⟨_, _, rfl, .same _, .nil, rfl⟩
  | cons first rest =>
    cases read
    exact ⟨_, _, rfl, first, rest, rfl⟩

theorem Alike.read_line (alike : one.Alike triggers other) {first : Text}
    (read : one.read = (.line first, left)) :
    ∃ second right, other.read = (.line second, right) ∧
      Reading.Alike triggers (.line first) (.line second) ∧ left.Alike triggers right := by
  obtain ⟨next, right, again, answer, rest⟩ := alike.read read
  cases answer with
  | same _ => exact ⟨_, right, again, .same _, rest⟩
  | lines one other => exact ⟨_, right, again, .lines one other, rest⟩

-- No failure is taken for a line, nor for another failure.
theorem Alike.read_failed (alike : one.Alike triggers other) {fault : Fault}
    (read : one.read = (.failed fault, left)) :
    ∃ right, other.read = (.failed fault, right) ∧ left.Alike triggers right := by
  obtain ⟨next, right, again, answer, rest⟩ := alike.read read
  cases answer
  exact ⟨right, again, rest⟩

end Script

-- Lines that are alike bring events that are.
theorem Reading.Alike.classify {interpreter : Interpreter} {first second : Text}
    (alike : Reading.Alike interpreter.triggers (.line first) (.line second)) :
    (interpreter.classify first).blank = (interpreter.classify second).blank := by
  cases alike with
  | same _ => rfl
  | lines one other => simp [Interpreter.classify, Event.ofLine, one, other, Event.blank]

namespace Turn

variable {α : Type} {interpreter : Interpreter} {one other : Turn α} {earlier later : List Effect}

theorem Alike.after (alike : one.Alike interpreter other)
    (same : earlier.map Effect.blank = later.map Effect.blank) :
    (one.after earlier).Alike interpreter (other.after later) := by
  refine ⟨alike.outcome, alike.loop, alike.script, ?_⟩
  simp [Turn.after, same, alike.effects]

end Turn

namespace Loop

variable {interpreter : Interpreter} {one other : Loop} {script left : Script}

theorem Alike.push (alike : one.Alike interpreter other) {event next : Event}
    (same : event.blank = next.blank) : (one.push event).Alike interpreter (other.push next) := by
  refine ⟨alike.first, alike.second, alike.screen, ?_⟩
  simp [Loop.push, alike.queue, same]

-- The text of a command is not looked at.
theorem update_alike (interpreter : Interpreter) (screen : Screen) {event next : Event}
    (same : event.blank = next.blank) :
    interpreter.update screen event = interpreter.update screen next := by
  cases event <;> cases next <;> cases same <;> rfl

theorem Alike.advance (alike : one.Alike interpreter other) :
    one.advance.Alike interpreter other.advance ∧
      one.taking.map Effect.blank = other.taking.map Effect.blank := by
  obtain ⟨_, screen, queue, _⟩ := one
  obtain ⟨_, again, others, _⟩ := other
  obtain ⟨first, second, shown, same⟩ := alike
  dsimp only at first second shown same
  subst first second shown
  cases queue with
  | nil =>
    obtain rfl : others = [] := by simpa [eq_comm] using same
    exact ⟨⟨rfl, rfl, rfl, rfl⟩, rfl⟩
  | cons event rest =>
    cases others with
    | nil => cases same
    | cons next more =>
      obtain ⟨first, later⟩ := List.cons.inj same
      refine ⟨⟨rfl, rfl, update_alike _ _ first, later⟩, ?_⟩
      simp [taking, Effect.blank, first]

theorem receive_alike {turn : Turn Bool} (alike : one.Alike interpreter other)
    (same : script.Alike interpreter.triggers left) (received : Receives one script turn) :
    ∃ next, Receives other left next ∧ turn.Alike interpreter next := by
  cases received with
  | line read =>
    obtain ⟨text, right, again, answer, rest⟩ := same.read_line read
    have events := answer.classify
    refine ⟨_, .line again, rfl, ?_, rest, ?_⟩
    · rw [alike.first, alike.second]
      exact alike.push events
    · simp [Effect.blank, Reading.blank, alike.first, alike.second, events]
  | ended read ends =>
    obtain ⟨right, again, rest⟩ := same.read_failed read
    exact ⟨_, .ended again ends, rfl, alike.push rfl, rest, rfl⟩
  | left read exits =>
    obtain ⟨right, again, rest⟩ := same.read_failed read
    exact ⟨_, .left again exits, rfl, alike, rest, rfl⟩
  | told read broken stays written =>
    obtain ⟨right, again, rest⟩ := same.read_failed read
    obtain ⟨last, wrote, rest⟩ := rest.write written
    exact ⟨_, .told again broken stays wrote, rfl, alike.push rfl, rest, rfl⟩
  | untold read broken stays written =>
    obtain ⟨right, again, rest⟩ := same.read_failed read
    obtain ⟨last, wrote, rest⟩ := rest.write written
    exact ⟨_, .untold again broken stays wrote, rfl, alike, rest, rfl⟩

theorem step_alike {turn : Turn Bool} (alike : one.Alike interpreter other)
    (same : script.Alike interpreter.triggers left) (stepped : Steps one script turn) :
    turn.Alike interpreter (other.step left) := by
  obtain ⟨advanced, taken⟩ := alike.advance
  cases stepped with
  | unshown written =>
    obtain ⟨right, wrote, rest⟩ := same.write written
    rw [step_complete (.unshown wrote)]
    refine Turn.Alike.after ⟨rfl, advanced, rest, ?_⟩ taken
    simp [Effect.blank, advanced.screen]
  | last written stopped =>
    obtain ⟨right, wrote, rest⟩ := same.write written
    rw [step_complete (.last wrote (advanced.screen ▸ stopped))]
    refine Turn.Alike.after ⟨rfl, advanced, rest, ?_⟩ taken
    simp [Effect.blank, advanced.screen]
  | waits written going received =>
    obtain ⟨right, wrote, rest⟩ := same.write written
    obtain ⟨next, again, later⟩ := receive_alike advanced rest received
    rw [step_complete (.waits wrote (advanced.screen ▸ going) again)]
    refine Turn.Alike.after (later.after ?_) taken
    simp [Effect.blank, advanced.screen]

theorem caught_alike (alike : one.Alike interpreter other) (fault : Fault) :
    (one.caught fault).blank = (other.caught fault).blank := by
  simp [caught, Effect.blank, Report.blank, alike.screen]

theorem handled_alike {turn next : Turn Bool} (alike : turn.Alike interpreter next) (fault : Fault)
    (last : Effect) :
    (turn.effects ++ [turn.loop.caught fault] ++ [last]).map Effect.blank =
      (next.effects ++ [next.loop.caught fault] ++ [last]).map Effect.blank := by
  simp [alike.effects, caught_alike alike.loop]

-- Both sessions take turn after turn together, and end together: the induction is on the turns
-- of the one, and each of them is matched by a turn of the other.
theorem run_alike {count : Nat} {whole : Turn Screen} (ends : Ends one script count whole)
    (alike : one.Alike interpreter other) (same : script.Alike interpreter.triggers left) :
    whole.Alike interpreter (other.run left) := by
  suffices ∃ next, Ends other left count next ∧ whole.Alike interpreter next by
    obtain ⟨next, again, both⟩ := this
    rw [ends_run again]
    exact both
  induction ends generalizing other left with
  | last stepped finished =>
    subst stepped
    have turned := step_alike alike same (step_sound _ _)
    refine ⟨_, .last rfl (turned.outcome.symm.trans finished), ?_⟩
    exact ⟨congrArg Except.ok turned.loop.screen, turned.loop, turned.script, turned.effects⟩
  | next stepped another _ ih =>
    subst stepped
    have turned := step_alike alike same (step_sound _ _)
    obtain ⟨next, again, later⟩ := ih turned.loop turned.script
    exact ⟨_, .next rfl (turned.outcome.symm.trans another) again, later.after turned.effects⟩
  | leaves stepped raised leaving =>
    subst stepped
    have turned := step_alike alike same (step_sound _ _)
    refine ⟨_, .leaves rfl (turned.outcome.symm.trans raised) leaving, ?_⟩
    exact ⟨rfl, turned.loop, turned.script, turned.effects⟩
  | resumes stepped raised stays shown _ ih =>
    subst stepped
    have turned := step_alike alike same (step_sound _ _)
    obtain ⟨right, wrote, rest⟩ := turned.script.write shown
    obtain ⟨next, again, later⟩ := ih turned.loop rest
    exact ⟨_, .resumes rfl (turned.outcome.symm.trans raised) stays wrote again,
      later.after (handled_alike turned _ _)⟩
  | fails stepped raised stays unshown =>
    subst stepped
    have turned := step_alike alike same (step_sound _ _)
    obtain ⟨right, wrote, rest⟩ := turned.script.write unshown
    refine ⟨_, .fails rfl (turned.outcome.symm.trans raised) stays wrote, ?_⟩
    exact ⟨rfl, turned.loop, rest, handled_alike turned _ _⟩

end Loop

end LineShell
