import LineShell.Proofs.Loop.Discretion
import LineShell.Proofs.Program.Session

namespace LineShell

theorem Interpreter.ofSettings_triggers {path : Path} {settings : Settings} {interpreter : Interpreter}
    (made : ofSettings path settings = .ok interpreter) :
    settings.quitTriggers = .ok interpreter.triggers := by
  unfold ofSettings at made
  split at made
  · cases made
  · split at made
    · cases made
    · rename_i given
      cases made
      exact given

-- Two inputs that only the texts of commands tell apart, those that start a session included.
-- What the log knows of the moment need not be the same either.
def Input.Alike (settings : Settings) (one other : Input) : Prop :=
  ∀ triggers, settings.quitTriggers = .ok triggers → one.script.Alike triggers other.script

namespace Session

variable {launch : Launch} {one other : Input}

theorem turns_alike {interpreter : Interpreter} (alike : one.Alike launch.settings other)
    (made : Interpreter.ofSettings launch.entriesPath launch.settings = .ok interpreter) :
    ((Loop.start interpreter one.command).run one.script).Alike interpreter
      ((Loop.start interpreter other.command).run other.script) := by
  obtain ⟨_, _, ends⟩ := Loop.run_counted (Loop.start interpreter one.command) one.script
  exact Loop.run_alike ends ⟨rfl, rfl, rfl, rfl⟩ (alike _ (Interpreter.ofSettings_triggers made))

theorem loopEnding_alike (alike : one.Alike launch.settings other) :
    loopEnding (launch.given one) one.script = loopEnding (launch.given other) other.script := by
  have made (input : Input) : Interpreter.ofSettings (launch.given input).entriesPath
      (launch.given input).settings = Interpreter.ofSettings launch.entriesPath launch.settings := rfl
  unfold loopEnding
  rw [made, made]
  cases found : Interpreter.ofSettings launch.entriesPath launch.settings with
  | error error => rfl
  | ok interpreter =>
    have outcome := (turns_alike alike found).outcome
    dsimp only [Launch.given]
    rw [outcome]

theorem loopEffects_alike (alike : one.Alike launch.settings other) :
    (loopEffects (launch.given one) one.script).map Effect.blank =
      (loopEffects (launch.given other) other.script).map Effect.blank := by
  have made (input : Input) : Interpreter.ofSettings (launch.given input).entriesPath
      (launch.given input).settings = Interpreter.ofSettings launch.entriesPath launch.settings := rfl
  unfold loopEffects
  rw [made, made]
  cases found : Interpreter.ofSettings launch.entriesPath launch.settings with
  | error error => rfl
  | ok interpreter => exact (turns_alike alike found).effects

-- Each fault is logged in both sessions, whatever can be said of the command behind it.
theorem logged_alike (alike : one.Alike launch.settings other) :
    Disk.Alike (CrashLog.Keeps launch.environment launch.disk)
      (logged (launch.given one) one.script) (logged (launch.given other) other.script) := by
  refine CrashLog.appendAll_alike (.refl launch.disk) (fun _ kept => kept) _ _ ?_
  have reports := Effect.blank_project Effect.report? Report.blank
    (fun effect => by cases effect <;> rfl) (loopEffects_alike alike)
  simpa using congrArg List.length reports

theorem under_alike (alike : one.Alike launch.settings other) :
    let first := under launch one
    let second := under launch other
    first.failure = second.failure ∧ first.loading = second.loading ∧ first.saving = second.saving ∧
      first.effects.map Effect.blank = second.effects.map Effect.blank ∧
      Disk.Alike (CrashLog.Keeps launch.environment launch.disk) first.disk second.disk := by
  intro first second
  cases loads : Entries.load launch.disk launch.entriesPath launch.settings.seeds with
  | error error =>
    have given (input : Input) : Entries.load (launch.given input).disk
      (launch.given input).entriesPath (launch.given input).settings.seeds = .error error := loads
    have ended (input : Input) : under launch input = _ := run_refused (given input) input.script
    rw [show first = _ from ended one, show second = _ from ended other]
    exact ⟨rfl, rfl, rfl, rfl, .refl launch.disk⟩
  | ok loaded =>
    have given (input : Input) : Entries.load (launch.given input).disk
      (launch.given input).entriesPath (launch.given input).settings.seeds = .ok loaded := loads
    obtain ⟨left, saves, leftmost⟩ := run_exact (given one) one.script
    obtain ⟨right, again, rightmost⟩ := run_exact (given other) other.script
    have alikes := Entries.save_alike (logged_alike alike) launch.entriesPath loaded.entries
    obtain ⟨saving, disks⟩ := alikes.both saves again
    rw [show first = _ from leftmost, show second = _ from rightmost]
    exact ⟨loopEnding_alike alike, rfl, saving, loopEffects_alike alike, disks⟩

-- The texts of the commands, those that start a session included, decide nothing that can be
-- seen from outside but what the crash log holds: nothing comes of it even when the log cannot
-- take an entry because of its command.
theorem command_text_has_no_influence (launch : Launch) (one other : Input)
    (alike : one.Alike launch.settings other) :
    let first := under launch one
    let second := under launch other
    first.failure = second.failure ∧ first.loading = second.loading ∧ first.saving = second.saving ∧
      first.effects.filterMap Effect.written? = second.effects.filterMap Effect.written? ∧
      (first.effects.filterMap Effect.reading?).length =
        (second.effects.filterMap Effect.reading?).length ∧
      (∀ interpreter, Interpreter.ofSettings launch.entriesPath launch.settings = .ok interpreter →
        ((Loop.start interpreter one.command).run one.script).loop.screen =
          ((Loop.start interpreter other.command).run other.script).loop.screen) ∧
      ∀ location, ¬ CrashLog.Keeps launch.environment launch.disk location →
        first.disk.find? location = second.disk.find? location := by
  intro first second
  obtain ⟨failure, loading, saving, effects, disks⟩ := under_alike alike
  refine ⟨failure, loading, saving, ?_, ?_, ?_, disks.seen⟩
  · simpa using Effect.blank_project Effect.written? id (fun effect => by cases effect <;> rfl) effects
  · have readings := Effect.blank_project Effect.reading? Reading.blank
      (fun effect => by cases effect <;> rfl) effects
    simpa using congrArg List.length readings
  · intro interpreter made
    exact (turns_alike alike made).loop.screen

-- The first screen of these cannot be shown, and the log cannot say so of the second one: its
-- command has no bytes.
def sayingInput : Input :=
  ⟨"go", ⟨[.line "a", .line "q"], [some ⟨.value, "full"⟩]⟩, ⟨"1", []⟩⟩

def strayInput : Input :=
  ⟨[.ofLoneByte 0xFF], ⟨[.line "b", .line "q"], [some ⟨.value, "full"⟩]⟩, ⟨"2", []⟩⟩

theorem stray_command_changes_nothing :
    sayingInput.Alike plainLaunch.settings strayInput ∧ ¬ strayInput.command.Encodable ∧
      (under plainLaunch sayingInput).failure = (under plainLaunch strayInput).failure ∧
      (under plainLaunch sayingInput).effects.filterMap Effect.written? =
        (under plainLaunch strayInput).effects.filterMap Effect.written? ∧
      (under plainLaunch sayingInput).disk.find? [Text.bytes "w", Text.bytes "cratchit.env"] =
        (under plainLaunch strayInput).disk.find? [Text.bytes "w", Text.bytes "cratchit.env"] := by
  have alike : sayingInput.Alike plainLaunch.settings strayInput := by
    intro triggers given
    have known : plainLaunch.settings.quitTriggers = .ok Settings.defaultQuitTriggers := rfl
    cases known.symm.trans given
    exact ⟨.cons (.lines (by decide) (by decide)) (.cons (.same _) .nil), rfl⟩
  obtain ⟨failure, _, _, written, _, _, files⟩ :=
    command_text_has_no_influence plainLaunch sayingInput strayInput alike
  refine ⟨alike, by decide, failure, written, files _ ?_⟩
  rintro ⟨root, found, place⟩
  have known : DataRoot.path plainLaunch.environment = .ok ⟨.relative, ["d"]⟩ := rfl
  cases known.symm.trans found
  exact absurd place (by decide +kernel)

end Session

end LineShell
