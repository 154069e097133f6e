import LineShell.Proofs.Loop.Stream
import LineShell.Proofs.Program.Session

namespace LineShell

-- What there is to tell of entries that are loaded and saved with nothing in between.
def Entries.notices (disk : Disk) (path : Path) (seeds : Entries) : List Entries.Notice :=
  match Entries.load disk path seeds with
  | .error _ => []
  | .ok loaded =>
    match Entries.save disk path loaded.entries with
    | .error _ => loaded.notices
    | .ok saved => loaded.notices ++ saved.notices

namespace Session

variable {launch : Launch} {script : Script}

-- All that a session does is done by a run of its loop, if that is made at all.
theorem loopEffects_ends (launch : Launch) (script : Script) : loopEffects launch script = [] ∨
    ∃ loop count whole, Loop.Ends loop script count whole ∧ loopEffects launch script = whole.effects := by
  unfold loopEffects
  cases made : Interpreter.ofSettings launch.entriesPath launch.settings with
  | error error => exact .inl rfl
  | ok interpreter =>
    obtain ⟨count, _, ends⟩ :=
      Loop.run_counted (Loop.start interpreter launch.startup.command) script
    exact .inr ⟨_, count, _, ends, rfl⟩

theorem loopEffects_unprompted (launch : Launch) (script : Script) :
    ∀ effect ∈ loopEffects launch script, effect.Unprompted := by
  rcases loopEffects_ends launch script with none | ⟨_, _, _, ends, same⟩
  · rw [none]
    exact List.forall_mem_nil _
  · rw [same]
    exact Loop.run_unprompted ends

theorem loopEffects_unreported (launch : Launch) (calm : script.Calm) :
    (loopEffects launch script).filterMap Effect.report? = [] := by
  rcases loopEffects_ends launch script with none | ⟨_, _, _, ends, same⟩
  · rw [none]
    rfl
  · rw [same]
    exact (Loop.run_calm ends calm).2

-- Nothing is logged of a session that nothing fails in, so the disk is as it was.
theorem logged_calm (launch : Launch) (calm : script.Calm) : logged launch script = launch.disk := by
  rw [logged, loopEffects_unreported launch calm]
  rfl

-- Then neither the variables of the environment nor the moment can make a difference.
theorem run_calm (launch : Launch) (environment : Environment) (stamp : CrashLog.Stamp)
    (calm : script.Calm) :
    run { launch with environment, stamp } script = run launch script := by
  let later := { launch with environment, stamp }
  change run later script = run launch script
  cases loads : Entries.load launch.disk launch.entriesPath launch.settings.seeds with
  | error error =>
    have again : Entries.load later.disk later.entriesPath later.settings.seeds = .error error := loads
    rw [run_refused loads, run_refused again]
  | ok loaded =>
    have again : Entries.load later.disk later.entriesPath later.settings.seeds = .ok loaded := loads
    obtain ⟨one, first, same⟩ := run_exact loads script
    obtain ⟨other, second, alike⟩ := run_exact again script
    rw [logged_calm _ calm] at first second
    cases first.symm.trans second
    exact alike.trans same.symm

theorem run_unprompted (launch : Launch) (script : Script) :
    ∀ effect ∈ (run launch script).effects, effect.Unprompted := by
  cases loads : Entries.load launch.disk launch.entriesPath launch.settings.seeds with
  | error error =>
    rw [run_refused loads]
    exact List.forall_mem_nil _
  | ok loaded =>
    obtain ⟨saved, _, same⟩ := run_exact loads script
    rw [same]
    exact loopEffects_unprompted launch script

-- Two sessions that differ at most in the answers that their writes have left.
structure Same (one other : Session) : Prop where
  failure : one.failure = other.failure
  loading : one.loading = other.loading
  effects : one.effects = other.effects
  saving : one.saving = other.saving
  disk : one.disk = other.disk

variable {stream : Stream} {other : Script}

theorem loop_same (calm : script.Calm) (reads : script.reads = other.reads)
    (takes : stream.Takes ((loopEffects launch script).filterMap Effect.written?))
    (answers : stream.Answers ((loopEffects launch other).filterMap Effect.attempt?)) :
    loopEnding launch script = loopEnding launch other ∧
      loopEffects launch script = loopEffects launch other := by
  unfold loopEffects at takes answers ⊢
  unfold loopEnding
  cases made : Interpreter.ofSettings launch.entriesPath launch.settings with
  | error error => exact ⟨rfl, rfl⟩
  | ok interpreter =>
    rw [made] at takes answers
    obtain ⟨_, _, ends⟩ := Loop.run_counted (Loop.start interpreter launch.startup.command) script
    have same := Loop.run_same ends calm reads takes answers
    dsimp only
    rw [same.outcome]
    exact ⟨rfl, same.effects⟩

-- An output that takes all that the session shows where nothing fails gives just that session.
theorem run_same (calm : script.Calm) (reads : script.reads = other.reads)
    (takes : stream.Takes ((loopEffects launch script).filterMap Effect.written?))
    (answers : stream.Answers ((run launch other).effects.filterMap Effect.attempt?)) :
    (run launch script).Same (run launch other) := by
  cases loads : Entries.load launch.disk launch.entriesPath launch.settings.seeds with
  | error error =>
    rw [run_refused loads, run_refused loads]
    exact ⟨rfl, rfl, rfl, rfl, rfl⟩
  | ok loaded =>
    obtain ⟨one, first, calmly⟩ := run_exact loads script
    obtain ⟨two, second, answered⟩ := run_exact loads other
    rw [answered] at answers ⊢
    obtain ⟨ended, played⟩ := loop_same calm reads takes answers
    rw [logged, played, ← logged] at first
    cases first.symm.trans second
    rw [calmly, ended, played]
    exact ⟨rfl, rfl, rfl, rfl, rfl⟩

end Session

end LineShell
