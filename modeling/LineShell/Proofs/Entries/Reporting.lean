import LineShell.Proofs.Entries.Store

namespace LineShell

namespace Entries

variable {disk : Disk} {path : Path} {defaults entries : Entries} {loaded : Loaded} {saved : Saved}

-- A file that is not there is no failure.
def ReadFails (disk : Disk) (path : Path) (error : FileError) : Prop :=
  disk.read path = .error error ∧ error ≠ .refused .missing path

-- The text cannot be encoded, or it is, and the disk takes no such file.
def WriteFails (disk : Disk) (path : Path) (entries : Entries) (cause : SaveError) : Prop :=
  (∃ run, entries.serialize.encode = .error run ∧ cause = .content run) ∨
    ∃ content error, entries.serialize.encode = .ok content ∧
      disk.write path content = .error error ∧ cause = .file error

-- The messages name these failures to read and to write, and no others.
structure Tells (path : Path) (notices : List Notice) (reading : FileError → Prop)
    (writing : SaveError → Prop) : Prop where
  reads : ∀ error, .readFailed path error ∈ notices ↔ reading error
  writes : ∀ cause, .writeFailed path cause ∈ notices ↔ writing cause

namespace Tells

variable {first second : List Notice} {reading : FileError → Prop} {writing : SaveError → Prop}

theorem silent (path : Path) : Tells path [] (fun _ => False) (fun _ => False) := by
  constructor <;> simp

theorem append (reads : Tells path first reading fun _ => False)
    (writes : Tells path second (fun _ => False) writing) :
    Tells path (first ++ second) reading writing := by
  constructor
  · intro error
    simp [reads.reads, writes.reads]
  · intro cause
    simp [reads.writes, writes.writes]

end Tells

theorem load_tells (loads : load disk path defaults = .ok loaded) :
    Tells path loaded.notices (ReadFails disk path) (fun _ => False) := by
  cases load_sound loads with
  | content reads =>
    rw [Tally.notices]
    constructor <;> split <;> split <;> simp [ReadFails, reads]
  | missing reads => constructor <;> simp [ReadFails, reads]
  | unreadable reads present =>
    constructor
    · intro error
      simp only [ReadFails, reads, List.mem_singleton, Notice.readFailed.injEq, true_and,
        Except.error.injEq]
      constructor
      · rintro rfl
        exact ⟨rfl, by simpa using present⟩
      · exact fun fails => fails.1.symm
    · simp

theorem save_tells (saves : save disk path entries = .ok saved) :
    Tells path saved.notices (fun _ => False) (WriteFails disk path entries) := by
  cases save_sound saves with
  | written encodes opens =>
    constructor <;> simp [WriteFails, encodes, Disk.write_ok opens]
  | unencoded encodes => constructor <;> simp [WriteFails, encodes]
  | refused encodes refused => constructor <;> simp [WriteFails, encodes, refused]

theorem load_returns_iff (disk : Disk) (path : Path) (defaults : Entries) :
    (∃ loaded, load disk path defaults = .ok loaded) ↔ path.Clean := by
  rw [← Path.proper_iff]
  constructor
  · rintro ⟨loaded, loads⟩
    exact proper_of_load loads
  · intro proper
    exact load_proper proper disk defaults

-- A save gets past a zero in the path only if it never comes to the path, or fails on it before.
def SaveReturns (path : Path) (entries : Entries) : Prop :=
  .nul ∉ path.text ∨ path.text.Stray ∨ ¬ entries.Encodable

theorem save_returns_iff (disk : Disk) (path : Path) (entries : Entries) :
    (∃ saved, save disk path entries = .ok saved) ↔ SaveReturns path entries := by
  have raises : (∃ error, save disk path entries = .error error) ↔ ¬ SaveReturns path entries := by
    simp [save_eq_error, PathError.of?_nul, SaveReturns, and_assoc]
  rw [← not_iff_not, ← raises]
  cases save disk path entries <;> simp

end Entries

namespace Store

open Entries (load save Tells ReadFails WriteFails)

-- The operation comes to its end, a session with what its body raised, and its messages name
-- what it could not read and what it could not write.
structure Reports (site : Site) (operation : Operation) (next : Site) : Prop where
  ends : next.trouble = operation.raises
  tells : Tells site.store.path next.notices
    (fun error => operation.loads = true ∧ ReadFails site.disk site.store.path error)
    (fun cause => operation.saves site.store.isOpen = true ∧
      WriteFails site.disk site.store.path next.store.entries cause)

theorem perform_reports {site next : Site} {operation : Operation}
    (performs : Performs site operation next) : Reports site operation next := by
  refine ⟨perform_raises performs, ?_⟩
  cases performs with
  | «open» loads => simpa [Operation.loads, Operation.saves] using Entries.load_tells loads
  | close opened saves =>
    simpa [Operation.loads, Operation.saves, opened] using Entries.save_tells saves
  | flush saves => simpa [Operation.loads, Operation.saves] using Entries.save_tells saves
  | session loads saves =>
    simpa [Operation.loads, Operation.saves] using
      (Entries.load_tells loads).append (Entries.save_tells saves)
  | closed shut => simpa [Operation.loads, Operation.saves, shut] using Tells.silent site.store.path
  | _ => simpa [Operation.loads, Operation.saves] using Tells.silent site.store.path

theorem refused_not_reports {site : Site} {operation : Operation} {error : PathError} :
    ¬ Reports site operation (site.refused error) := by
  intro reports
  have ends : some (Trouble.path error) = operation.raises := reports.ends
  cases operation with
  | session _ fault => cases fault <;> cases ends
  | _ => cases ends

-- The path that is loaded from is one to save to, whatever is saved.
theorem perform_returns {site next : Site} {operation : Operation}
    (performs : Performs site operation next) :
    (operation.loads = true →
      ∃ loaded, load site.disk site.store.path site.store.defaults = .ok loaded) ∧
    (operation.saves site.store.isOpen = true →
      ∃ saved, save site.disk site.store.path site.store.entries = .ok saved) := by
  constructor
  · intro loading
    obtain ⟨loaded, loads, _⟩ := perform_loads performs loading
    exact ⟨loaded, loads⟩
  · intro saving
    cases performs with
    | close _ saves => exact ⟨_, saves⟩
    | closed shut => cases shut.symm.trans saving
    | flush saves => exact ⟨_, saves⟩
    | session loads _ => exact Entries.save_proper (Entries.proper_of_load loads) _ _
    | _ => cases saving

-- What a store cannot read or write it reports and goes on, but for a path that cannot be given
-- to the machine: a load raises for any such path, a save for one with a zero in it. Whatever
-- raises has changed nothing and reported nothing.
theorem failures_reported_iff (disk : Disk) (path : Path) (defaults entries : Entries)
    (site : Site) (operation : Operation) :
    ((∃ loaded, load disk path defaults = .ok loaded ∧
      Tells path loaded.notices (ReadFails disk path) fun _ => False) ↔ path.Clean) ∧
    ((∃ saved, save disk path entries = .ok saved ∧
      Tells path saved.notices (fun _ => False) (WriteFails disk path entries)) ↔
        Entries.SaveReturns path entries) ∧
    (Reports site operation (site.perform operation) ↔
      (operation.loads = true → site.store.path.Clean) ∧
      (operation.saves site.store.isOpen = true →
        Entries.SaveReturns site.store.path site.store.entries)) ∧
    (Reports site operation (site.perform operation) ∨
      ∃ error, site.perform operation = site.refused error) := by
  refine ⟨?_, ?_, ?_, ?_⟩
  · exact (exists_congr fun _ => and_iff_left_of_imp Entries.load_tells).trans
      (Entries.load_returns_iff disk path defaults)
  · exact (exists_congr fun _ => and_iff_left_of_imp Entries.save_tells).trans
      (Entries.save_returns_iff disk path entries)
  · rw [← Entries.load_returns_iff site.disk site.store.path site.store.defaults,
      ← Entries.save_returns_iff site.disk site.store.path site.store.entries]
    rcases perform_cases site operation with performs | ⟨error, refused, raises⟩
    · exact iff_of_true (perform_reports performs) (perform_returns performs)
    · -- What is refused was refused in its load or in its save, which then does not return.
      refine iff_of_false (refused ▸ refused_not_reports) ?_
      rintro ⟨loading, saving⟩
      rcases raises with ⟨loads, raised⟩ | ⟨saves, raised⟩
      · obtain ⟨loaded, returned⟩ := loading loads
        cases raised.symm.trans returned
      · obtain ⟨saved, returned⟩ := saving saves
        cases raised.symm.trans returned
  · rcases perform_cases site operation with performs | ⟨error, refused, _⟩
    · exact .inl (perform_reports performs)
    · exact .inr ⟨error, refused⟩

-- A directory where the file should be: opening reports it and leaves the store open.
theorem directory_reported :
    let path := Path.ofText "."
    let site := Site.fresh path .empty Entries.bareDisk
    ReadFails site.disk path (.refused .isDirectory path) ∧ Reports site .open (site.perform .open) ∧
      .readFailed path (.refused .isDirectory path) ∈ (site.perform .open).notices := by
  intro path site
  have fails : ReadFails site.disk path (.refused .isDirectory path) := ⟨rfl, by decide⟩
  have clean : path.Clean := ⟨by decide, by decide⟩
  obtain ⟨_, _, exactly, _⟩ := failures_reported_iff site.disk path .empty .empty site .open
  have reports := exactly.mpr ⟨fun _ => clean, nofun⟩
  exact ⟨fails, reports, (reports.tells.reads _).mpr ⟨rfl, fails⟩⟩

-- A zero in the path: neither the load nor the save returns, and opening raises and reports
-- nothing. With a surrogate that stands for no byte the load raises all the same, and the save
-- reports it.
theorem zero_in_path_raises :
    let path := Path.ofText "a\x00b"
    let stray := Path.ofText [0xD800]
    let site := Site.fresh path .empty Entries.bareDisk
    (∀ loaded, load Entries.bareDisk path .empty ≠ .ok loaded) ∧
      (∀ saved, save Entries.bareDisk path .empty ≠ .ok saved) ∧
      (site.perform .open).trouble = some (.path .nul) ∧ (site.perform .open).notices = [] ∧
      ¬ Reports site .open (site.perform .open) ∧
      (∀ loaded, load Entries.bareDisk stray .empty ≠ .ok loaded) ∧
      ∃ saved, save Entries.bareDisk stray .empty = .ok saved ∧
        saved.notices = [.writeFailed stray (.file (.improper (.unencodable ⟨0, 0xD800, 0⟩)))] :=
  ⟨nofun, nofun, rfl, rfl, nofun, nofun, _, rfl, rfl⟩

end Store

end LineShell
