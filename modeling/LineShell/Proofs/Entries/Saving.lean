import LineShell.Proofs.Disk.Likeness
import LineShell.Proofs.Entries.Store

namespace LineShell

namespace Entries

variable {disk : Disk} {path : Path} {entries : Entries} {saved : Saved}

-- Saving puts the whole text of the entries at the place of the path, or changes nothing.
theorem save_cases (saves : save disk path entries = .ok saved) :
    (∃ content location, entries.serialize.encode = .ok content ∧
      disk.writable path = .ok location ∧ saved.disk = disk.put location (.file content)) ∨
    ((∀ content location, entries.serialize.encode = .ok content →
      disk.writable path ≠ .ok location) ∧ saved.disk = disk) := by
  cases save_sound saves with
  | written encodes opens => exact .inl ⟨_, _, encodes, opens, rfl⟩
  | unencoded encodes =>
    refine .inr ⟨?_, rfl⟩
    intro content location same
    cases encodes.symm.trans same
  | refused encodes refused =>
    refine .inr ⟨?_, rfl⟩
    intro content location same opens
    cases encodes.symm.trans same
    cases refused.symm.trans (Disk.write_ok opens _)

-- On disks that only hidden files tell apart a saving says and does the same.
theorem save_alike {hidden : Location → Prop} {one other : Disk} (alike : Disk.Alike hidden one other)
    (path : Path) (entries : Entries) :
    Agree (fun left right => left.notices = right.notices ∧ Disk.Alike hidden left.disk right.disk)
      (save one path entries) (save other path entries) := by
  unfold save
  cases entries.serialize.encode with
  | error run => exact .ok ⟨rfl, alike⟩
  | ok content =>
    have written := alike.write path content
    dsimp only
    generalize one.write path content = left at written
    generalize other.write path content = right at written
    cases written with
    | ok same => exact .ok ⟨rfl, same⟩
    | error error =>
      rcases error with ⟨refusal, place⟩ | ⟨_ | run⟩
      · exact .ok ⟨rfl, alike⟩
      · exact .error _
      · exact .ok ⟨rfl, alike⟩

-- What is read at a path once these entries were saved to it.
def rewritten (disk : Disk) (path : Path) (entries : Entries) : Except FileError Bytes :=
  match entries.serialize.encode, disk.writable path with
  | .ok content, .ok _ => .ok content
  | _, _ => disk.read path

theorem read_saved (saves : save disk path entries = .ok saved) :
    saved.disk.read path = rewritten disk path entries := by
  unfold rewritten
  rcases save_cases saves with ⟨content, location, encodes, opens, left⟩ | ⟨cannot, left⟩
  · rw [left, encodes, opens]
    exact Disk.read_put opens content
  · rw [left]
    split
    · rename_i content location encodes opens
      exact absurd opens (cannot content location encodes)
    · rfl

-- The file is one that saving these entries would leave as it is: it holds them as they are
-- written, or they cannot be written to it.
def Settled (disk : Disk) (path : Path) (entries : Entries) : Prop :=
  ∀ content location, entries.serialize.encode = .ok content →
    disk.writable path = .ok location → disk.read path = .ok content

theorem save_settles (saves : save disk path entries = .ok saved) :
    Settled saved.disk path entries := by
  intro content location encodes opens
  rcases save_cases saves with ⟨written, place, same, open_, left⟩ | ⟨cannot, left⟩
  · cases encodes.symm.trans same
    rw [left]
    exact Disk.read_put open_ content
  · rw [left] at opens
    exact absurd opens (cannot content location encodes)

theorem save_settled (settled : Settled disk path entries) (saves : save disk path entries = .ok saved) :
    saved.disk = disk := by
  rcases save_cases saves with ⟨content, location, encodes, opens, left⟩ | ⟨_, left⟩
  · have stands := Disk.read_located opens (settled content location encodes opens)
    rw [left, Disk.put_same (Disk.writable_below opens) stands]
  · exact left

theorem settled_of_kept (saves : save disk path entries = .ok saved)
    (kept : saved.disk.read path = disk.read path) : Settled disk path entries := by
  intro content location encodes opens
  rcases save_cases saves with ⟨written, place, same, open_, left⟩ | ⟨cannot, _⟩
  · cases encodes.symm.trans same
    rw [← kept, left]
    exact Disk.read_put open_ content
  · exact absurd opens (cannot content location encodes)

end Entries

namespace Store

theorem open_path {store : Store} {disk : Disk} {opened : Opened}
    (opens : store.open disk = .ok opened) : opened.store.path = store.path := by
  unfold Store.open at opens
  split at opens
  · cases opens
  · cases opens
    rfl

theorem close_path {store : Store} {disk : Disk} {closed : Closed}
    (closes : store.close disk = .ok closed) : closed.store.path = store.path := by
  unfold close at closes
  split at closes
  · split at closes
    · cases closes
    · cases closes
      rfl
  · cases closes
    rfl

-- Also at a path that is none: what is refused changes nothing.
theorem perform_path (site : Site) (operation : Operation) :
    (site.perform operation).store.path = site.store.path := by
  cases operation with
  | «open» =>
    rw [Site.perform]
    split
    · rfl
    · rename_i opened opens
      exact open_path opens
  | close =>
    rw [Site.perform]
    split
    · rfl
    · rename_i closed closes
      exact close_path closes
  | flush =>
    rw [Site.perform]
    split <;> rfl
  | session sets fault =>
    rw [Site.perform]
    split
    · rfl
    · rename_i done runs
      unfold session at runs
      split at runs
      · cases runs
      · rename_i opened opens
        dsimp only at runs
        split at runs
        · cases runs
        · rename_i closed closes
          cases runs
          exact (close_path closes).trans (open_path opens)
  | _ => rfl

theorem performAll_path (site : Site) (operations : List Operation) :
    (site.performAll operations).store.path = site.store.path := by
  induction operations generalizing site with
  | nil => rfl
  | cons operation rest ih => exact (ih (site.perform operation)).trans (perform_path site operation)

-- An operation that neither opens nor flushes leaves the disk of a store that is not open to others.
theorem shut_perform_disk {site : Site} {operation : Operation} (shut : site.store.isOpen = false)
    (keeps : operation.loads = false) (silent : operation ≠ .flush) :
    (site.perform operation).disk = operation.outsideChange site.disk := by
  cases operation with
  | «open» => cases keeps
  | close => simp [Site.perform, close, shut, Operation.outsideChange]
  | flush => exact absurd rfl silent
  | session _ _ => cases keeps
  | _ => rfl

theorem flush_keeps_iff (site : Site) :
    (site.perform .flush).disk.read site.store.path = site.disk.read site.store.path ↔
      Entries.Settled site.disk site.store.path site.store.entries := by
  cases saves : Entries.save site.disk site.store.path site.store.entries with
  | error error =>
    have same : (site.perform .flush).disk = site.disk := by
      simp only [Site.perform, flush, saves]
      rfl
    refine iff_of_true (by rw [same]) ?_
    intro content location _ opens
    obtain ⟨saved, written⟩ := Entries.save_proper (Disk.proper_of_writable opens) site.disk
      site.store.entries
    cases saves.symm.trans written
  | ok saved =>
    have left : (site.perform .flush).disk = saved.disk := by simp only [Site.perform, flush, saves]
    rw [left]
    constructor
    · exact Entries.settled_of_kept saves
    · intro settled
      rw [Entries.save_settled settled saves]

-- While a store is not open it leaves the disk alone, but for one operation: a flush writes
-- what the store holds all the same, and so it keeps the file only when nothing is to be
-- written or nothing can be.
theorem shut_store_keeps_file_iff (path : Path) (defaults : Entries) (disk : Disk)
    (operations : List Operation) (operation : Operation) (keeps : operation.loads = false)
    (shut : ((Site.fresh path defaults disk).performAll operations).store.isOpen = false) :
    let site := (Site.fresh path defaults disk).performAll operations
    let left := operation.outsideChange site.disk
    ((site.perform operation).disk.read path = left.read path ↔
      (operation = .flush → Entries.Settled site.disk path site.store.entries)) ∧
    (operation ≠ .flush → (site.perform operation).disk = left) := by
  intro site left
  have samePath : site.store.path = path := performAll_path _ operations
  have silent : operation ≠ .flush → (site.perform operation).disk = left :=
    shut_perform_disk shut keeps
  refine ⟨?_, silent⟩
  by_cases flushes : operation = .flush
  · subst flushes
    have exactly := flush_keeps_iff site
    rw [samePath] at exactly
    exact exactly.trans ⟨fun settled _ => settled, fun settled => settled rfl⟩
  · exact iff_of_true (by rw [silent flushes]) (fun same => absurd same flushes)

-- A store that was closed and lost its entry since: a second close keeps the file, a flush does not.
theorem closed_store_keeps_file_or_flushes :
    let site := (Site.fresh Entries.keptFile (.ofList [("seed", "0")]) Entries.bareDisk).performAll
      [.open, .close, .remove "seed"]
    Operation.loads .close = false ∧ Operation.loads .flush = false ∧ site.store.isOpen = false ∧
      (site.perform .close).disk = site.disk ∧
      (site.perform .flush).disk.read Entries.keptFile ≠ site.disk.read Entries.keptFile := by
  intro site
  have shut : site.store.isOpen = false := rfl
  have closing := shut_store_keeps_file_iff Entries.keptFile (.ofList [("seed", "0")])
    Entries.bareDisk [.open, .close, .remove "seed"] .close rfl shut
  have flushing := shut_store_keeps_file_iff Entries.keptFile (.ofList [("seed", "0")])
    Entries.bareDisk [.open, .close, .remove "seed"] .flush rfl shut
  refine ⟨rfl, rfl, shut, closing.2 Operation.noConfusion, ?_⟩
  intro kept
  have settled : Entries.Settled site.disk Entries.keptFile site.store.entries :=
    flushing.1.mp kept rfl
  have empty : site.disk.read Entries.keptFile = .ok [] := settled [] Entries.keptPlace rfl rfl
  cases empty

-- A flush before the first open writes the empty map over the file.
theorem flush_before_open_empties_file :
    let content := Text.utf8 "\"a\":\"1\""
    let disk : Disk := ⟨[(Entries.keptPlace, .file content)], []⟩
    let site := Site.fresh Entries.keptFile .empty disk
    Operation.loads .flush = false ∧ site.store.isOpen = false ∧
      site.disk.read Entries.keptFile = .ok content ∧
      (site.perform .flush).disk.read Entries.keptFile = .ok [] ∧ content ≠ [] :=
  ⟨rfl, rfl, rfl, rfl, by decide⟩

end Store

end LineShell
