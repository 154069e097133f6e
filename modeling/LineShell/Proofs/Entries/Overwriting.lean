import LineShell.Proofs.Entries.Persistence
import LineShell.Proofs.Entries.Reporting

namespace LineShell.Entries

variable {disk : Disk} {path : Path} {entries : Entries} {saved : Saved}

-- The file at the path holds the text of the entries, and nothing else has changed.
structure Overwrites (disk : Disk) (path : Path) (entries : Entries) (saved : Saved) : Prop where
  silent : saved.notices = []
  holds : saved.disk.read path = .ok entries.serialize.utf8
  elsewhere : ∃ place, disk.locate path = .ok place ∧ saved.disk.locate path = .ok place ∧
    ∀ other, other ≠ place → saved.disk.find? other = disk.find? other
  working : saved.disk.working = disk.working

-- Nothing at all has changed, and one message tells why.
structure Refuses (disk : Disk) (path : Path) (entries : Entries) (saved : Saved) : Prop where
  same : saved.disk = disk
  told : ∃ cause, WriteFails disk path entries cause ∧ saved.notices.map Notice.text =
    ["[ERROR] Write to " ++ path.text ++ Text.ofString " failed: " ++ cause.message]

theorem Refuses.not_overwrites (refuses : Refuses disk path entries saved) :
    ¬ Overwrites disk path entries saved := by
  intro overwrites
  obtain ⟨cause, _, told⟩ := refuses.told
  simp [overwrites.silent] at told

theorem put_overwrites {content : Bytes} {place : Location}
    (encodes : entries.serialize.encode = .ok content) (opens : disk.writable path = .ok place) :
    Overwrites disk path entries ⟨disk.put place (.file content), []⟩ := by
  obtain ⟨located, free⟩ := Disk.writable_exact opens
  obtain ⟨_, rfl⟩ := Text.encode_exact encodes
  exact ⟨rfl, Disk.read_put opens _, ⟨place, located, Disk.locate_put free _ located,
    fun _ apart => Disk.find?_put_other disk apart _⟩, rfl⟩

-- What a save that returns has done, told by whether it could be done.
theorem saves_decided (saves : Saves disk path entries saved) :
    (Overwrites disk path entries saved ∧ entries.Encodable ∧ ∃ place, disk.writable path = .ok place) ∨
    (Refuses disk path entries saved ∧
      ¬ (entries.Encodable ∧ ∃ place, disk.writable path = .ok place)) := by
  cases saves with
  | written encodes opens =>
    have encodable := encodable_of_serialize (Text.encode_exact encodes).1
    exact .inl ⟨put_overwrites encodes opens, encodable, _, opens⟩
  | unencoded encodes =>
    refine .inr ⟨⟨rfl, _, .inl ⟨_, encodes, rfl⟩, rfl⟩, ?_⟩
    rintro ⟨encodable, _⟩
    exact Text.encode_error encodes (serialize_encodable encodable)
  | refused encodes refused =>
    refine .inr ⟨⟨rfl, _, .inr ⟨_, _, encodes, refused, rfl⟩, rfl⟩, ?_⟩
    rintro ⟨_, place, opens⟩
    simp [Disk.write_ok opens] at refused

theorem save_of_unencodable (broken : ¬ entries.Encodable) (disk : Disk) (path : Path) :
    ∃ saved, save disk path entries = .ok saved := by
  rw [save_returns_iff]
  exact .inr (.inr broken)

-- A save writes the whole file and tells nothing, or changes nothing and tells why. Which of
-- the two it does is settled before the file is touched: a surrogate anywhere in the entries
-- keeps every file as it is.
theorem save_all_or_nothing (disk : Disk) (path : Path) (entries : Entries) :
    (path.Clean → ∃ saved, save disk path entries = .ok saved ∧
      (Overwrites disk path entries saved ↔
        entries.Encodable ∧ ∃ place, disk.writable path = .ok place) ∧
      (Refuses disk path entries saved ↔ ¬ Overwrites disk path entries saved)) ∧
    ∀ key value, entries.find? key = some value → (∃ c ∈ key ++ value, c.isSurrogate = true) →
      ∃ saved, save disk path entries = .ok saved ∧ Refuses disk path entries saved := by
  constructor
  · intro clean
    obtain ⟨saved, saves⟩ := save_proper (Path.proper_iff.mpr clean) disk entries
    refine ⟨saved, saves, ?_⟩
    rcases saves_decided (save_sound saves) with ⟨overwrites, takes⟩ | ⟨refuses, refused⟩
    · exact ⟨iff_of_true overwrites takes,
        iff_of_false (fun refuses => refuses.not_overwrites overwrites) (not_not_intro overwrites)⟩
    · exact ⟨iff_of_false refuses.not_overwrites refused, iff_of_true refuses refuses.not_overwrites⟩
  · rintro key value found ⟨c, inside, surrogate⟩
    have broken : ¬ entries.Encodable := by
      intro encodable
      obtain ⟨plainKey, plainValue⟩ := (encodable_iff entries).mp encodable key value found
      rcases List.mem_append.mp inside with inKey | inValue
      · simp [plainKey c inKey] at surrogate
      · simp [plainValue c inValue] at surrogate
    obtain ⟨saved, saves⟩ := save_of_unencodable broken disk path
    rcases saves_decided (save_sound saves) with ⟨_, encodable, _⟩ | ⟨refuses, _⟩
    · exact absurd encodable broken
    · exact ⟨saved, saves, refuses⟩

-- A file that is there is overwritten by entries that can be encoded, and kept before a surrogate
-- in the last of them. Where a directory is missing nothing is made.
theorem standing_file_overwritten_or_kept :
    let disk : Disk := ⟨[(keptPlace, .file (Text.utf8 "old"))], []⟩
    let plain := ofList [("a", "1")]
    let broken := ofList [("a", "1"), ("b", [.ofLoneByte 0xFF])]
    let below := Path.ofText "none/kept"
    keptFile.Clean ∧ below.Clean ∧
      (∃ saved, save disk keptFile plain = .ok saved ∧ Overwrites disk keptFile plain saved) ∧
      (∃ saved, save disk keptFile broken = .ok saved ∧ Refuses disk keptFile broken saved) ∧
      ∃ saved, save disk below plain = .ok saved ∧ Refuses disk below plain saved := by
  intro disk plain broken below
  have keptClean : keptFile.Clean := ⟨by decide, by decide⟩
  have belowClean : below.Clean := ⟨by decide, by decide⟩
  obtain ⟨saved, saves, overwrites, _⟩ := (save_all_or_nothing disk keptFile plain).1 keptClean
  obtain ⟨kept, keeps, missed, refuses⟩ := (save_all_or_nothing disk below plain).1 belowClean
  refine ⟨keptClean, belowClean, ⟨saved, saves, overwrites.mpr ⟨by decide, keptPlace, rfl⟩⟩, ?_,
    kept, keeps, ?_⟩
  · exact (save_all_or_nothing disk keptFile broken).2 "b" [.ofLoneByte 0xFF] (by decide)
      ⟨.ofLoneByte 0xFF, List.mem_append_right _ List.mem_cons_self, by decide⟩
  · rw [refuses, missed]
    rintro ⟨_, place, opens⟩
    cases opens

end LineShell.Entries
