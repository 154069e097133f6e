import LineShell.Proofs.Entries.Persistence

namespace LineShell

namespace Entries

-- What was loaded comes back by one of two ways: what is not from the file's own lines is
-- from the defaults, and those are there again.
theorem reloaded_same {defaults found : Entries}
    (storable : ∀ key value, found.find? key = some value → Storable key value) :
    defaults.override (defaults.override found).fitting = defaults.override found := by
  apply ext_find?
  intro key
  cases held : (defaults.override found).find? key with
  | none =>
    refine find?_reloaded ?_ held
    rw [find?_override, Option.or_eq_none_iff] at held
    exact held.2
  | some value =>
    by_cases fits : OneLine (key, value)
    · exact find?_reloaded fits held
    · rw [find?_override, find?_fitting_broken held fits, Option.none_or]
      rw [find?_override, Option.or_eq_some_iff] at held
      rcases held with read | ⟨_, seed⟩
      · exact absurd (storable key value read).oneLine fits
      · exact seed

-- Saving what was loaded, whether it can be written or not, leaves a file that is loaded alike.
theorem load_saved {disk : Disk} {path : Path} {defaults : Entries} {loaded : Loaded} {saved : Saved}
    (loads : load disk path defaults = .ok loaded)
    (saves : save disk path loaded.entries = .ok saved) :
    ∃ again, load saved.disk path defaults = .ok again ∧ again.entries = loaded.entries := by
  rcases save_cases saves with ⟨content, location, encodes, opens, left⟩ | ⟨_, left⟩
  · obtain ⟨plain, rfl⟩ := Text.encode_exact encodes
    obtain ⟨notices, reads, _⟩ := load_serialized_over (encodable_of_serialize plain) opens defaults
    obtain ⟨found, storable, shape⟩ := load_found loads
    rw [← left] at reads
    refine ⟨_, reads, ?_⟩
    rw [shape]
    exact reloaded_same storable
  · exact ⟨loaded, left ▸ loads, rfl⟩

end Entries

namespace Store

open Entries (load save)

theorem visit_idle {site : Site} {renewed : Bool} {loaded : Entries.Loaded} {saved : Entries.Saved}
    (visited : Site.Visited site ⟨renewed, []⟩ loaded saved) :
    (site.visit ⟨renewed, []⟩).store.entries = loaded.entries :=
  Entries.ext_find? fun key => congrFun visited.held key

-- A session in which nothing is edited keeps the meaning of the file, whatever the file held,
-- and a second one changes nothing on the disk.
theorem idle_sessions_settle (path : Path) (encodable : path.text.Encodable)
    (clean : .nul ∉ path.text) (defaults : Entries) (disk : Disk) (one two : Bool) :
    let first := (Site.fresh path defaults disk).visit ⟨one, []⟩
    let second := first.visit ⟨two, []⟩
    ∃ before after, load disk path defaults = .ok before ∧
      load first.disk path defaults = .ok after ∧ first.store.entries = before.entries ∧
      after.entries = before.entries ∧ second.disk = first.disk := by
  intro first second
  have proper : path.Proper := Path.proper_of_encodable encodable clean
  obtain ⟨before, saved, visited⟩ := (Site.fresh path defaults disk).visit_exact proper ⟨one, []⟩
  have samePath : first.store.path = path := visited.path
  have sameDefaults : first.store.defaults = defaults := visited.defaults
  have entries : first.store.entries = before.entries := visit_idle visited
  have saves := visited.saves
  rw [visit_idle visited] at saves
  obtain ⟨again, loads, same⟩ := Entries.load_saved visited.loads saves
  have settled := Entries.save_settles saves
  rw [← visited.disk] at loads settled
  refine ⟨before, again, visited.loads, loads, entries, same, ?_⟩
  obtain ⟨later, kept, revisited⟩ := first.visit_exact (samePath.symm ▸ proper) ⟨two, []⟩
  have reads := revisited.loads
  rw [samePath, sameDefaults] at reads
  cases reads.symm.trans loads
  have rewrites := revisited.saves
  rw [visit_idle revisited, samePath, same] at rewrites
  exact revisited.disk.trans (Entries.save_settled settled rewrites)

-- Lines that end in two ways, a key twice, a byte that is no UTF-8, and a default that cannot
-- be written on one line.
def tangled : Disk := ⟨[(Entries.keptPlace,
  .file (Text.utf8 "\"a\":\"1\"\r\n\"a\":\"2\"\n" ++ [0xFF, 0x0A]))], []⟩

theorem tangled_file_settles :
    let defaults := Entries.ofList [("n", "x\ny")]
    let first := (Site.fresh Entries.keptFile defaults tangled).visit ⟨true, []⟩
    let second := first.visit ⟨false, []⟩
    Entries.keptFile.text.Encodable ∧ .nul ∉ Entries.keptFile.text ∧
      ∃ before after, load tangled Entries.keptFile defaults = .ok before ∧
        load first.disk Entries.keptFile defaults = .ok after ∧ after.entries = before.entries ∧
        second.disk = first.disk := by
  intro defaults first second
  have encodable : Entries.keptFile.text.Encodable := by decide
  have clean : .nul ∉ Entries.keptFile.text := by decide
  obtain ⟨before, after, loads, reloads, _, same, settled⟩ :=
    idle_sessions_settle Entries.keptFile encodable clean defaults tangled true false
  exact ⟨encodable, clean, before, after, loads, reloads, same, settled⟩

end Store

end LineShell
