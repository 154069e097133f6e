import LineShell.Proofs.Settings.Document.Writing
import LineShell.Proofs.Text.Utf8
import LineShell.Settings.Defaults

namespace LineShell.Settings

-- The settings that the content of a file gives: those of a map, and none where the
-- document says nothing.
inductive Gives (read? : Text → Option Value) (content : Bytes) : Settings → Prop where
  | map {text : Text} {fields : List (Key × Value)} (decodes : content.decode? = some text)
      (reads : read? text = some (.map fields)) : Gives read? content ⟨.map fields⟩
  | blank {text : Text} {value : Value} (decodes : content.decode? = some text)
      (reads : read? text = some value) (blank : value.isBlank = true) :
      Gives read? content ⟨.map []⟩

theorem present_of_read {disk : Disk} {path : Path} {content : Bytes}
    (reads : disk.read path = .ok content) : disk.present path = .ok true := by
  rw [Disk.read] at reads
  rw [Disk.present]
  cases located : disk.locate path with
  | error error => simp [located] at reads
  | ok location =>
    rw [located] at reads
    cases found : disk.find? location with
    | none => simp [found] at reads
    | some node => simp [found]

section
variable (read? : Text → Option Value) (name : Text) (content : Bytes) (settings : Settings)

theorem ofDocument_ok :
    ofDocument read? name content = .ok settings ↔ Gives read? content settings := by
  constructor
  · intro given
    rw [ofDocument] at given
    split at given
    · exact nomatch given
    · rename_i value found
      obtain ⟨text, decodes, reads⟩ := Option.bind_eq_some_iff.mp found
      split_ifs at given with blank
      · obtain rfl := Except.ok.inj given
        exact .blank decodes reads blank
      · split at given
        · obtain rfl := Except.ok.inj given
          exact .map decodes reads
        · exact nomatch given
  · intro gives
    cases gives with
    | @map _ fields decodes reads =>
      rw [ofDocument, decodes, Option.bind_some, reads]
      cases fields <;> rfl
    | blank decodes reads blank =>
      rw [ofDocument, decodes, Option.bind_some, reads]
      exact if_pos blank

-- Defaults load exactly where their file can be read and gives settings.
theorem loadDefaults_ok (disk : Disk) (directory : Path) :
    loadDefaults read? disk directory name = .ok settings ↔
      ∃ content, disk.read (directory.join (.ofText name)) = .ok content ∧
        Gives read? content settings := by
  rw [loadDefaults]
  constructor
  · intro loads
    split at loads
    · exact nomatch loads
    · exact nomatch loads
    · split at loads
      · exact nomatch loads
      · rename_i content reads
        exact ⟨content, reads, (ofDocument_ok read? name content settings).mp loads⟩
  · rintro ⟨content, reads, gives⟩
    rw [present_of_read reads, reads]
    exact (ofDocument_ok read? name content settings).mpr gives

end

-- So they are never without sections, whatever the file says.
theorem loadDefaults_sections {read? : Text → Option Value} {disk : Disk} {directory : Path}
    {name : Text} {settings : Settings} (loads : loadDefaults read? disk directory name = .ok settings)
    (part : Text) : ∃ found, settings.section? part = .ok found := by
  obtain ⟨content, -, gives⟩ := (loadDefaults_ok read? name settings disk directory).mp loads
  cases gives <;> exact ⟨_, rfl⟩

-- Settings that are written to the file are the ones that load.
theorem loadDefaults_written {fields : List (Key × Value)} (plain : Document.Plain (.map fields))
    {disk : Disk} {directory : Path} {name : Text}
    (holds : disk.read (directory.join (.ofText name)) = .ok (Document.write (.map fields)).utf8) :
    loadDefaults Document.parse? disk directory name = .ok ⟨.map fields⟩ := by
  have encodable := (Document.oneLine_write plain).encodable
  exact (loadDefaults_ok _ _ _ _ _).mpr
    ⟨_, holds, .map (Bytes.decode?_utf8 _ encodable) (Document.parse?_write plain)⟩

-- The packaged settings are maps of maps down to texts.
theorem packaged_plain : Document.Plain packaged.root := by
  repeat' first
    | exact .text _
    | refine .ofFields ?_
    | refine .list ?_
    | refine List.forall_mem_cons.mpr ⟨?_, ?_⟩
    | exact List.forall_mem_nil _

theorem packaged_loads {disk : Disk} {directory : Path} {name : Text}
    (holds : disk.read (directory.join (.ofText name)) = .ok (Document.write packaged.root).utf8) :
    loadDefaults Document.parse? disk directory name = .ok packaged :=
  loadDefaults_written packaged_plain holds

end LineShell.Settings
