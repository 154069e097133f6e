import LineShell.Proofs.Entries.RoundTrip
import LineShell.Proofs.Text.Decoding

namespace LineShell

namespace Bytes

theorem lines_shape {content line : Bytes} (among : line ∈ content.lines) :
    ∃ front, 0x0A ∉ front ∧ (line = front ∨ line = front ++ [0x0A]) := by
  have cut := cut_lines content
  generalize content.lines = lines at cut among
  induction cut with
  | nil => cases among
  | last clean _ => exact ⟨_, clean, .inl (List.mem_singleton.mp among)⟩
  | line clean _ ih =>
    rcases List.mem_cons.mp among with rfl | later
    · exact ⟨_, clean, .inr rfl⟩
    · exact ih later

-- A newline stands nowhere but at the end of a line of a file.
theorem lines_newline_last {content line before after : Bytes} (among : line ∈ content.lines)
    (shape : line = before ++ 0x0A :: after) : after = [] := by
  obtain ⟨front, clean, same | ended⟩ := lines_shape among
  · have inside : 0x0A ∈ line := shape ▸ List.mem_append_right _ List.mem_cons_self
    exact absurd (same ▸ inside) clean
  · rcases List.eq_nil_or_concat after with none | ⟨more, last, rfl⟩
    · exact none
    · rw [ended, List.concat_eq_append, ← List.cons_append, ← List.append_assoc] at shape
      have inside : front = before ++ 0x0A :: more := (List.append_inj' shape rfl).1
      exact absurd (inside ▸ List.mem_append_right _ List.mem_cons_self) clean

end Bytes

namespace Text

-- Taking the end off a line takes its only newline.
theorem dropLastWhile_newline {text : Text}
    (last : ∀ before after, text = before ++ .newline :: after → after = []) :
    .newline ∉ text.dropLastWhile Entries.isLineEnd := by
  intro present
  obtain ⟨tail, shape, _⟩ := dropLastWhile_tail Entries.isLineEnd text
  obtain ⟨before, after, inside, _⟩ : ∃ before after : Text, _ ∧ _ :=
    List.eq_append_cons_of_mem present
  have behind : after ++ tail = [] := last before (after ++ tail) (by
    rw [shape, inside, List.append_assoc, List.cons_append])
  obtain ⟨rfl, rfl⟩ := List.append_eq_nil_iff.mp behind
  have ended : text = before ++ [.newline] := by rw [shape, inside, List.append_nil]
  have dropped : text.dropLastWhile Entries.isLineEnd = before.dropLastWhile Entries.isLineEnd := by
    rw [ended, dropLastWhile_concat]
    rfl
  obtain ⟨more, start, _⟩ := dropLastWhile_tail Entries.isLineEnd before
  have lengths := congrArg List.length start
  rw [List.length_append, ← dropped, inside, List.length_append, List.length_singleton] at lengths
  omega

end Text

namespace Field

-- What is read from a line stands in the line.
theorem readBody_subset {line text after : Text} (found : readBody line = some (text, after)) :
    text ⊆ line ∧ after ⊆ line := by
  induction line using readBody.induct generalizing text with
  | case1 => cases found
  | case2 rest =>
    rw [readBody_quoteMark] at found
    cases found
    exact ⟨List.nil_subset _, List.subset_cons_self _ _⟩
  | case3 => cases found
  | case4 literal rest _ ih =>
    rw [readBody_literal] at found
    obtain ⟨⟨tail, behind⟩, inner, equal⟩ := Option.map_eq_some_iff.mp found
    cases equal
    obtain ⟨inText, inAfter⟩ := ih inner
    exact ⟨List.subset_cons_of_subset _ (List.cons_subset_cons _ inText),
      List.subset_cons_of_subset _ (List.subset_cons_of_subset _ inAfter)⟩
  | case5 c rest noQuote noBackslash ih =>
    rw [readBody_plain (not_or.mpr ⟨noQuote, noBackslash⟩)] at found
    obtain ⟨⟨tail, behind⟩, inner, equal⟩ := Option.map_eq_some_iff.mp found
    cases equal
    obtain ⟨inText, inAfter⟩ := ih inner
    exact ⟨List.cons_subset_cons _ inText, List.subset_cons_of_subset _ inAfter⟩

theorem read_subset {line text after : Text} (found : read line = some (text, after)) :
    text ⊆ line ∧ after ⊆ line := by
  cases line with
  | nil => cases found
  | cons c rest =>
    rw [read] at found
    split at found
    · obtain ⟨inText, inAfter⟩ := readBody_subset found
      exact ⟨List.subset_cons_of_subset _ inText, List.subset_cons_of_subset _ inAfter⟩
    · cases found

end Field

namespace Entries

theorem parseLine_subset {line key value : Text} (found : parseLine line = some (key, value)) :
    key ⊆ line ∧ value ⊆ line := by
  obtain ⟨rest, first, second⟩ := parseLine_eq_some.mp found
  obtain ⟨inKey, behind⟩ := Field.read_subset first
  obtain ⟨inValue, _⟩ := Field.read_subset second
  exact ⟨inKey, fun c among => behind (List.mem_cons_of_mem _ (inValue among))⟩

-- An entry that can stand on a line of a file, and comes back from it.
structure Storable (key value : Text) : Prop where
  encodableKey : key.Encodable
  encodableValue : value.Encodable
  oneLine : OneLine (key, value)

namespace LineReading

theorem ofText_entry {text key value : Text} (reads : ofText text = .entry key value) :
    parseLine (text.dropLastWhile isLineEnd) = some (key, value) := by
  unfold ofText at reads
  dsimp only at reads
  split at reads
  · split at reads
    · cases reads
    · rename_i name given parsed
      cases reads
      exact parsed
  · cases reads

theorem ofBytes_storable {content line : Bytes} {key value : Text} (among : line ∈ content.lines)
    (reads : ofBytes line = .entry key value) : Storable key value := by
  unfold ofBytes at reads
  split at reads
  · cases reads
  · rename_i text decoded
    obtain ⟨encodable, form⟩ := Bytes.decode?_sound decoded
    obtain ⟨inKey, inValue⟩ := parseLine_subset (ofText_entry reads)
    have whole : text.dropLastWhile isLineEnd ⊆ text := by
      obtain ⟨tail, shape, _⟩ := Text.dropLastWhile_tail isLineEnd text
      intro c present
      rw [shape]
      exact List.mem_append_left _ present
    have clean : .newline ∉ text.dropLastWhile isLineEnd := by
      apply Text.dropLastWhile_newline
      intro (before : Text) (after : Text) shape
      have bytes : line = before.utf8 ++ 0x0A :: after.utf8 := by
        rw [← form, shape]
        exact Text.utf8_append before (.newline :: after)
      exact (Text.utf8_eq_nil after).mp (Bytes.lines_newline_last among bytes)
    exact ⟨fun c present => encodable c (whole (inKey present)),
      fun c present => encodable c (whole (inValue present)),
      fun inside => clean (inKey inside), fun inside => clean (inValue inside)⟩

end LineReading

-- Whatever bytes a file holds, what is found in it could have been saved.
theorem found_storable {content : Bytes} {key value : Text}
    (found : (Tally.ofBytes content).found.find? key = some value) : Storable key value := by
  rw [Tally.ofBytes, Tally.find?_foldl] at found
  have among := lookup_mem found
  obtain ⟨reading, present, pair⟩ := List.mem_filterMap.mp among
  obtain ⟨line, inside, rfl⟩ := List.mem_map.mp present
  cases reads : LineReading.ofBytes line with
  | entry k v =>
    rw [reads] at pair
    cases pair
    exact LineReading.ofBytes_storable inside reads
  | _ =>
    rw [reads] at pair
    cases pair

-- All that loading comes to: entries that a file can hold, over the defaults.
theorem load_found {disk : Disk} {path : Path} {defaults : Entries} {loaded : Loaded}
    (loads : load disk path defaults = .ok loaded) :
    ∃ found : Entries, (∀ key value, found.find? key = some value → Storable key value) ∧
      loaded.entries = defaults.override found := by
  have none : ∀ key value, empty.find? key = some value → Storable key value := by
    intro key value found
    cases found
  cases load_sound loads with
  | content _ => exact ⟨_, fun _ _ => found_storable, rfl⟩
  | missing _ => exact ⟨empty, none, rfl⟩
  | unreadable _ _ => exact ⟨empty, none, rfl⟩

end Entries

end LineShell
