import LineShell.Proofs.Entries.Composition
import Mathlib.Data.List.Basic

namespace LineShell

namespace Bytes

variable {bytes content : Bytes} {lines kept : List Bytes}

-- Bytes that are the UTF-8 of a text: the shortest form of every code point, and no surrogates.
def Valid (bytes : Bytes) : Prop := ∃ text : Text, text.Encodable ∧ text.utf8 = bytes

theorem valid_iff : Valid bytes ↔ bytes.decode?.isSome = true := by
  rw [Option.isSome_iff_exists]
  exact exists_congr fun text => (decode?_eq_some bytes text).symm

instance (bytes : Bytes) : Decidable bytes.Valid := decidable_of_iff _ valid_iff.symm

theorem valid_newline (before after : Bytes) :
    Valid (before ++ 0x0A :: after) ↔ Valid before ∧ Valid after := by
  rw [valid_iff, valid_iff, valid_iff, decode?_newline]
  cases decode? before <;> cases decode? after <;> simp

theorem valid_nil : Valid [] := ⟨[], List.forall_mem_nil _, rfl⟩

theorem Cut.valid_iff (cut : Cut content lines) : Valid content ↔ ∀ line ∈ lines, Valid line := by
  induction cut with
  | nil => exact iff_of_true valid_nil (List.forall_mem_nil _)
  | last _ _ => exact List.forall_mem_singleton.symm
  | line _ _ ih => rw [valid_newline, List.forall_mem_cons, valid_newline, ih, and_iff_left valid_nil]

-- Lines can be left out of a file without running others together.
theorem Cut.sublist (cut : Cut content lines) (among : kept.Sublist lines) : Cut kept.flatten kept := by
  induction cut generalizing kept with
  | nil =>
    cases List.sublist_nil.mp among
    exact .nil
  | last clean present =>
    rcases List.sublist_singleton.mp among with rfl | rfl
    · exact .nil
    · rw [List.flatten_singleton]
      exact .last clean present
  | line clean _ ih =>
    rcases List.sublist_cons_iff.mp among with behind | ⟨rest, rfl, behind⟩
    · exact ih behind
    · rw [List.flatten_cons, List.append_assoc]
      exact .line clean (ih behind)

end Bytes

namespace Entries

theorem LineReading.ofBytes_undecodable {line : Bytes} :
    ofBytes line = .undecodable ↔ ¬ line.Valid := by
  rw [Bytes.valid_iff, ofBytes]
  cases line.decode? with
  | none => simp
  | some text =>
    dsimp only
    refine iff_of_false ?_ (by simp)
    split
    · split <;> exact LineReading.noConfusion
    · exact LineReading.noConfusion

namespace Tally

-- The other way to read a file, when the whole of it was decoded and cut as a text.
def ofParts (parts : List Text) : Tally := (parts.map LineReading.ofText).foldl add empty

-- A tally, and some more lines that nothing could be read from.
def skip (tally : Tally) (count : Nat) : Tally := { tally with skipped := tally.skipped + count }

theorem skip_skip (tally : Tally) (one two : Nat) :
    (tally.skip one).skip two = tally.skip (two + one) := by
  simp only [skip, Nat.add_assoc, Nat.add_comm one]

theorem add_skip (tally : Tally) (count : Nat) (reading : LineReading) :
    (tally.skip count).add reading = (tally.add reading).skip count := by
  cases reading with
  | undecodable => simp only [add, skip, Nat.add_right_comm]
  | malformed => simp only [add, skip, Nat.add_right_comm]
  | ignored => rfl
  | entry key value =>
    have same : (tally.skip count).found = tally.found := rfl
    rw [add, add, same]
    split <;> rfl

theorem foldl_skip (tally : Tally) (count : Nat) (readings : List LineReading) :
    readings.foldl add (tally.skip count) = (readings.foldl add tally).skip count := by
  induction readings generalizing tally with
  | nil => rfl
  | cons reading rest ih => rw [List.foldl_cons, add_skip, ih, List.foldl_cons]

-- Of a line that is no UTF-8 nothing is left but that it is told of.
theorem foldl_valid (tally : Tally) (lines : List Bytes) :
    (lines.map LineReading.ofBytes).foldl add tally =
      (((lines.filter (·.Valid)).map LineReading.ofBytes).foldl add tally).skip
        (lines.countP (¬ ·.Valid)) := by
  induction lines generalizing tally with
  | nil => rfl
  | cons line rest ih =>
    by_cases valid : line.Valid
    · rw [List.filter_cons_of_pos (by simpa using valid), List.countP_cons_of_neg (by simpa using valid),
        List.map_cons, List.foldl_cons, ih, List.map_cons, List.foldl_cons]
    · have told : tally.add (LineReading.ofBytes line) = tally.skip 1 := by
        rw [LineReading.ofBytes_undecodable.mpr valid]
        rfl
      rw [List.filter_cons_of_neg (by simpa using valid), List.countP_cons_of_pos (by simpa using valid),
        List.map_cons, List.foldl_cons, told, ih, foldl_skip, skip_skip]

theorem ofBytes_valid {content : Bytes} {lines : List Bytes} (cut : Bytes.Cut content lines) :
    ofBytes content =
      (ofBytes (lines.filter (·.Valid)).flatten).skip (lines.countP (¬ ·.Valid)) := by
  have kept := Bytes.cut_iff.mp (cut.sublist (List.filter_sublist (p := (·.Valid))))
  rw [ofBytes, ← Bytes.cut_iff.mp cut, foldl_valid, ofBytes, ← kept]

end Tally

-- A file is UTF-8 when its lines are, and then it is read as its text would be, cut at nothing but
-- the newlines. Otherwise the lines that are no UTF-8 themselves are told of, and the file is
-- read as the one without them.
theorem decoded_by_lines (defaults : Entries) {disk : Disk} {path : Path} {content : Bytes}
    {lines : List Bytes} (reads : disk.read path = .ok content) (cut : Bytes.Cut content lines) :
    (content.Valid ↔ ∀ line ∈ lines, line.Valid) ∧
    (∀ text : Text, text.Encodable → text.utf8 = content →
      ∃ parts, (∀ divided, text.Divided .newline divided ↔ divided = parts) ∧
        load disk path defaults = .ok ((Tally.ofParts parts).loaded defaults path)) ∧
    (∀ line ∈ lines, LineReading.ofBytes line = .undecodable ↔ ¬ line.Valid) ∧
    ∀ (other : Disk) (place : Path), other.read place = .ok (lines.filter (·.Valid)).flatten →
      Bytes.Cut (lines.filter (·.Valid)).flatten (lines.filter (·.Valid)) ∧
      ∃ loaded alone, load disk path defaults = .ok loaded ∧ load other place defaults = .ok alone ∧
        loaded.entries = alone.entries ∧ repeatedIn loaded.notices = repeatedIn alone.notices ∧
        skippedIn loaded.notices = skippedIn alone.notices + lines.countP (¬ ·.Valid) := by
  have whole := load_content reads defaults
  refine ⟨cut.valid_iff, ?_, fun _ _ => LineReading.ofBytes_undecodable, ?_⟩
  · rintro text encodable rfl
    refine ⟨_, fun _ => Text.divided_iff, ?_⟩
    rw [whole, Tally.ofBytes_utf8 encodable]
    rfl
  · intro other place readsOther
    refine ⟨cut.sublist List.filter_sublist, _, _, whole, load_content readsOther defaults, ?_, ?_, ?_⟩
    · rw [Tally.ofBytes_valid cut]
      rfl
    · simp only [Tally.loaded, repeatedIn_notices, Tally.ofBytes_valid cut]
      rfl
    · simp only [Tally.loaded, skippedIn_notices, Tally.ofBytes_valid cut]
      rfl

-- Every other character that ends a line somewhere stays inside one here. Behind a valid file stand
-- a code point cut short, an entry, and a comment with a surrogate in it.
def partedFirst : Text := "\"a\":\"1\r2\u0085\u2028\"\r"
def partedLast : Text := "\"b\":\"3\""
def parted : Text := partedFirst ++ .newline :: partedLast
def spoiled : Bytes :=
  parted.utf8 ++ [0x0A, 0xE2, 0x0A] ++ Text.utf8 "\"c\":\"4\"\n//" ++ [0xED, 0xA0, 0x80]

theorem spoiled_lines_left_out :
    let kept := (spoiled.lines.filter (·.Valid)).flatten
    (keeping parted.utf8).read keptFile = .ok parted.utf8 ∧ parted.Encodable ∧
      (keeping spoiled).read keptFile = .ok spoiled ∧ (keeping kept).read keptFile = .ok kept ∧
      load (keeping parted.utf8) keptFile .empty =
        .ok ((Tally.ofParts [partedFirst, partedLast]).loaded .empty keptFile) ∧
      ¬ spoiled.Valid ∧
      ∃ loaded alone, load (keeping spoiled) keptFile .empty = .ok loaded ∧
        load (keeping kept) keptFile .empty = .ok alone ∧ loaded.entries = alone.entries ∧
        skippedIn loaded.notices = skippedIn alone.notices + 2 := by
  intro kept
  have reads : (keeping parted.utf8).read keptFile = .ok parted.utf8 := rfl
  have encodable : parted.Encodable := by decide +kernel
  have readsSpoiled : (keeping spoiled).read keptFile = .ok spoiled := rfl
  have readsKept : (keeping kept).read keptFile = .ok kept := rfl
  obtain ⟨_, whole, _⟩ := decoded_by_lines .empty reads (Bytes.cut_lines parted.utf8)
  obtain ⟨parts, exactly, loads⟩ := whole parted encodable rfl
  have divided : parted.Divided .newline [partedFirst, partedLast] :=
    ⟨List.cons_ne_nil _ _, by decide +kernel, rfl⟩
  obtain ⟨valid, _, _, rest⟩ := decoded_by_lines .empty readsSpoiled (Bytes.cut_lines spoiled)
  obtain ⟨_, loaded, alone, loadsAll, loadsAlone, same, _, count⟩ := rest _ _ readsKept
  have two : spoiled.lines.countP (¬ ·.Valid) = 2 := by decide +kernel
  rw [two] at count
  rw [← (exactly _).mp divided] at loads
  refine ⟨reads, encodable, readsSpoiled, readsKept, loads, ?_, loaded, alone, loadsAll, loadsAlone, same,
    count⟩
  rw [valid]
  decide +kernel

end Entries

end LineShell
