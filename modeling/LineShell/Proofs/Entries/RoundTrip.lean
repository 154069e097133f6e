import LineShell.Proofs.Entries.File

namespace LineShell.Entries

def Encodable (entries : Entries) : Prop :=
  ∀ pair ∈ entries.pairs, pair.1.Encodable ∧ pair.2.Encodable

instance (entries : Entries) : Decidable entries.Encodable :=
  inferInstanceAs (Decidable (∀ pair ∈ entries.pairs, pair.1.Encodable ∧ pair.2.Encodable))

theorem joined_encodable {separator : Text} {lines : List Text} (between : separator.Encodable)
    (each : ∀ line ∈ lines, line.Encodable) : (Text.joined separator lines).Encodable := by
  intro c inside
  rcases Text.mem_joined inside with mark | ⟨line, among, there⟩
  · exact between c mark
  · exact each line among c there

theorem quote_encodable {text : Text} (encodable : text.Encodable) : (Field.quote text).Encodable := by
  have mark : Text.Encodable [.quoteMark] := List.forall_mem_singleton.mpr rfl
  refine List.forall_mem_append.mpr ⟨List.forall_mem_append.mpr ⟨mark, ?_⟩, mark⟩
  intro c inside
  obtain ⟨literal, present, shape⟩ := List.mem_flatMap.mp inside
  have plain := encodable literal present
  unfold Field.escape at shape
  split at shape
  · rcases List.mem_cons.mp shape with rfl | same
    · rfl
    · exact List.mem_singleton.mp same ▸ plain
  · exact List.mem_singleton.mp shape ▸ plain

theorem serialize_encodable {entries : Entries} (encodable : entries.Encodable) :
    entries.serialize.Encodable := by
  have newline : Text.Encodable [.newline] := List.forall_mem_singleton.mpr rfl
  have colon : Text.Encodable [.colon] := List.forall_mem_singleton.mpr rfl
  apply joined_encodable newline
  intro line present
  obtain ⟨pair, among, rfl⟩ := List.mem_map.mp present
  exact List.forall_mem_append.mpr ⟨List.forall_mem_append.mpr
    ⟨quote_encodable (encodable pair among).1, colon⟩, quote_encodable (encodable pair among).2⟩

-- Escaping and joining take nothing away, so that the text of a map has a lone surrogate
-- whenever one of its keys or values has.
theorem encodable_of_serialize {entries : Entries} (encodable : entries.serialize.Encodable) :
    entries.Encodable := by
  intro pair among
  have line : entryLine pair.1 pair.2 ⊆ entries.serialize :=
    Text.joined_subset (List.mem_map.mpr ⟨pair, among, rfl⟩)
  constructor
  · intro c inKey
    have inside : c ∈ entryLine pair.1 pair.2 :=
      List.mem_append_left _ (List.mem_append_left _ (Field.subset_quote _ inKey))
    exact encodable c (line inside)
  · intro c inValue
    have inside : c ∈ entryLine pair.1 pair.2 :=
      List.mem_append_right _ (Field.subset_quote _ inValue)
    exact encodable c (line inside)

-- The entries that a file keeps: those that fit on one line each.
def fitting (entries : Entries) : Entries :=
  ⟨entries.pairs.filter (OneLine ·), entries.ascending.filter _⟩

theorem find?_fitting (entries : Entries) (key value : Text) :
    entries.fitting.find? key = some value ↔
      entries.find? key = some value ∧ .newline ∉ key ∧ .newline ∉ value := by
  have member : (key, value) ∈ entries.fitting.pairs ↔
      (key, value) ∈ entries.pairs ∧ OneLine (key, value) := by
    rw [fitting, List.mem_filter, decide_eq_true_iff]
  rw [← mem_pairs, member, mem_pairs]
  rfl

def readingsOf (pair : Text × Text) : List LineReading :=
  (Text.pieces .newline (entryLine pair.1 pair.2)).map LineReading.ofText

theorem readingsOf_fitting {pair : Text × Text} (fits : OneLine pair) :
    readingsOf pair = [.entry pair.1 pair.2] := by
  rw [readingsOf, Text.pieces_clean (entryLine_clean fits), List.map_singleton,
    LineReading.ofText_entryLine]

-- No piece of a broken entry is read as an entry, and the first one is told of.
theorem readingsOf_broken {pair : Text × Text} (broken : ¬ OneLine pair) :
    (readingsOf pair).filterMap LineReading.pair? = [] ∧
      0 < (readingsOf pair).countP LineReading.isSkipped := by
  obtain ⟨first, rest, shape, few⟩ := entryLine_broken broken
  constructor
  · rw [readingsOf, shape, List.filterMap_map, List.filterMap_eq_nil_iff]
    exact fun piece among => LineReading.ofText_pair?_none (few piece among)
  · have head := LineReading.ofText_malformed (few _ List.mem_cons_self)
    rw [readingsOf, shape, List.map_cons, head, List.countP_cons_of_pos rfl]
    exact Nat.succ_pos _

theorem entries_readingsOf (pairs : List (Text × Text)) :
    (pairs.flatMap readingsOf).filterMap LineReading.pair? = pairs.filter (OneLine ·) := by
  induction pairs with
  | nil => rfl
  | cons pair rest ih =>
    rw [List.flatMap_cons, List.filterMap_append, ih]
    by_cases fits : OneLine pair
    · rw [readingsOf_fitting fits, List.filter_cons, if_pos (decide_eq_true fits)]
      rfl
    · rw [(readingsOf_broken fits).1, List.filter_cons,
        if_neg (by rw [decide_eq_true_iff]; exact fits)]
      rfl

theorem skipped_readingsOf (pairs : List (Text × Text)) :
    (pairs.flatMap readingsOf).countP LineReading.isSkipped = 0 ↔ ∀ pair ∈ pairs, OneLine pair := by
  rw [List.countP_flatMap, List.sum_eq_zero_iff_forall_eq_nat]
  constructor
  · intro none pair among
    by_contra broken
    have some := (readingsOf_broken broken).2
    have nothing := none _ (List.mem_map_of_mem among)
    rw [Function.comp_apply] at nothing
    omega
  · intro fit count among
    obtain ⟨pair, present, rfl⟩ := List.mem_map.mp among
    rw [Function.comp_apply, readingsOf_fitting (fit pair present)]
    rfl

-- The lines of a written file are those of its entries. Without entries the file has no
-- lines, and its text one empty piece.
theorem foldl_serialize (entries : Entries) (tally : Tally) :
    ((Text.pieces .newline entries.serialize).map LineReading.ofText).foldl Tally.add tally =
      (entries.pairs.flatMap readingsOf).foldl Tally.add tally := by
  by_cases empty : entries.pairs = []
  · rw [serialize, empty]
    rfl
  · rw [serialize, Text.pieces_joined, List.flatMap_map, List.map_flatMap]
    · rfl
    · exact fun none => empty (List.map_eq_nil_iff.mp none)

theorem tally_serialize {entries : Entries} (encodable : entries.Encodable) :
    (Tally.ofBytes entries.serialize.utf8).found = entries.fitting ∧
      (Tally.ofBytes entries.serialize.utf8).duplicates = 0 ∧
      ((Tally.ofBytes entries.serialize.utf8).skipped = 0 ↔ ∀ pair ∈ entries.pairs, OneLine pair) := by
  rw [Tally.ofBytes_utf8 (serialize_encodable encodable), foldl_serialize]
  have found : ((entries.pairs.flatMap readingsOf).foldl Tally.add Tally.empty).found =
      entries.fitting := by
    apply ext_find?
    intro key
    rw [Tally.find?_foldl, entries_readingsOf]
    rfl
  have count := Tally.duplicates_foldl Tally.empty (entries.pairs.flatMap readingsOf)
  have skipped := Tally.skipped_foldl Tally.empty (entries.pairs.flatMap readingsOf)
  have start : Tally.empty.duplicates + Tally.empty.found.size = 0 := rfl
  have kept : entries.fitting.size = (entries.pairs.filter (OneLine ·)).length := rfl
  refine ⟨found, ?_, ?_⟩
  · rw [found, entries_readingsOf, kept] at count
    omega
  · rw [skipped, ← skipped_readingsOf]
    exact Eq.congr_left (Nat.zero_add _)

-- The two halves of the way through a file: what saving leaves, and what loading finds.
theorem save_encodable {disk : Disk} {path : Path} {location : Location} {entries : Entries}
    (encodable : entries.Encodable) (opens : disk.writable path = .ok location) :
    save disk path entries = .ok ⟨disk.put location (.file entries.serialize.utf8), []⟩ := by
  rw [save, Text.encode_ok _ (serialize_encodable encodable)]
  dsimp only
  rw [Disk.write_ok opens]

theorem load_serialized_over {disk : Disk} {path : Path} {location : Location} {entries : Entries}
    (encodable : entries.Encodable) (opens : disk.writable path = .ok location) (defaults : Entries) :
    ∃ notices, load (disk.put location (.file entries.serialize.utf8)) path defaults =
        .ok ⟨defaults.override entries.fitting, notices⟩ ∧
      (notices = [] ↔ ∀ pair ∈ entries.pairs, OneLine pair) := by
  obtain ⟨found, repeated, skipped⟩ := tally_serialize encodable
  refine ⟨(Tally.ofBytes entries.serialize.utf8).notices path, ?_, ?_⟩
  · rw [load, Disk.read_put opens]
    dsimp only
    rw [found]
  · rw [Tally.notices_eq_nil, skipped]
    exact and_iff_left repeated

theorem load_serialized {disk : Disk} {path : Path} {location : Location} {entries : Entries}
    (encodable : entries.Encodable) (opens : disk.writable path = .ok location) :
    ∃ notices, load (disk.put location (.file entries.serialize.utf8)) path .empty =
        .ok ⟨entries.fitting, notices⟩ ∧ (notices = [] ↔ ∀ pair ∈ entries.pairs, OneLine pair) := by
  obtain ⟨notices, loads, quiet⟩ := load_serialized_over encodable opens .empty
  rw [override_empty] at loads
  exact ⟨notices, loads, quiet⟩

-- A map on its way through a file comes back as its entries that fit on one line each,
-- and a loss is told of. Whatever a newline cuts an entry into, nothing else is read.
theorem saved_entries_read_back (disk : Disk) (path : Path) (location : Location) (entries : Entries)
    (encodable : entries.Encodable) (opens : disk.writable path = .ok location) :
    ∃ saved loaded, save disk path entries = .ok saved ∧ saved.notices = [] ∧
      load saved.disk path .empty = .ok loaded ∧
      (∀ key value, loaded.entries.find? key = some value ↔
        entries.find? key = some value ∧ .newline ∉ key ∧ .newline ∉ value) ∧
      (loaded.notices ≠ [] ↔ ∃ key value, entries.find? key = some value ∧
        (.newline ∈ key ∨ .newline ∈ value)) := by
  obtain ⟨notices, loads, quiet⟩ := load_serialized encodable opens
  refine ⟨_, _, save_encodable encodable opens, rfl, loads, find?_fitting entries, ?_⟩
  rw [Ne, quiet]
  constructor
  · intro loss
    obtain ⟨⟨key, value⟩, present, broken⟩ := not_forall₂.mp loss
    exact ⟨key, value, (mem_pairs _ _ _).mp present, Decidable.or_iff_not_not_and_not.mpr broken⟩
  · intro loss fit
    obtain ⟨key, value, present, broken⟩ := loss
    have fits := fit _ ((mem_pairs _ _ _).mpr present)
    rcases broken with inKey | inValue
    · exact fits.1 inKey
    · exact fits.2 inValue

-- A disk without files, and three entries that try to pass for comments, ends of lines and
-- other entries.
def bareDisk : Disk := ⟨[], []⟩
def keptFile : Path := Path.ofText "kept"
def keptPlace : Location := [[0x6B, 0x65, 0x70, 0x74]]
def awkward : Entries := .ofList [("//", "\\\r"), ("a\nb", "\":\""), ("c", ":\n\":\"d")]

theorem awkward_entries_read_back :
    awkward.Encodable ∧ bareDisk.writable keptFile = .ok keptPlace ∧
      ∃ saved loaded, save bareDisk keptFile awkward = .ok saved ∧
        load saved.disk keptFile .empty = .ok loaded ∧
        loaded.entries.find? "//" = some (Text.ofString "\\\r") ∧
        loaded.entries.find? "a\nb" = none ∧ loaded.notices ≠ [] := by
  have encodable : awkward.Encodable := by decide
  have opens : bareDisk.writable keptFile = .ok keptPlace := rfl
  obtain ⟨saved, loaded, writes, _, loads, exactly, told⟩ :=
    saved_entries_read_back bareDisk keptFile keptPlace awkward encodable opens
  refine ⟨encodable, opens, saved, loaded, writes, loads, ?_, ?_, ?_⟩
  · exact (exactly _ _).mpr ⟨by decide, by decide, by decide⟩
  · rw [Option.eq_none_iff_forall_ne_some]
    intro value found
    exact absurd ((exactly _ _).mp found).2.1 (by decide)
  · exact told.mpr ⟨"a\nb", "\":\"", by decide, .inl (by decide)⟩

-- The way through a file is the identity exactly on the maps without a newline.
theorem saved_map_read_back_iff (disk : Disk) (path : Path) (location : Location) (entries : Entries)
    (encodable : entries.Encodable) (opens : disk.writable path = .ok location) :
    ∃ saved loaded, save disk path entries = .ok saved ∧ saved.notices = [] ∧
      load saved.disk path .empty = .ok loaded ∧
      ((loaded.entries = entries ∧ loaded.notices = []) ↔
        ∀ key value, entries.find? key = some value → .newline ∉ key ∧ .newline ∉ value) := by
  obtain ⟨notices, loads, quiet⟩ := load_serialized encodable opens
  refine ⟨_, _, save_encodable encodable opens, rfl, loads, ?_⟩
  dsimp only
  rw [quiet]
  constructor
  · intro same key value present
    exact same.2 _ ((mem_pairs _ _ _).mpr present)
  · intro clean
    have fit : ∀ pair ∈ entries.pairs, OneLine pair :=
      fun pair among => clean _ _ ((mem_pairs _ _ _).mp among)
    refine ⟨ext_find? fun key => Option.ext fun value => ?_, fit⟩
    rw [find?_fitting]
    exact and_iff_left_of_imp (clean key value)

def plain : Entries := .ofList [("//", "\\\r"), ("", "\":\"")]

theorem plain_map_read_back :
    plain.Encodable ∧ bareDisk.writable keptFile = .ok keptPlace ∧
      ∃ saved loaded, save bareDisk keptFile plain = .ok saved ∧
        load saved.disk keptFile .empty = .ok loaded ∧
        loaded.entries = plain ∧ loaded.notices = [] := by
  have encodable : plain.Encodable := by decide
  have opens : bareDisk.writable keptFile = .ok keptPlace := rfl
  have fit : ∀ pair ∈ plain.pairs, OneLine pair := by decide
  obtain ⟨saved, loaded, writes, _, loads, exactly⟩ :=
    saved_map_read_back_iff bareDisk keptFile keptPlace plain encodable opens
  have same := exactly.mpr fun key value found => fit _ ((mem_pairs _ _ _).mpr found)
  exact ⟨encodable, opens, saved, loaded, writes, loads, same⟩

-- A newline in a key loses the entry, and both halves of its line are told of.
theorem broken_key_not_read_back :
    ∃ saved loaded, (ofList [("a\nb", "c")]).Encodable ∧
      save bareDisk keptFile (ofList [("a\nb", "c")]) = .ok saved ∧ saved.notices = [] ∧
      load saved.disk keptFile .empty = .ok loaded ∧ loaded.entries = .empty ∧
      loaded.entries ≠ ofList [("a\nb", "c")] ∧ loaded.notices = [.skippedLines 2 keptFile] :=
  ⟨_, _, by decide, rfl, rfl, rfl, rfl, by decide, rfl⟩

end LineShell.Entries
