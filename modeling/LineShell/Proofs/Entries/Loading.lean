import LineShell.Proofs.Entries.Store
import LineShell.Proofs.Text.Decoding
import Mathlib.Data.List.Induction

namespace LineShell

namespace Text

theorem dropLastWhile_eq_iff {test : CodePoint → Bool} {text front : Text} :
    text.dropLastWhile test = front ↔
      (∀ c, front.getLast? = some c → test c = false) ∧
      ∃ ending, text = front ++ ending ∧ ∀ c ∈ ending, test c = true := by
  constructor
  · rintro rfl
    refine ⟨?_, dropLastWhile_tail test text⟩
    intro c last
    have stops := List.head?_dropWhile_not test text.reverse
    rw [dropLastWhile, List.getLast?_reverse] at last
    rwa [last] at stops
  · rintro ⟨stops, ending, rfl, marks⟩
    have passed : ∀ c ∈ ending.reverse, test c = true :=
      fun c present => marks c (List.mem_reverse.mp present)
    rw [List.getLast?_eq_head?_reverse] at stops
    rw [dropLastWhile, List.reverse_append, (parted_at passed stops).2, List.reverse_reverse]

end Text

namespace Entries

-- The text that a line spells: its bytes are the UTF-8 of that text and of carriage returns
-- and newlines behind it.
def Spells (line : Bytes) (text : Text) : Prop :=
  (∀ c, text.getLast? = some c → isLineEnd c = false) ∧
    ∃ ending : Text, (text ++ ending).Encodable ∧ (text ++ ending).utf8 = line ∧
      ∀ c ∈ ending, isLineEnd c = true

def HasEntry (line : Bytes) (key value : Text) : Prop :=
  ∃ text, Spells line text ∧ isValueLine text = true ∧ parseLine text = some (key, value)

-- A line that nothing can be read from: no UTF-8, be it a comment, or no entry where one is due.
def Damaged (line : Bytes) : Prop :=
  (∀ text : Text, text.Encodable → text.utf8 ≠ line) ∨
    ∃ text, Spells line text ∧ isValueLine text = true ∧ parseLine text = none

-- The entry that a file gives for a key is that of its first line with the key.
def First (lines : List Bytes) (key value : Text) : Prop :=
  ∃ before line after, lines = before ++ line :: after ∧ HasEntry line key value ∧
    ∀ earlier ∈ before, ∀ other, ¬ HasEntry earlier key other

def Repeats (earlier : List Bytes) (line : Bytes) : Prop :=
  ∃ key value, HasEntry line key value ∧ ∃ before ∈ earlier, ∃ other, HasEntry before key other

variable {line : Bytes} {lines : List Bytes} {text key value : Text}

theorem spells_iff : Spells line text ↔
    ∃ whole, line.decode? = some whole ∧ whole.dropLastWhile isLineEnd = text := by
  simp only [Spells, Bytes.decode?_eq_some, Text.dropLastWhile_eq_iff]
  constructor
  · rintro ⟨stops, ending, encodable, same, marks⟩
    exact ⟨_, ⟨encodable, same⟩, stops, ending, rfl, marks⟩
  · rintro ⟨_, ⟨encodable, same⟩, stops, ending, rfl, marks⟩
    exact ⟨stops, ending, encodable, same, marks⟩

-- What is read from a line, in the reader's own terms.
def pairIn? (line : Bytes) : Option (Text × Text) := (LineReading.ofBytes line).pair?

theorem pairIn?_eq_some : pairIn? line = some (key, value) ↔ HasEntry line key value := by
  simp only [HasEntry, spells_iff, pairIn?, LineReading.ofBytes]
  cases line.decode? with
  | none => simp [LineReading.pair?]
  | some whole =>
    cases valued : isValueLine (whole.dropLastWhile isLineEnd) <;>
      cases parsed : parseLine (whole.dropLastWhile isLineEnd) <;>
      simp [valued, parsed, LineReading.pair?, Prod.ext_iff]

theorem isSkipped_iff : (LineReading.ofBytes line).isSkipped = true ↔ Damaged line := by
  have undecodable : (∀ text : Text, text.Encodable → text.utf8 ≠ line) ↔ line.decode? = none := by
    simp [Option.eq_none_iff_forall_ne_some, Bytes.decode?_eq_some]
  simp only [Damaged, undecodable, spells_iff, LineReading.ofBytes]
  cases line.decode? with
  | none => simp [LineReading.isSkipped]
  | some whole =>
    cases valued : isValueLine (whole.dropLastWhile isLineEnd) <;>
      cases parsed : parseLine (whole.dropLastWhile isLineEnd) <;>
      simp [valued, parsed, LineReading.isSkipped]

theorem mem_entries : (key, value) ∈ lines.filterMap pairIn? ↔ ∃ line ∈ lines, HasEntry line key value := by
  simp only [List.mem_filterMap, pairIn?_eq_some]

theorem first_cons : First (line :: lines) key value ↔
    HasEntry line key value ∨ (∀ other, ¬ HasEntry line key other) ∧ First lines key value := by
  constructor
  · rintro ⟨before, found, after, shape, has, new⟩
    cases before with
    | nil =>
      cases shape
      exact .inl has
    | cons first more =>
      cases shape
      obtain ⟨without, later⟩ := List.forall_mem_cons.mp new
      exact .inr ⟨without, more, found, after, rfl, has, later⟩
  · rintro (has | ⟨without, before, found, after, rfl, has, new⟩)
    · exact ⟨[], line, lines, rfl, has, by simp⟩
    · exact ⟨line :: before, found, after, rfl, has, List.forall_mem_cons.mpr ⟨without, new⟩⟩

theorem lookup_eq_some_iff : lookup key (lines.filterMap pairIn?) = some value ↔ First lines key value := by
  induction lines with
  | nil => simp [lookup, First]
  | cons line rest ih =>
    simp only [first_cons, ← ih, ← pairIn?_eq_some]
    cases reads : pairIn? line with
    | none => simp [reads]
    | some pair =>
      obtain ⟨k, v⟩ := pair
      by_cases here : k = key <;> simp [reads, lookup, here]

instance (line : Bytes) : Decidable (Damaged line) := decidable_of_iff _ isSkipped_iff

instance (line : Bytes) (key : Text) : Decidable (∃ value, HasEntry line key value) :=
  decidable_of_iff (∃ pair ∈ pairIn? line, pair.1 = key) (by simp [← pairIn?_eq_some])

instance (earlier : List Bytes) (line : Bytes) : Decidable (Repeats earlier line) :=
  decidable_of_iff (∃ pair ∈ pairIn? line, ∃ before ∈ earlier, ∃ value, HasEntry before pair.1 value)
    (by simp [Repeats, ← pairIn?_eq_some])

-- The tally of the first lines of a file. Each further line is added to it.
def tallyOf (lines : List Bytes) : Tally := (lines.map LineReading.ofBytes).foldl Tally.add .empty

theorem tallyOf_concat (lines : List Bytes) (line : Bytes) :
    tallyOf (lines ++ [line]) = (tallyOf lines).add (LineReading.ofBytes line) := by
  simp [tallyOf]

theorem find?_tallyOf (lines : List Bytes) (key : Text) :
    (tallyOf lines).found.find? key = lookup key (lines.filterMap pairIn?) := by
  rw [tallyOf, Tally.find?_foldl, List.filterMap_map]
  rfl

theorem skipped_tallyOf (lines : List Bytes) : (tallyOf lines).skipped = lines.countP Damaged := by
  rw [tallyOf, Tally.skipped_foldl, List.countP_map]
  have same : (LineReading.isSkipped ∘ LineReading.ofBytes) = fun line => decide (Damaged line) := by
    funext line
    exact Bool.eq_iff_iff.mpr (isSkipped_iff.trans decide_eq_true_iff.symm)
  rw [same]
  exact Nat.zero_add _

theorem contains_tallyOf (lines : List Bytes) (key : Text) : (tallyOf lines).found.contains key = true ↔
    ∃ line ∈ lines, ∃ value, HasEntry line key value := by
  rw [contains, find?_tallyOf, Option.isSome_iff_ne_none, Ne, lookup_eq_none_iff]
  simp only [mem_entries, not_forall, not_not]
  constructor
  · rintro ⟨value, line, among, has⟩
    exact ⟨line, among, value, has⟩
  · rintro ⟨line, among, value, has⟩
    exact ⟨value, line, among, has⟩

def repeatsIn (lines : List Bytes) : Nat :=
  lines.zipIdx.countP fun (line, position) => Repeats (lines.take position) line

theorem repeatsIn_concat (lines : List Bytes) (line : Bytes) :
    repeatsIn (lines ++ [line]) = repeatsIn lines + if Repeats lines line then 1 else 0 := by
  rw [repeatsIn, List.zipIdx_append, List.countP_append]
  congr 1
  · apply List.countP_congr
    rintro ⟨first, position⟩ among
    have inside := (List.mem_zipIdx among).2.1
    have before : (lines ++ [line]).take position = lines.take position :=
      List.take_append_of_le_length (by omega)
    simp only [before]
  · simp [List.countP_cons]

theorem repeats_iff (has : HasEntry line key value) :
    Repeats lines line ↔ ∃ before ∈ lines, ∃ other, HasEntry before key other := by
  constructor
  · rintro ⟨name, given, again, earlier⟩
    cases (pairIn?_eq_some.mpr has).symm.trans (pairIn?_eq_some.mpr again)
    exact earlier
  · exact fun earlier => ⟨key, value, has, earlier⟩

theorem duplicates_tallyOf (lines : List Bytes) : (tallyOf lines).duplicates = repeatsIn lines := by
  induction lines using List.reverseRecOn with
  | nil => rfl
  | append_singleton rest line ih =>
    rw [tallyOf_concat, repeatsIn_concat, ← ih]
    cases reads : LineReading.ofBytes line with
    | entry key value =>
      have has : HasEntry line key value := pairIn?_eq_some.mp (by rw [pairIn?, reads]; rfl)
      simp only [Tally.add, contains_tallyOf, repeats_iff has]
      split <;> rfl
    | _ =>
      have without : ¬ Repeats rest line := by
        rintro ⟨key, value, has, _⟩
        rw [← pairIn?_eq_some, pairIn?, reads] at has
        cases has
      rw [if_neg without]
      rfl

-- What loading comes to for a file cut into these lines: the entries over the defaults, and
-- the messages on the lines that gave none.
structure Accounts (lines : List Bytes) (defaults : Entries) (path : Path) (loaded : Loaded) : Prop where
  entries : ∀ key value, loaded.entries.find? key = some value ↔
    First lines key value ∨
      (∀ line ∈ lines, ∀ given, ¬ HasEntry line key given) ∧ defaults.find? key = some value
  messages : loaded.notices.map Notice.text =
    (if 0 < lines.countP Damaged then
      [Text.ofString "[WARN] Skipped " ++ Text.ofNat (lines.countP Damaged) ++
        Text.ofString " malformed line(s) in " ++ path.text] else []) ++
    (if 0 < repeatsIn lines then
      [Text.ofString "[WARN] Ignored " ++ Text.ofNat (repeatsIn lines) ++
        Text.ofString " duplicate key(s) in " ++ path.text] else [])

theorem tally_accounts (lines : List Bytes) (defaults : Entries) (path : Path) :
    Accounts lines defaults path
      ⟨defaults.override (tallyOf lines).found, (tallyOf lines).notices path⟩ := by
  constructor
  · intro key value
    have absent : lookup key (lines.filterMap pairIn?) = none ↔
        ∀ line ∈ lines, ∀ given, ¬ HasEntry line key given := by
      simp only [lookup_eq_none_iff, mem_entries, not_exists, not_and]
      exact ⟨fun none line among given => none given line among,
        fun none given line among => none line among given⟩
    rw [find?_override, find?_tallyOf, Option.or_eq_some_iff, lookup_eq_some_iff, absent]
  · rw [Tally.notices, skipped_tallyOf, duplicates_tallyOf]
    simp only [Nat.pos_iff_ne_zero, ite_not, List.map_append]
    split <;> split <;> rfl

-- A file gives what its lines say, line by line, and messages count the lines that say nothing
-- or say it again. No file gives the defaults in silence, and one that cannot be read the
-- defaults and one message.
theorem load_accounts (path : Path) (encodable : path.text.Encodable) (clean : .nul ∉ path.text)
    (disk : Disk) (defaults : Entries) :
    ∃ loaded, load disk path defaults = .ok loaded ∧
      (∀ content, disk.read path = .ok content →
        ∃ lines, (∀ cut, Bytes.Cut content cut ↔ cut = lines) ∧ Accounts lines defaults path loaded) ∧
      (disk.read path = .error (.refused .missing path) →
        loaded.entries = defaults ∧ loaded.notices = []) ∧
      ∀ error, disk.read path = .error error → error ≠ .refused .missing path →
        loaded.entries = defaults ∧ loaded.notices.map Notice.text =
          [Text.ofString "[ERROR] Read from " ++ path.text ++ Text.ofString " failed: " ++
            error.message] := by
  have proper := Path.proper_of_encodable encodable clean
  obtain ⟨loaded, loads⟩ := load_proper proper disk defaults
  refine ⟨loaded, loads, ?_⟩
  cases load_sound loads with
  | content reads =>
    rw [reads]
    refine ⟨?_, nofun, nofun⟩
    intro content equal
    cases equal
    exact ⟨_, fun _ => Bytes.cut_iff, tally_accounts _ defaults path⟩
  | missing reads =>
    rw [reads]
    refine ⟨nofun, fun _ => ⟨rfl, rfl⟩, ?_⟩
    intro error equal present
    cases equal
    exact absurd rfl present
  | unreadable reads present =>
    rw [reads]
    refine ⟨nofun, ?_, ?_⟩
    · intro equal
      cases equal
      exact absurd rfl present
    · intro error equal _
      cases equal
      exact ⟨rfl, rfl⟩

-- A line that ends in a carriage return, a comment that is no UTF-8, a key again, a line without
-- an entry, and a last line without a newline.
def patched : Bytes :=
  Text.utf8 "\"a\":\"1\"\r\n//" ++ [0xFF, 0x0A] ++ Text.utf8 "\"a\":\"2\"\nb\n\"c\":\"3\""

theorem patched_file_accounts :
    let disk : Disk := ⟨[(keptPlace, .file patched)], []⟩
    let defaults := ofList [("a", "0"), ("d", "9")]
    let inside := keptFile.child "x"
    keptFile.text.Encodable ∧ .nul ∉ keptFile.text ∧ disk.read keptFile = .ok patched ∧
      (∃ loaded, load disk keptFile defaults = .ok loaded ∧
        loaded.entries.find? "a" = some (Text.ofString "1") ∧
        loaded.entries.find? "d" = some (Text.ofString "9") ∧
        loaded.notices.map Notice.text =
          [Text.ofString "[WARN] Skipped 2 malformed line(s) in kept",
            Text.ofString "[WARN] Ignored 1 duplicate key(s) in kept"]) ∧
      disk.read inside = .error (.refused .notDirectory inside) ∧
      ∃ loaded, load disk inside defaults = .ok loaded ∧ loaded.entries = defaults ∧
        loaded.notices.map Notice.text =
          [Text.ofString "[ERROR] Read from kept/x failed: [Errno 20] Not a directory: 'kept/x'"] := by
  intro disk defaults inside
  have encodable : keptFile.text.Encodable := by decide
  have clean : .nul ∉ keptFile.text := by decide
  have reads : disk.read keptFile = .ok patched := rfl
  refine ⟨encodable, clean, reads, ?_, rfl, ?_⟩
  · obtain ⟨loaded, loads, account, _⟩ := load_accounts keptFile encodable clean disk defaults
    obtain ⟨lines, cut, accounts⟩ := account patched reads
    cases (cut patched.lines).mp (Bytes.cut_lines patched)
    have damaged : patched.lines.countP Damaged = 2 := by decide +kernel
    have repeated : repeatsIn patched.lines = 1 := by decide +kernel
    have messages := accounts.messages
    rw [damaged, repeated] at messages
    have first : First patched.lines "a" "1" := lookup_eq_some_iff.mp (by decide +kernel)
    have without : ∀ line ∈ patched.lines, ¬ ∃ value, HasEntry line "d" value := by decide +kernel
    exact ⟨loaded, loads, (accounts.entries _ _).mpr (.inl first),
      (accounts.entries _ _).mpr (.inr ⟨fun line among => not_exists.mp (without line among), rfl⟩),
      messages.trans (by decide +kernel)⟩
  · obtain ⟨loaded, loads, _, _, unreadable⟩ :=
      load_accounts inside (by decide) (by decide) disk defaults
    obtain ⟨same, message⟩ := unreadable _ rfl (by decide)
    refine ⟨loaded, loads, same, message.trans ?_⟩
    decide +kernel

end Entries

end LineShell
