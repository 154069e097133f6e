import LineShell.Entries.File
import LineShell.Proofs.Disk.Access
import LineShell.Proofs.Entries.Line
import LineShell.Proofs.Entries.Map
import LineShell.Proofs.Text.Utf8

namespace LineShell

namespace Bytes

theorem lines_cons_other {b : UInt8} (other : b ≠ 0x0A) {rest line : Bytes} {more : List Bytes}
    (tail : lines rest = line :: more) : lines (b :: rest) = (b :: line) :: more := by
  rw [lines, if_neg other, tail]

theorem lines_clean {line : Bytes} (clean : 0x0A ∉ line) (present : line ≠ []) : lines line = [line] := by
  induction line with
  | nil => exact absurd rfl present
  | cons b rest ih =>
    obtain ⟨other, tail⟩ := not_or.mp fun either => clean (List.mem_cons.mpr either)
    cases rest with
    | nil =>
      rw [lines, if_neg (Ne.symm other)]
      rfl
    | cons next more => exact lines_cons_other (Ne.symm other) (ih tail (List.cons_ne_nil _ _))

theorem lines_append {line : Bytes} (clean : 0x0A ∉ line) (rest : Bytes) :
    lines (line ++ 0x0A :: rest) = (line ++ [0x0A]) :: lines rest := by
  induction line with
  | nil =>
    rw [List.nil_append, lines]
    exact if_pos rfl
  | cons b more ih =>
    obtain ⟨other, tail⟩ := not_or.mp fun either => clean (List.mem_cons.mpr either)
    exact lines_cons_other (Ne.symm other) (ih tail)

-- Some bytes and their lines: a cut behind each newline, and nothing left out.
inductive Cut : Bytes → List Bytes → Prop where
  | nil : Cut [] []
  | last {line : Bytes} (clean : 0x0A ∉ line) (present : line ≠ []) : Cut line [line]
  | line {front rest : Bytes} {lines : List Bytes} (clean : 0x0A ∉ front) (behind : Cut rest lines) :
      Cut (front ++ 0x0A :: rest) ((front ++ [0x0A]) :: lines)

theorem cut_lines (content : Bytes) : Cut content content.lines := by
  by_cases present : 0x0A ∈ content
  · obtain ⟨before, after, shape, clean⟩ := List.eq_append_cons_of_mem present
    have shorter : after.length < content.length := by
      rw [shape, List.length_append, List.length_cons]
      omega
    rw [shape, lines_append clean]
    exact .line clean (cut_lines after)
  · by_cases empty : content = []
    · subst empty
      exact .nil
    · rw [lines_clean present empty]
      exact .last present empty
termination_by content.length

theorem cut_iff {content : Bytes} {lines : List Bytes} : Cut content lines ↔ lines = content.lines := by
  constructor
  · intro cut
    induction cut with
    | nil => rfl
    | last clean present => exact (lines_clean clean present).symm
    | line clean behind ih => rw [lines_append clean, ih]
  · rintro rfl
    exact cut_lines content

end Bytes

namespace Entries

namespace LineReading

-- What a line says once it is decoded; its end is taken off first.
def ofText (text : Text) : LineReading :=
  let line := text.dropLastWhile isLineEnd
  if isValueLine line then
    match parseLine line with
    | none => .malformed
    | some (key, value) => .entry key value
  else .ignored

def pair? : LineReading → Option (Text × Text)
  | .entry key value => some (key, value)
  | _ => none

-- The lines that are told of because nothing could be read from them.
def isSkipped : LineReading → Bool
  | .undecodable => true
  | .malformed => true
  | _ => false

theorem ofBytes_utf8 {text : Text} (encodable : text.Encodable) :
    ofBytes text.utf8 = ofText text := by
  rw [ofBytes, Bytes.decode?_utf8 text encodable]
  rfl

theorem ofText_newline (text : Text) : ofText (text ++ [.newline]) = ofText text := by
  unfold ofText
  rw [Text.dropLastWhile_concat]
  rfl

theorem ofText_entryLine (key value : Text) : ofText (entryLine key value) = .entry key value := by
  have whole : (entryLine key value).dropLastWhile isLineEnd = entryLine key value := by
    rw [entryLine_inside, ← List.cons_append, Text.dropLastWhile_concat]
    rfl
  have valued : isValueLine (entryLine key value) = true := by
    rw [entryLine_inside]
    exact isValueLine_quoteMark _
  unfold ofText
  dsimp only
  rw [whole, if_pos valued, parseLine_entryLine]

theorem bareQuotes_tail (text tail : Text) (ends : ∀ c ∈ tail, isLineEnd c = true) :
    Field.bareQuotes (text ++ tail) = Field.bareQuotes text := by
  induction tail generalizing text with
  | nil => rw [List.append_nil]
  | cons c rest ih =>
    obtain ⟨first, later⟩ := List.forall_mem_cons.mp ends
    have plain : ¬ (c = .quoteMark ∨ c = .backslash) := by
      rintro (rfl | rfl) <;> cases first
    have alone := ih [] later
    rw [List.nil_append] at alone
    rw [Field.bareQuotes_append plain, alone]
    rfl

-- A line with fewer than four bare quote marks holds no entry, whatever its end.
theorem ofText_pair?_none {text : Text} (few : Field.bareQuotes text < 4) :
    (ofText text).pair? = none := by
  obtain ⟨tail, shape, ends⟩ := Text.dropLastWhile_tail isLineEnd text
  have count : Field.bareQuotes (text.dropLastWhile isLineEnd) = Field.bareQuotes text := by
    rw [← bareQuotes_tail _ tail ends, ← shape]
  unfold ofText
  dsimp only
  split
  · split
    · rfl
    · rename_i key value found
      have four := bareQuotes_parseLine found
      omega
  · rfl

theorem ofText_malformed {rest : Text} (few : Field.bareQuotes (.quoteMark :: rest) < 4) :
    ofText (.quoteMark :: rest) = .malformed := by
  have none := ofText_pair?_none few
  have kept : isLineEnd .quoteMark = false := rfl
  obtain ⟨more, shape⟩ := Text.dropLastWhile_cons kept rest
  unfold ofText at none ⊢
  dsimp only at none ⊢
  rw [shape, if_pos (isValueLine_quoteMark more)] at none ⊢
  cases parsed : parseLine (.quoteMark :: more) with
  | none => rfl
  | some pair =>
    rw [parsed] at none
    cases none

end LineReading

namespace Tally

-- A file that is UTF-8 is read alike whether it is cut into lines before or after it is
-- decoded.
theorem foldl_lines_utf8 (tally : Tally) {text : Text} (encodable : text.Encodable) :
    (text.utf8.lines.map LineReading.ofBytes).foldl add tally =
      ((Text.pieces .newline text).map LineReading.ofText).foldl add tally := by
  induction text using Text.pieces_induction CodePoint.newline generalizing tally with
  | last text clean =>
    rw [Text.pieces_clean clean]
    by_cases empty : text = []
    · subst empty
      rfl
    · have present : text.utf8 ≠ [] := fun nothing => empty ((Text.utf8_eq_nil text).mp nothing)
      have free : 0x0A ∉ text.utf8 := fun inside => clean ((Text.newline_mem_utf8 text).mp inside)
      rw [Bytes.lines_clean free present, List.map_singleton, List.map_singleton,
        LineReading.ofBytes_utf8 encodable]
  | cut before after clean ih =>
    obtain ⟨front, behind⟩ := List.forall_mem_append.mp encodable
    obtain ⟨separator, tail⟩ := List.forall_mem_cons.mp behind
    have free : 0x0A ∉ before.utf8 := fun inside => clean ((Text.newline_mem_utf8 before).mp inside)
    have line : before.utf8 ++ [0x0A] = Text.utf8 (before ++ [.newline]) :=
      (Text.utf8_append before [.newline]).symm
    have whole : Text.Encodable (before ++ [.newline]) :=
      List.forall_mem_append.mpr ⟨front, List.forall_mem_singleton.mpr separator⟩
    have split : Text.utf8 (before ++ .newline :: after) = before.utf8 ++ 0x0A :: after.utf8 :=
      Text.utf8_append before (.newline :: after)
    rw [split, Bytes.lines_append free, Text.pieces_append, Text.pieces_clean clean, line,
      List.map_cons, LineReading.ofBytes_utf8 whole, LineReading.ofText_newline, List.singleton_append,
      List.map_cons, List.foldl_cons, List.foldl_cons, ih _ tail]

theorem ofBytes_utf8 {text : Text} (encodable : text.Encodable) :
    ofBytes text.utf8 = ((Text.pieces .newline text).map LineReading.ofText).foldl add empty :=
  foldl_lines_utf8 empty encodable

theorem skipped_foldl (tally : Tally) (readings : List LineReading) :
    (readings.foldl add tally).skipped = tally.skipped + readings.countP LineReading.isSkipped := by
  induction readings generalizing tally with
  | nil => rfl
  | cons reading rest ih =>
    rw [List.foldl_cons, ih, List.countP_cons]
    cases reading with
    | undecodable => simp [add, LineReading.isSkipped]; omega
    | malformed => simp [add, LineReading.isSkipped]; omega
    | ignored => simp [add, LineReading.isSkipped]
    | entry key value =>
      have same : (tally.add (.entry key value)).skipped = tally.skipped := by
        rw [add]
        split <;> rfl
      simp [same, LineReading.isSkipped]

theorem add_repeated {tally : Tally} {key old : Text} (known : tally.found.find? key = some old)
    (value : Text) : tally.add (.entry key value) = { tally with duplicates := tally.duplicates + 1 } := by
  rw [add, if_pos (by rw [contains, known]; rfl)]

theorem add_new {tally : Tally} {key : Text} (new : tally.found.find? key = none) (value : Text) :
    tally.add (.entry key value) = { tally with found := tally.found.insert key value } := by
  rw [add, if_neg (by rw [contains, new]; exact Bool.false_ne_true)]

theorem entries_cons (key value : Text) (rest : List LineReading) :
    (LineReading.entry key value :: rest).filterMap LineReading.pair? =
      (key, value) :: rest.filterMap LineReading.pair? := rfl

-- The first line of a key gives its value, unless one was found before.
theorem find?_foldl (tally : Tally) (readings : List LineReading) (key : Text) :
    (readings.foldl add tally).found.find? key =
      (tally.found.find? key).or (lookup key (readings.filterMap LineReading.pair?)) := by
  induction readings generalizing tally with
  | nil => exact (Option.or_none).symm
  | cons reading rest ih =>
    rw [List.foldl_cons, ih]
    cases reading with
    | undecodable => rfl
    | malformed => rfl
    | ignored => rfl
    | entry k v =>
      rw [entries_cons, lookup]
      cases before : tally.found.find? k with
      | some old =>
        rw [add_repeated before]
        by_cases here : k = key
        · subst here
          rw [before]
          rfl
        · rw [if_neg here]
      | none =>
        rw [add_new before, find?_insert]
        by_cases here : k = key
        · subst here
          rw [if_pos rfl, if_pos rfl, before]
          rfl
        · rw [if_neg here, if_neg (Ne.symm here)]

-- Every line with an entry either gives a new key or repeats one.
theorem duplicates_foldl (tally : Tally) (readings : List LineReading) :
    (readings.foldl add tally).duplicates + (readings.foldl add tally).found.size =
      tally.duplicates + tally.found.size + (readings.filterMap LineReading.pair?).length := by
  induction readings generalizing tally with
  | nil => rfl
  | cons reading rest ih =>
    rw [List.foldl_cons, ih]
    cases reading with
    | undecodable => rfl
    | malformed => rfl
    | ignored => rfl
    | entry k v =>
      rw [entries_cons, List.length_cons]
      cases before : tally.found.find? k with
      | some old =>
        rw [add_repeated before]
        dsimp only
        omega
      | none =>
        rw [add_new before]
        dsimp only
        rw [size_insert v before]
        omega

theorem notices_eq_nil (tally : Tally) (path : Path) :
    tally.notices path = [] ↔ tally.skipped = 0 ∧ tally.duplicates = 0 := by
  unfold notices
  rw [List.append_eq_nil_iff]
  constructor
  · rintro ⟨one, two⟩
    constructor
    · by_contra some
      rw [if_neg some] at one
      cases one
    · by_contra some
      rw [if_neg some] at two
      cases two
  · rintro ⟨one, two⟩
    exact ⟨if_pos one, if_pos two⟩

end Tally

-- The ways in which a load returns.
inductive Loads (disk : Disk) (path : Path) (defaults : Entries) : Loaded → Prop where
  | content {content : Bytes} (reads : disk.read path = .ok content) :
      Loads disk path defaults
        ⟨defaults.override (Tally.ofBytes content).found, (Tally.ofBytes content).notices path⟩
  | missing (reads : disk.read path = .error (.refused .missing path)) :
      Loads disk path defaults ⟨defaults, []⟩
  | unreadable {refusal : Refusal} (reads : disk.read path = .error (.refused refusal path))
      (present : refusal ≠ .missing) :
      Loads disk path defaults ⟨defaults, [.readFailed path (.refused refusal path)]⟩

theorem load_sound {disk : Disk} {path : Path} {defaults : Entries} {loaded : Loaded}
    (loads : load disk path defaults = .ok loaded) : Loads disk path defaults loaded := by
  unfold load at loads
  cases reads : disk.read path with
  | ok content =>
    rw [reads] at loads
    cases loads
    exact .content reads
  | error error =>
    rw [reads] at loads
    cases error with
    | improper error => cases loads
    | refused refusal place =>
      cases Disk.read_refused reads
      cases refusal with
      | missing =>
        cases loads
        exact .missing reads
      | _ =>
        cases loads
        exact .unreadable reads Refusal.noConfusion

end Entries

end LineShell
