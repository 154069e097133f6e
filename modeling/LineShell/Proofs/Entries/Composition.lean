import LineShell.Proofs.Entries.RoundTrip
import LineShell.Proofs.Text.Decoding

namespace LineShell.Entries

-- What the messages of a load tell: of how many lines nothing could be read, and how many gave a
-- key again. There is no message of none.
def Notice.skipped? : Notice → Option Nat
  | .skippedLines count _ => some count
  | _ => none

def Notice.repeated? : Notice → Option Nat
  | .duplicateKeys count _ => some count
  | _ => none

def skippedIn (notices : List Notice) : Nat := (notices.findSome? Notice.skipped?).getD 0

def repeatedIn (notices : List Notice) : Nat := (notices.findSome? Notice.repeated?).getD 0

theorem skippedIn_notices (tally : Tally) (path : Path) :
    skippedIn (tally.notices path) = tally.skipped := by
  rw [skippedIn, Tally.notices]
  by_cases none : tally.skipped = 0
  · rw [if_pos none, none]
    split <;> rfl
  · rw [if_neg none]
    rfl

theorem repeatedIn_notices (tally : Tally) (path : Path) :
    repeatedIn (tally.notices path) = tally.duplicates := by
  rw [repeatedIn, Tally.notices]
  by_cases none : tally.duplicates = 0
  · rw [if_pos none, none]
    split <;> rfl
  · rw [if_neg none]
    split <;> rfl

-- What a load comes to when the lines of the file are tallied so.
def Tally.loaded (tally : Tally) (defaults : Entries) (path : Path) : Loaded :=
  ⟨defaults.override tally.found, tally.notices path⟩

theorem load_content {disk : Disk} {path : Path} {content : Bytes}
    (reads : disk.read path = .ok content) (defaults : Entries) :
    load disk path defaults = .ok ((Tally.ofBytes content).loaded defaults path) := by
  rw [load, reads]
  rfl

-- The newline at the end of a line says nothing, whatever bytes stand in front of it: a code point
-- that was cut short before it stays so.
theorem LineReading.ofBytes_newline (line : Bytes) : ofBytes (line ++ [0x0A]) = ofBytes line := by
  rw [ofBytes, Bytes.decode?_newline]
  cases reads : line.decode? with
  | none => rw [ofBytes, reads]; rfl
  | some text =>
    rw [ofBytes, reads]
    exact ofText_newline text

-- Two files with a newline between them are told of one after the other. The cases are those of
-- the first file's lines; its last line gets the newline, and an empty one is ignored.
theorem Tally.foldl_newline (tally : Tally) (front behind : Bytes) :
    ((front ++ 0x0A :: behind).lines.map LineReading.ofBytes).foldl add tally =
      (behind.lines.map LineReading.ofBytes).foldl add
        ((front.lines.map LineReading.ofBytes).foldl add tally) := by
  have cut := Bytes.cut_lines front
  generalize front.lines = lines at cut
  induction cut generalizing tally with
  | nil =>
    have clean : 0x0A ∉ ([] : Bytes) := List.not_mem_nil
    rw [Bytes.lines_append clean]
    rfl
  | last clean _ =>
    rw [Bytes.lines_append clean, List.map_cons, LineReading.ofBytes_newline]
    rfl
  | line clean _ ih =>
    rw [List.append_assoc, List.cons_append, Bytes.lines_append clean, List.map_cons,
      List.foldl_cons, ih]
    rfl

theorem Tally.ofBytes_newline (front behind : Bytes) : ofBytes (front ++ 0x0A :: behind) =
    (behind.lines.map LineReading.ofBytes).foldl add (ofBytes front) :=
  foldl_newline empty front behind

theorem skipped_newline (front behind : Bytes) : (Tally.ofBytes (front ++ 0x0A :: behind)).skipped =
    (Tally.ofBytes front).skipped + (Tally.ofBytes behind).skipped := by
  have alone : (Tally.ofBytes behind).skipped =
      0 + (behind.lines.map LineReading.ofBytes).countP LineReading.isSkipped :=
    Tally.skipped_foldl Tally.empty _
  rw [Tally.ofBytes_newline, Tally.skipped_foldl, alone, Nat.zero_add]

-- Within a file the first line of a key counts, so what stands in front covers what stands behind.
theorem found_newline (front behind : Bytes) : (Tally.ofBytes (front ++ 0x0A :: behind)).found =
    (Tally.ofBytes behind).found.override (Tally.ofBytes front).found := by
  apply ext_find?
  intro key
  have alone : (Tally.ofBytes behind).found.find? key =
      none.or (lookup key ((behind.lines.map LineReading.ofBytes).filterMap LineReading.pair?)) :=
    Tally.find?_foldl Tally.empty _ key
  rw [find?_override, Tally.ofBytes_newline, Tally.find?_foldl, alone, Option.none_or]

theorem override_assoc (lower middle upper : Entries) :
    lower.override (middle.override upper) = (lower.override middle).override upper := by
  apply ext_find?
  intro key
  simp only [find?_override, Option.or_assoc]

-- A file gives what its part behind a newline gives, with what the part in front of it gives put
-- over that, and as many of its lines are told of as of both parts. The parts may be anything:
-- nothing at all, or bytes that only together would be UTF-8.
theorem joined_file_loads (front behind : Bytes) (defaults : Entries) {both one two : Disk}
    {joined path other : Path} (readsBoth : both.read joined = .ok (front ++ 0x0A :: behind))
    (readsFront : one.read path = .ok front) (readsBehind : two.read other = .ok behind) :
    ∃ whole lower upper, load both joined defaults = .ok whole ∧ load two other defaults = .ok lower ∧
      load one path lower.entries = .ok upper ∧ whole.entries = upper.entries ∧
      skippedIn whole.notices = skippedIn upper.notices + skippedIn lower.notices := by
  refine ⟨_, _, _, load_content readsBoth defaults, load_content readsBehind defaults,
    load_content readsFront _, ?_, ?_⟩
  · rw [Tally.loaded, found_newline, override_assoc]
    rfl
  · simp only [Tally.loaded, skippedIn_notices, skipped_newline]

def keeping (content : Bytes) : Disk := ⟨[(keptPlace, .file content)], []⟩

-- The bytes of one code point, cut in two by the newline, spoil the lines on both sides of it. One
-- key stands on both sides, and one of the defaults behind it.
def cutFront : Bytes := Text.utf8 "\"a\":\"1\"\r\n\"x\":\"" ++ [0xE2, 0x82]
def cutBehind : Bytes := 0xAC :: Text.utf8 "\"\n\"a\":\"2\"\n\"d\":\"3\"\n"

theorem cut_code_point_loads :
    let both := keeping (cutFront ++ 0x0A :: cutBehind)
    let defaults := ofList [("d", "0"), ("e", "9")]
    both.read keptFile = .ok (cutFront ++ 0x0A :: cutBehind) ∧
      (keeping cutFront).read keptFile = .ok cutFront ∧
      (keeping cutBehind).read keptFile = .ok cutBehind ∧
      ∃ whole lower upper, load both keptFile defaults = .ok whole ∧
        load (keeping cutBehind) keptFile defaults = .ok lower ∧
        load (keeping cutFront) keptFile lower.entries = .ok upper ∧
        whole.entries = upper.entries ∧ whole.entries = ofList [("a", "1"), ("d", "3"), ("e", "9")] ∧
        skippedIn whole.notices = skippedIn upper.notices + skippedIn lower.notices ∧
        skippedIn whole.notices = 2 := by
  intro both defaults
  have readsBoth : both.read keptFile = .ok (cutFront ++ 0x0A :: cutBehind) := rfl
  have readsFront : (keeping cutFront).read keptFile = .ok cutFront := rfl
  have readsBehind : (keeping cutBehind).read keptFile = .ok cutBehind := rfl
  obtain ⟨whole, lower, upper, loads, loadsLower, loadsUpper, same, count⟩ :=
    joined_file_loads cutFront cutBehind defaults readsBoth readsFront readsBehind
  have sum : (Tally.ofBytes (cutFront ++ 0x0A :: cutBehind)).loaded defaults keptFile = whole :=
    Except.ok.inj ((load_content readsBoth defaults).symm.trans loads)
  refine ⟨readsBoth, readsFront, readsBehind, whole, lower, upper, loads, loadsLower, loadsUpper, same,
    ?_, count, ?_⟩
  · rw [← sum]
    decide +kernel
  · rw [← sum]
    decide +kernel

end LineShell.Entries
