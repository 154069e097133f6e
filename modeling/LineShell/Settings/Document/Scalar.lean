import LineShell.Settings.Document.Spot
import LineShell.Text.Numeral

namespace LineShell.Document

-- Scalars as they stand in a document, in quotes or without. Either kind may run over
-- several lines, which are folded into one.

-- The gap ahead in a quoted scalar. Blanks around a line break do not count, and a
-- document marker may not stand inside quotes.
def quotedGap (rest : Remainder) : Option (Text × Remainder) :=
  match rest.dropWhile fun spot => isGap spot.point with
  | [] => none
  | spot :: more =>
    match lineBreak? spot.point with
    | none => some ((rest.takeWhile fun spot => isGap spot.point).map Spot.point, spot :: more)
    | some first =>
      let (breaks, after) := takeBreaks isGap more
      if atMarker after then none else some (folded first breaks, after)

def escapes : List (Char × Char) := [
  ('0', '\x00'), ('a', '\x07'), ('b', '\x08'), ('t', '\t'), ('\t', '\t'), ('n', '\n'),
  ('v', '\x0b'), ('f', '\x0c'), ('r', '\r'), ('e', '\x1b'), (' ', ' '), ('"', '"'), ('/', '/'),
  ('\\', '\\'), ('N', '\u0085'), ('_', '\u00a0'), ('L', '\u2028'), ('P', '\u2029')]

def escaped? (c : CodePoint) : Option CodePoint :=
  (escapes.find? fun (mark, _) => CodePoint.ofChar mark = c).map fun (_, meaning) => .ofChar meaning

-- The marks that call for the number of a code point, with its count of digits.
def escapeWidths : List (Char × Nat) := [('x', 2), ('u', 4), ('U', 8)]

def escapeWidth? (c : CodePoint) : Option Nat :=
  (escapeWidths.find? fun (mark, _) => CodePoint.ofChar mark = c).map fun (_, width) => width

def numbered? (digits : Text) : Option CodePoint :=
  match Text.numeral? 16 digits with
  | none => none
  | some code => if small : code < 0x110000 then some ⟨code, small⟩ else none

-- Reads behind a backslash. In front of a line break it joins the lines.
def readEscape : Remainder → Option (Text × Remainder)
  | [] => none
  | spot :: rest =>
    match escapeWidth? spot.point with
    | some width =>
      let digits := (rest.take width).map Spot.point
      if digits.length = width then
        (numbered? digits).map fun code => ([code], rest.drop width)
      else none
    | none =>
      if isBreak spot.point then
        let (breaks, after) := takeBreaks isGap rest
        if atMarker after then none else some (breaks, after)
      else (escaped? spot.point).map fun code => ([code], rest)

-- Reads behind an opening mark up to the next one. A doubled apostrophe is one of the
-- text, and only the quote mark knows escapes. Every step takes a code point.
def readQuoted (mark : CodePoint) : Nat → Remainder → Option (Text × Remainder)
  | 0, _ => none
  | _ + 1, [] => none
  | fuel + 1, spot :: rest =>
    let step :=
      if isGap spot.point || isBreak spot.point then quotedGap (spot :: rest)
      else if mark = .quoteMark && spot.point = .backslash then readEscape rest
      else some ([spot.point], rest)
    if spot.point = mark then
      match rest with
      | [] => some ([], [])
      | next :: after =>
        if mark = .apostrophe && next.point = mark then
          (readQuoted mark fuel after).map fun (text, after) => (mark :: text, after)
        else some ([], rest)
    else
      match step with
      | none => none
      | some (piece, after) =>
        (readQuoted mark fuel after).map fun (text, after) => (piece ++ text, after)

def flowMarks : Text := ",[]\x7b\x7d"

-- Marks that begin something else than a plain scalar.
def reservedMarks : Text := "-?:,[]\x7b\x7d#&*!|>'\"%@\x60"

-- Whether a plain scalar can begin here: not with a mark, but with a dash where something
-- follows directly, and outside brackets so with a question mark or a colon.
def beginsPlain (inFlow : Bool) : Remainder → Bool
  | [] => false
  | spot :: rest =>
    !(isGap spot.point || isBreak spot.point || reservedMarks.contains spot.point) ||
      (!endsMark rest && (spot.point = .ofChar '-' ||
        (!inFlow && (spot.point = .ofChar '?' || spot.point = .colon))))

-- Whether a word of a plain scalar ends here: at a gap, at a colon that stands apart, and
-- inside brackets at any of their marks.
def endsWord (inFlow : Bool) : Remainder → Bool
  | [] => true
  | spot :: rest =>
    isGap spot.point || isBreak spot.point ||
      (spot.point = .colon && (endsMark rest ||
        (inFlow && rest.head?.any fun next => flowMarks.contains next.point))) ||
      (inFlow && (flowMarks.contains spot.point || spot.point = .ofChar '?'))

def takeWord (inFlow : Bool) : Remainder → Text × Remainder
  | [] => ([], [])
  | spot :: rest =>
    if endsWord inFlow (spot :: rest) then ([], spot :: rest)
    else
      let (word, after) := takeWord inFlow rest
      (spot.point :: word, after)

structure WordGap where
  text : Text
  crossesLine : Bool
  after : Remainder

def WordGap.read (rest : Remainder) : WordGap :=
  let blanks := (rest.takeWhile fun spot => spot.point = .space).map Spot.point
  match rest.dropWhile fun spot => spot.point = .space with
  | [] => ⟨blanks, false, []⟩
  | spot :: more =>
    match lineBreak? spot.point with
    | none => ⟨blanks, false, spot :: more⟩
    | some first =>
      let (breaks, after) := takeBreaks (fun c => c = .space) more
      ⟨if atMarker after then [] else folded first breaks, true, after⟩

-- Whether a plain scalar goes on behind the gap: not with a comment, and outside brackets
-- only in a column of the block that it stands in.
def WordGap.goesOn (inFlow : Bool) (least : Nat) (gap : WordGap) : Bool :=
  !gap.text.isEmpty && !endsWord inFlow gap.after && gap.after.head?.any fun spot =>
    spot.point ≠ .hash && (inFlow || least ≤ spot.column)

structure PlainScalar where
  text : Text
  crossesLine : Bool
  after : Remainder

-- Every step takes a word.
def PlainScalar.read (inFlow : Bool) (least : Nat) : Nat → Remainder → PlainScalar
  | 0, rest => ⟨[], false, rest⟩
  | fuel + 1, rest =>
    let (word, after) := takeWord inFlow rest
    let gap := WordGap.read after
    if gap.goesOn inFlow least then
      let more := PlainScalar.read inFlow least fuel gap.after
      { more with text := word ++ gap.text ++ more.text }
    else ⟨word, gap.crossesLine, gap.after⟩

end LineShell.Document
