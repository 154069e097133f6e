import LineShell.Text.Basic

namespace LineShell.Document

-- A code point of a document and where it stands. The column counts from the last line
-- break, and a byte order mark takes none.
structure Spot where
  point : CodePoint
  index : Nat
  line : Nat
  column : Nat

abbrev Remainder := List Spot

def isGap (c : CodePoint) : Bool := c = .space || c = .tab

-- The code points that end a line, as the ones they leave in a scalar.
def lineBreak? (c : CodePoint) : Option CodePoint :=
  if c = .newline ∨ c = .nextLine then some .newline
  else if c = .lineSeparator ∨ c = .paragraphSeparator then some c
  else none

def isBreak (c : CodePoint) : Bool := (lineBreak? c).isSome

-- Documents are text: of the control code points they hold only gaps and line breaks.
def isAllowed (c : CodePoint) : Bool :=
  c = .tab || c = .carriageReturn || isBreak c || (0x20 ≤ c.val && c.val ≤ 0x7E) ||
    (0xA0 ≤ c.val && c.val ≤ 0xD7FF) || (0xE000 ≤ c.val && c.val ≤ 0xFFFD) || 0x10000 ≤ c.val

-- A carriage return ends a line like a newline, and only once with one behind it.
def plainBreaks : Text → Text
  | [] => []
  | [c] => if c = .carriageReturn then [.newline] else [c]
  | c :: d :: rest =>
    if c = .carriageReturn then
      .newline :: (if d = .newline then plainBreaks rest else plainBreaks (d :: rest))
    else c :: plainBreaks (d :: rest)

def dropOrderMark : Text → Text
  | [] => []
  | c :: rest => if c = .byteOrderMark then rest else c :: rest

def located (index line column : Nat) : Text → Remainder
  | [] => []
  | c :: rest =>
    ⟨c, index, line, column⟩ ::
      (if isBreak c then located (index + 1) (line + 1) 0 rest
      else if c = .byteOrderMark then located (index + 1) line column rest
      else located (index + 1) line (column + 1) rest)

def Remainder.ofText? (text : Text) : Option Remainder :=
  if text.all isAllowed then some (located 0 0 0 (dropOrderMark (plainBreaks text))) else none

def endsMark : Remainder → Bool
  | [] => true
  | spot :: _ => isGap spot.point || isBreak spot.point

-- Three dashes or three dots at the beginning of a line, where a document starts or ends.
def atMarker : Remainder → Bool
  | a :: b :: c :: rest =>
    a.column = 0 && (a.point = .ofChar '-' || a.point = .dot) && b.point = a.point &&
      c.point = a.point && endsMark rest
  | _ => false

-- What follows the spaces, comments and line breaks ahead, and whether a line ends there.
def skipBlank (inComment : Bool) : Remainder → Bool × Remainder
  | [] => (false, [])
  | spot :: rest =>
    if isBreak spot.point then (true, (skipBlank false rest).2)
    else if inComment || spot.point = .space then skipBlank inComment rest
    else if spot.point = .hash then skipBlank true rest
    else (false, spot :: rest)

-- The line breaks ahead, those code points apart that are skipped between them.
def takeBreaks (skipped : CodePoint → Bool) : Remainder → Text × Remainder
  | [] => ([], [])
  | spot :: rest =>
    match lineBreak? spot.point with
    | some c =>
      let (more, after) := takeBreaks skipped rest
      (c :: more, after)
    | none => if skipped spot.point then takeBreaks skipped rest else ([], spot :: rest)

-- What line breaks leave in a scalar: a single newline becomes a space, and the first of
-- several is dropped. Separators stay.
def folded (first : CodePoint) (more : Text) : Text :=
  if first ≠ .newline then first :: more
  else if more = [] then [.space]
  else more

end LineShell.Document
