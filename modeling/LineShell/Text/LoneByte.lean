import LineShell.Text.Utf8

namespace LineShell

-- Names on the disk and variables of the environment are bytes to the machine and texts
-- to the program. Bytes that are no UTF-8 are kept in the text as lone bytes: surrogates
-- that stand for one byte each.

namespace CodePoint

def isLoneByte (c : CodePoint) : Bool := 0xDC80 ≤ c.val && c.val ≤ 0xDCFF

theorem loneByte_lt_bound (b : UInt8) : 0xDC00 + b.toNat < 0x110000 := by
  have small := b.toNat_lt
  omega

def ofLoneByte (b : UInt8) : CodePoint := ⟨0xDC00 + b.toNat, loneByte_lt_bound b⟩

def bytes (c : CodePoint) : Bytes := if c.isLoneByte then [.ofNat (c.val - 0xDC00)] else c.utf8

end CodePoint

namespace Text

def bytes (text : Text) : Bytes := text.flatMap CodePoint.bytes

-- Where a text cannot become bytes: the surrogates from the first that stands for no
-- byte to the end of its run.
def strayRun? (text : Text) : Option SurrogateRun :=
  scan 0 text
where
  scan (position : Nat) : Text → Option SurrogateRun
    | [] => none
    | c :: rest =>
      if c.isSurrogate ∧ ¬ c.isLoneByte then
        some ⟨position, c, (rest.takeWhile (·.isSurrogate)).length⟩
      else scan (position + 1) rest

end Text

namespace Bytes

def front? (bytes : Bytes) : Option CodePoint :=
  [1, 2, 3, 4].findSome? fun width =>
    match decode? (bytes.take width) with
    | some [c] => some c
    | _ => none

-- The text of the bytes behind those that the code point read last still takes up.
def textBehind : Nat → Bytes → Text
  | _, [] => []
  | taken + 1, _ :: rest => textBehind taken rest
  | 0, b :: rest =>
    match front? (b :: rest) with
    | some c => c :: textBehind (c.utf8.length - 1) rest
    | none => .ofLoneByte b :: textBehind 0 rest

def text (bytes : Bytes) : Text := textBehind 0 bytes

end Bytes

-- The text that the machine gives back for one that it was given: lone bytes that
-- together are UTF-8 come back as the code points they make up.
def Text.givenBack (text : Text) : Text := text.bytes.text

end LineShell
