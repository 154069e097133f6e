import LineShell.Text.Basic

namespace LineShell

abbrev Bytes := List UInt8

-- The shortest UTF-8 form, one to four bytes by the size of the code point.
def CodePoint.utf8 (c : CodePoint) : Bytes :=
  let n := c.val
  if n < 0x80 then [.ofNat n]
  else if n < 0x800 then [.ofNat (0xC0 + n / 64), .ofNat (0x80 + n % 64)]
  else if n < 0x10000 then
    [.ofNat (0xE0 + n / 4096), .ofNat (0x80 + n / 64 % 64), .ofNat (0x80 + n % 64)]
  else
    [.ofNat (0xF0 + n / 262144), .ofNat (0x80 + n / 4096 % 64), .ofNat (0x80 + n / 64 % 64),
      .ofNat (0x80 + n % 64)]

-- Where encoding stops: a run of `extra + 1` neighbouring surrogates.
structure SurrogateRun where
  position : Nat
  first : CodePoint
  extra : Nat
deriving Repr, DecidableEq

namespace Text

def surrogateRun? (text : Text) : Option SurrogateRun :=
  match text.dropWhile (!·.isSurrogate) with
  | [] => none
  | first :: rest =>
    some ⟨(text.takeWhile (!·.isSurrogate)).length, first, (rest.takeWhile (·.isSurrogate)).length⟩

def utf8 (text : Text) : Bytes := text.flatMap CodePoint.utf8

-- Nothing is encoded when a surrogate stands anywhere in the text.
def encode (text : Text) : Except SurrogateRun Bytes :=
  match text.surrogateRun? with
  | some run => .error run
  | none => .ok text.utf8

end Text

def SurrogateRun.message (run : SurrogateRun) : Text :=
  if run.extra = 0 then
    "'utf-8' codec can't encode character '\\u" ++ Text.hexadecimal 4 run.first.val ++
      Text.ofString "' in position " ++ Text.ofNat run.position ++
      Text.ofString ": surrogates not allowed"
  else
    "'utf-8' codec can't encode characters in position " ++ Text.ofNat run.position ++
      Text.ofString "-" ++ Text.ofNat (run.position + run.extra) ++
      Text.ofString ": surrogates not allowed"

namespace Bytes

def isContinuation (b : UInt8) : Bool := 0x80 ≤ b.toNat && b.toNat < 0xC0

def payload (b : UInt8) : Nat := b.toNat - 0x80

def ofTwo (a b : UInt8) : Nat := (a.toNat - 0xC0) * 64 + payload b

def ofThree (a b c : UInt8) : Nat := (a.toNat - 0xE0) * 4096 + payload b * 64 + payload c

def ofFour (a b c d : UInt8) : Nat :=
  (a.toNat - 0xF0) * 262144 + payload b * 4096 + payload c * 64 + payload d

-- Strict UTF-8: overlong forms, surrogates, positions past the code space and
-- forms cut short have no reading.
def decode? : Bytes → Option Text
  | [] => some []
  | a :: rest =>
    if small : a.toNat < 0x80 then
      (decode? rest).map (⟨a.toNat, by omega⟩ :: ·)
    else match rest with
      | [] => none
      | b :: rest =>
        if two : 0xC0 ≤ a.toNat ∧ a.toNat < 0xE0 ∧ isContinuation b ∧
            0x80 ≤ ofTwo a b ∧ ofTwo a b < 0x110000 then
          (decode? rest).map (⟨ofTwo a b, two.2.2.2.2⟩ :: ·)
        else match rest with
          | [] => none
          | c :: rest =>
            if three : 0xE0 ≤ a.toNat ∧ a.toNat < 0xF0 ∧ isContinuation b ∧ isContinuation c ∧
                0x800 ≤ ofThree a b c ∧
                ¬ (0xD800 ≤ ofThree a b c ∧ ofThree a b c ≤ 0xDFFF) ∧
                ofThree a b c < 0x110000 then
              (decode? rest).map (⟨ofThree a b c, three.2.2.2.2.2.2⟩ :: ·)
            else match rest with
              | [] => none
              | d :: rest =>
                if four : 0xF0 ≤ a.toNat ∧ isContinuation b ∧ isContinuation c ∧
                    isContinuation d ∧ 0x10000 ≤ ofFour a b c d ∧ ofFour a b c d < 0x110000 then
                  (decode? rest).map (⟨ofFour a b c d, four.2.2.2.2.2⟩ :: ·)
                else none

end Bytes

end LineShell
