namespace LineShell

-- A position of the Unicode code space. Surrogates are positions too: text that
-- reaches the program can hold lone ones, and only encoding refuses them.
abbrev CodePoint := Fin 0x110000

-- Lengths, positions and order of a text are those of its code points.
abbrev Text := List CodePoint

namespace CodePoint

theorem toNat_lt_bound (c : Char) : c.toNat < 0x110000 := by
  have wide : c.toNat = c.val.toNat := rfl
  rcases c.valid with low | ⟨_, high⟩
  · have below : c.val.toNat < 0xD800 := low
    omega
  · have below : c.val.toNat < 0x110000 := high
    omega

def ofChar (c : Char) : CodePoint := ⟨c.toNat, toNat_lt_bound c⟩

def nul : CodePoint := 0x00
def tab : CodePoint := 0x09
def newline : CodePoint := 0x0A
def carriageReturn : CodePoint := 0x0D
def space : CodePoint := 0x20
def quoteMark : CodePoint := 0x22
def hash : CodePoint := 0x23
def apostrophe : CodePoint := 0x27
def dot : CodePoint := 0x2E
def slash : CodePoint := 0x2F
def colon : CodePoint := 0x3A
def backslash : CodePoint := 0x5C
def tilde : CodePoint := 0x7E
def nextLine : CodePoint := 0x85
def lineSeparator : CodePoint := 0x2028
def paragraphSeparator : CodePoint := 0x2029
def byteOrderMark : CodePoint := 0xFEFF

def isSurrogate (c : CodePoint) : Bool := 0xD800 ≤ c.val && c.val ≤ 0xDFFF

end CodePoint

namespace Text

def ofString (s : String) : Text := s.toList.map CodePoint.ofChar

instance : Coe String Text := ⟨ofString⟩

def Encodable (text : Text) : Prop := ∀ c ∈ text, c.isSurrogate = false

instance (text : Text) : Decidable text.Encodable :=
  List.decidableBAll (fun c : CodePoint => c.isSurrogate = false) text

-- The pieces between marks, empty ones included; a text without a mark is one piece.
def pieces (mark : CodePoint) : Text → List Text
  | [] => [[]]
  | c :: rest =>
    if c = mark then [] :: pieces mark rest
    else match pieces mark rest with
      | [] => [[c]]
      | piece :: more => (c :: piece) :: more

def joined (separator : Text) : List Text → Text
  | [] => []
  | [piece] => piece
  | piece :: more => piece ++ separator ++ joined separator more

-- What stands before and after the last mark; nothing when there is no mark.
def cutLast? (mark : CodePoint) : Text → Option (Text × Text)
  | [] => none
  | c :: rest =>
    match cutLast? mark rest with
    | some (before, after) => some (c :: before, after)
    | none => if c = mark then some ([], rest) else none

def dropLastWhile (test : CodePoint → Bool) (text : Text) : Text :=
  (text.reverse.dropWhile test).reverse

def ofNat (n : Nat) : Text := (Nat.toDigits 10 n).map CodePoint.ofChar

def ofInt : Int → Text
  | .ofNat n => ofNat n
  | .negSucc n => CodePoint.ofChar '-' :: ofNat (n + 1)

-- Lower-case hexadecimal digits, with zeros in front up to the width.
def hexadecimal (width n : Nat) : Text :=
  let digits := (Nat.toDigits 16 n).map CodePoint.ofChar
  List.replicate (width - digits.length) (CodePoint.ofChar '0') ++ digits

end Text

end LineShell
