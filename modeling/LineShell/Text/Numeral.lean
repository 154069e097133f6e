import LineShell.Text.Basic

namespace LineShell.Text

-- Digits of the bases up to sixteen, letters in either case.
def digit? (base : Nat) (c : CodePoint) : Option Nat :=
  let digit :=
    if 0x30 ≤ c.val && c.val ≤ 0x39 then c.val - 0x30
    else if 0x41 ≤ c.val && c.val ≤ 0x46 then c.val - 0x37
    else if 0x61 ≤ c.val && c.val ≤ 0x66 then c.val - 0x57
    else base
  if digit < base then some digit else none

-- The number that digits of the base write out, the highest digit first.
def numeral? (base : Nat) (digits : Text) : Option Nat :=
  match digits with
  | [] => none
  | _ => (digits.mapM (digit? base)).map fun values =>
      values.foldl (fun n digit => n * base + digit) 0

end LineShell.Text
