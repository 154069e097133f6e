import LineShell.Text.Basic

namespace LineShell

-- The code points that count as white space: the ASCII controls and separators
-- that act as space, and every Unicode space, line and paragraph separator.
def CodePoint.isBlank (c : CodePoint) : Bool :=
  let n := c.val
  (0x09 ≤ n && n ≤ 0x0D) || (0x1C ≤ n && n ≤ 0x20) || n == 0x85 || n == 0xA0 || n == 0x1680 ||
    (0x2000 ≤ n && n ≤ 0x200A) || n == 0x2028 || n == 0x2029 || n == 0x202F || n == 0x205F ||
    n == 0x3000

def Text.trimStart (text : Text) : Text := text.dropWhile CodePoint.isBlank

end LineShell
