import LineShell.Text.Printable

namespace LineShell

namespace Text

-- A code point that does not print, by the narrowest of the three numeric escapes.
def numericEscape (c : CodePoint) : Text :=
  if c.val < 0x100 then "\\x" ++ hexadecimal 2 c.val
  else if c.val < 0x10000 then "\\u" ++ hexadecimal 4 c.val
  else "\\U" ++ hexadecimal 8 c.val

def inspectCodePoint (quote c : CodePoint) : Text :=
  if c = quote ∨ c = .backslash then [.backslash, c]
  else if c = .newline then "\\n"
  else if c = .carriageReturn then "\\r"
  else if c = .tab then "\\t"
  else if c.isPrintable then [c]
  else numericEscape c

-- Apostrophes enclose the text, unless it holds one and no quote mark.
def inspectQuote (text : Text) : CodePoint :=
  if text.contains .apostrophe && !text.contains .quoteMark then .quoteMark else .apostrophe

def inspect (text : Text) : Text :=
  let quote := inspectQuote text
  [quote] ++ text.flatMap (inspectCodePoint quote) ++ [quote]

end Text

end LineShell
