import ScriptLink.Unicode.Ranges

/-!
# White space

The Unicode property `White_Space`. It holds the no-break spaces and the line separators,
and neither the zero-width space nor the byte order mark.
-/

namespace ScriptLink.Unicode

/-- `White_Space` beyond ASCII. -/
def blankRanges : Ranges :=
  [(0x85, 0x85), (0xA0, 0xA0), (0x1680, 0x1680), (0x2000, 0x200A), (0x2028, 0x2029),
   (0x202F, 0x202F), (0x205F, 0x205F), (0x3000, 0x3000)]

/-- `White_Space`. -/
def isBlank (c : Char) : Bool :=
  if isAscii c then c == ' ' || (9 ≤ c.toNat && c.toNat ≤ 13) else blankRanges.contains c

/-- Drops the white space on both sides. -/
def trimBlanks (s : List Char) : List Char :=
  ((s.dropWhile isBlank).reverse.dropWhile isBlank).reverse

end ScriptLink.Unicode
