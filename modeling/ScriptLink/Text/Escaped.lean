import ScriptLink.Unicode.ExtendingMark
import ScriptLink.Unicode.Printable

/-!
# Texts shown in quotes

Listings show a text between double quotes, on one line, with everything visible: quotes and
backslashes are marked, a few control characters have letters, and whatever has no form of
its own, combining characters included, is given by its code point.
-/

namespace ScriptLink.Escaped

/-- How a character is shown. -/
def char (c : Char) : List Char :=
  if c = '\x22' then ['\\', '\x22']
  else if c = '\\' then ['\\', '\\']
  else if c = '\n' then ['\\', 'n']
  else if c = '\r' then ['\\', 'r']
  else if c = '\t' then ['\\', 't']
  else if c = '\x00' then ['\\', '0']
  else if Unicode.isExtendingMark c || !Unicode.isPrintable c then
    ['\\', 'u', '\x7b'] ++ Nat.toDigits 16 c.toNat ++ ['\x7d']
  else [c]

/-- The text between quotes. -/
def quote (text : String) : String :=
  String.ofList ('\x22' :: (text.toList.flatMap char ++ ['\x22']))

end ScriptLink.Escaped
