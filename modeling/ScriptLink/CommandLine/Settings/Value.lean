import ScriptLink.Content
import ScriptLink.Literal.Number

/-!
# Values of settings

A value is a text in double quotes or an integer of 64 bits. A text has escapes for a few
control characters and, by four or eight hexadecimal digits, for every character. An integer
is decimal with an optional sign, or has one of the marks `0x`, `0o` and `0b` and no sign;
single underscores can stand between its digits, and a decimal one starts with a zero only
if it is zero.
-/

namespace ScriptLink.CommandLine.Settings

/-- The characters that can stand in texts and comments. -/
def isTextChar (c : Char) : Bool := c == '\t' || (' ' ≤ c && c != '\x7f')

/-! ## Digits -/

/-- The value of a digit; the letters of either case go on from ten. -/
def digitValue (c : Char) : Nat :=
  if c.isDigit then c.toNat - '0'.toNat else c.toLower.toNat - 'a'.toNat + 10

/-- The value of a row of digits. -/
def valueOfDigits (base : Nat) (digits : List Char) : Nat :=
  digits.foldl (fun value c => base * value + digitValue c) 0

/-! ## Texts -/

/-- The character with the code point that the hexadecimal digits give, if there is one. -/
def charOfHex? (digits : List Char) : Option Char :=
  let code := valueOfDigits 16 digits
  if digits.all Number.isHexDigit ∧ code.isValidChar then some (Char.ofNat code) else none

/-- The character that a backslash and a letter stand for. -/
def escape? : Char → Option Char
  | 'b' => some '\x08'
  | 't' => some '\t'
  | 'n' => some '\n'
  | 'f' => some '\x0c'
  | 'r' => some '\r'
  | '\x22' => some '\x22'
  | '\\' => some '\\'
  | _ => none

/-- A character in front of a text with what follows it, if there are both. -/
def prepend (c : Option Char) (text : Option (List Char × List Char)) :
    Option (List Char × List Char) := do
  let (chars, after) ← text
  return ((← c) :: chars, after)

/-- The text up to the closing quote, and what follows the quote. -/
def quoted? : List Char → Option (List Char × List Char)
  | [] => none
  | '\x22' :: rest => some ([], rest)
  | '\\' :: 'u' :: a :: b :: c :: d :: rest => prepend (charOfHex? [a, b, c, d]) (quoted? rest)
  | '\\' :: 'U' :: a :: b :: c :: d :: e :: f :: g :: h :: rest =>
    prepend (charOfHex? [a, b, c, d, e, f, g, h]) (quoted? rest)
  | '\\' :: letter :: rest => prepend (escape? letter) (quoted? rest)
  | c :: rest => prepend (if isTextChar c && c != '\\' then some c else none) (quoted? rest)

/-! ## Integers -/

/-- Whether underscores stand only between two other characters of a row, one at a time. -/
def isGrouped : List Char → Bool
  | [] => false
  | '_' :: _ => false
  | [_] => true
  | _ :: '_' :: rest => isGrouped rest
  | _ :: rest => isGrouped rest

/-- The number at the beginning of a text, of digits in groups, and what follows it. -/
def grouped? (base : Nat) (isDigit : Char → Bool) (text : List Char) :
    Option (Nat × List Char) :=
  let row := text.takeWhile fun c => isDigit c || c == '_'
  if isGrouped row then some (valueOfDigits base (row.filter isDigit), text.drop row.length)
  else none

/-- The decimal number at the beginning of a text; nothing belongs to a leading zero. -/
def decimal? : List Char → Option (Nat × List Char)
  | '0' :: rest => some (0, rest)
  | text => grouped? 10 Char.isDigit text

/-- A number under a sign. -/
def withSign (sign : Int) (number : Option (Nat × List Char)) : Option (Int × List Char) :=
  number.map fun (value, after) => (sign * value, after)

/-- The integer at the beginning of a text, of any size, and what follows it. -/
def unbounded? : List Char → Option (Int × List Char)
  | '0' :: 'x' :: rest => withSign 1 (grouped? 16 Number.isHexDigit rest)
  | '0' :: 'o' :: rest => withSign 1 (grouped? 8 Number.isOctalDigit rest)
  | '0' :: 'b' :: rest => withSign 1 (grouped? 2 Number.isBinaryDigit rest)
  | '-' :: rest => withSign (-1) (decimal? rest)
  | '+' :: rest => withSign 1 (decimal? rest)
  | text => withSign 1 (decimal? text)

/-- The integer at the beginning of a text, within 64 bits, and what follows it. -/
def integer? (text : List Char) : Option (Int × List Char) :=
  (unbounded? text).filter fun (value, _) =>
    Int64.minValue.toInt ≤ value && value ≤ Int64.maxValue.toInt

/-- The value at the beginning of a text, and what follows it. -/
def value? : List Char → Option (Content × List Char)
  | '\x22' :: rest => (quoted? rest).map fun (text, after) => (.text (String.ofList text), after)
  | text => (integer? text).map fun (value, after) => (.int value, after)

end ScriptLink.CommandLine.Settings
