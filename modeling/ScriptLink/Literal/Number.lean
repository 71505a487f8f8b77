import ScriptLink.Token

/-!
# Numeric literals

A run of digits is `d+(_+d+)*`: groups of digits with underscores between them, never before
the first or after the last. The forms are tried from the most specific one on; a radix
letter without a digit behind it is not part of the number.
-/

namespace ScriptLink.Number

def isHexDigit (c : Char) : Bool :=
  c.isDigit || ('a' ≤ c && c ≤ 'f') || ('A' ≤ c && c ≤ 'F')

def isOctalDigit (c : Char) : Bool := '0' ≤ c && c ≤ '7'

def isBinaryDigit (c : Char) : Bool := c == '0' || c == '1'

/-- Splits off the groups that follow a group of digits, each with the underscores before
it. -/
def splitGroups (isDigit : Char → Bool) (s : List Char) : List Char × List Char :=
  let bar := s.takeWhile (· == '_')
  let rest := s.dropWhile (· == '_')
  let group := rest.takeWhile isDigit
  if _h : bar = [] ∨ group = [] then ([], s)
  else
    let (more, tail) := splitGroups isDigit (rest.dropWhile isDigit)
    (bar ++ group ++ more, tail)
termination_by s.length
decreasing_by
  have h₁ : (s.takeWhile (· == '_')).length + (s.dropWhile (· == '_')).length = s.length := by
    rw [← List.length_append, List.takeWhile_append_dropWhile]
  have h₂ : ((s.dropWhile (· == '_')).takeWhile isDigit).length +
      ((s.dropWhile (· == '_')).dropWhile isDigit).length = (s.dropWhile (· == '_')).length := by
    rw [← List.length_append, List.takeWhile_append_dropWhile]
  have h₃ : 0 < (s.takeWhile (· == '_')).length :=
    List.length_pos_iff.2 fun h' => _h (Or.inl h')
  omega

/-- Splits off the longest run of digits; nothing if no digit comes first. -/
def splitDigits (isDigit : Char → Bool) (s : List Char) : List Char × List Char :=
  let first := s.takeWhile isDigit
  if first = [] then ([], s)
  else
    let (more, tail) := splitGroups isDigit (s.dropWhile isDigit)
    (first ++ more, tail)

/-- Splits off `e` or `E`, a sign if there is one, and a run of digits. -/
def splitExponent? : List Char → Option (List Char × List Char)
  | [] => none
  | e :: rest =>
    if e == 'e' || e == 'E' then
      let sign := (rest.take 1).filter fun c => c == '+' || c == '-'
      let (digits, tail) := splitDigits Char.isDigit (rest.drop sign.length)
      if digits = [] then none else some (e :: (sign ++ digits), tail)
    else none

/-- The final `n` of a big integer, if it is there. -/
def bigMark (s : List Char) : List Char := (s.take 1).filter (· == 'n')

/-- A literal with the given lead: digits of the class and the mark of a big integer. -/
def radixForm? (form : NumberKind) (isDigit : Char → Bool) (lead rest : List Char) :
    Option (NumberKind × List Char) :=
  let (digits, tail) := splitDigits isDigit rest
  if digits = [] then none else some (form, lead ++ digits ++ bigMark tail)

/-- The forms that begin with a zero and name their radix, the old octal one included. -/
def radixLiteral? : List Char → Option (NumberKind × List Char)
  | '0' :: mark :: rest =>
    if mark == 'x' || mark == 'X' then radixForm? .hex isHexDigit ['0', mark] rest
    else if mark == 'o' || mark == 'O' then radixForm? .octal isOctalDigit ['0', mark] rest
    else if mark == 'b' || mark == 'B' then radixForm? .binary isBinaryDigit ['0', mark] rest
    else if isOctalDigit mark then radixForm? .octal isOctalDigit ['0'] (mark :: rest)
    else none
  | _ => none

/-- The decimal forms: an exponent at once, a fraction, a big integer, or digits alone. -/
def decimalLiteral (s : List Char) : NumberKind × List Char :=
  let (whole, rest) := splitDigits Char.isDigit s
  match splitExponent? rest with
  | some (exponent, _) => (.exponent, whole ++ exponent)
  | none =>
    match rest with
    | '.' :: after =>
      let (fraction, tail) := splitDigits Char.isDigit after
      if fraction = [] then (.integer, whole)
      else
        let exponent := (splitExponent? tail).map Prod.fst
        (.float, whole ++ '.' :: (fraction ++ exponent.getD []))
    | 'n' :: _ => (.bigInt, whole ++ ['n'])
    | _ => (.integer, whole)

/-- The numeric literal at the start of `s`: its form and its text; none unless `s` begins
with a decimal digit. -/
def literal? : List Char → Option (NumberKind × List Char)
  | [] => none
  | c :: rest =>
    if c.isDigit then some ((radixLiteral? (c :: rest)).getD (decimalLiteral (c :: rest)))
    else none

end ScriptLink.Number
