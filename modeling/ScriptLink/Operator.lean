/-!
# Operators

The operators are matched greedily against a fixed table, longest first. One entry looks
ahead: a question mark and a dot before a digit are a conditional and a fraction.
-/

namespace ScriptLink.Operator

/-- Every operator, longest first. -/
def table : List String :=
  [">>>=",
    "===", "!==", "**=", "<<=", ">>=", ">>>", "??=", "||=", "&&=", "...",
    "<=", ">=", "==", "!=", "=>", "**", "++", "--", "<<", ">>", "&&", "||", "??", "?.", "+=",
    "-=", "*=", "/=", "%=", "&=", "|=", "^=",
    "+", "-", "*", "/", "%", "&", "|", "^", "!", "~", "?", ":", "=", "@", "<", ">"]

/-- Optional chaining is none where a digit follows. -/
def refused (operator : String) (s : List Char) : Bool :=
  operator == "?." && ((s.drop 2).head?.any Char.isDigit)

/-- The longest operator at the start of `s`. -/
def match? (s : List Char) : Option String :=
  table.find? fun operator => operator.toList.isPrefixOf s && !refused operator s

/-- The characters that separate expressions. -/
def isSeparator (c : Char) : Bool := c == ';' || c == ',' || c == '.'

end ScriptLink.Operator
