/-!
# Coloured text

A style is switched on before a text and off behind it by escape sequences. Styles nest; the
first one of a list is the outermost.
-/

namespace ScriptLink

/-- A way in which a terminal shows a text. -/
inductive Style where
  | bold
  | dimmed
  | red
  | green
  | yellow
  | magenta
  | cyan
  | white
  | brightGreen
  | brightYellow
  | brightCyan
  deriving DecidableEq, Repr

namespace Style

/-- The number that switches the style on. -/
def code : Style → Nat
  | bold => 1
  | dimmed => 2
  | red => 31
  | green => 32
  | yellow => 33
  | magenta => 35
  | cyan => 36
  | white => 37
  | brightGreen => 92
  | brightYellow => 93
  | brightCyan => 96

/-- The number that switches the style off: the weights have one, the colours another. -/
def resetCode : Style → Nat
  | bold | dimmed => 0
  | _ => 39

/-- The sequence for a number. -/
def sequence (number : Nat) : String := "\x1b[" ++ toString number ++ "m"

/-- A text in one style. -/
def apply (style : Style) (text : String) : String :=
  sequence style.code ++ text ++ sequence style.resetCode

end Style

/-- A text in some styles, the outermost first. -/
def paint (styles : List Style) (text : String) : String := styles.foldr Style.apply text

/-- The text with blanks behind it, up to a width. -/
def padRight (width : Nat) (text : String) : String :=
  text ++ String.ofList (List.replicate (width - text.length) ' ')

/-- The text with blanks before it, up to a width. -/
def padLeft (width : Nat) (text : String) : String :=
  String.ofList (List.replicate (width - text.length) ' ') ++ text

end ScriptLink
