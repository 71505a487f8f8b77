import ScriptLink.TokenStream
import ScriptLink.Unicode.Blank

/-!
# Complete input

The console asks for more lines while the input cannot be meant as it stands: while a
template or comment is open, while brackets or quotes are open, or while the last character
promises more. A command is never continued.

Brackets and quotes are counted on the characters, so those in comments and regular
expressions count as well. A closing bracket that does not fit ends the count: more lines
would not help, and the rewrite reports what is wrong.
-/

namespace ScriptLink.Console

/-- The bracket that closes an opening one. -/
def closerOf? : Char → Option Char
  | '(' => some ')'
  | '[' => some ']'
  | '\x7b' => some '\x7d'
  | _ => none

def isCloser (c : Char) : Bool := c == ')' || c == ']' || c == '\x7d'

def isQuote (c : Char) : Bool := c == '\x22' || c == '\x27' || c == '\x60'

/-- Whether nothing is left open at the end. `expected` holds the closing brackets that are
due, the next one first, `quote` the quote that is open, and `escaped` says that the next
character stands for itself. -/
def isBalancedFrom (expected : List Char) (quote : Option Char) (escaped : Bool) :
    List Char → Bool
  | [] => expected.isEmpty && quote.isNone
  | c :: rest =>
    if escaped then isBalancedFrom expected quote false rest
    else
      match quote with
      | some q =>
        if c = '\\' then isBalancedFrom expected quote true rest
        else isBalancedFrom expected (if c = q then none else some q) false rest
      | none =>
        if isQuote c then isBalancedFrom expected (some c) false rest
        else if isCloser c then
          match expected with
          | due :: others => if due = c then isBalancedFrom others none false rest else true
          | [] => true
        else isBalancedFrom ((closerOf? c).toList ++ expected) none false rest

/-- Whether no bracket or quote is left open. -/
def isBalanced (input : String) : Bool := isBalancedFrom [] none false input.toList

/-- Whether the input breaks off inside a literal that goes on over lines. -/
def isInsideLiteral (input : String) : Bool :=
  match tokenize input with
  | .error error => error.literal != .string
  | .ok _ => false

/-- The characters behind which more is to come. -/
def isUnfinishedAfter (c : Char) : Bool :=
  c == '\\' || c == ',' || c == '\x7b' || c == '(' || c == '['

/-- Whether the input can be taken as it stands. -/
def isComplete (input : String) : Bool :=
  let text := input.toList
  (text.dropWhile Unicode.isBlank).head? == some '.' ||
    (!isInsideLiteral input && isBalanced input &&
      !(Unicode.trimBlanks text).getLast?.any isUnfinishedAfter)

end ScriptLink.Console
