import ScriptLink.Unicode.Identifier

/-!
# Names

A name starts with an identifier character of Unicode, an underscore or a dollar sign.
-/

namespace ScriptLink.Identifier

def isStart (c : Char) : Bool := c == '_' || c == '$' || Unicode.isXidStart c

def isContinue (c : Char) : Bool := c == '_' || c == '$' || Unicode.isXidContinue c

theorem isContinue_of_isStart {c : Char} (h : isStart c = true) : isContinue c = true := by
  simp only [isStart, isContinue, Bool.or_eq_true] at h ⊢
  exact h.imp_right Unicode.isXidContinue_of_isXidStart

/-- The whole text is one name. -/
def isName : List Char → Bool
  | [] => false
  | c :: rest => isStart c && rest.all isContinue

end ScriptLink.Identifier
