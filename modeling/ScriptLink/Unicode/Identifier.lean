import ScriptLink.Unicode.IdentifierTables

/-!
# The identifier properties

`isXidStart` and `isXidContinue` are the Unicode properties of those names. Every start
character also continues an identifier (`isXidContinue_of_isXidStart`).
-/

namespace ScriptLink.Unicode

/-- `XID_Start`. -/
def isXidStart (c : Char) : Bool :=
  if isAscii c then c.isAlpha else xidStartRanges.contains c

/-- `XID_Continue`. -/
def isXidContinue (c : Char) : Bool :=
  if isAscii c then c.isAlphanum || c == '_'
  else xidStartRanges.contains c || xidContinueOnlyRanges.contains c

theorem isXidContinue_of_isXidStart {c : Char} (h : isXidStart c = true) :
    isXidContinue c = true := by
  unfold isXidStart at h
  unfold isXidContinue
  split at h <;> simp_all [Char.isAlphanum]

end ScriptLink.Unicode
