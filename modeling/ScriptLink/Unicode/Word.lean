import ScriptLink.Unicode.IdentifierTables

/-!
# Word characters

The `\w` of regular expressions: `Alphabetic`, `Mark`, `Decimal_Number`,
`Connector_Punctuation` and `Join_Control`. It is close to `XID_Continue`, so the tables
here hold the differences only.
-/

namespace ScriptLink.Unicode

/-- Word characters that are not in `XID_Continue`: enclosing marks, circled letters and the
presentation forms that identifiers leave out. -/
def wordOnlyRanges : Ranges :=
  [(0x37A, 0x37A), (0x488, 0x489), (0x1ABE, 0x1ABE), (0x20DD, 0x20E0), (0x20E2, 0x20E4),
   (0x24B6, 0x24E9), (0x2E2F, 0x2E2F), (0xA670, 0xA672), (0xFC5E, 0xFC63), (0xFDFA, 0xFDFB),
   (0xFE70, 0xFE70), (0xFE72, 0xFE72), (0xFE74, 0xFE74), (0xFE76, 0xFE76), (0xFE78, 0xFE78),
   (0xFE7A, 0xFE7A), (0xFE7C, 0xFE7C), (0xFE7E, 0xFE7E), (0x1F130, 0x1F149), (0x1F150, 0x1F169),
   (0x1F170, 0x1F189)]

/-- `XID_Continue` characters that are no word characters: middle dots and a few digits and
symbols kept for old identifiers. -/
def notWordRanges : Ranges :=
  [(0xB7, 0xB7), (0x387, 0x387), (0x1369, 0x1371), (0x19DA, 0x19DA), (0x2118, 0x2118),
   (0x212E, 0x212E), (0x30FB, 0x30FB), (0xFF65, 0xFF65)]

/-- Whether a regular expression's `\w` matches `c`. -/
def isWord (c : Char) : Bool :=
  if isAscii c then c.isAlphanum || c == '_'
  else wordOnlyRanges.contains c ||
    ((xidStartRanges.contains c || xidContinueOnlyRanges.contains c) &&
      !notWordRanges.contains c)

end ScriptLink.Unicode
