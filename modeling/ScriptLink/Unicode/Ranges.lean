/-!
# Sets of characters given by ranges of code points

The properties of the Unicode character database that the library reads are kept as ascending
lists of inclusive ranges, one module per property. Identifiers and word characters follow
version 16.0 of the database; what is shown as itself, and the letters and numbers that
completion knows, follow version 17.0. Every property decides ASCII by itself first, so that
the tables hold nothing below `0x80` and a question about program text rarely reaches them.
-/

namespace ScriptLink.Unicode

/-- Inclusive ranges of code points, in ascending order and apart from each other. -/
abbrev Ranges := List (Nat × Nat)

/-- Whether the code point of `c` lies in one of the ranges. -/
def Ranges.contains (ranges : Ranges) (c : Char) : Bool :=
  ranges.any fun (low, high) => low ≤ c.toNat && c.toNat ≤ high

/-- Whether `c` is one of the first 128 characters. -/
def isAscii (c : Char) : Bool := c.toNat < 0x80

theorem Ranges.contains_iff (ranges : Ranges) (c : Char) :
    ranges.contains c = true ↔ ∃ r ∈ ranges, r.1 ≤ c.toNat ∧ c.toNat ≤ r.2 := by
  simp [Ranges.contains]

end ScriptLink.Unicode
