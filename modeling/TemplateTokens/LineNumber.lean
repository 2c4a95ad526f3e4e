/-!
# Line numbers

Lines are counted in 32-bit words. A count that would pass the last representable line stays there,
so a line number never wraps around to an earlier line.

The distance that is added is a number of lines in one token, which has no bound, and is itself
capped before it is added. This makes no difference: the line reached is the sum capped once
(`advance_toNat`). Nothing is signalled where a count is capped, and a stream that stands on the
last line stays on it.
-/

namespace TemplateTokens

/-- The number of a line. -/
abbrev LineNumber := UInt32

namespace LineNumber

/-- The line with the given number, or the last line if there are not that many. -/
def saturating (number : Nat) : LineNumber := UInt32.ofNat (min number (UInt32.size - 1))

/-- The line that lies `count` lines further on. Both the distance and the result stop at the last
line. -/
def advance (line : LineNumber) (count : Nat) : LineNumber :=
  saturating (line.toNat + (saturating count).toNat)

@[simp] theorem saturating_toNat (number : Nat) :
    (saturating number).toNat = min number (UInt32.size - 1) := by
  have bounded : min number (UInt32.size - 1) < UInt32.size :=
    Nat.lt_of_le_of_lt (Nat.min_le_right _ _) (by decide)
  exact Nat.mod_eq_of_lt bounded

/-- Capping the distance first makes no difference to the line reached. The distance has to fit a
machine word before it is added, and the sum is capped once more; the two caps together are one. -/
theorem advance_toNat (line : LineNumber) (count : Nat) :
    (advance line count).toNat = min (line.toNat + count) (UInt32.size - 1) := by
  simp only [advance, saturating_toNat]
  omega

end LineNumber

end TemplateTokens
