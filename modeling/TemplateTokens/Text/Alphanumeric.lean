import TemplateTokens.Text.Alphanumeric.Ranges

/-!
# Alphanumeric characters

Whether a character is a letter or a number anywhere in Unicode. The answer is looked up by halving
the table of ranges, which is in ascending order; each probe leaves a window that is strictly
smaller, and every probe lies inside the table.

Of the table only the order matters to the lookup; the ranges themselves are data and have a module
of their own. A question can only be asked about a character, so surrogates and numbers above the
last code point need no answer.
-/

namespace TemplateTokens

namespace Alphanumeric

/-- Whether some range in the window from `low` up to `high` of the table holds the code point. -/
def covered (codePoint low high : Nat) (inTable : high ≤ ranges.size) : Bool :=
  if nonempty : low < high then
    let middle := low + (high - low) / 2
    have probe : middle < ranges.size := by omega
    if codePoint < ranges[middle].1 then covered codePoint low middle (by omega)
    else if ranges[middle].2 < codePoint then covered codePoint (middle + 1) high inTable
    else true
  else false
termination_by high - low

end Alphanumeric

/-- Whether a character is alphabetic or numeric. -/
def isAlphanumeric (character : Char) : Bool :=
  Alphanumeric.covered character.toNat 0 Alphanumeric.ranges.size (Nat.le_refl _)

end TemplateTokens
