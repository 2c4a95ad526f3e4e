import TemplateTokens.Encoding

/-!
# Runs of word characters

The word characters of an encoding as ranges of code points. Surrogates are no characters and belong
to no run.

The runs are put together in one pass over the code points in ascending order: a code point
lengthens the highest run so far or begins a new one. They are the maximal runs of word characters
within the bounds that are asked for, which is shown in `Proofs.WordRuns`. The bounds may lie above
the last code point, where there is nothing to find.
-/

namespace TemplateTokens

/-- A closed range of code points. -/
structure CodePointRun where
  /-- The first code point of the run. -/
  first : Nat
  /-- The last code point of the run. -/
  last : Nat
deriving DecidableEq

namespace CodePointRun

/-- Adds a code point above all others to runs listed from the highest down: it lengthens the
highest run if it is adjacent, and begins a run of its own otherwise. -/
def extend (runs : List CodePointRun) (codePoint : Nat) : List CodePointRun :=
  match runs with
  | run :: lower =>
    if run.last + 1 = codePoint then { run with last := codePoint } :: lower
    else ⟨codePoint, codePoint⟩ :: runs
  | [] => [⟨codePoint, codePoint⟩]

end CodePointRun

/-- The maximal runs of word characters among the code points from `low` to `high`, ends included,
in ascending order. -/
def Encoding.wordRuns (encoding : Encoding) (low high : Nat) : List CodePointRun :=
  let codePoints := List.range' low (min high 0x10ffff + 1 - low)
  ((codePoints.filter encoding.isWordCodePoint).foldl CodePointRun.extend []).reverse

end TemplateTokens
