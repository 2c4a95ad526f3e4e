import TemplateTokens.Bytes

/-!
# Lines of a `liquid` tag

The body of a `liquid` tag is cut at line ends, one token per line. Empty lines count wherever a
line with something on it follows; at the end of the body they are dropped, however many there are.

A line end is a single newline byte; a carriage return in front of it stays with its line. Lines are
neither trimmed nor decoded, so a body that is faulty in its encoding has its lines as well. The
functions below say how a body is cut. What the lines of a body are, told without the cutting, is
the subject of `Proofs.BlankLines`.
-/

namespace TemplateTokens

/-- The lines without the empty ones at the end. -/
def dropEmptyEnd (lines : List Bytes) : List Bytes :=
  (lines.reverse.dropWhile List.isEmpty).reverse

/-- The lines of a byte string, without line ends and without empty lines at the end. -/
def Bytes.lines (bytes : Bytes) : List Bytes := dropEmptyEnd (bytes.splitOn newline)

end TemplateTokens
