import TemplateTokens.Piece

/-!
# The log of a scan

A scan never fails on its markers; where one is not closed it falls back on a simpler reading and
says so in the log, with the offset at which the piece in question starts. The entries follow from
the pieces alone, because each piece records its cause.

One piece can have two entries: an output that is overtaken by a tag without a closer. Where the log
begins and how it closes is left to the report of a token stream. What a reader may conclude from a
log about the source, and that no fallback is missing from it, is the subject of `Proofs.Fallbacks`.
-/

namespace TemplateTokens

/-- A reading that a scan fell back on. -/
inductive Fallback where
  /-- An output is taken for a tag. -/
  | overtakenOutput
  /-- An output has no closer. -/
  | openOutput
  /-- A tag has no closer. -/
  | openTag
  /-- A raw block has no end. -/
  | openRaw
deriving DecidableEq, Repr

namespace Fallback

/-- The text of a fallback. -/
def message : Fallback → String
  | overtakenOutput => "\x60\x7b%\x60 inside variable, rescanning as tag"
  | openOutput => "unterminated variable"
  | openTag => "unterminated tag"
  | openRaw => "unterminated raw block"

end Fallback

/-- The fallbacks behind a cause, in the order in which they were taken. -/
def Cause.fallbacks : Cause → List Fallback
  | text | tag | output | raw => []
  | openTag => [.openTag]
  | openOutput => [.openOutput]
  | overtaken _ => [.overtakenOutput]
  | overtakenOpen _ => [.overtakenOutput, .openTag]
  | openRaw => [.openRaw]

/-- An entry of the log. -/
inductive LogEntry where
  /-- Work begins on a source of the given length. -/
  | opened (length : Nat) (forLiquidTag : Bool)
  /-- A fallback was taken for the piece that starts at the given offset. -/
  | fellBack (fallback : Fallback) (start : Nat)
  /-- Work is complete, with the given number of tokens. -/
  | finished (count : Nat)
deriving DecidableEq, Repr

namespace LogEntry

/-- The entries for pieces of which the first starts at the given offset. -/
def ofPieces (start : Nat) : List Piece → List LogEntry
  | [] => []
  | piece :: pieces =>
    piece.cause.fallbacks.map (fellBack · start) ++ ofPieces (start + piece.region.length) pieces

end LogEntry

end TemplateTokens
