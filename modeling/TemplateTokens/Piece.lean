import TemplateTokens.Keyword
import TemplateTokens.Needle
import TemplateTokens.Output
import TemplateTokens.Token

/-!
# Pieces

A template falls into pieces, each of which becomes one token. A piece keeps the region of the
template that it takes up beside the token made of it, because the two can differ: a marker that is
never closed becomes a token of two bytes, and an output overtaken by a tag becomes a token that is
cut as if the tag had been opened where the output was.

The functions below carve one piece off the front of the bytes that remain. They look at nothing
else, so a piece does not depend on what precedes it.
-/

namespace TemplateTokens

/-- Why a piece became what it is. -/
inductive Cause where
  /-- Text between markers. -/
  | text
  /-- A tag with its closer. -/
  | tag
  /-- A tag without a closer. -/
  | openTag
  /-- An output with its closer. -/
  | output
  /-- An output without a closer. -/
  | openOutput
  /-- An output overtaken by a tag with a closer. The tag opener stands `distance` bytes behind the
  opener of the output. -/
  | overtaken (distance : Nat)
  /-- An output overtaken by a tag without a closer, at the same distance. -/
  | overtakenOpen (distance : Nat)
  /-- The content of a raw block that is ended. -/
  | raw
  /-- The content of a raw block that is never ended. -/
  | openRaw
deriving DecidableEq, Repr

/-- A part of a template that becomes one token. -/
structure Piece where
  /-- Why the piece became what it is. -/
  cause : Cause
  /-- The bytes of the template that the piece takes up. -/
  region : Bytes
  /-- The token made of the piece. -/
  token : Token
deriving DecidableEq

namespace Piece

/-- A piece whose token is the whole of its region. -/
def whole (cause : Cause) (region : Bytes) : Piece := { cause, region, token := ⟨region⟩ }

/-- The text at the front of `bytes`, up to the next opener. -/
def ofText (bytes : Bytes) : Piece :=
  match (Needle.pair Bytes.openBrace [Bytes.openBrace, Bytes.percent]).find? bytes with
  | some hit => whole .text (bytes.take hit.offset)
  | none => whole .text bytes

/-- The tag whose token starts where `bytes` does and whose closer is sought behind the first
`passed` bytes. The token has as many bytes as lie between there and the end of the closer, and two
more for an opener; that is all of the region if the opener is the first two bytes. Without a closer
the token is a bare opener, and only the bytes passed are taken up. -/
def ofTag (closed unclosed : Cause) (bytes : Bytes) (passed : Nat) : Piece :=
  match (Needle.literal Bytes.tagCloser).find? (bytes.drop passed) with
  | some hit =>
    { cause := closed
      region := bytes.take (passed + hit.stop)
      token := ⟨bytes.take (hit.stop + 2)⟩ }
  | none => { cause := unclosed, region := bytes.take passed, token := ⟨Bytes.tagOpener⟩ }

/-- The output whose opener is the first two bytes. Without a closer it takes up all that is left
and its token is a bare opener. -/
def ofOutput (bytes : Bytes) : Piece :=
  match Output.ending (bytes.drop 2) with
  | .closed length => whole .output (bytes.take (length + 2))
  | .overtaken length => ofTag (.overtaken length) (.overtakenOpen length) bytes (length + 2)
  | .missing => { cause := .openOutput, region := bytes, token := ⟨Bytes.outputOpener⟩ }

/-- The offset of the tag that ends a raw block, sought from opener to opener, where `passed` bytes
of the content have been passed already. -/
def rawLengthFrom? (encoding : Encoding) (passed : Nat) (content : Bytes) : Option Nat :=
  match _found : (Needle.literal Bytes.tagOpener).find? content with
  | none => none
  | some hit =>
    let body := content.drop hit.stop
    if Keyword.endraw.leads encoding body then some (passed + hit.offset)
    else rawLengthFrom? encoding (passed + hit.stop) body
termination_by content.length
decreasing_by
  have bounds := Needle.literal_stop_le _found
  simp only [Hit.stop, List.length_cons, List.length_nil, List.length_drop] at bounds ⊢
  omega

/-- The number of bytes in front of the tag that ends a raw block, or nothing if no tag does. -/
def rawLength? (encoding : Encoding) (content : Bytes) : Option Nat :=
  rawLengthFrom? encoding 0 content

end Piece

end TemplateTokens
