import TemplateTokens.Encoding

/-!
# Keywords of tag bodies

A tag body leads with a keyword if it consists of an optional dash, any number of ASCII spaces and
then the keyword as a whole word. Dash and spaces are taken greedily and never given back. Whether
the word ends there depends on the encoding of the template.

Only `raw` and `endraw` are sought, since they alone change what a scan does behind a tag; all other
names are left to the parser. The body may go on behind the tag: a tag without a closer is asked for
its keyword as well. How far a test looks into the body is settled in `Proofs.Lookahead`, and which
readings of a body it finds in `Proofs.Keywords`.
-/

namespace TemplateTokens

/-- A word that may lead a tag body. -/
structure Keyword where
  /-- The bytes of the word. -/
  name : Bytes
deriving DecidableEq

namespace Keyword

/-- The keyword `raw`, which opens a raw block. -/
def raw : Keyword := ⟨[0x72, 0x61, 0x77]⟩

/-- The keyword `endraw`, which closes a raw block. -/
def endraw : Keyword := ⟨[0x65, 0x6e, 0x64, 0x72, 0x61, 0x77]⟩

/-- The number of bytes that may stand in front of the keyword of a tag body: one dash at most, then
spaces. -/
def marginLength (body : Bytes) : Nat :=
  let dashLength := if body.head? = some Bytes.dash then 1 else 0
  dashLength + ((body.drop dashLength).takeWhile Bytes.isSpace).length

/-- The number of bytes of a tag body up to the end of its leading keyword, or nothing if it does
not lead with this keyword. -/
def leadLength? (keyword : Keyword) (encoding : Encoding) (body : Bytes) : Option Nat :=
  let margin := marginLength body
  let stop := margin + keyword.name.length
  if keyword.name.isPrefixOf (body.drop margin) && !encoding.startsWithWord (body.drop stop) then
    some stop
  else none

/-- Whether a tag body leads with the keyword. -/
def leads (keyword : Keyword) (encoding : Encoding) (body : Bytes) : Bool :=
  (keyword.leadLength? encoding body).isSome

end Keyword

end TemplateTokens
