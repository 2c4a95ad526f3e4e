import TemplateTokens.Keyword
import TemplateTokens.Token

/-!
# The grammar of templates

A template without slips is a list of elements: text, outputs, tags and raw blocks. The grammar says
how each is written and what may stand where, without saying how a scan finds it. It is stricter
than what a scan takes: a marker that is never closed, or an output overtaken by a tag, is no
element.

Two neighbours can be written so that a reader would cut them elsewhere, and the grammar rules these
seams out. No text follows text, text in front of an element does not end with a brace that could
begin its opener, and neither the body of a tag nor that of an output runs into its closer.
-/

namespace TemplateTokens

namespace Output

/-- What stands behind a quote mark, up to and including the mark that closes the string. A
backslash takes the byte after it along. -/
inductive Quoted (mark : UInt8) : Bytes → Prop where
  /-- The string is closed. -/
  | close : Quoted mark [mark]
  /-- A backslash with the byte that it shields. -/
  | shielded {byte : UInt8} {rest : Bytes} (closes : Quoted mark rest) :
      Quoted mark (Bytes.backslash :: byte :: rest)
  /-- Any other byte. -/
  | plain {byte : UInt8} {rest : Bytes} (noMark : byte ≠ mark)
      (noBackslash : byte ≠ Bytes.backslash) (closes : Quoted mark rest) : Quoted mark (byte :: rest)

/-- The body of an output in front of `follow`, the marker with which it ends. It is made of
complete strings and of bytes outside of strings, none of which begins a closer or a tag opener. -/
inductive Body (follow : Bytes) : Bytes → Prop where
  /-- The body is complete. -/
  | done : Body follow []
  /-- A string with its marks. -/
  | string {mark : UInt8} {quoted rest : Bytes}
      (isMark : mark = Bytes.doubleQuote ∨ mark = Bytes.singleQuote) (closes : Quoted mark quoted)
      (tail : Body follow rest) : Body follow (mark :: quoted ++ rest)
  /-- A byte outside of strings. -/
  | plain {byte : UInt8} {rest : Bytes} (noDouble : byte ≠ Bytes.doubleQuote)
      (noSingle : byte ≠ Bytes.singleQuote)
      (noCloser : ¬ Bytes.outputCloser <+: byte :: (rest ++ follow))
      (noOpener : ¬ Bytes.tagOpener <+: byte :: (rest ++ follow)) (tail : Body follow rest) :
      Body follow (byte :: rest)

end Output

/-- A part of a template as an author writes it. -/
inductive Element where
  /-- Text between markers. -/
  | text (bytes : Bytes)
  /-- An output, by what stands between its markers. -/
  | output (body : Bytes)
  /-- A tag, by what stands between its markers. -/
  | tag (body : Bytes)
  /-- A raw block, by the bodies of the tags that open and end it and what stands between these. -/
  | raw (opening content closing : Bytes)
deriving DecidableEq

namespace Element

/-- A tag with its markers. -/
def tagBytes (body : Bytes) : Bytes := Bytes.tagOpener ++ (body ++ Bytes.tagCloser)

/-- An output with its markers. -/
def outputBytes (body : Bytes) : Bytes := Bytes.outputOpener ++ (body ++ Bytes.outputCloser)

/-- The bytes of an element. -/
def bytes : Element → Bytes
  | text bytes => bytes
  | output body => outputBytes body
  | tag body => tagBytes body
  | raw opening content closing => tagBytes opening ++ (content ++ tagBytes closing)

/-- The tokens of an element. A raw block has one for each of its tags and one for what stands
between them, unless that is nothing. -/
def tokens : Element → List Token
  | text bytes => [⟨bytes⟩]
  | output body => [⟨outputBytes body⟩]
  | tag body => [⟨tagBytes body⟩]
  | raw opening content closing =>
    ⟨tagBytes opening⟩ :: (if content = [] then [] else [⟨content⟩]) ++ [⟨tagBytes closing⟩]

/-- Elements written one behind the other. -/
def written (elements : List Element) : Bytes := elements.flatMap bytes

/-- Whether an element is text. -/
def isText : Element → Bool
  | text _ => true
  | _ => false

/-- A list of elements is well formed in an encoding, which decides where a keyword ends. -/
inductive WellFormed (encoding : Encoding) : List Element → Prop where
  /-- Nothing is written. -/
  | nil : WellFormed encoding []
  /-- Text has no opener in it, is not followed by text and leaves its last brace to no opener. -/
  | text {bytes : Bytes} {rest : List Element} (nonempty : bytes ≠ [])
      (noOutput : ¬ Bytes.outputOpener <:+: bytes) (noTag : ¬ Bytes.tagOpener <:+: bytes)
      (noText : ∀ next ∈ rest.head?, next.isText = false)
      (seam : rest = [] ∨ bytes.getLast? ≠ some Bytes.openBrace) (tail : WellFormed encoding rest) :
      WellFormed encoding (.text bytes :: rest)
  /-- An output ends with its first closer outside of strings. -/
  | output {body : Bytes} {rest : List Element} (complete : Output.Body Bytes.outputCloser body)
      (tail : WellFormed encoding rest) : WellFormed encoding (.output body :: rest)
  /-- A tag has no closer in it and does not open a raw block. -/
  | tag {body : Bytes} {rest : List Element} (noCloser : ¬ Bytes.tagCloser <:+: body)
      (noRaw : Keyword.raw.leads encoding (body ++ Bytes.tagCloser) = false)
      (tail : WellFormed encoding rest) : WellFormed encoding (.tag body :: rest)
  /-- A raw block is opened by a tag that leads with `raw` and ended by the first tag behind it that
  leads with `endraw`. -/
  | raw {opening content closing : Bytes} {rest : List Element}
      (noCloserInOpening : ¬ Bytes.tagCloser <:+: opening)
      (opens : Keyword.raw.leads encoding (opening ++ Bytes.tagCloser) = true)
      (noCloserInClosing : ¬ Bytes.tagCloser <:+: closing)
      (ends : Keyword.endraw.leads encoding (closing ++ Bytes.tagCloser) = true)
      (inside : ∀ before after, content = before ++ Bytes.tagOpener ++ after →
        Keyword.endraw.leads encoding (after ++ tagBytes closing ++ written rest) = false)
      (tail : WellFormed encoding rest) : WellFormed encoding (.raw opening content closing :: rest)

end Element

end TemplateTokens
