import TemplateTokens.Text.Utf8
import TemplateTokens.Text.Alphanumeric

/-!
# Encodings

The encoding that a template declares decides two things: which byte strings are sound, and which
bytes begin a word character. Soundness is reported by the offset of the first fault. The test for a
word character decodes one character at most and never looks past it.

UTF-8 is the only one of the encodings with characters beyond ASCII. In US-ASCII a byte above `0x7f`
is a fault, in ASCII-8BIT nothing is, and in neither of them does such a byte belong to a word. The
test for a word character is stated by its reading of the first bytes; that it agrees with the
characters of a text is the subject of `Proofs.WordStarts`.
-/

namespace TemplateTokens

/-- The encodings in which a template can be declared. -/
inductive Encoding where
  /-- Unicode text in UTF-8. -/
  | utf8
  /-- Seven-bit text; a byte above `0x7f` is a fault. -/
  | ascii
  /-- Opaque bytes; nothing is a fault. -/
  | binary
deriving DecidableEq, Repr

/-- A template that declares nothing is UTF-8. -/
instance : Inhabited Encoding := ⟨.utf8⟩

/-- A byte that its declared encoding does not allow. -/
structure InvalidBytes where
  /-- The encoding that was declared. -/
  encoding : Encoding
  /-- The offset of the first fault. -/
  offset : Nat
deriving DecidableEq, Repr

namespace Encoding

/-- The registered name of an encoding. -/
def name : Encoding → String
  | utf8 => "UTF-8"
  | ascii => "US-ASCII"
  | binary => "ASCII-8BIT"

/-- The offset of the first fault, or nothing for a sound byte string. -/
def firstFault? : Encoding → Bytes → Option Nat
  | utf8, bytes => Utf8.firstIllFormed? bytes
  | ascii, bytes => bytes.findIdx? (fun byte => !Bytes.isAscii byte)
  | binary, _ => none

/-- The complaint about a byte string, or nothing if it is sound. -/
def check (encoding : Encoding) (bytes : Bytes) : Option InvalidBytes :=
  (encoding.firstFault? bytes).map fun offset => { encoding, offset }

/-- Whether a byte string begins with a word character: an ASCII letter, digit or underscore, or, in
UTF-8, a well-formed alphanumeric character. -/
def startsWithWord (encoding : Encoding) : Bytes → Bool
  | [] => false
  | lead :: rest =>
    if Bytes.isAscii lead then Bytes.isAsciiAlphanumeric lead || lead == Bytes.underscore
    else encoding == .utf8 && (Utf8.leading lead rest).scalar?.any isAlphanumeric

/-- Whether a code point is a scalar value whose UTF-8 form begins with a word character. -/
def isWordCodePoint (encoding : Encoding) (codePoint : Nat) : Bool :=
  decide codePoint.isValidChar &&
    encoding.startsWithWord (String.utf8EncodeChar (Char.ofNat codePoint))

end Encoding

namespace InvalidBytes

/-- The text of the complaint. -/
def message (invalid : InvalidBytes) : String :=
  "Invalid byte sequence in " ++ invalid.encoding.name

/-- The same complaint about a string in which the faulty one starts `distance` bytes later. -/
def shift (invalid : InvalidBytes) (distance : Nat) : InvalidBytes :=
  { invalid with offset := distance + invalid.offset }

end InvalidBytes

end TemplateTokens
