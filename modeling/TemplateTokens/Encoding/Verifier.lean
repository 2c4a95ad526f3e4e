import TemplateTokens.Cursor

/-!
# Verifiers

A fast check of UTF-8 is often at hand, and the check of an encoding can be made with it. What such
a verifier finds is the number of bytes in front of the first fault. It may be any function;
`Verifier.Agrees` says what is asked of it.

Nothing is said of how a verifier finds a fault. US-ASCII and ASCII-8BIT are checked without one,
and so a verifier that agrees makes no difference to any check, be it of a byte string or of the
span of a cursor. The functions that are used by a scan take no verifier; those of this module are
compared with them.
-/

namespace TemplateTokens

/-- Tells of a byte string how many bytes are well-formed UTF-8 in front of the first fault, or
nothing if there is no fault. -/
abbrev Verifier := Bytes → Option Nat

/-- A verifier finds the first segment that is not well formed. -/
def Verifier.Agrees (verifier : Verifier) : Prop :=
  ∀ bytes, verifier bytes = Utf8.firstIllFormed? bytes

namespace Encoding

/-- The offset of the first fault, found in UTF-8 by a verifier. -/
def firstFaultBy? (verifier : Verifier) : Encoding → Bytes → Option Nat
  | utf8, bytes => verifier bytes
  | ascii, bytes => bytes.findIdx? (fun byte => !Bytes.isAscii byte)
  | binary, _ => none

/-- The complaint about a byte string, found in UTF-8 by a verifier. -/
def checkBy (verifier : Verifier) (encoding : Encoding) (bytes : Bytes) : Option InvalidBytes :=
  (encoding.firstFaultBy? verifier bytes).map fun offset => { encoding, offset }

end Encoding

/-- Checks the bytes from `start` to `stop` against the declared encoding, in UTF-8 by a verifier. A
complaint gives the offset in the template and not in the span. -/
def Cursor.checkBy (verifier : Verifier) (cursor : Cursor) (start stop : Nat) :
    Except Breach (Option InvalidBytes) :=
  (cursor.slice start stop).map fun span =>
    (cursor.template.encoding.checkBy verifier span).map (·.shift start)

end TemplateTokens
