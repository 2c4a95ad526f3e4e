import TemplateTokens.Encoding

/-!
# Templates

A template is a byte string together with the encoding it is declared in. The declaration is a claim
about the bytes and not a fact: a template may be faulty in its own encoding, and `firstFault?` says
where.

Nothing is checked when a template is made. Whether its declaration is looked at, and when, is a
matter for the scan, which may come to the end without having looked. The same bytes with another
declaration are another template, and the words in it may end elsewhere.
-/

namespace TemplateTokens

/-- A byte string with its declared encoding. -/
structure Template where
  /-- The bytes of the template. -/
  bytes : Bytes
  /-- The declared encoding. -/
  encoding : Encoding
deriving DecidableEq

namespace Template

/-- Bytes declared to be UTF-8. -/
def utf8 (bytes : Bytes) : Template := { bytes, encoding := .utf8 }

/-- Bytes about whose encoding nothing is claimed. -/
def binary (bytes : Bytes) : Template := { bytes, encoding := .binary }

/-- The number of bytes. -/
def length (template : Template) : Nat := template.bytes.length

/-- The complaint about the template as a whole, or nothing if its declaration holds. -/
def check (template : Template) : Option InvalidBytes := template.encoding.check template.bytes

end Template

end TemplateTokens
