import TemplateTokens.Bytes

/-!
# Escaped bytes

A byte string written as printable ASCII between double quotes. Tab, carriage return, newline, both
quotes and the backslash have two-character escapes; the remaining printable bytes stand for
themselves; every other byte becomes `\x` and two lower-case hexadecimal digits. No two bytes share
an escape, so the text determines the bytes.

The bytes are not decoded. A character beyond ASCII is written byte by byte whether it is well
formed or not, so a faulty string has a description like any other and nothing in it is replaced.
-/

namespace TemplateTokens.Escaped

/-- The characters that stand for one byte. -/
def byte (value : UInt8) : List Char :=
  if value = 0x09 then ['\\', 't']
  else if value = 0x0d then ['\\', 'r']
  else if value = 0x0a then ['\\', 'n']
  else if value = Bytes.singleQuote then ['\\', '\'']
  else if value = Bytes.doubleQuote then ['\\', '"']
  else if value = Bytes.backslash then ['\\', '\\']
  else if 0x20 ≤ value && value ≤ 0x7e then [Char.ofNat value.toNat]
  else ['\\', 'x', Nat.digitChar (value.toNat / 16), Nat.digitChar (value.toNat % 16)]

/-- The escapes of a byte string, in order. -/
def text (bytes : Bytes) : String := String.ofList (bytes.flatMap byte)

/-- A byte string between double quotes. -/
def quoted (bytes : Bytes) : String := "\"" ++ text bytes ++ "\""

end TemplateTokens.Escaped
