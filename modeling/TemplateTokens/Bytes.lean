/-!
# Bytes

A template is a string of bytes, so that input in any encoding, sound or not, has a place. This
module names the bytes to which the template syntax gives a meaning, the markers built from them,
and the two ASCII classes that the rest of the library consults.

Lengths and offsets are natural numbers, here and everywhere but under `Guarded`, where they have to
fit in machine words. A span is given by its start and its stop. Bytes that it asks for behind the
end of the string are simply missing from it, and two adjacent spans join to the span that covers
both.
-/

namespace TemplateTokens

/-- A string of bytes, first byte first. -/
abbrev Bytes := List UInt8

namespace Bytes

/-- The byte that ends a line. -/
abbrev newline : UInt8 := 0x0a

/-- The byte `"`, which delimits a string inside an output. -/
abbrev doubleQuote : UInt8 := 0x22

/-- The byte `%`, the inner half of both tag markers. -/
abbrev percent : UInt8 := 0x25

/-- The byte `'`, which delimits a string inside an output. -/
abbrev singleQuote : UInt8 := 0x27

/-- The byte `-`, which may stand first in a tag body. -/
abbrev dash : UInt8 := 0x2d

/-- The byte `\`, which shields the byte after it inside a string. -/
abbrev backslash : UInt8 := 0x5c

/-- The byte `_`, a word character in every encoding. -/
abbrev underscore : UInt8 := 0x5f

/-- The opening brace, first byte of every opener. -/
abbrev openBrace : UInt8 := 0x7b

/-- The closing brace, last byte of every closer. -/
abbrev closeBrace : UInt8 := 0x7d

/-- The marker that opens a tag. -/
abbrev tagOpener : Bytes := [openBrace, percent]

/-- The marker that closes a tag. -/
abbrev tagCloser : Bytes := [percent, closeBrace]

/-- The marker that opens an output. -/
abbrev outputOpener : Bytes := [openBrace, openBrace]

/-- The marker that closes an output. -/
abbrev outputCloser : Bytes := [closeBrace, closeBrace]

/-- The bytes of the six ASCII space characters: space, tab, newline, vertical tab, form feed and
carriage return. -/
def isSpace (byte : UInt8) : Bool :=
  byte == 0x20 || (0x09 ≤ byte && byte ≤ 0x0d)

/-- The bytes below `0x80`. -/
def isAscii (byte : UInt8) : Bool := byte < 0x80

/-- The bytes of the ASCII digits and letters. -/
def isAsciiAlphanumeric (byte : UInt8) : Bool :=
  (0x30 ≤ byte && byte ≤ 0x39) || (0x41 ≤ byte && byte ≤ 0x5a) || (0x61 ≤ byte && byte ≤ 0x7a)

/-- The number of line ends in a byte string. -/
def newlineCount (bytes : Bytes) : Nat := bytes.count newline

/-- The bytes from offset `start` up to offset `stop`, both cut back to the length of the string.
A `stop` before `start` yields nothing. -/
def slice (bytes : Bytes) (start stop : Nat) : Bytes := (bytes.drop start).take (stop - start)

@[simp] theorem newlineCount_nil : newlineCount [] = 0 := rfl

@[simp] theorem newlineCount_append (left right : Bytes) :
    newlineCount (left ++ right) = newlineCount left + newlineCount right :=
  List.count_append

/-- A slice ends where it is asked to end, or with the string. So a slice that starts behind its
end, or behind the string, is empty and not an error. -/
theorem length_slice (bytes : Bytes) (start stop : Nat) :
    (bytes.slice start stop).length = min stop bytes.length - start := by
  simp only [slice, List.length_take, List.length_drop]
  omega

/-- Adjacent slices join, whether or not their ends lie inside the string. Both sides are cut short
at the same place, so the ends need not be compared with the length. -/
theorem slice_append_slice (bytes : Bytes) {start middle stop : Nat}
    (startLeMiddle : start ≤ middle) (middleLeStop : middle ≤ stop) :
    bytes.slice start middle ++ bytes.slice middle stop = bytes.slice start stop := by
  have split : stop - start = (middle - start) + (stop - middle) := by omega
  have resumed : start + (middle - start) = middle := by omega
  rw [slice, slice, slice, split, List.take_add, List.drop_drop, resumed]

end Bytes

end TemplateTokens
