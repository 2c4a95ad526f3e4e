import Mathlib.Order.Bounds.Defs
import TemplateTokens.Needle

/-!
# Finders

Fast searches for the first of one, two or three bytes and for the first place of a string are often
at hand, and the search for a needle can be made of them. A set of stop bytes is then searched three
bytes at a time, each group only in front of the hit of those before it, and the search for a pair
goes from one lead byte to the next.

A finder may be any function. `Finders.Leftmost` says what is asked of it.
-/

namespace TemplateTokens

/-- Searches for the first offset of one of some bytes, or of a string. -/
structure Finders where
  /-- Where a byte stands. -/
  one (byte : UInt8) (bytes : Bytes) : Option Nat
  /-- Where one of two bytes stands. -/
  two (first second : UInt8) (bytes : Bytes) : Option Nat
  /-- Where one of three bytes stands. -/
  three (first second third : UInt8) (bytes : Bytes) : Option Nat
  /-- Where a string begins. -/
  string (sought bytes : Bytes) : Option Nat

namespace Finders

/-- Finders that walk through the bytes one after the other. -/
def walking : Finders where
  one byte bytes := bytes.findIdx? [byte].contains
  two first second bytes := bytes.findIdx? [first, second].contains
  three first second third bytes := bytes.findIdx? [first, second, third].contains
  string sought bytes := firstSuffix? sought.isPrefixOf bytes

/-- The offsets at which one of some bytes stands. -/
def placesOf (sought bytes : Bytes) : Set Nat :=
  {offset | ∃ byte ∈ sought, bytes[offset]? = some byte}

/-- Finders that find what they look for wherever it is, and the leftmost of several. -/
structure Leftmost (finders : Finders) : Prop where
  /-- The first place of a byte is found. -/
  one (byte : UInt8) (bytes : Bytes) (offset : Nat) :
    finders.one byte bytes = some offset ↔ IsLeast (placesOf [byte] bytes) offset
  /-- The first place of two bytes is found. -/
  two (first second : UInt8) (bytes : Bytes) (offset : Nat) :
    finders.two first second bytes = some offset ↔ IsLeast (placesOf [first, second] bytes) offset
  /-- The first place of three bytes is found. -/
  three (first second third : UInt8) (bytes : Bytes) (offset : Nat) :
    finders.three first second third bytes = some offset ↔
      IsLeast (placesOf [first, second, third] bytes) offset
  /-- The first place of a string is found. The empty string stands everywhere. -/
  string (sought bytes : Bytes) (offset : Nat) :
    finders.string sought bytes = some offset ↔
      IsLeast {place | place ≤ bytes.length ∧ sought <+: bytes.drop place} offset

variable (finders : Finders)

/-- The offset of the first byte that belongs to a set, with the set searched three bytes at a time
and each later group only in front of the hit of the earlier ones. -/
def stopOffset? : Bytes → Bytes → Option Nat
  | [], _ => none
  | [first], bytes => finders.one first bytes
  | [first, second], bytes => finders.two first second bytes
  | [first, second, third], bytes => finders.three first second third bytes
  | first :: second :: third :: others, bytes =>
    let primary := finders.three first second third bytes
    earlier? primary (stopOffset? others (bytes.take (primary.getD bytes.length)))

/-- The offset of the first lead byte with a member of a set right after it, sought from lead byte
to lead byte, with as many bytes passed as `offset` says. -/
def pairOffsetFrom? (lead : UInt8) (follow : Bytes) (offset : Nat) (bytes : Bytes) : Option Nat :=
  if offset < bytes.length then
    match finders.one lead (bytes.drop offset) with
    | none => none
    | some distance =>
      let place := offset + distance
      if bytes[place + 1]?.any follow.contains then some place
      else pairOffsetFrom? lead follow (place + 1) bytes
  else none
termination_by bytes.length - offset

/-- The match of a needle that is found first. -/
def find? (needle : Needle) (bytes : Bytes) : Option Hit :=
  match needle with
  | .byte value => (finders.one value bytes).map (⟨·, 1⟩)
  | .literal sought => (finders.string sought bytes).map (⟨·, sought.length⟩)
  | .anyOf stops => (finders.stopOffset? stops bytes).map (⟨·, 1⟩)
  | .pair lead follow => (finders.pairOffsetFrom? lead follow 0 bytes).map (⟨·, 2⟩)

end Finders

end TemplateTokens
