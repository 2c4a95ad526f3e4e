import TemplateTokens.Bytes

/-!
# UTF-8

A byte string is read as a sequence of segments. A segment is either one well-formed character,
carrying its scalar value, or a maximal ill-formed subpart: a byte that starts no character, or a
truncated character with as many of its bytes as are in place. Segments never overlap and together
are the whole string (`segments_flatten`), so validity, the place of the first fault and the
replacement text are all read off the same list.

The table of lead bytes is the one of well-formed byte sequences in the Unicode standard: it
restricts the byte after the lead so that overlong forms, surrogates and values above the last code
point have no well-formed reading.
-/

namespace TemplateTokens.Utf8

/-- A closed range of bytes. -/
structure ByteRange where
  /-- The least byte of the range. -/
  low : UInt8
  /-- The greatest byte of the range. -/
  high : UInt8
deriving DecidableEq

/-- Whether a byte lies in the range, ends included. -/
def ByteRange.contains (range : ByteRange) (byte : UInt8) : Bool :=
  range.low ≤ byte && byte ≤ range.high

/-- The bytes that continue a character, where the lead byte restricts them no further. -/
def continuation : ByteRange := ⟨0x80, 0xbf⟩

/-- The ranges in which the bytes after a lead byte must lie, one range per byte. A byte that
starts no character has none. -/
def followers? (lead : UInt8) : Option (List ByteRange) :=
  if lead ≤ 0x7f then some []
  else if lead < 0xc2 then none
  else if lead ≤ 0xdf then some [continuation]
  else if lead = 0xe0 then some [⟨0xa0, 0xbf⟩, continuation]
  else if lead = 0xed then some [⟨0x80, 0x9f⟩, continuation]
  else if lead ≤ 0xef then some [continuation, continuation]
  else if lead = 0xf0 then some [⟨0x90, 0xbf⟩, continuation, continuation]
  else if lead ≤ 0xf3 then some [continuation, continuation, continuation]
  else if lead = 0xf4 then some [⟨0x80, 0x8f⟩, continuation, continuation]
  else none

/-- The longest run of bytes at the front that fits the ranges, byte by byte. -/
def fitting : List ByteRange → Bytes → Bytes
  | range :: ranges, byte :: rest => if range.contains byte then byte :: fitting ranges rest else []
  | _, _ => []

/-- The scalar value that a lead byte and its continuation bytes spell. The lead byte of a longer
character gives up one more of its bits for each byte that follows; a continuation byte holds
six. -/
def scalarValue (lead : UInt8) (tail : Bytes) : Nat :=
  let payload := if tail.isEmpty then lead.toNat else lead.toNat % (1 <<< (6 - tail.length))
  tail.foldl (fun value byte => value * 64 + byte.toNat % 64) payload

/-- One well-formed character or one maximal ill-formed subpart. -/
structure Segment where
  /-- The first byte. -/
  lead : UInt8
  /-- The bytes after the first. -/
  tail : Bytes
  /-- The character that a well-formed segment encodes. -/
  scalar? : Option Char
deriving DecidableEq

namespace Segment

/-- The bytes of a segment. -/
def bytes (segment : Segment) : Bytes := segment.lead :: segment.tail

/-- Whether the segment is a character. -/
def isWellFormed (segment : Segment) : Bool := segment.scalar?.isSome

/-- The text shown for a segment: its character, or the replacement character. -/
def shown (segment : Segment) : Char := segment.scalar?.getD '\uFFFD'

end Segment

/-- The segment at the front of a nonempty byte string. -/
def leading (lead : UInt8) (rest : Bytes) : Segment :=
  match followers? lead with
  | none => { lead, tail := [], scalar? := none }
  | some ranges =>
    let tail := fitting ranges rest
    let scalar? := if tail.length = ranges.length then some (Char.ofNat (scalarValue lead tail)) else none
    { lead, tail, scalar? }

/-- A byte string as its sequence of segments. -/
def segments : Bytes → List Segment
  | [] => []
  | lead :: rest =>
    let segment := leading lead rest
    segment :: segments (rest.drop segment.tail.length)
termination_by bytes => bytes.length
decreasing_by
  simp only [List.length_drop, List.length_cons]
  omega

/-- The length of the longest well-formed run at the front of a byte string. -/
def wellFormedLength (bytes : Bytes) : Nat :=
  (((segments bytes).takeWhile Segment.isWellFormed).flatMap Segment.bytes).length

/-- The offset of the first ill-formed segment, or nothing for well-formed text. -/
def firstIllFormed? (bytes : Bytes) : Option Nat :=
  if wellFormedLength bytes = bytes.length then none else some (wellFormedLength bytes)

/-- The text that a byte string encodes, if it is well formed throughout. -/
def text? (bytes : Bytes) : Option String :=
  ((segments bytes).mapM Segment.scalar?).map String.ofList

/-- A byte string as text, with one replacement character for each maximal ill-formed subpart. -/
def lossyText (bytes : Bytes) : String :=
  String.ofList ((segments bytes).map Segment.shown)

/-- The bytes of a text. -/
def ofText (text : String) : Bytes := text.toList.flatMap String.utf8EncodeChar

/-- The fitting run is taken from the front of the string. -/
theorem fitting_isPrefix (ranges : List ByteRange) (bytes : Bytes) :
    fitting ranges bytes <+: bytes := by
  induction ranges generalizing bytes with
  | nil => simp [fitting]
  | cons range ranges inductionHypothesis =>
    cases bytes with
    | nil => simp [fitting]
    | cons byte rest =>
      simp only [fitting]
      split
      · exact List.prefix_cons_inj byte |>.mpr (inductionHypothesis rest)
      · exact List.nil_prefix

/-- The first segment begins with the lead byte. -/
@[simp] theorem leading_lead (lead : UInt8) (rest : Bytes) : (leading lead rest).lead = lead := by
  unfold leading
  split <;> rfl

/-- The bytes after the lead are taken from the front of what follows it. Only the lead byte is
always taken; what else belongs to the segment depends on what that byte asks for. -/
theorem leading_tail_isPrefix (lead : UInt8) (rest : Bytes) : (leading lead rest).tail <+: rest := by
  unfold leading
  split
  · exact List.nil_prefix
  · exact fitting_isPrefix _ rest

/-- Segments neither lose, repeat nor reorder bytes. Faulty bytes are in segments of their own, so
this holds of every byte string and not of well-formed ones alone. -/
theorem segments_flatten (bytes : Bytes) : (segments bytes).flatMap Segment.bytes = bytes := by
  induction bytes using segments.induct with
  | case1 => simp [segments]
  | case2 lead rest segment inductionHypothesis =>
    rw [segments]
    simp only [List.flatMap_cons, Segment.bytes, leading_lead, List.cons_append]
    rw [inductionHypothesis]
    exact congrArg (lead :: ·) (List.prefix_iff_eq_append.mp (leading_tail_isPrefix lead rest))

end TemplateTokens.Utf8
