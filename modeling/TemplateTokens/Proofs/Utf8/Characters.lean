import TemplateTokens.Proofs.Boundaries
import TemplateTokens.Proofs.Utf8.Decoded

/-!
# Well-formed bytes are the bytes of a text

A segment with a scalar value is found exactly where the encoding of that character stands
(`scalar?_leading_eq_some_iff`), so cutting a string from the left into segments misses no way to
read it as a sequence of characters. A string is well formed exactly if there is such a way, and
there is one at most: the text of a string is the one text that has its bytes (`text?_eq_some_iff`).

The encoding of a character is the one of the standard library, so the well-formed strings are those
that a text can have there. Only the segments of this library are proved right; nothing is said
about a decoder from outside, which enters as a verifier and by assumption.
-/

namespace TemplateTokens.Utf8

/-- A byte string begins with the encoding of a character. -/
def BeginsCharacter (bytes : Bytes) : Prop :=
  ∃ character, String.utf8EncodeChar character <+: bytes

/-- The first segment is a character exactly if the string begins with the encoding of it. The left
side decodes and the right side encodes, so this is where the two are compared. -/
theorem scalar?_leading_eq_some_iff {lead : UInt8} {rest : Bytes} {character : Char} :
    (leading lead rest).scalar? = some character ↔
      String.utf8EncodeChar character <+: lead :: rest := by
  constructor
  · intro decoded
    rw [utf8EncodeChar_of_decoded decoded, Segment.bytes, leading_lead]
    exact List.cons_prefix_cons.mpr ⟨rfl, leading_tail_isPrefix lead rest⟩
  · rintro ⟨behind, cut⟩
    obtain ⟨first, tail, encoded, decoded⟩ := leading_utf8EncodeChar character behind
    rw [encoded, List.cons_append, List.cons.injEq] at cut
    obtain ⟨rfl, rfl⟩ := cut
    rw [decoded]

/-- The first segment is faulty exactly if the string begins with no character. -/
theorem scalar?_leading_eq_none_iff {lead : UInt8} {rest : Bytes} :
    (leading lead rest).scalar? = none ↔ ¬ BeginsCharacter (lead :: rest) := by
  simp only [BeginsCharacter, ← scalar?_leading_eq_some_iff, not_exists,
    Option.eq_none_iff_forall_ne_some]

/-- Segments that are characters have the bytes that encode these characters. -/
theorem flatMap_bytes_of_mapM {bytes : Bytes} {chosen : List Segment} {characters : List Char}
    (among : ∀ segment ∈ chosen, segment ∈ segments bytes)
    (decoded : chosen.mapM Segment.scalar? = some characters) :
    characters.flatMap String.utf8EncodeChar = chosen.flatMap Segment.bytes := by
  induction chosen generalizing characters with
  | nil =>
    have none : characters = [] := by simpa [eq_comm] using decoded
    simp [none]
  | cons segment later inductionHypothesis =>
    obtain ⟨amongHere, amongLater⟩ := List.forall_mem_cons.mp among
    rw [List.mapM_cons] at decoded
    obtain ⟨character, first, decoded⟩ := Option.bind_eq_some_iff.mp decoded
    obtain ⟨others, decodedLater, same⟩ := Option.bind_eq_some_iff.mp decoded
    obtain rfl : character :: others = characters := Option.some.inj same
    obtain ⟨lead, rest, rfl⟩ := exists_leading_of_mem amongHere
    simp only [List.flatMap_cons, inductionHypothesis amongLater decodedLater,
      utf8EncodeChar_of_decoded first]

/-- The segments of a string are characters exactly if it is the encoding of these characters.
Neither a faulty segment nor a byte between two segments is left over. -/
theorem mapM_segments_eq_some_iff {bytes : Bytes} {characters : List Char} :
    (segments bytes).mapM Segment.scalar? = some characters ↔
      characters.flatMap String.utf8EncodeChar = bytes := by
  constructor
  · intro decoded
    exact (flatMap_bytes_of_mapM (fun _ member => member) decoded).trans (segments_flatten bytes)
  · rintro rfl
    induction characters with
    | nil => simp [segments]
    | cons character characters inductionHypothesis =>
      obtain ⟨segment, -, decoded, cut⟩ :=
        segments_utf8EncodeChar_append character (characters.flatMap String.utf8EncodeChar)
      rw [List.flatMap_cons, cut, List.mapM_cons, decoded, inductionHypothesis]
      rfl

/-- The text of a byte string is the one that has its bytes. So there is one text at most, and it is
found if there is one. -/
theorem text?_eq_some_iff {bytes : Bytes} {text : String} :
    text? bytes = some text ↔ ofText text = bytes := by
  simp only [text?, Option.map_eq_some_iff, mapM_segments_eq_some_iff, ofText]
  constructor
  · rintro ⟨characters, encoded, rfl⟩
    simpa using encoded
  · intro encoded
    exact ⟨text.toList, encoded, String.ofList_toList⟩

/-- Bytes are well formed throughout exactly if they are the bytes of a text. The check says nothing
of characters, and this is what it means for them. -/
theorem firstIllFormed?_eq_none_iff_exists {bytes : Bytes} :
    firstIllFormed? bytes = none ↔ ∃ text, ofText text = bytes := by
  simp only [← text?_isSome_iff, Option.isSome_iff_exists, text?_eq_some_iff]

/-- The bytes of a text are those that it is stored in. -/
theorem ofText_eq (text : String) : ofText text = text.toByteArray.data.toList := by
  have stored : text.toByteArray = text.toList.utf8Encode := by
    rw [← String.toByteArray_ofList, String.ofList_toList]
  rw [stored, List.utf8Encode, List.toList_data_toByteArray, ofText]

end TemplateTokens.Utf8
