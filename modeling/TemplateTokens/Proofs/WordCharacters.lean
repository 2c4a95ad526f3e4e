import TemplateTokens.Encoding
import TemplateTokens.Proofs.Utf8.Decoded

/-!
# Where a word goes on

The test for a word character looks at a lead byte and reads on as far as that byte asks.
`Encoding.BeginsWord` says what it tests for without reading: the bytes begin with a word character
of ASCII or, in UTF-8, with the encoding of an alphanumeric character above ASCII. Bytes that encode
no character begin no word.

The two are proved equal for every byte string and every encoding (`startsWithWord_iff`). In one
direction the bytes that are read are put together to a character, in the other the encoding of a
character is read back. What is alphanumeric is not looked into: the proof would be the same with
any other table, as long as ASCII letters and digits are settled by their bytes.
-/

namespace TemplateTokens

/-- ASCII letters, digits and the underscore are ASCII. -/
theorem Bytes.isAscii_of_word {byte : UInt8}
    (word : isAsciiAlphanumeric byte = true ∨ byte = underscore) : isAscii byte = true := by
  rcases word with word | rfl
  · simp only [isAsciiAlphanumeric, Bool.or_eq_true, Bool.and_eq_true, decide_eq_true_eq,
      UInt8.le_iff_toNat_le, UInt8.reduceToNat] at word
    simp only [isAscii, decide_eq_true_eq, UInt8.lt_iff_toNat_lt, UInt8.reduceToNat]
    omega
  · rfl

/-- A character whose first byte is not ASCII is not ASCII. Only encodings of one byte are ASCII,
and those are the numbers below 128. -/
theorem Utf8.le_toNat_of_lead {character : Char} {lead : UInt8} {tail : Bytes}
    (encoded : String.utf8EncodeChar character = lead :: tail) :
    Bytes.isAscii lead = false ↔ 0x80 ≤ character.toNat := by
  have high {value : Nat} (small : value < 256) :
      Bytes.isAscii (UInt8.ofNat value) = false ↔ 0x80 ≤ value := by
    simp [Bytes.isAscii, UInt8.le_iff_toNat_le, toNat_ofNat_of_lt small]
  have value : character.val.toNat = character.toNat := rfl
  rw [String.utf8EncodeChar, value] at encoded
  repeat' split at encoded
  all_goals
    obtain ⟨rfl, -⟩ := List.cons.inj encoded
    exact (high (by omega)).trans (by omega)

namespace Encoding

/-- A byte string begins with a word character. -/
inductive BeginsWord : Encoding → Bytes → Prop where
  /-- An ASCII letter, digit or underscore is a word character in every encoding. -/
  | ascii (encoding : Encoding) {byte : UInt8} (rest : Bytes)
      (word : Bytes.isAsciiAlphanumeric byte = true ∨ byte = Bytes.underscore) :
      BeginsWord encoding (byte :: rest)
  /-- An alphanumeric character above ASCII is a word character in UTF-8. -/
  | wide {character : Char} (rest : Bytes) (above : 0x80 ≤ character.toNat)
      (word : isAlphanumeric character = true) :
      BeginsWord .utf8 (String.utf8EncodeChar character ++ rest)

/-- The test for a word character finds what it tests for. For UTF-8 the whole first character is
looked at, and for the other encodings the first byte alone. -/
theorem startsWithWord_iff {encoding : Encoding} {bytes : Bytes} :
    encoding.startsWithWord bytes = true ↔ encoding.BeginsWord bytes := by
  constructor
  · intro starts
    cases bytes with
    | nil => simp [startsWithWord] at starts
    | cons lead rest =>
      cases ascii : Bytes.isAscii lead with
      | true =>
        simp only [startsWithWord, ascii, if_true, Bool.or_eq_true, beq_iff_eq] at starts
        exact .ascii encoding rest starts
      | false =>
        simp only [startsWithWord, ascii, Bool.false_eq_true, if_false, Bool.and_eq_true,
          beq_iff_eq, Option.any_eq_true] at starts
        obtain ⟨rfl, character, decoded, word⟩ := starts
        have encoded := Utf8.utf8EncodeChar_of_decoded decoded
        rw [Utf8.Segment.bytes, Utf8.leading_lead] at encoded
        have above := (Utf8.le_toNat_of_lead encoded).mp ascii
        obtain ⟨behind, cut⟩ := Utf8.leading_tail_isPrefix lead rest
        rw [← cut, ← List.cons_append, ← encoded]
        exact .wide behind above word
  · intro begins
    cases begins with
    | ascii _ rest word =>
      rw [startsWithWord, if_pos (Bytes.isAscii_of_word word)]
      simpa using word
    | @wide character rest above word =>
      obtain ⟨lead, tail, encoded, decoded⟩ := Utf8.leading_utf8EncodeChar character rest
      have wide := (Utf8.le_toNat_of_lead encoded).mpr above
      rw [encoded, List.cons_append, startsWithWord, wide, decoded]
      simpa using word

end Encoding

end TemplateTokens
