import Mathlib.Data.List.Forall2
import TemplateTokens.Proofs.Utf8

/-!
# Decoded characters are encoded by their own bytes

A segment with a scalar value has exactly the bytes that encode it (`utf8EncodeChar_of_decoded`).
`IsSequence` is the table of well-formed byte sequences that lies between the two: what a lead byte
asks for makes a sequence, and a sequence encodes what it spells. The restrictions on the second
byte are what makes this true: without them a longer sequence of bytes would spell a character that
needs fewer, or no character at all.

The sequences are told by the numbers of their bytes, so that the arithmetic of the encoding is done
once for each length and by linear arithmetic throughout. The converse, that the encoding of a
character is decoded to it, has its own proof and is not needed here.
-/

namespace TemplateTokens.Utf8

/-- A code point that is a character keeps its number. -/
theorem val_ofNat {code : Nat} (valid : code.isValidChar) : (Char.ofNat code).val.toNat = code := by
  rw [Char.ofNat, dif_pos valid]
  rfl

/-- The byte of a number is the one that has it. -/
theorem ofNat_eq_of_toNat (byte : UInt8) {value : Nat} (same : byte.toNat = value) :
    UInt8.ofNat value = byte := by
  rw [← same, UInt8.ofNat_toNat]

/-- A run that has all the bytes it asks for fits its ranges byte by byte. A run that breaks off
fits too, but has fewer bytes than ranges. -/
theorem forall₂_fitting {ranges : List ByteRange} {bytes : Bytes}
    (complete : (fitting ranges bytes).length = ranges.length) :
    List.Forall₂ (fun range byte => range.contains byte = true) ranges (fitting ranges bytes) := by
  induction ranges generalizing bytes with
  | nil => exact List.length_eq_zero_iff.mp complete ▸ .nil
  | cons range ranges inductionHypothesis =>
    cases bytes with
    | nil => simp [fitting] at complete
    | cons byte rest =>
      cases fits : range.contains byte with
      | false => simp [fitting, fits] at complete
      | true =>
        simp only [fitting, fits, if_true, List.length_cons, Nat.add_right_cancel_iff] at complete ⊢
        exact .cons fits (inductionHypothesis complete)

/-- A byte continues a character that has begun. -/
def Continues (byte : UInt8) : Prop := 0x80 ≤ byte.toNat ∧ byte.toNat ≤ 0xbf
deriving Decidable

/-- A well-formed byte sequence, by its number of bytes. -/
inductive IsSequence : Bytes → Prop where
  /-- An ASCII byte is a sequence of its own. -/
  | one {lead : UInt8} (bounds : lead.toNat ≤ 0x7f) : IsSequence [lead]
  /-- The lead bytes `0xc0` and `0xc1` are left out, because one byte would do. -/
  | two {lead second : UInt8} (bounds : 0xc2 ≤ lead.toNat ∧ lead.toNat ≤ 0xdf)
      (continues : Continues second) : IsSequence [lead, second]
  /-- The second byte begins neither what two bytes could spell nor a surrogate. -/
  | three {lead second third : UInt8} (bounds : 0xe0 ≤ lead.toNat ∧ lead.toNat ≤ 0xef)
      (continues : Continues second) (notOverlong : lead.toNat = 0xe0 → 0xa0 ≤ second.toNat)
      (notSurrogate : lead.toNat = 0xed → second.toNat ≤ 0x9f) (further : Continues third) :
      IsSequence [lead, second, third]
  /-- The second byte begins neither what three bytes could spell nor what is no code point. -/
  | four {lead second third fourth : UInt8} (bounds : 0xf0 ≤ lead.toNat ∧ lead.toNat ≤ 0xf4)
      (continues : Continues second) (notOverlong : lead.toNat = 0xf0 → 0x90 ≤ second.toNat)
      (notBeyond : lead.toNat = 0xf4 → second.toNat ≤ 0x8f) (further : Continues third)
      (last : Continues fourth) : IsSequence [lead, second, third, fourth]

/-- What a lead byte asks for, by the number of bytes of its character. The ranges for three and
four bytes are narrower for some lead bytes, which is how overlong encodings and surrogates are kept
out. -/
theorem followers?_cases {lead : UInt8} {ranges : List ByteRange}
    (asked : followers? lead = some ranges) :
    (lead.toNat ≤ 0x7f ∧ ranges = []) ∨
    ((0xc2 ≤ lead.toNat ∧ lead.toNat ≤ 0xdf) ∧ ranges = [continuation]) ∨
    ((0xe0 ≤ lead.toNat ∧ lead.toNat ≤ 0xef) ∧ ∃ range, ranges = [range, continuation] ∧
      (0x80 ≤ range.low.toNat ∧ range.high.toNat ≤ 0xbf) ∧
      (lead.toNat = 0xe0 → 0xa0 ≤ range.low.toNat) ∧
      (lead.toNat = 0xed → range.high.toNat ≤ 0x9f)) ∨
    (0xf0 ≤ lead.toNat ∧ lead.toNat ≤ 0xf4) ∧
      ∃ range, ranges = [range, continuation, continuation] ∧
        (0x80 ≤ range.low.toNat ∧ range.high.toNat ≤ 0xbf) ∧
        (lead.toNat = 0xf0 → 0x90 ≤ range.low.toNat) ∧
        (lead.toNat = 0xf4 → range.high.toNat ≤ 0x8f) := by
  simp only [followers?, UInt8.le_iff_toNat_le, UInt8.lt_iff_toNat_lt, ← UInt8.toNat_inj,
    UInt8.reduceToNat] at asked
  repeat' split at asked
  all_goals cases asked
  all_goals simp [continuation]
  all_goals omega

/-- A byte in the continuation range continues a character. -/
theorem continues_of_continuation {byte : UInt8} (fits : continuation.contains byte = true) :
    Continues byte :=
  ByteRange.contains_iff.mp fits

/-- An ASCII byte spells a character that it encodes. -/
theorem utf8EncodeChar_one {lead : UInt8} (high : lead.toNat ≤ 0x7f) :
    String.utf8EncodeChar (Char.ofNat (scalarValue lead [])) = [lead] := by
  have value : scalarValue lead [] = lead.toNat := rfl
  have valid : lead.toNat.isValidChar := .inl (by omega)
  rw [String.utf8EncodeChar, value, val_ofNat valid, if_pos (by omega),
    UInt8.ofNat_toNat]

/-- Two bytes spell a character that they encode. -/
theorem utf8EncodeChar_two {lead second : UInt8} (bounds : 0xc2 ≤ lead.toNat ∧ lead.toNat ≤ 0xdf)
    (continues : 0x80 ≤ second.toNat ∧ second.toNat ≤ 0xbf) :
    String.utf8EncodeChar (Char.ofNat (scalarValue lead [second])) = [lead, second] := by
  obtain ⟨code, value⟩ : ∃ code, code = lead.toNat % 32 * 64 + second.toNat % 64 := ⟨_, rfl⟩
  have spelled : scalarValue lead [second] = code := value.symm
  have valid : code.isValidChar := .inl (by omega)
  rw [String.utf8EncodeChar, spelled, val_ofNat valid, if_neg (by omega), if_pos (by omega),
    ofNat_eq_of_toNat lead (by omega), ofNat_eq_of_toNat second (by omega)]

/-- Three bytes spell a character that they encode, unless two would do or it is a surrogate. -/
theorem utf8EncodeChar_three {lead second third : UInt8}
    (bounds : 0xe0 ≤ lead.toNat ∧ lead.toNat ≤ 0xef)
    (continues : 0x80 ≤ second.toNat ∧ second.toNat ≤ 0xbf)
    (notOverlong : lead.toNat = 0xe0 → 0xa0 ≤ second.toNat)
    (notSurrogate : lead.toNat = 0xed → second.toNat ≤ 0x9f)
    (continuesFurther : 0x80 ≤ third.toNat ∧ third.toNat ≤ 0xbf) :
    String.utf8EncodeChar (Char.ofNat (scalarValue lead [second, third])) =
      [lead, second, third] := by
  obtain ⟨code, value⟩ : ∃ code, code =
      (lead.toNat % 16 * 64 + second.toNat % 64) * 64 + third.toNat % 64 := ⟨_, rfl⟩
  have spelled : scalarValue lead [second, third] = code := value.symm
  have valid : code < 0xd800 ∨ 0xdfff < code ∧ code < 0x110000 := by omega
  rw [String.utf8EncodeChar, spelled, val_ofNat valid, if_neg (by omega), if_neg (by omega),
    if_pos (by omega), ofNat_eq_of_toNat lead (by omega), ofNat_eq_of_toNat second (by omega),
    ofNat_eq_of_toNat third (by omega)]

/-- Four bytes spell a character that they encode, unless three would do or it lies above the last
code point. -/
theorem utf8EncodeChar_four {lead second third fourth : UInt8}
    (bounds : 0xf0 ≤ lead.toNat ∧ lead.toNat ≤ 0xf4)
    (continues : 0x80 ≤ second.toNat ∧ second.toNat ≤ 0xbf)
    (notOverlong : lead.toNat = 0xf0 → 0x90 ≤ second.toNat)
    (notBeyond : lead.toNat = 0xf4 → second.toNat ≤ 0x8f)
    (continuesFurther : 0x80 ≤ third.toNat ∧ third.toNat ≤ 0xbf)
    (continuesLast : 0x80 ≤ fourth.toNat ∧ fourth.toNat ≤ 0xbf) :
    String.utf8EncodeChar (Char.ofNat (scalarValue lead [second, third, fourth])) =
      [lead, second, third, fourth] := by
  obtain ⟨code, value⟩ : ∃ code, code =
      ((lead.toNat % 8 * 64 + second.toNat % 64) * 64 + third.toNat % 64) * 64 +
        fourth.toNat % 64 := ⟨_, rfl⟩
  have spelled : scalarValue lead [second, third, fourth] = code := value.symm
  have valid : code < 0xd800 ∨ 0xdfff < code ∧ code < 0x110000 := by omega
  rw [String.utf8EncodeChar, spelled, val_ofNat valid, if_neg (by omega), if_neg (by omega),
    if_neg (by omega), ofNat_eq_of_toNat lead (by omega), ofNat_eq_of_toNat second (by omega),
    ofNat_eq_of_toNat third (by omega), ofNat_eq_of_toNat fourth (by omega)]

/-- A sequence encodes the character that it spells. There is one case for each number of bytes, and
in each the bits of the bytes are put together and taken apart again. -/
theorem IsSequence.utf8EncodeChar {lead : UInt8} {tail : Bytes}
    (sequence : IsSequence (lead :: tail)) :
    String.utf8EncodeChar (Char.ofNat (scalarValue lead tail)) = lead :: tail := by
  cases sequence with
  | one bounds => exact utf8EncodeChar_one bounds
  | two bounds continues => exact utf8EncodeChar_two bounds continues
  | three bounds continues notOverlong notSurrogate further =>
    exact utf8EncodeChar_three bounds continues notOverlong notSurrogate further
  | four bounds continues notOverlong notBeyond further last =>
    exact utf8EncodeChar_four bounds continues notOverlong notBeyond further last

/-- A lead byte with all the bytes it asks for is a sequence.

Proof: by what the lead byte asks for, which tells how many bytes follow it and where they lie. -/
theorem isSequence_of_fitting {lead : UInt8} {ranges : List ByteRange} {rest : Bytes}
    (asked : followers? lead = some ranges)
    (complete : (fitting ranges rest).length = ranges.length) :
    IsSequence (lead :: fitting ranges rest) := by
  have fits := forall₂_fitting complete
  generalize fitting ranges rest = tail at fits ⊢
  rcases followers?_cases asked with ⟨bounds, rfl⟩ | ⟨bounds, rfl⟩ |
    ⟨bounds, range, rfl, continues, notOverlong, notSurrogate⟩ |
    ⟨bounds, range, rfl, continues, notOverlong, notBeyond⟩
  · obtain _ | _ := fits
    exact .one bounds
  · obtain _ | ⟨second, _ | _⟩ := fits
    exact .two bounds (continues_of_continuation second)
  · obtain _ | ⟨second, _ | ⟨third, _ | _⟩⟩ := fits
    have inRange := ByteRange.contains_iff.mp second
    exact .three bounds ⟨by omega, by omega⟩ (by omega) (by omega)
      (continues_of_continuation third)
  · obtain _ | ⟨second, _ | ⟨third, _ | ⟨fourth, _ | _⟩⟩⟩ := fits
    have inRange := ByteRange.contains_iff.mp second
    exact .four bounds ⟨by omega, by omega⟩ (by omega) (by omega)
      (continues_of_continuation third) (continues_of_continuation fourth)

/-- A segment with a scalar value is a sequence, and the value is what the sequence spells. -/
theorem isSequence_of_decoded {lead : UInt8} {rest : Bytes} {character : Char}
    (decoded : (leading lead rest).scalar? = some character) :
    IsSequence (lead :: (leading lead rest).tail) ∧
    character = Char.ofNat (scalarValue lead (leading lead rest).tail) := by
  cases asked : followers? lead with
  | none => simp [leading, asked] at decoded
  | some ranges =>
    have complete : (fitting ranges rest).length = ranges.length := by
      apply Decidable.byContradiction
      intro short
      simp [leading, asked, short] at decoded
    have tail : (leading lead rest).tail = fitting ranges rest := by simp [leading, asked]
    have spelled : Char.ofNat (scalarValue lead (fitting ranges rest)) = character := by
      simpa [leading, asked, complete] using decoded
    rw [tail]
    exact ⟨isSequence_of_fitting asked complete, spelled.symm⟩

/-- The bytes of a segment with a scalar value are those that encode it. -/
theorem utf8EncodeChar_of_decoded {lead : UInt8} {rest : Bytes} {character : Char}
    (decoded : (leading lead rest).scalar? = some character) :
    String.utf8EncodeChar character = (leading lead rest).bytes := by
  obtain ⟨sequence, rfl⟩ := isSequence_of_decoded decoded
  rw [Segment.bytes, leading_lead]
  exact sequence.utf8EncodeChar

end TemplateTokens.Utf8
