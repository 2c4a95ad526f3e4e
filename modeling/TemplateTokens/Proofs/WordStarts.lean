import TemplateTokens.Proofs.Guarded.Search
import TemplateTokens.Proofs.Utf8.Malformed
import TemplateTokens.Proofs.WordCharacters

/-!
# Word characters, one at a time

The test for a word character takes as many bytes as the first one asks for by a table of widths, or
as there are, and decodes these. The table gives widths to bytes that begin no character, and bytes
may be missing; nevertheless exactly one character is cut out, and where there is none the answer is
no. What follows the first character has no influence, whatever it is.

The malformed strings are listed by what is wrong with them (`Utf8.Malformed`), so the answer for
them does not rest on the way in which they are decoded. Whether a character is alphanumeric is
taken from the table of ranges. No string is too short for the test, and none is too long.
-/

namespace TemplateTokens

/-- The word characters: below `0x80` the ASCII letters and digits and the underscore, above it all
letters and numbers. -/
def isWordCharacter (character : Char) : Bool :=
  if character.toNat < 0x80 then character.isAlphanum || character == '_'
  else isAlphanumeric character

/-- The ASCII bytes that may stand in a word are those of the ASCII word characters. -/
theorem Bytes.isWord_ofNat : ∀ code < 0x80,
    (isAsciiAlphanumeric (UInt8.ofNat code) || UInt8.ofNat code == underscore) =
      ((Char.ofNat code).isAlphanum || Char.ofNat code == '_') := by
  decide +kernel

namespace Encoding

/-- Whether an encoded character is a word character does not depend on what follows it. As many
bytes are cut out as the lead byte asks for, and these are the bytes of the character. -/
theorem startsWithWord_utf8EncodeChar (character : Char) (rest : Bytes) :
    utf8.startsWithWord (String.utf8EncodeChar character ++ rest) = isWordCharacter character := by
  obtain ⟨lead, tail, encoded, decoded⟩ := Utf8.leading_utf8EncodeChar character rest
  have wide := Utf8.le_toNat_of_lead encoded
  rw [encoded, List.cons_append, startsWithWord, isWordCharacter]
  by_cases low : character.toNat < 0x80
  · have ascii : Bytes.isAscii lead = true := by
      rw [← Bool.not_eq_false]
      exact fun high => Nat.not_le_of_lt low (wide.mp high)
    have same : lead = UInt8.ofNat character.toNat := by
      have value : character.val.toNat = character.toNat := rfl
      rw [String.utf8EncodeChar, value, if_pos (by omega)] at encoded
      exact (List.cons.inj encoded).1.symm
    have word := Bytes.isWord_ofNat character.toNat low
    rw [Char.ofNat_toNat] at word
    rw [if_pos ascii, if_pos low, same, word]
  · have high : Bytes.isAscii lead = false := wide.mpr (Nat.le_of_not_lt low)
    simp [high, low, decoded]

/-- Where a word begins there is a character. -/
theorem BeginsWord.beginsCharacter {bytes : Bytes} (begins : BeginsWord .utf8 bytes) :
    Utf8.BeginsCharacter bytes := by
  cases begins with
  | @ascii _ byte rest word =>
    have low : byte.toNat ≤ 0x7f := by
      have ascii := of_decide_eq_true (Bytes.isAscii_of_word word)
      exact Nat.le_of_lt_succ (UInt8.lt_iff_toNat_lt.mp ascii)
    exact .of_sequence (.one low) rest
  | wide rest _ _ => exact ⟨_, List.prefix_append _ rest⟩

/-- Where there is no character, no word begins. That covers the end of the bytes, a stray
continuation byte and a character that breaks off. -/
theorem startsWithWord_of_not_beginsCharacter {bytes : Bytes}
    (none : ¬ Utf8.BeginsCharacter bytes) : utf8.startsWithWord bytes = false := by
  rw [← Bool.not_eq_true, startsWithWord_iff]
  exact fun begins => none begins.beginsCharacter

/-- Outside UTF-8 the first byte decides. A byte above ASCII is no word character there, whatever it
stands for. -/
theorem startsWithWord_iff_of_ne_utf8 {encoding : Encoding} (other : encoding ≠ .utf8)
    {bytes : Bytes} :
    encoding.startsWithWord bytes = true ↔
      ∃ byte rest, bytes = byte :: rest ∧
        (Bytes.isAsciiAlphanumeric byte = true ∨ byte = Bytes.underscore) := by
  rw [startsWithWord_iff]
  constructor
  · intro begins
    cases begins with
    | ascii _ rest word => exact ⟨_, rest, rfl, word⟩
    | wide => exact absurd rfl other
  · rintro ⟨byte, rest, rfl, word⟩
    exact .ascii encoding rest word

/-- The test for a word character looks at one decoded character only. With every index looked at it
is not stopped, in any encoding and on any bytes, and has the same answer. In UTF-8 it tells of
every character whether it is a word character, whatever follows its bytes, and it denies every
string that begins with no character; these are the malformed ones: nothing, a stray continuation,
an unused byte, an overlong form, a surrogate, a number above the last code point, and a character
that breaks off. In the other encodings the first byte decides, as an ASCII character.

Proof: compare the test with the declarative one, character by character. A character is found where
its encoding stands and only there, so what begins with none begins no word; and the guarded test
takes as many bytes as there are, so none of its indices is outside. -/
theorem startsWithWord_reads_one_character :
    (∀ encoding bytes,
      Guarded.startsWithWord encoding bytes = .ok (encoding.startsWithWord bytes)) ∧
    (∀ character rest,
      utf8.startsWithWord (String.utf8EncodeChar character ++ rest) = isWordCharacter character) ∧
    (∀ bytes, ¬ Utf8.BeginsCharacter bytes → utf8.startsWithWord bytes = false) ∧
    (∀ bytes, Utf8.Malformed bytes ↔ ¬ Utf8.BeginsCharacter bytes) ∧
    ∀ encoding, encoding ≠ utf8 → ∀ bytes,
      encoding.startsWithWord bytes = true ↔
        ∃ byte rest, bytes = byte :: rest ∧
          (Bytes.isAsciiAlphanumeric byte = true ∨ byte = Bytes.underscore) := by
  refine ⟨Guarded.startsWithWord_eq, startsWithWord_utf8EncodeChar, ?_, ?_, ?_⟩
  · exact fun _ => startsWithWord_of_not_beginsCharacter
  · exact fun _ => Utf8.malformed_iff
  · exact fun _ other _ => startsWithWord_iff_of_ne_utf8 other

/-- The letter `é` is seen in front of a byte that no text contains. The byte `0xc0`, to which the
table gives a width of two, begins no word, even with a letter behind it; `é` cut off begins no word
either; and as ASCII neither of its bytes does. -/
theorem startsWithWord_reads_accent_in_front_of_fault :
    utf8.startsWithWord [0xc3, 0xa9, 0xff] = true ∧
    Guarded.characterWidth 0xc0 = 2 ∧ Utf8.Malformed [0xc0, 0x61] ∧
    utf8.startsWithWord [0xc0, 0x61] = false ∧
    ¬ Utf8.BeginsCharacter [0xc3] ∧ utf8.startsWithWord [0xc3] = false ∧
    ascii ≠ utf8 ∧ ¬ ascii.startsWithWord [0xc3, 0xa9] = true := by
  obtain ⟨-, decodes, denies, malformed, firstByte⟩ := startsWithWord_reads_one_character
  have word : isWordCharacter 'é' = true := by decide +kernel
  have unused : Utf8.Malformed [0xc0, 0x61] := .unused [0x61] (.inl rfl)
  have truncated : Utf8.Malformed [0xc3] :=
    .truncated 'é' [] Nat.zero_lt_one (by decide) (by simp)
  refine ⟨(decodes 'é' [0xff]).trans word, by decide, unused, ?_, ?_, ?_, by decide, ?_⟩
  · exact denies _ ((malformed _).mp unused)
  · exact (malformed _).mp truncated
  · exact denies _ ((malformed _).mp truncated)
  · rw [firstByte ascii (by decide)]
    rintro ⟨byte, rest, same, word⟩
    cases same
    revert word
    decide

end Encoding

end TemplateTokens
