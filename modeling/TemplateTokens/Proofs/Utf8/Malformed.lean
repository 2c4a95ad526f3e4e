import TemplateTokens.Proofs.Utf8.Characters

/-!
# How a string can fail to begin with a character

The well-formed byte sequences are the encodings of the characters. What begins with none of them is
malformed in one of the ways that `Malformed` lists: there is no byte, or the first one begins no
character, or the second one is ruled out by the first, or a character breaks off. What is malformed
in one of these ways begins with no sequence (`malformed_iff`).

The list is complete and has no overlap that matters: a string that begins with a character
satisfies none of its cases. It is made from the table of well-formed sequences in the standard and
not from the decoder, so what the decoder rejects can be compared with it. A string is malformed
here by what it begins with; what follows its first character is of no account.
-/

namespace TemplateTokens.Utf8

/-- A sequence encodes a character. -/
theorem IsSequence.exists_character {bytes : Bytes} (sequence : IsSequence bytes) :
    ∃ character, String.utf8EncodeChar character = bytes := by
  cases bytes with
  | nil => nomatch sequence
  | cons lead tail => exact ⟨_, sequence.utf8EncodeChar⟩

/-- An encoded character is a sequence. -/
theorem isSequence_utf8EncodeChar (character : Char) :
    IsSequence (String.utf8EncodeChar character) := by
  obtain ⟨lead, tail, encoded, decoded⟩ := leading_utf8EncodeChar character []
  obtain ⟨sequence, -⟩ := isSequence_of_decoded (congrArg Segment.scalar? decoded)
  rw [decoded] at sequence
  rwa [encoded]

/-- A string begins with a character exactly if it begins with a sequence. Sequences are given by
ranges of bytes and characters by their numbers, so the ways to be malformed can be listed by
ranges. -/
theorem beginsCharacter_iff {bytes : Bytes} :
    BeginsCharacter bytes ↔ ∃ front, IsSequence front ∧ front <+: bytes := by
  constructor
  · rintro ⟨character, inFront⟩
    exact ⟨_, isSequence_utf8EncodeChar character, inFront⟩
  · rintro ⟨front, sequence, inFront⟩
    obtain ⟨character, rfl⟩ := sequence.exists_character
    exact ⟨character, inFront⟩

/-- A byte string that begins with no character, by what is wrong with it. -/
inductive Malformed : Bytes → Prop where
  /-- There is no byte. -/
  | empty : Malformed []
  /-- A byte that only continues a character comes first. -/
  | stray {byte : UInt8} (rest : Bytes) (continues : Continues byte) : Malformed (byte :: rest)
  /-- A byte comes first that no character contains. -/
  | unused {byte : UInt8} (rest : Bytes)
      (never : byte.toNat = 0xc0 ∨ byte.toNat = 0xc1 ∨ 0xf5 ≤ byte.toNat) :
      Malformed (byte :: rest)
  /-- More bytes are begun than the character needs. -/
  | overlong {lead second : UInt8} (rest : Bytes) (continues : Continues second)
      (excess : lead.toNat = 0xe0 ∧ second.toNat < 0xa0 ∨ lead.toNat = 0xf0 ∧ second.toNat < 0x90) :
      Malformed (lead :: second :: rest)
  /-- A surrogate is begun. -/
  | surrogate {lead second : UInt8} (rest : Bytes) (continues : Continues second)
      (inRange : lead.toNat = 0xed ∧ 0x9f < second.toNat) : Malformed (lead :: second :: rest)
  /-- A number above the last code point is begun. -/
  | beyond {lead second : UInt8} (rest : Bytes) (continues : Continues second)
      (above : lead.toNat = 0xf4 ∧ 0x8f < second.toNat) : Malformed (lead :: second :: rest)
  /-- A character is begun and not continued to its end. -/
  | truncated (character : Char) {count : Nat} (rest : Bytes) (begun : 0 < count)
      (short : count < (String.utf8EncodeChar character).length)
      (breaks : ∀ byte ∈ rest.head?, ¬ Continues byte) :
      Malformed ((String.utf8EncodeChar character).take count ++ rest)

/-- The bytes of a sequence behind the first continue it. -/
theorem IsSequence.continues {lead : UInt8} {tail : Bytes} (sequence : IsSequence (lead :: tail)) :
    ∀ byte ∈ tail, Continues byte := by
  cases sequence <;> simp_all

/-- The number of bytes of a sequence depends on the first alone. So a string does not begin with
two different sequences. -/
theorem IsSequence.length_eq {lead : UInt8} {tail other : Bytes}
    (sequence : IsSequence (lead :: tail)) (otherSequence : IsSequence (lead :: other)) :
    tail.length = other.length := by
  cases sequence <;> cases otherSequence <;> first | rfl | omega

/-- A sequence that breaks off is malformed. The byte that follows it, if there is one, does not
continue it. -/
theorem Malformed.of_sequence {whole rest : Bytes} (front : Bytes) (sequence : IsSequence whole)
    (inFront : front <+: whole) (begun : front ≠ []) (short : front.length < whole.length)
    (breaks : ∀ byte ∈ rest.head?, ¬ Continues byte) : Malformed (front ++ rest) := by
  obtain ⟨character, rfl⟩ := sequence.exists_character
  rw [List.prefix_iff_eq_take.mp inFront]
  exact .truncated character rest (List.length_pos_iff.mpr begun) short breaks

/-- Either a character is not continued, or there is a byte that continues it. -/
theorem breaks_or_continues (rest : Bytes) :
    (∀ byte ∈ rest.head?, ¬ Continues byte) ∨ ∃ byte later, rest = byte :: later ∧ Continues byte := by
  cases rest with
  | nil => simp
  | cons byte later =>
    by_cases continues : Continues byte
    · exact .inr ⟨byte, later, rfl, continues⟩
    · exact .inl (by simpa using continues)

/-- A sequence at the front is a character at the front. -/
theorem BeginsCharacter.of_sequence {front : Bytes} (sequence : IsSequence front) (rest : Bytes) :
    BeginsCharacter (front ++ rest) :=
  beginsCharacter_iff.mpr ⟨front, sequence, List.prefix_append front rest⟩

section Leads

variable {lead : UInt8} (rest : Bytes)

/-- Any continuation byte continues a continuation byte. -/
theorem continues_least : Continues 0x80 := by decide

/-- Behind a lead byte of two-byte characters, only the second byte can be missing. There is no
narrower range to miss, unlike with longer characters. -/
theorem begins_or_malformed_two (bounds : 0xc2 ≤ lead.toNat ∧ lead.toNat ≤ 0xdf) :
    BeginsCharacter (lead :: rest) ∨ Malformed (lead :: rest) := by
  rcases breaks_or_continues rest with breaks | ⟨second, rest, rfl, continues⟩
  · right
    exact .of_sequence [lead] (.two bounds continues_least) (by simp) (by simp) (by simp) breaks
  · left
    exact .of_sequence (.two bounds continues) rest

/-- Behind a lead byte of three-byte characters, the second or third byte can be missing, or the
second is ruled out. -/
theorem begins_or_malformed_three (bounds : 0xe0 ≤ lead.toNat ∧ lead.toNat ≤ 0xef) :
    BeginsCharacter (lead :: rest) ∨ Malformed (lead :: rest) := by
  rcases breaks_or_continues rest with breaks | ⟨second, rest, rfl, continues⟩
  · right
    by_cases first : lead.toNat = 0xe0
    · have sequence : IsSequence [lead, 0xa0, 0x80] :=
        .three bounds (by decide) (by simp) (by omega) continues_least
      exact .of_sequence [lead] sequence (by simp) (by simp) (by simp) breaks
    · have sequence : IsSequence [lead, 0x80, 0x80] :=
        .three bounds continues_least (by omega) (by simp) continues_least
      exact .of_sequence [lead] sequence (by simp) (by simp) (by simp) breaks
  · by_cases excess : lead.toNat = 0xe0 ∧ second.toNat < 0xa0
    · exact .inr (.overlong rest continues (.inl excess))
    by_cases inRange : lead.toNat = 0xed ∧ 0x9f < second.toNat
    · exact .inr (.surrogate rest continues inRange)
    have sequence {third : UInt8} : Continues third → IsSequence [lead, second, third] :=
      .three bounds continues (by omega) (by omega)
    rcases breaks_or_continues rest with breaks | ⟨third, rest, rfl, further⟩
    · right
      exact .of_sequence [lead, second] (sequence continues_least) (by simp) (by simp) (by simp)
        breaks
    · left
      exact .of_sequence (sequence further) rest

/-- Behind a lead byte of four-byte characters, one of the other bytes can be missing, or the second
is ruled out. -/
theorem begins_or_malformed_four (bounds : 0xf0 ≤ lead.toNat ∧ lead.toNat ≤ 0xf4) :
    BeginsCharacter (lead :: rest) ∨ Malformed (lead :: rest) := by
  rcases breaks_or_continues rest with breaks | ⟨second, rest, rfl, continues⟩
  · right
    by_cases first : lead.toNat = 0xf0
    · have sequence : IsSequence [lead, 0x90, 0x80, 0x80] :=
        .four bounds (by decide) (by simp) (by omega) continues_least continues_least
      exact .of_sequence [lead] sequence (by simp) (by simp) (by simp) breaks
    · have sequence : IsSequence [lead, 0x80, 0x80, 0x80] :=
        .four bounds continues_least (by omega) (by simp) continues_least continues_least
      exact .of_sequence [lead] sequence (by simp) (by simp) (by simp) breaks
  · by_cases excess : lead.toNat = 0xf0 ∧ second.toNat < 0x90
    · exact .inr (.overlong rest continues (.inr excess))
    by_cases above : lead.toNat = 0xf4 ∧ 0x8f < second.toNat
    · exact .inr (.beyond rest continues above)
    have sequence {third fourth : UInt8} :
        Continues third → Continues fourth → IsSequence [lead, second, third, fourth] :=
      .four bounds continues (by omega) (by omega)
    rcases breaks_or_continues rest with breaks | ⟨third, rest, rfl, further⟩
    · right
      exact .of_sequence [lead, second] (sequence continues_least continues_least) (by simp)
        (by simp) (by simp) breaks
    rcases breaks_or_continues rest with breaks | ⟨fourth, rest, rfl, last⟩
    · right
      exact .of_sequence [lead, second, third] (sequence further continues_least) (by simp)
        (by simp) (by simp) breaks
    · left
      exact .of_sequence (sequence further last) rest

end Leads

/-- What begins with no character is malformed in one of the ways listed.

Proof: by the lead byte, which tells how many bytes should follow. -/
theorem begins_or_malformed (bytes : Bytes) : BeginsCharacter bytes ∨ Malformed bytes := by
  cases bytes with
  | nil => exact .inr .empty
  | cons lead rest =>
    have byte := lead.toNat_lt
    have kinds : lead.toNat ≤ 0x7f ∨ Continues lead ∨
        (lead.toNat = 0xc0 ∨ lead.toNat = 0xc1 ∨ 0xf5 ≤ lead.toNat) ∨
          (0xc2 ≤ lead.toNat ∧ lead.toNat ≤ 0xdf) ∨ (0xe0 ≤ lead.toNat ∧ lead.toNat ≤ 0xef) ∨
            (0xf0 ≤ lead.toNat ∧ lead.toNat ≤ 0xf4) := by
      rw [Continues]
      omega
    rcases kinds with ascii | stray | never | two | three | four
    · exact .inl (.of_sequence (.one ascii) rest)
    · exact .inr (.stray rest stray)
    · exact .inr (.unused rest never)
    · exact begins_or_malformed_two rest two
    · exact begins_or_malformed_three rest three
    · exact begins_or_malformed_four rest four

/-- A character that is not continued to its end is not the beginning of another: both would have
as many bytes, so the other would go on where the first breaks off. -/
theorem IsSequence.not_prefix_of_truncated {whole front rest : Bytes} {count : Nat}
    (sequence : IsSequence whole) (begun : 0 < count) (short : count < whole.length)
    (breaks : ∀ byte ∈ rest.head?, ¬ Continues byte) (other : IsSequence front) :
    ¬ front <+: whole.take count ++ rest := by
  rintro ⟨more, cut⟩
  obtain ⟨count, rfl⟩ := Nat.exists_eq_succ_of_ne_zero begun.ne'
  cases whole with
  | nil => nomatch sequence
  | cons lead tail =>
    cases front with
    | nil => nomatch other
    | cons first later =>
      rw [List.take_succ_cons, List.cons_append, List.cons_append, List.cons.injEq] at cut
      obtain ⟨rfl, cut⟩ := cut
      have sameLength := sequence.length_eq other
      have inside : count < tail.length := Nat.lt_of_succ_lt_succ short
      rcases List.append_eq_append_iff.mp cut with ⟨missing, same, -⟩ | ⟨onward, same, rfl⟩
      · have length := congrArg List.length same
        rw [List.length_take, List.length_append] at length
        omega
      · cases onward with
        | nil =>
          have length := congrArg List.length same
          rw [List.length_append, List.length_take, List.length_nil] at length
          omega
        | cons byte onward =>
          have member : byte ∈ later := by simp [same]
          exact breaks byte rfl (other.continues byte member)

/-- What is malformed begins with no character. Each of the ways is held against a sequence at the
front, which would fit where the malformed bytes do not. -/
theorem Malformed.not_beginsCharacter {bytes : Bytes} (malformed : Malformed bytes) :
    ¬ BeginsCharacter bytes := by
  rw [beginsCharacter_iff]
  rintro ⟨front, sequence, inFront⟩
  cases malformed with
  | empty =>
    rw [List.prefix_nil.mp inFront] at sequence
    nomatch sequence
  | stray rest continues | unused rest never =>
    cases sequence <;> simp_all [Continues] <;> omega
  | overlong rest continues excess | surrogate rest continues inRange | beyond rest continues above =>
    cases sequence <;> simp_all [Continues] <;> omega
  | truncated character rest begun short breaks =>
    exact (isSequence_utf8EncodeChar character).not_prefix_of_truncated begun short breaks sequence
      inFront

/-- What is malformed in one of the ways listed, and nothing else, begins with no character. The
list is complete: the first byte tells how many bytes are asked for, and each of them is gone
through. -/
theorem malformed_iff {bytes : Bytes} : Malformed bytes ↔ ¬ BeginsCharacter bytes := by
  constructor
  · exact Malformed.not_beginsCharacter
  · exact (begins_or_malformed bytes).resolve_left

end TemplateTokens.Utf8
