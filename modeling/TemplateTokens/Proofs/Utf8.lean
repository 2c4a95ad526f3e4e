import Mathlib.Data.List.TakeWhile
import TemplateTokens.Text.Utf8

/-!
# Segments of UTF-8

A segment is decided by its own bytes. A well-formed one has all the bytes it asks for, so nothing
behind it matters; and no segment extends past a byte below `0x80`, so nothing behind such a byte
matters to a segment in front of it. From the first fact follows that well-formed text can be
joined: the segments of the whole are the segments of the parts. Every encoded character is one
well-formed segment, so the bytes of a text are well formed throughout.
-/

namespace TemplateTokens.Utf8

/-- Membership in a range of bytes, in natural numbers. -/
theorem ByteRange.contains_iff {range : ByteRange} {byte : UInt8} :
    range.contains byte = true ↔
      range.low.toNat ≤ byte.toNat ∧ byte.toNat ≤ range.high.toNat := by
  simp [contains, UInt8.le_iff_toNat_le]

/-- The bytes after a lead byte are never ASCII. This is why markers can be looked for byte by byte
in UTF-8. -/
theorem followers?_above_ascii {lead : UInt8} {ranges : List ByteRange}
    (asked : followers? lead = some ranges) : ∀ range ∈ ranges, 0x80 ≤ range.low := by
  unfold followers? at asked
  repeat' split at asked
  all_goals cases asked
  all_goals simp [continuation]

/-- A run that has all the bytes it asks for does not change when more bytes follow. -/
theorem fitting_append_of_complete {ranges : List ByteRange} {front : Bytes} (more : Bytes)
    (complete : (fitting ranges front).length = ranges.length) :
    fitting ranges (front ++ more) = fitting ranges front := by
  induction ranges generalizing front with
  | nil => simp [fitting]
  | cons range ranges inductionHypothesis =>
    cases front with
    | nil => simp [fitting] at complete
    | cons byte front =>
      simp only [List.cons_append, fitting] at complete ⊢
      cases fits : range.contains byte with
      | false => rfl
      | true =>
        simp only [fits, if_true, List.length_cons, Nat.add_right_cancel_iff] at complete ⊢
        rw [inductionHypothesis complete]

/-- A run of bytes that are not ASCII ends in front of the first ASCII byte, whatever follows it. -/
theorem fitting_append_of_ascii {ranges : List ByteRange} {front : Bytes} (more : Bytes)
    (aboveAscii : ∀ range ∈ ranges, 0x80 ≤ range.low) (ascii : ∃ byte ∈ front, byte < 0x80) :
    fitting ranges (front ++ more) = fitting ranges front := by
  induction ranges generalizing front with
  | nil => simp [fitting]
  | cons range ranges inductionHypothesis =>
    cases front with
    | nil => simp at ascii
    | cons byte front =>
      simp only [List.cons_append, fitting]
      cases fits : range.contains byte with
      | false => rfl
      | true =>
        have high : 0x80 ≤ byte.toNat := Nat.le_trans
          (UInt8.le_iff_toNat_le.mp (aboveAscii range List.mem_cons_self))
          (ByteRange.contains_iff.mp fits).1
        have later : ∃ other ∈ front, other < 0x80 := by
          obtain ⟨other, member, low⟩ := ascii
          rcases List.mem_cons.mp member with rfl | member
          · exact absurd (UInt8.lt_iff_toNat_lt.mp low) (Nat.not_lt_of_le high)
          · exact ⟨other, member, low⟩
        simp only [if_true]
        rw [inductionHypothesis (fun range member => aboveAscii range (by simp [member])) later]

/-- A well-formed first segment does not change when more bytes follow. A faulty one may, since the
bytes that it lacks may be among them. -/
theorem leading_append_of_isWellFormed {lead : UInt8} {rest : Bytes} (more : Bytes)
    (wellFormed : (leading lead rest).isWellFormed) :
    leading lead (rest ++ more) = leading lead rest := by
  unfold leading at wellFormed ⊢
  split
  · rfl
  · next ranges asked =>
    simp only [asked, Segment.isWellFormed] at wellFormed
    have complete : (fitting ranges rest).length = ranges.length := by
      by_cases complete : (fitting ranges rest).length = ranges.length
      · exact complete
      · simp [complete] at wellFormed
    rw [fitting_append_of_complete more complete]

/-- With an ASCII byte in what follows the lead byte, nothing behind matters to the first
segment. -/
theorem leading_append_of_ascii (lead : UInt8) {rest : Bytes} (more : Bytes)
    (ascii : ∃ byte ∈ rest, byte < 0x80) : leading lead (rest ++ more) = leading lead rest := by
  unfold leading
  split
  · rfl
  · next ranges asked =>
    rw [fitting_append_of_ascii more (followers?_above_ascii asked) ascii]

/-- Well-formed text can be continued: its own segments stay, and the segments of what follows come
behind them. -/
theorem segments_append {front : Bytes} (back : Bytes)
    (wellFormed : ∀ segment ∈ segments front, segment.isWellFormed) :
    segments (front ++ back) = segments front ++ segments back := by
  induction front using segments.induct with
  | case1 => simp [segments]
  | case2 lead rest segment inductionHypothesis =>
    rw [segments] at wellFormed
    obtain ⟨first, later⟩ := List.forall_mem_cons.mp wellFormed
    have inside : segment.tail.length ≤ rest.length :=
      (leading_tail_isPrefix lead rest).length_le
    rw [List.cons_append, segments, segments, leading_append_of_isWellFormed back first,
      List.drop_append_of_le_length inside]
    exact congrArg (segment :: ·) (inductionHypothesis later)

/-- Text is well formed throughout exactly if every segment is. A faulty segment has a byte of its
own, which the well-formed run in front of it misses. -/
theorem firstIllFormed?_eq_none_iff {bytes : Bytes} :
    firstIllFormed? bytes = none ↔ ∀ segment ∈ segments bytes, segment.isWellFormed := by
  have cut : wellFormedLength bytes +
      (((segments bytes).dropWhile Segment.isWellFormed).flatMap Segment.bytes).length =
        bytes.length := by
    rw [wellFormedLength, ← List.length_append, ← List.flatMap_append,
      List.takeWhile_append_dropWhile, segments_flatten]
  have noneIff : firstIllFormed? bytes = none ↔ wellFormedLength bytes = bytes.length := by
    rw [firstIllFormed?]
    split <;> simp_all
  rw [noneIff, ← List.dropWhile_eq_nil_iff]
  cases faulty : (segments bytes).dropWhile Segment.isWellFormed with
  | nil => simpa [faulty] using cut
  | cons segment later =>
    simp only [faulty, List.flatMap_cons, List.length_append, Segment.bytes,
      List.length_cons] at cut
    simp only [reduceCtorEq, iff_false]
    omega

/-- No bytes are well formed. -/
theorem firstIllFormed?_nil : firstIllFormed? [] = none :=
  firstIllFormed?_eq_none_iff.mpr (by simp [segments])

/-- Text of two well-formed parts is well formed. -/
theorem firstIllFormed?_append {front back : Bytes} (frontSound : firstIllFormed? front = none)
    (backSound : firstIllFormed? back = none) : firstIllFormed? (front ++ back) = none := by
  rw [firstIllFormed?_eq_none_iff] at frontSound backSound ⊢
  rw [segments_append back frontSound]
  intro segment member
  rcases List.mem_append.mp member with inFront | inBack
  · exact frontSound segment inFront
  · exact backSound segment inBack

/-- A run that fits is its own longest run that fits. -/
theorem fitting_fitting (ranges : List ByteRange) (bytes : Bytes) :
    fitting ranges (fitting ranges bytes) = fitting ranges bytes := by
  induction ranges generalizing bytes with
  | nil => simp [fitting]
  | cons range ranges inductionHypothesis =>
    cases bytes with
    | nil => simp [fitting]
    | cons byte rest =>
      cases fits : range.contains byte with
      | false => simp [fitting, fits]
      | true => simp [fitting, fits, inductionHypothesis rest]

/-- The bytes of a segment by themselves are that one segment. Segments can therefore be taken out
of their string and looked at alone. -/
theorem segments_leading_bytes (lead : UInt8) (rest : Bytes) :
    segments (leading lead rest).bytes = [leading lead rest] := by
  have same : leading lead (leading lead rest).tail = leading lead rest := by
    unfold leading
    cases asked : followers? lead with
    | none => rfl
    | some ranges => simp only [fitting_fitting]
  rw [Segment.bytes, leading_lead, segments, same, List.drop_length]
  simp [segments]

/-- The well-formed run at the front is well formed by itself, and no character follows it. The cut
is at the first fault, or at the end if there is none. -/
theorem wellFormed_cut (bytes : Bytes) :
    ∃ front back, bytes = front ++ back ∧ front.length = wellFormedLength bytes ∧
      firstIllFormed? front = none ∧
      ∀ lead rest, back = lead :: rest → (leading lead rest).isWellFormed = false := by
  induction bytes using segments.induct with
  | case1 => exact ⟨[], [], rfl, by simp [wellFormedLength, segments], firstIllFormed?_nil, by simp⟩
  | case2 lead rest segment inductionHypothesis =>
    cases wellFormed : segment.isWellFormed with
    | false =>
      refine ⟨[], lead :: rest, rfl, ?_, firstIllFormed?_nil, ?_⟩
      · simp [wellFormedLength, segments, show leading lead rest = segment from rfl, wellFormed]
      · rintro lead rest ⟨⟩
        exact wellFormed
    | true =>
      obtain ⟨front, back, cut, length, sound, follows⟩ := inductionHypothesis
      have whole : lead :: rest = segment.bytes ++ (front ++ back) := by
        have tail := List.prefix_iff_eq_append.mp (leading_tail_isPrefix lead rest)
        rw [← cut, Segment.bytes, leading_lead, List.cons_append]
        exact congrArg (lead :: ·) tail.symm
      refine ⟨segment.bytes ++ front, back, by rw [whole, List.append_assoc], ?_, ?_, follows⟩
      · simp [wellFormedLength, segments, show leading lead rest = segment from rfl, wellFormed,
          length]
      · refine firstIllFormed?_append (firstIllFormed?_eq_none_iff.mpr ?_) sound
        rw [show segments segment.bytes = [segment] from segments_leading_bytes lead rest]
        simpa using wellFormed

/-- The offset of the first fault is the length of the longest front that is well formed. -/
theorem firstIllFormed?_eq_some {bytes : Bytes} {offset : Nat}
    (faulty : firstIllFormed? bytes = some offset) :
    offset < bytes.length ∧ firstIllFormed? (bytes.take offset) = none ∧
    ∀ longer, offset < longer → longer ≤ bytes.length →
      firstIllFormed? (bytes.take longer) ≠ none := by
  obtain ⟨front, back, rfl, length, sound, follows⟩ := wellFormed_cut bytes
  rw [firstIllFormed?] at faulty
  split at faulty
  · exact absurd faulty (by simp)
  next shorter =>
    obtain rfl : front.length = offset := length.trans (Option.some.inj faulty)
    match back, follows with
    | [], _ => exact absurd length.symm (by simpa using shorter)
    | lead :: rest, follows =>
      refine ⟨by simp, by rwa [List.take_left], ?_⟩
      intro longer behind inside wellFormed
      obtain ⟨more, rfl⟩ := Nat.exists_eq_add_of_lt behind
      rw [Nat.add_assoc, List.take_length_add_append, List.take_succ_cons,
        firstIllFormed?_eq_none_iff, segments_append _ (firstIllFormed?_eq_none_iff.mp sound),
        segments] at wellFormed
      have complete := wellFormed (leading lead (rest.take more)) (by simp)
      have continued := leading_append_of_isWellFormed (rest.drop more) complete
      rw [List.take_append_drop] at continued
      exact absurd (continued ▸ complete) (by simp [follows lead rest rfl])

/-- The number of a byte given by a number below 256. -/
theorem toNat_ofNat_of_lt {value : Nat} (small : value < 256) :
    (UInt8.ofNat value).toNat = value := by
  simpa using Nat.mod_eq_of_lt small

/-- The lead bytes of two-byte characters. -/
theorem followers?_two {lead : UInt8} (low : 0xc2 ≤ lead.toNat) (high : lead.toNat ≤ 0xdf) :
    followers? lead = some [continuation] := by
  simp only [followers?, UInt8.le_iff_toNat_le, UInt8.lt_iff_toNat_lt]
  rw [if_neg (by simp; omega), if_neg (by simp; omega), if_pos (by simpa using high)]

/-- The lead bytes of three-byte characters. The byte after `0xe0` rules out overlong forms, the
byte after `0xed` surrogates. -/
theorem followers?_three (lead second : UInt8) (low : 0xe0 ≤ lead.toNat)
    (high : lead.toNat ≤ 0xef) (continues : 0x80 ≤ second.toNat ∧ second.toNat ≤ 0xbf)
    (notOverlong : lead.toNat = 0xe0 → 0xa0 ≤ second.toNat)
    (notSurrogate : lead.toNat = 0xed → second.toNat ≤ 0x9f) :
    ∃ range, followers? lead = some [range, continuation] ∧ range.contains second = true := by
  simp only [ByteRange.contains_iff, followers?, UInt8.le_iff_toNat_le, UInt8.lt_iff_toNat_lt,
    ← UInt8.toNat_inj]
  rw [if_neg (by simp; omega), if_neg (by simp; omega), if_neg (by simp; omega)]
  split
  · next same => exact ⟨_, rfl, by simpa using notOverlong (by simpa using same), continues.2⟩
  · rename_i notFirst
    split
    · next same => exact ⟨_, rfl, continues.1, by simpa using notSurrogate (by simpa using same)⟩
    · rw [if_pos (by simpa using high)]
      exact ⟨_, rfl, continues.1, continues.2⟩

/-- The lead bytes of four-byte characters. The byte after `0xf0` rules out overlong forms, the byte
after `0xf4` values above the last code point. -/
theorem followers?_four (lead second : UInt8) (low : 0xf0 ≤ lead.toNat)
    (high : lead.toNat ≤ 0xf4) (continues : 0x80 ≤ second.toNat ∧ second.toNat ≤ 0xbf)
    (notOverlong : lead.toNat = 0xf0 → 0x90 ≤ second.toNat)
    (notBeyond : lead.toNat = 0xf4 → second.toNat ≤ 0x8f) :
    ∃ range, followers? lead = some [range, continuation, continuation] ∧
      range.contains second = true := by
  simp only [ByteRange.contains_iff, followers?, UInt8.le_iff_toNat_le, UInt8.lt_iff_toNat_lt,
    ← UInt8.toNat_inj]
  rw [if_neg (by simp; omega), if_neg (by simp; omega), if_neg (by simp; omega),
    if_neg (by simp; omega), if_neg (by simp; omega), if_neg (by simp; omega)]
  split
  · next same => exact ⟨_, rfl, by simpa using notOverlong (by simpa using same), continues.2⟩
  · split
    · exact ⟨_, rfl, continues.1, continues.2⟩
    · next beyond =>
      have last : lead.toNat = 0xf4 := by simp at beyond; omega
      rw [if_pos (by simpa using last)]
      exact ⟨_, rfl, continues.1, by simpa using notBeyond last⟩

/-- A segment with all the bytes it asks for is the character that they spell. The four lengths of
encoded characters are cases of this one. -/
theorem leading_of_fitting {lead : UInt8} {tail rest : Bytes} {ranges : List ByteRange}
    {character : Char} (asked : followers? lead = some ranges)
    (fits : fitting ranges (tail ++ rest) = tail) (complete : tail.length = ranges.length)
    (spelled : scalarValue lead tail = character.toNat) :
    leading lead (tail ++ rest) = { lead, tail, scalar? := some character } := by
  simp [leading, asked, fits, complete, spelled]

/-- The number of a continuation byte that carries six bits. -/
theorem toNat_continuation (bits : Nat) :
    (UInt8.ofNat (bits % 0x40 + 0x80)).toNat = bits % 0x40 + 0x80 :=
  toNat_ofNat_of_lt (by omega)

/-- A continuation byte that carries six bits lies in the continuation range. -/
theorem continuation_contains_ofNat (bits : Nat) :
    continuation.contains (UInt8.ofNat (bits % 0x40 + 0x80)) = true := by
  rw [ByteRange.contains_iff, toNat_continuation]
  exact ⟨Nat.le_add_left _ _, show _ ≤ 0xbf by omega⟩

/-- The first segment of an encoded character is that character, whatever follows.

Proof: by the number of bytes of the encoding. In each case the lead byte asks for the bytes that
follow it, the restrictions on the second byte hold because the character is a scalar value of that
size, and the bits of the bytes spell the character. -/
theorem leading_utf8EncodeChar (character : Char) (rest : Bytes) :
    ∃ lead tail, String.utf8EncodeChar character = lead :: tail ∧
      leading lead (tail ++ rest) = { lead, tail, scalar? := some character } := by
  have valid : character.toNat < 0xd800 ∨ 0xdfff < character.toNat ∧ character.toNat < 0x110000 :=
    character.valid
  have value : character.val.toNat = character.toNat := rfl
  obtain ⟨code, same⟩ : ∃ code, character.toNat = code := ⟨_, rfl⟩
  simp only [String.utf8EncodeChar, value, same] at valid ⊢
  split
  · next oneByte =>
    have lead : (UInt8.ofNat code).toNat = code := toNat_ofNat_of_lt (by omega)
    refine ⟨_, _, rfl, leading_of_fitting (show _ = some [] from ?_) rfl rfl ?_⟩
    · rw [followers?, if_pos (UInt8.le_iff_toNat_le.mpr (by simpa [lead] using oneByte))]
    · simp [scalarValue, lead, same]
  split
  · have lead : (UInt8.ofNat (code / 64 % 0x20 + 0xc0)).toNat = code / 64 % 0x20 + 0xc0 :=
      toNat_ofNat_of_lt (by omega)
    refine ⟨_, _, rfl, leading_of_fitting (followers?_two ?_ ?_) ?_ rfl ?_⟩
    · omega
    · omega
    · simp only [List.cons_append, fitting, continuation_contains_ofNat, if_true]
    · simp [scalarValue, same]
      omega
  split
  · have lead : (UInt8.ofNat (code / 4096 % 0x10 + 0xe0)).toNat = code / 4096 % 0x10 + 0xe0 :=
      toNat_ofNat_of_lt (by omega)
    have second := toNat_continuation (code / 64)
    obtain ⟨range, asked, fits⟩ := followers?_three
      (UInt8.ofNat (code / 4096 % 0x10 + 0xe0)) (UInt8.ofNat (code / 64 % 0x40 + 0x80))
      (by omega) (by omega) ⟨by omega, by omega⟩ (by omega) (by omega)
    refine ⟨_, _, rfl, leading_of_fitting asked ?_ rfl ?_⟩
    · simp only [List.cons_append, fitting, fits, continuation_contains_ofNat, if_true]
    · simp [scalarValue, same]
      omega
  · have lead : (UInt8.ofNat (code / 262144 % 0x08 + 0xf0)).toNat = code / 262144 % 0x08 + 0xf0 :=
      toNat_ofNat_of_lt (by omega)
    have second := toNat_continuation (code / 4096)
    obtain ⟨range, asked, fits⟩ := followers?_four
      (UInt8.ofNat (code / 262144 % 0x08 + 0xf0)) (UInt8.ofNat (code / 4096 % 0x40 + 0x80))
      (by omega) (by omega) ⟨by omega, by omega⟩ (by omega) (by omega)
    refine ⟨_, _, rfl, leading_of_fitting asked ?_ rfl ?_⟩
    · simp only [List.cons_append, fitting, fits, continuation_contains_ofNat, if_true]
    · simp [scalarValue, same]
      omega

/-- An encoded character is one segment, well formed, in front of the segments of what follows.
Texts are cut character by character with it, without asking how many bytes each has. -/
theorem segments_utf8EncodeChar_append (character : Char) (rest : Bytes) :
    ∃ segment : Segment, segment.bytes = String.utf8EncodeChar character ∧
      segment.scalar? = some character ∧
      segments (String.utf8EncodeChar character ++ rest) = segment :: segments rest := by
  obtain ⟨lead, tail, encoded, decoded⟩ := leading_utf8EncodeChar character rest
  refine ⟨{ lead, tail, scalar? := some character }, ?_, rfl, ?_⟩
  · rw [encoded]
    rfl
  · rw [encoded, List.cons_append, segments, decoded, List.drop_left]

/-- The bytes of a text are well formed throughout. The induction is on the characters of the
text. -/
theorem firstIllFormed?_ofText (text : String) : firstIllFormed? (ofText text) = none := by
  rw [firstIllFormed?_eq_none_iff, ofText]
  induction text.toList with
  | nil => simp [segments]
  | cons character characters inductionHypothesis =>
    obtain ⟨segment, -, decoded, split⟩ :=
      segments_utf8EncodeChar_append character (characters.flatMap String.utf8EncodeChar)
    rw [List.flatMap_cons, split]
    refine List.forall_mem_cons.mpr ⟨?_, inductionHypothesis⟩
    rw [Segment.isWellFormed, decoded, Option.isSome_some]

end TemplateTokens.Utf8
