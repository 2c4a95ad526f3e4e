import TemplateTokens.Encoding.Verifier
import TemplateTokens.Proofs.Composition
import TemplateTokens.Proofs.Guarded.Cursor
import TemplateTokens.Proofs.Utf8.Characters

/-!
# What a check of the encoding tells

A byte string is sound exactly if it is a sequence of characters of its encoding, and the offset in
a complaint is the length of the longest front that is (`check_eq_some_iff_isGreatest`). Sound bytes
in front of a string only move its first fault (`firstFault?_append`). A span of a template can
therefore be checked by itself: if what stands in front of it is sound, the answer is that of a
check from the first byte on.
-/

namespace TemplateTokens

namespace Utf8

/-- In front of other bytes, well-formed ones are passed as a whole. -/
theorem wellFormedLength_append {front : Bytes} (back : Bytes)
    (sound : firstIllFormed? front = none) :
    wellFormedLength (front ++ back) = front.length + wellFormedLength back := by
  have wellFormed := firstIllFormed?_eq_none_iff.mp sound
  simp only [wellFormedLength, segments_append back wellFormed,
    List.takeWhile_append_of_pos wellFormed, List.flatMap_append, List.length_append,
    segments_flatten]

/-- Well-formed bytes in front of a string move its first fault. Nothing is asked of the back, and a
string that is sound stays so. -/
theorem firstIllFormed?_append_of_sound {front : Bytes} (back : Bytes)
    (sound : firstIllFormed? front = none) :
    firstIllFormed? (front ++ back) = (firstIllFormed? back).map (front.length + ·) := by
  simp only [firstIllFormed?, wellFormedLength_append back sound, List.length_append,
    Nat.add_left_cancel_iff]
  split <;> rfl

end Utf8

namespace Encoding

/-- The bytes of one character of an encoding. -/
inductive IsCharacter : Encoding → Bytes → Prop where
  /-- A character of UTF-8 encodes a Unicode scalar value. -/
  | utf8 (character : Char) : IsCharacter .utf8 (String.utf8EncodeChar character)
  /-- A character of ASCII is a byte below `0x80`. -/
  | ascii {byte : UInt8} (low : byte < 0x80) : IsCharacter .ascii [byte]
  /-- Where nothing is claimed, every byte is a character. -/
  | binary (byte : UInt8) : IsCharacter .binary [byte]

/-- A byte string is a sequence of characters. -/
def IsSpelled (encoding : Encoding) (bytes : Bytes) : Prop :=
  ∃ characters : List Bytes,
    (∀ character ∈ characters, encoding.IsCharacter character) ∧ characters.flatten = bytes

/-- No bytes are sound. -/
theorem sound_nil (encoding : Encoding) : encoding.Sound [] := by
  cases encoding with
  | utf8 => exact Utf8.firstIllFormed?_nil
  | ascii | binary => rfl

/-- A character is sound. For UTF-8 it is an encoded character, and otherwise a single byte that the
encoding has. -/
theorem IsCharacter.sound {encoding : Encoding} {bytes : Bytes}
    (isCharacter : encoding.IsCharacter bytes) : encoding.Sound bytes := by
  cases isCharacter with
  | utf8 character =>
    apply Utf8.firstIllFormed?_eq_none_iff_exists.mpr
    exact ⟨String.singleton character, by simp [Utf8.ofText]⟩
  | ascii low => simp [Sound, firstFault?, Bytes.isAscii, low]
  | binary byte => rfl

/-- Single bytes are a sequence of characters if each is one. -/
theorem isSpelled_of_bytes {encoding : Encoding} {bytes : Bytes}
    (areCharacters : ∀ byte ∈ bytes, encoding.IsCharacter [byte]) : encoding.IsSpelled bytes := by
  refine ⟨bytes.map ([·]), ?_, ?_⟩
  · simpa using areCharacters
  · simp [← List.flatMap_def]

/-- A byte string is sound exactly if it is a sequence of characters. The check counts well-formed
bytes, and this says without counting what it accepts. -/
theorem sound_iff_isSpelled {encoding : Encoding} {bytes : Bytes} :
    encoding.Sound bytes ↔ encoding.IsSpelled bytes := by
  constructor
  · intro sound
    cases encoding with
    | utf8 =>
      obtain ⟨text, rfl⟩ := Utf8.firstIllFormed?_eq_none_iff_exists.mp sound
      refine ⟨text.toList.map String.utf8EncodeChar, ?_, ?_⟩
      · simpa using fun character _ => IsCharacter.utf8 character
      · rw [Utf8.ofText, List.flatMap_def]
    | ascii =>
      simp only [Sound, firstFault?, List.findIdx?_eq_none_iff, Bytes.isAscii, Bool.not_eq_false',
        decide_eq_true_eq] at sound
      exact isSpelled_of_bytes fun byte member => .ascii (sound byte member)
    | binary => exact isSpelled_of_bytes fun byte _ => .binary byte
  · rintro ⟨characters, areCharacters, rfl⟩
    induction characters with
    | nil => exact encoding.sound_nil
    | cons character characters inductionHypothesis =>
      obtain ⟨here, later⟩ := List.forall_mem_cons.mp areCharacters
      exact here.sound.append (inductionHypothesis later)

/-- A complaint tells the length of the longest front about which there is none. The fronts that are
accepted need not be closed under shortening: one that ends inside a character is refused. -/
theorem check_eq_some_iff_isGreatest {encoding : Encoding} {bytes : Bytes}
    {invalid : InvalidBytes} :
    encoding.check bytes = some invalid ↔
      invalid.encoding = encoding ∧ invalid.offset < bytes.length ∧
      IsGreatest {length | length ≤ bytes.length ∧ encoding.check (bytes.take length) = none}
        invalid.offset := by
  simp only [check_eq_some_iff, check_eq_none_iff, FirstFaultAt]
  apply and_congr_right
  rintro -
  apply and_congr_right
  intro inside
  constructor
  · rintro ⟨sound, longest⟩
    refine ⟨⟨Nat.le_of_lt inside, sound⟩, ?_⟩
    rintro length ⟨within, soundThere⟩
    apply Nat.le_of_not_lt
    exact fun longer => longest length longer within soundThere
  · rintro ⟨⟨-, sound⟩, greatest⟩
    refine ⟨sound, ?_⟩
    intro longer behind within soundThere
    exact Nat.not_le_of_lt behind (greatest ⟨within, soundThere⟩)

/-- Sound bytes in front of a string move its first fault. -/
theorem firstFault?_append {encoding : Encoding} {front : Bytes} (back : Bytes)
    (sound : encoding.Sound front) :
    encoding.firstFault? (front ++ back) = (encoding.firstFault? back).map (front.length + ·) := by
  cases encoding with
  | utf8 => exact Utf8.firstIllFormed?_append_of_sound back sound
  | ascii =>
    have none : front.findIdx? (fun byte => !Bytes.isAscii byte) = none := sound
    simp only [firstFault?, List.findIdx?_append, none, Option.none_or, Nat.add_comm]
  | binary => rfl

/-- Sound bytes in front of a string move the complaint about it. So the offset that a complaint
tells is one into the whole string, wherever the check began. -/
theorem check_append {encoding : Encoding} {front : Bytes} (back : Bytes)
    (sound : encoding.Sound front) :
    encoding.check (front ++ back) = (encoding.check back).map (·.shift front.length) := by
  simp only [check, firstFault?_append back sound, Option.map_map]
  rfl

end Encoding

namespace Cursor

variable {cursor : Cursor} {start stop : Nat}

/-- A span in order is checked by itself, and a complaint is moved to where the span starts. -/
theorem check_of_ordered (ordered : start ≤ stop) :
    cursor.check start stop =
      .ok ((cursor.template.encoding.check (cursor.template.bytes.slice start stop)).map
        (·.shift start)) := by
  rw [check, slice, if_pos ordered]
  rfl

/-- A complaint about a span is about a byte of the template. The end of the span is cut short at
the end of the template, and the complaint is in front of both. -/
theorem offset_lt_of_check {relative : InvalidBytes}
    (faulty : cursor.template.encoding.check (cursor.template.bytes.slice start stop) =
      some relative) :
    start + relative.offset < min stop cursor.template.length := by
  obtain ⟨-, inside, -⟩ := Encoding.check_eq_some_iff.mp faulty
  rw [Bytes.length_slice] at inside
  exact Nat.add_lt_of_lt_sub' inside

/-- Behind sound bytes, a span is checked as all the bytes up to its end are. Without soundness in
front the span could begin inside a character, and would then be refused at its first byte. -/
theorem check_eq_check_take (ordered : start ≤ stop)
    (sound : cursor.template.encoding.Sound (cursor.template.bytes.take start)) :
    cursor.check start stop =
      .ok (cursor.template.encoding.check (cursor.template.bytes.take stop)) := by
  have cut : cursor.template.bytes.take stop =
      cursor.template.bytes.take start ++ cursor.template.bytes.slice start stop :=
    (cursor.template.bytes.slice_append_slice (Nat.zero_le start) ordered).symm
  rw [check_of_ordered ordered, cut, Encoding.check_append _ sound, List.length_take]
  rcases Nat.le_total start cursor.template.bytes.length with inside | beyond
  · rw [Nat.min_eq_left inside]
  · -- Here the length of the front is not the start, but there is no complaint to be moved.
    have empty : cursor.template.bytes.slice start stop = [] := by
      rw [Bytes.slice, List.drop_of_length_le beyond, List.take_nil]
    rw [empty, Encoding.check_eq_none_iff.mpr (Encoding.sound_nil _)]
    rfl

end Cursor

namespace Verifier.Agrees

variable {verifier : Verifier} (agrees : verifier.Agrees)
include agrees

/-- A check with a verifier that agrees is the check of this library. Only the bytes of a template
in UTF-8 are left to the verifier. -/
theorem checkBy_eq (encoding : Encoding) (bytes : Bytes) :
    encoding.checkBy verifier bytes = encoding.check bytes := by
  cases encoding with
  | utf8 => simp only [Encoding.checkBy, Encoding.firstFaultBy?, agrees bytes]; rfl
  | ascii | binary => rfl

/-- A check of a span with a verifier that agrees is the check of this library. -/
theorem cursor_checkBy_eq (cursor : Cursor) (start stop : Nat) :
    cursor.checkBy verifier start stop = cursor.check start stop := by
  simp only [Cursor.checkBy, Cursor.check, agrees.checkBy_eq]

/-- The check of an encoding is exact and composes, whatever verifier it is made with, if that finds
the first segment that is not well formed. There is no complaint exactly about a sequence of
characters of the encoding; a complaint names the encoding and the length of the longest front about
which there is none, which is not the whole string. A span of a template that does not start after
it ends, with ends inside the template or not, is always checked. If there is no complaint about
what stands in front of it, the outcome, offsets included, is that of the check from the first byte
on up to the end of the span, by the same or any other cursor; and the start and the offset in the
span never add up to more than a machine word that holds the length of the template.

Proof: replace the verifier by the check of this library, with which it agrees. The first fault is
the length of the longest sound front. Sound byte strings joined are sound, so a sound front is
passed over, and the first fault of what is behind it lies as much later in the whole; the sum is
below the length of the template. -/
theorem check_exact :
    (∀ encoding : Encoding, ∀ bytes,
      (encoding.checkBy verifier bytes = none ↔ encoding.IsSpelled bytes) ∧
      ∀ invalid, encoding.checkBy verifier bytes = some invalid ↔
        invalid.encoding = encoding ∧ invalid.offset < bytes.length ∧
        IsGreatest {length | length ≤ bytes.length ∧
          encoding.checkBy verifier (bytes.take length) = none} invalid.offset) ∧
    ∀ (cursor : Cursor) (start stop : Nat), start ≤ stop →
      (∃ outcome, cursor.checkBy verifier start stop = .ok outcome) ∧
      (cursor.template.encoding.checkBy verifier (cursor.template.bytes.take start) = none →
        cursor.checkBy verifier start stop =
          .ok (cursor.template.encoding.checkBy verifier (cursor.template.bytes.take stop)) ∧
        ∀ other : Cursor, other.template = cursor.template →
          cursor.checkBy verifier start stop = other.checkBy verifier 0 stop) ∧
      ∀ relative, cursor.template.encoding.checkBy verifier
          (cursor.template.bytes.slice start stop) = some relative →
        start + relative.offset < min stop cursor.template.length ∧
        (cursor.template.length < 2 ^ 64 →
          Guarded.sum start relative.offset = .ok (start + relative.offset)) := by
  simp only [agrees.checkBy_eq, agrees.cursor_checkBy_eq]
  constructor
  · intro encoding bytes
    refine ⟨?_, fun invalid => Encoding.check_eq_some_iff_isGreatest⟩
    rw [Encoding.check_eq_none_iff, Encoding.sound_iff_isSpelled]
  · intro cursor start stop ordered
    refine ⟨⟨_, Cursor.check_of_ordered ordered⟩, ?_, ?_⟩
    · intro sound
      have whole := Cursor.check_eq_check_take ordered (Encoding.check_eq_none_iff.mp sound)
      refine ⟨whole, ?_⟩
      rintro other same
      rw [whole, ← same, Cursor.check_eq_check_take (Nat.zero_le stop) (Encoding.sound_nil _)]
    · intro relative faulty
      have inside := Cursor.offset_lt_of_check faulty
      refine ⟨inside, fun small => Guarded.sum_eq ?_⟩
      omega

end Verifier.Agrees

/-- Behind the byte `o`, a span that begins with `é`, goes on with two of the three bytes of `€` and
is to end far behind the template has its fault where the template has its own. -/
theorem Verifier.check_exact_in_front_of_truncated_character :
    let verifier : Verifier := Utf8.firstIllFormed?
    let template : Template := .utf8 [0x6f, 0xc3, 0xa9, 0xe2, 0x82, 0x61]
    let cursor : Cursor := { template, position := 5 }
    verifier.Agrees ∧ 1 ≤ 2 ^ 64 - 1 ∧
    Encoding.checkBy verifier .utf8 (template.bytes.take 1) = none ∧
    cursor.checkBy verifier 1 (2 ^ 64 - 1) = .ok (some ⟨.utf8, 3⟩) ∧
    cursor.checkBy verifier 1 (2 ^ 64 - 1) =
      (Cursor.atStart template).checkBy verifier 0 (2 ^ 64 - 1) ∧
    Encoding.IsSpelled .utf8 (template.bytes.take 3) ∧
    Encoding.checkBy verifier .utf8 (template.bytes.slice 1 (2 ^ 64 - 1)) = some ⟨.utf8, 2⟩ ∧
    Guarded.sum 1 2 = .ok 3 := by
  intro verifier template cursor
  have agrees : verifier.Agrees := fun _ => rfl
  obtain ⟨encodings, spans⟩ := agrees.check_exact
  have inFront : Encoding.checkBy verifier .utf8 (template.bytes.take 1) = none := by
    decide +kernel
  have relative : Encoding.checkBy verifier .utf8 (template.bytes.slice 1 (2 ^ 64 - 1)) =
      some ⟨.utf8, 2⟩ := by
    decide +kernel
  have absolute : Encoding.checkBy verifier .utf8 (template.bytes.take (2 ^ 64 - 1)) =
      some ⟨.utf8, 3⟩ := by
    decide +kernel
  obtain ⟨-, composes, bounds⟩ := spans cursor 1 (2 ^ 64 - 1) (by decide)
  obtain ⟨whole, sameForAll⟩ := composes inFront
  refine ⟨agrees, by decide, inFront, ?_, sameForAll (.atStart template) rfl, ?_, relative, ?_⟩
  · exact whole.trans (congrArg Except.ok absolute)
  · exact (encodings .utf8 (template.bytes.take 3)).1.mp (by decide +kernel)
  · exact (bounds ⟨.utf8, 2⟩ relative).2 (by decide)

end TemplateTokens
