import Mathlib.Order.Bounds.Basic
import TemplateTokens.Proofs.Utf8.Characters

/-!
# What replacement leaves of a string

Where no character begins, the bytes to be replaced by one character are the longest front that is a
single byte or begins the encoding of a character. `Repaired` says with these words what becomes of
a whole string, and there is one such text, the one that is shown (`repaired_iff`). None of the
bytes replaced is an ASCII byte, so the ASCII bytes of a string are those of the text shown for it.

The relation does not mention segments or the table of lead bytes. It is compared with the decoder
at the longest front that begins an encoding, which the decoder takes whole (`isGreatest_leading`).
What replaces a subpart is a single character, so shown texts may be longer in bytes than what they
show.
-/

namespace TemplateTokens.Utf8

/-- The numbers of bytes at the front of a string that are one byte or begin a character. -/
def begunLengths (bytes : Bytes) : Set Nat :=
  {length | 0 < length ∧ length ≤ bytes.length ∧
    (length = 1 ∨ ∃ character, bytes.take length <+: String.utf8EncodeChar character)}

/-- A text is left of a byte string after repair, given by its characters. -/
inductive Repaired : Bytes → List Char → Prop where
  /-- No bytes are no characters. -/
  | empty : Repaired [] []
  /-- A character at the front is kept. -/
  | kept (character : Char) {rest : Bytes} {later : List Char} (repaired : Repaired rest later) :
      Repaired (String.utf8EncodeChar character ++ rest) (character :: later)
  /-- Where no character begins, one takes the place of the longest begun front. -/
  | replaced {bytes : Bytes} {length : Nat} {later : List Char} (faulty : ¬ BeginsCharacter bytes)
      (longest : IsGreatest (begunLengths bytes) length)
      (repaired : Repaired (bytes.drop length) later) : Repaired bytes ('\uFFFD' :: later)

/-- Of a run that fits to its end, every front that stands elsewhere fits there. -/
theorem prefix_fitting {ranges : List ByteRange} {front whole rest : Bytes} (begun : front <+: whole)
    (fits : fitting ranges whole = whole) (inFront : front <+: rest) :
    front <+: fitting ranges rest := by
  induction ranges generalizing front whole rest with
  | nil =>
    obtain rfl : [] = whole := by simpa [fitting] using fits
    rw [List.prefix_nil.mp begun]
    exact List.nil_prefix
  | cons range ranges inductionHypothesis =>
    cases front with
    | nil => exact List.nil_prefix
    | cons byte front =>
      obtain ⟨wholeRest, rfl⟩ := begun
      obtain ⟨restRest, rfl⟩ := inFront
      simp only [List.cons_append, fitting] at fits ⊢
      cases inRange : range.contains byte with
      | false => simp [inRange] at fits
      | true =>
        simp only [inRange, if_true, List.cons.injEq, true_and] at fits ⊢
        apply List.cons_prefix_cons.mpr
        exact ⟨rfl, inductionHypothesis (List.prefix_append _ _) fits (List.prefix_append _ _)⟩

/-- The front of a segment behind its lead byte is taken wherever it stands behind that byte. -/
theorem prefix_leading_tail {lead : UInt8} {front whole rest : Bytes} (begun : front <+: whole)
    (taken : (leading lead whole).tail = whole) (inFront : front <+: rest) :
    front <+: (leading lead rest).tail := by
  cases asked : followers? lead with
  | none =>
    obtain rfl : [] = whole := by simpa [leading, asked] using taken
    rw [List.prefix_nil.mp begun]
    exact List.nil_prefix
  | some ranges =>
    simp only [leading, asked] at taken ⊢
    exact prefix_fitting begun taken inFront

/-- The least byte that a lead byte admits at a place is admitted. -/
theorem contains_low {lead : UInt8} {ranges : List ByteRange} (asked : followers? lead = some ranges) :
    ∀ range ∈ ranges, range.contains range.low = true := by
  unfold followers? at asked
  repeat' split at asked
  all_goals cases asked
  all_goals simp [continuation, ByteRange.contains]

/-- The least bytes that are admitted fit to the end. -/
theorem fitting_lows {ranges : List ByteRange}
    (nonempty : ∀ range ∈ ranges, range.contains range.low = true) :
    fitting ranges (ranges.map (·.low)) = ranges.map (·.low) := by
  induction ranges with
  | nil => rfl
  | cons range ranges inductionHypothesis =>
    obtain ⟨first, others⟩ := List.forall_mem_cons.mp nonempty
    simp only [List.map_cons, fitting, first, if_true, inductionHypothesis others]

/-- A run that breaks off can be completed. Each range admits its least byte, so what is missing can
be made up of those. -/
theorem exists_complete {ranges : List ByteRange}
    (nonempty : ∀ range ∈ ranges, range.contains range.low = true) (bytes : Bytes) :
    ∃ more, fitting ranges (fitting ranges bytes ++ more) = fitting ranges bytes ++ more ∧
      (fitting ranges bytes ++ more).length = ranges.length := by
  induction ranges generalizing bytes with
  | nil => exact ⟨[], rfl, rfl⟩
  | cons range ranges inductionHypothesis =>
    have fromNothing := fitting_lows nonempty
    -- Without the first byte nothing of the run is there, and it is completed as a whole.
    cases bytes with
    | nil => exact ⟨_, fromNothing, by simp [fitting]⟩
    | cons byte rest =>
      cases inRange : range.contains byte with
      | false =>
        have nothing : fitting (range :: ranges) (byte :: rest) = [] := by simp [fitting, inRange]
        rw [nothing]
        exact ⟨_, fromNothing, by simp⟩
      | true =>
        obtain ⟨more, fits, complete⟩ :=
          inductionHypothesis (fun range member => nonempty range (.tail _ member)) rest
        refine ⟨more, ?_, ?_⟩
        · simp only [fitting, inRange, if_true, List.cons_append, fits]
        · simp only [fitting, inRange, if_true, List.cons_append, List.length_cons, complete]

/-- A first segment that is more than its lead byte begins a character. A lead byte that asks for
nothing, and one behind which nothing fits, are the segments of one byte. -/
theorem leading_begun (lead : UInt8) (rest : Bytes) :
    (leading lead rest).tail = [] ∨
      ∃ character, (leading lead rest).bytes <+: String.utf8EncodeChar character := by
  cases asked : followers? lead with
  | none => exact .inl (by simp [leading, asked])
  | some ranges =>
    right
    obtain ⟨more, fits, complete⟩ := exists_complete (contains_low asked) rest
    have tail : (leading lead rest).tail = fitting ranges rest := by simp [leading, asked]
    have decoded : ∃ character, (leading lead (fitting ranges rest ++ more)).scalar? =
        some character := by
      simp [leading, asked, fits, complete]
    obtain ⟨character, decoded⟩ := decoded
    refine ⟨character, ?_⟩
    have encoded := utf8EncodeChar_of_decoded decoded
    simp only [Segment.bytes, leading_lead] at encoded ⊢
    rw [encoded, tail, leading, asked]
    simp only
    rw [fits]
    exact List.cons_prefix_cons.mpr ⟨rfl, List.prefix_append _ _⟩

/-- No character begins with more of the bytes than the first segment has. -/
theorem length_le_of_begun {lead : UInt8} {rest : Bytes} {length : Nat}
    (begun : length ∈ begunLengths (lead :: rest)) :
    length ≤ (leading lead rest).bytes.length := by
  obtain ⟨positive, inside, rfl | ⟨character, inFront⟩⟩ := begun
  · simp [Segment.bytes]
  · obtain ⟨length, rfl⟩ := Nat.exists_eq_succ_of_ne_zero positive.ne'
    obtain ⟨first, tail, encoded, decoded⟩ := leading_utf8EncodeChar character []
    rw [encoded, List.take_succ_cons, List.cons_prefix_cons] at inFront
    obtain ⟨rfl, inFront⟩ := inFront
    -- By itself the encoding is a segment with all of its bytes, so its front fits here, too.
    rw [List.append_nil] at decoded
    have taken : (leading lead tail).tail = tail := congrArg Segment.tail decoded
    have short := (prefix_leading_tail inFront taken (List.take_prefix length rest)).length_le
    rw [List.length_take_of_le (Nat.le_of_succ_le_succ inside)] at short
    exact Nat.succ_le_succ short

/-- The first segment is a prefix of its string. -/
theorem leading_bytes_isPrefix (lead : UInt8) (rest : Bytes) :
    (leading lead rest).bytes <+: lead :: rest := by
  rw [Segment.bytes, leading_lead]
  exact List.cons_prefix_cons.mpr ⟨rfl, leading_tail_isPrefix lead rest⟩

/-- The first segment is the longest front that is one byte or begins a character. This describes a
segment without the tables it is found with. -/
theorem isGreatest_leading (lead : UInt8) (rest : Bytes) :
    IsGreatest (begunLengths (lead :: rest)) (leading lead rest).bytes.length := by
  have inFront := leading_bytes_isPrefix lead rest
  refine ⟨⟨by simp [Segment.bytes], inFront.length_le, ?_⟩, fun _ => length_le_of_begun⟩
  rw [← List.prefix_iff_eq_take.mp inFront]
  refine (leading_begun lead rest).imp_left ?_
  intro alone
  simp [Segment.bytes, alone]

/-- The bytes behind the first segment are the others. -/
theorem drop_leading_bytes (lead : UInt8) (rest : Bytes) :
    (lead :: rest).drop (leading lead rest).bytes.length =
      rest.drop (leading lead rest).tail.length := rfl

/-- The characters shown for the segments are what is left after repair. The induction is on the
segments, of which a faulty one is replaced by a single character. -/
theorem repaired_segments (bytes : Bytes) :
    Repaired bytes ((segments bytes).map Segment.shown) := by
  induction bytes using segments.induct with
  | case1 =>
    rw [segments]
    exact .empty
  | case2 lead rest segment inductionHypothesis =>
    rw [segments, List.map_cons]
    cases decoded : (leading lead rest).scalar? with
    | none =>
      have shown : (leading lead rest).shown = '\uFFFD' := by rw [Segment.shown, decoded]; rfl
      rw [shown]
      exact .replaced (scalar?_leading_eq_none_iff.mp decoded) (isGreatest_leading lead rest)
        inductionHypothesis
    | some character =>
      have shown : (leading lead rest).shown = character := by rw [Segment.shown, decoded]; rfl
      have cut : lead :: rest = String.utf8EncodeChar character ++ rest.drop segment.tail.length := by
        rw [utf8EncodeChar_of_decoded decoded]
        exact (List.prefix_iff_eq_append.mp (leading_bytes_isPrefix lead rest)).symm
      rw [shown, cut]
      exact .kept character inductionHypothesis

/-- There is one text only that repair leaves. How much is replaced at once is fixed, since only the
longest front will do. -/
theorem Repaired.eq_shown {bytes : Bytes} {characters : List Char}
    (repaired : Repaired bytes characters) : characters = (segments bytes).map Segment.shown := by
  induction repaired with
  | empty => simp [segments]
  | @kept character rest later repaired inductionHypothesis =>
    obtain ⟨segment, -, decoded, cut⟩ := segments_utf8EncodeChar_append character rest
    rw [cut, List.map_cons, ← inductionHypothesis, Segment.shown, decoded]
    rfl
  | @replaced bytes length later faulty longest repaired inductionHypothesis =>
    cases bytes with
    | nil => exact absurd longest.1.2.1 (Nat.not_le_of_lt longest.1.1)
    | cons lead rest =>
      have same := longest.unique (isGreatest_leading lead rest)
      have none := scalar?_leading_eq_none_iff.mpr faulty
      rw [same, drop_leading_bytes] at inductionHypothesis
      rw [segments, List.map_cons, ← inductionHypothesis, Segment.shown, none]
      rfl

/-- The text that repair leaves is the one shown. The relation tells what is replaced and by what,
and nothing of how it is found. -/
theorem repaired_iff {bytes : Bytes} {text : String} :
    Repaired bytes text.toList ↔ lossyText bytes = text := by
  constructor
  · intro repaired
    rw [lossyText, ← repaired.eq_shown, String.ofList_toList]
  · rintro rfl
    rw [lossyText, String.toList_ofList]
    exact repaired_segments bytes

/-- What is well formed needs no repair. -/
theorem repaired_of_characters (characters : List Char) :
    Repaired (characters.flatMap String.utf8EncodeChar) characters := by
  induction characters with
  | nil => exact .empty
  | cons character characters inductionHypothesis => exact .kept character inductionHypothesis

/-- An encoded character is one ASCII byte or has none. -/
theorem utf8EncodeChar_ascii_or_high (character : Char) :
    (∃ byte < 0x80, String.utf8EncodeChar character = [byte]) ∨
      ∀ byte ∈ String.utf8EncodeChar character, 0x80 ≤ byte := by
  obtain ⟨lead, tail, encoded, decoded⟩ := leading_utf8EncodeChar character []
  rw [encoded]
  by_cases ascii : lead < 0x80
  · left
    have alone := leading_of_ascii (tail ++ []) ascii
    rw [decoded] at alone
    exact ⟨lead, ascii, congrArg (lead :: ·) (congrArg Segment.tail alone)⟩
  · right
    have behind := le_of_mem_leading_tail lead (tail ++ [])
    rw [decoded] at behind
    exact List.forall_mem_cons.mpr ⟨UInt8.not_lt.mp ascii, behind⟩

/-- No byte that is replaced is an ASCII byte. -/
theorem le_of_mem_replaced {bytes : Bytes} {length : Nat} (faulty : ¬ BeginsCharacter bytes)
    (longest : IsGreatest (begunLengths bytes) length) : ∀ byte ∈ bytes.take length, 0x80 ≤ byte := by
  cases bytes with
  | nil => simp
  | cons lead rest =>
    have none := scalar?_leading_eq_none_iff.mpr faulty
    have high : 0x80 ≤ lead := by
      apply UInt8.not_lt.mp
      intro ascii
      simp [leading_of_ascii rest ascii] at none
    rw [longest.unique (isGreatest_leading lead rest),
      ← List.prefix_iff_eq_take.mp (leading_bytes_isPrefix lead rest), Segment.bytes, leading_lead]
    exact List.forall_mem_cons.mpr ⟨high, le_of_mem_leading_tail lead rest⟩

/-- Two strings have the same ASCII bytes, with other bytes between them at the same places. -/
inductive SameAscii : Bytes → Bytes → Prop where
  /-- Two strings are empty. -/
  | empty : SameAscii [] []
  /-- Both begin with the same ASCII byte. -/
  | ascii {byte : UInt8} {left right : Bytes} (low : byte < 0x80) (same : SameAscii left right) :
      SameAscii (byte :: left) (byte :: right)
  /-- Both begin with other bytes. -/
  | other {leftPart rightPart left right : Bytes} (leftNonempty : leftPart ≠ [])
      (leftHigh : ∀ byte ∈ leftPart, 0x80 ≤ byte) (rightNonempty : rightPart ≠ [])
      (rightHigh : ∀ byte ∈ rightPart, 0x80 ≤ byte) (same : SameAscii left right) :
      SameAscii (leftPart ++ left) (rightPart ++ right)

/-- Repair changes bytes above ASCII only. The number of bytes may change, but the ASCII bytes keep
their order and what stands between them stays above ASCII. -/
theorem Repaired.sameAscii {bytes : Bytes} {characters : List Char}
    (repaired : Repaired bytes characters) :
    SameAscii bytes (characters.flatMap String.utf8EncodeChar) := by
  induction repaired with
  | empty => exact .empty
  | kept character repaired inductionHypothesis =>
    rw [List.flatMap_cons]
    rcases utf8EncodeChar_ascii_or_high character with ⟨byte, low, encoded⟩ | high
    · rw [encoded]
      exact .ascii low inductionHypothesis
    · have nonempty := String.utf8EncodeChar_ne_nil (c := character)
      exact .other nonempty high nonempty high inductionHypothesis
  | @replaced bytes length later faulty longest repaired inductionHypothesis =>
    have nonempty : bytes.take length ≠ [] := by
      apply List.ne_nil_of_length_pos
      rw [List.length_take_of_le longest.1.2.1]
      exact longest.1.1
    have replacement : ∀ byte ∈ String.utf8EncodeChar '\uFFFD', 0x80 ≤ byte := by
      simp [String.utf8EncodeChar]
    rw [List.flatMap_cons, ← List.take_append_drop length bytes]
    exact .other nonempty (le_of_mem_replaced faulty longest) String.utf8EncodeChar_ne_nil
      replacement inductionHypothesis

/-- Bytes above ASCII are left out of the ASCII bytes. -/
theorem filter_isAscii_of_high {bytes : Bytes} (high : ∀ byte ∈ bytes, 0x80 ≤ byte) :
    bytes.filter Bytes.isAscii = [] := by
  apply List.filter_eq_nil_iff.mpr
  intro byte member
  simp [Bytes.isAscii, high byte member]

/-- No ASCII byte stands in front of bytes above ASCII. -/
theorem not_prefix_of_high {byte : UInt8} {front part rest : Bytes} (ascii : byte < 0x80)
    (nonempty : part ≠ []) (high : ∀ byte ∈ part, 0x80 ≤ byte) :
    ¬ byte :: front <+: part ++ rest := by
  cases part with
  | nil => exact absurd rfl nonempty
  | cons first part =>
    rw [List.cons_append, List.cons_prefix_cons]
    rintro ⟨rfl, -⟩
    exact UInt8.not_lt.mpr (high byte List.mem_cons_self) ascii

namespace SameAscii

variable {left right : Bytes} (same : SameAscii left right)
include same

/-- The ASCII bytes of both are the same, in the same order. -/
theorem filter_isAscii_eq : left.filter Bytes.isAscii = right.filter Bytes.isAscii := by
  induction same with
  | empty => rfl
  | ascii low same inductionHypothesis => simp only [List.filter_cons, inductionHypothesis]
  | other leftNonempty leftHigh rightNonempty rightHigh same inductionHypothesis =>
    rw [List.filter_append, List.filter_append, filter_isAscii_of_high leftHigh,
      filter_isAscii_of_high rightHigh, inductionHypothesis]

/-- An ASCII byte occurs in both equally often. -/
theorem count_eq {byte : UInt8} (low : byte < 0x80) : left.count byte = right.count byte := by
  have isAscii : Bytes.isAscii byte = true := decide_eq_true low
  rw [← List.count_filter isAscii, same.filter_isAscii_eq, List.count_filter isAscii]

/-- Both begin with the same ASCII strings. Kinds of tokens are told by such strings. -/
theorem prefix_iff {front : Bytes} (ascii : ∀ byte ∈ front, byte < 0x80) :
    front <+: left ↔ front <+: right := by
  induction same generalizing front with
  | empty => rfl
  | ascii low same inductionHypothesis =>
    cases front with
    | nil => exact iff_of_true List.nil_prefix List.nil_prefix
    | cons first front =>
      obtain ⟨-, behind⟩ := List.forall_mem_cons.mp ascii
      simp only [List.cons_prefix_cons, inductionHypothesis behind]
  | other leftNonempty leftHigh rightNonempty rightHigh same inductionHypothesis =>
    cases front with
    | nil => exact iff_of_true List.nil_prefix List.nil_prefix
    | cons first front =>
      have low := ascii first List.mem_cons_self
      exact iff_of_false (not_prefix_of_high low leftNonempty leftHigh)
        (not_prefix_of_high low rightNonempty rightHigh)

end SameAscii

end TemplateTokens.Utf8
