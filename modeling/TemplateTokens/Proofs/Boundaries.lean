import TemplateTokens.Proofs.Utf8

/-!
# Character boundaries

A boundary is a place between two segments, or an end of the string. Well-formed text can be cut at
its boundaries into well-formed parts and at no other places. An ASCII byte is a segment of its own,
so there is a boundary in front of it and one behind it, whatever surrounds it.

A byte string need not be well formed to have boundaries; where it is, they are the places at which
it can be cut into two texts (`sound_iff_isBoundary`). The markers of a template are ASCII, and so
the places where a scan cuts are boundaries unless it cuts by length alone.
-/

namespace TemplateTokens.Utf8

/-- An offset lies between two segments, in front of the first or behind the last. -/
def IsBoundary (bytes : Bytes) (offset : Nat) : Prop :=
  ∃ before after, segments bytes = before ++ after ∧
    (before.flatMap Segment.bytes).length = offset

/-- Bytes that fit ranges above ASCII are no ASCII bytes. -/
theorem le_of_mem_fitting {ranges : List ByteRange} {bytes : Bytes}
    (aboveAscii : ∀ range ∈ ranges, 0x80 ≤ range.low) :
    ∀ byte ∈ fitting ranges bytes, 0x80 ≤ byte := by
  induction ranges generalizing bytes with
  | nil => simp [fitting]
  | cons range ranges inductionHypothesis =>
    obtain ⟨first, later⟩ := List.forall_mem_cons.mp aboveAscii
    cases bytes with
    | nil => simp [fitting]
    | cons byte rest =>
      simp only [fitting]
      cases fits : range.contains byte with
      | false => simp
      | true =>
        have high : 0x80 ≤ byte := by
          rw [UInt8.le_iff_toNat_le] at first ⊢
          exact Nat.le_trans first (ByteRange.contains_iff.mp fits).1
        exact List.forall_mem_cons.mpr ⟨high, inductionHypothesis later⟩

/-- The bytes of a segment behind its lead byte are no ASCII bytes. An ASCII byte therefore always
begins a segment, wherever it stands and whatever stands in front of it. -/
theorem le_of_mem_leading_tail (lead : UInt8) (rest : Bytes) :
    ∀ byte ∈ (leading lead rest).tail, 0x80 ≤ byte := by
  unfold leading
  split
  · simp
  · next ranges asked => exact le_of_mem_fitting (followers?_above_ascii asked)

/-- An ASCII byte is a character. -/
theorem leading_of_ascii {lead : UInt8} (rest : Bytes) (ascii : lead < 0x80) :
    leading lead rest =
      { lead, tail := [], scalar? := some (Char.ofNat (scalarValue lead [])) } := by
  have low : lead ≤ 0x7f := by
    rw [UInt8.le_iff_toNat_le]
    exact Nat.le_of_lt_succ (UInt8.lt_iff_toNat_lt.mp ascii)
  have asked : followers? lead = some [] := by rw [followers?, if_pos low]
  simp [leading, asked, fitting]

/-- An ASCII byte is a segment by itself. -/
theorem leading_bytes_of_ascii {lead : UInt8} (rest : Bytes) (ascii : lead < 0x80) :
    (leading lead rest).bytes = [lead] := by
  rw [leading_of_ascii rest ascii, Segment.bytes]

/-- ASCII bytes are well formed throughout. -/
theorem firstIllFormed?_of_ascii {bytes : Bytes} (ascii : ∀ byte ∈ bytes, byte < 0x80) :
    firstIllFormed? bytes = none := by
  induction bytes with
  | nil => exact firstIllFormed?_nil
  | cons byte rest inductionHypothesis =>
    obtain ⟨here, later⟩ := List.forall_mem_cons.mp ascii
    have alone : firstIllFormed? [byte] = none := by
      simp [firstIllFormed?_eq_none_iff, segments, leading_of_ascii [] here, Segment.isWellFormed]
    exact firstIllFormed?_append alone (inductionHypothesis later)

/-- Every segment is the first one of some bytes. What is known of first segments is known of all in
this way, without another induction on the string. -/
theorem exists_leading_of_mem {bytes : Bytes} {segment : Segment}
    (member : segment ∈ segments bytes) : ∃ lead rest, segment = leading lead rest := by
  induction bytes using segments.induct with
  | case1 => simp [segments] at member
  | case2 lead rest first inductionHypothesis =>
    rw [segments] at member
    rcases List.mem_cons.mp member with here | later
    · exact ⟨lead, rest, here⟩
    · exact inductionHypothesis later

/-- The bytes of well-formed segments are well formed. They may be any of the segments, in any order
and with others left out between them. -/
theorem firstIllFormed?_flatMap (bytes : Bytes) {chosen : List Segment}
    (among : ∀ segment ∈ chosen, segment ∈ segments bytes)
    (wellFormed : ∀ segment ∈ chosen, segment.isWellFormed) :
    firstIllFormed? (chosen.flatMap Segment.bytes) = none := by
  induction chosen with
  | nil => exact firstIllFormed?_nil
  | cons segment later inductionHypothesis =>
    obtain ⟨amongHere, amongLater⟩ := List.forall_mem_cons.mp among
    obtain ⟨wellFormedHere, wellFormedLater⟩ := List.forall_mem_cons.mp wellFormed
    obtain ⟨lead, rest, same⟩ := exists_leading_of_mem amongHere
    refine firstIllFormed?_append ?_ (inductionHypothesis amongLater wellFormedLater)
    rw [firstIllFormed?_eq_none_iff, same, segments_leading_bytes, ← same]
    simpa using wellFormedHere

/-- Behind well-formed bytes there is a boundary. Nothing is asked of what follows, which may be
faulty from its first byte on. -/
theorem isBoundary_of_sound {front : Bytes} (back : Bytes)
    (sound : firstIllFormed? front = none) : IsBoundary (front ++ back) front.length :=
  ⟨segments front, segments back, segments_append back (firstIllFormed?_eq_none_iff.mp sound),
    by rw [segments_flatten]⟩

/-- Well-formed text is cut into well-formed parts at a boundary. The converse does not need the
boundary: well-formed parts always join to well-formed text. -/
theorem sound_cut {front back : Bytes} (sound : firstIllFormed? (front ++ back) = none)
    (boundary : IsBoundary (front ++ back) front.length) :
    firstIllFormed? front = none ∧ firstIllFormed? back = none := by
  obtain ⟨before, after, split, length⟩ := boundary
  have joined := segments_flatten (front ++ back)
  rw [split, List.flatMap_append] at joined
  obtain ⟨sameFront, sameBack⟩ := List.append_inj joined length
  have wellFormed := firstIllFormed?_eq_none_iff.mp sound
  rw [split] at wellFormed
  constructor
  · rw [← sameFront]
    apply firstIllFormed?_flatMap (front ++ back)
    · simp +contextual [split]
    · simp +contextual [wellFormed]
  · rw [← sameBack]
    apply firstIllFormed?_flatMap (front ++ back)
    · simp +contextual [split]
    · simp +contextual [wellFormed]

/-- In front of an ASCII byte there is a boundary: the byte could only belong to a segment that
begins earlier if it were one of the bytes behind its lead byte. -/
theorem isBoundary_before_ascii (front : Bytes) {byte : UInt8} (rest : Bytes)
    (ascii : byte < 0x80) : IsBoundary (front ++ byte :: rest) front.length := by
  have joined := segments_flatten (front ++ byte :: rest)
  rw [List.flatMap_def, List.flatten_eq_append_iff] at joined
  rcases joined with ⟨before, after, cut, sameFront, -⟩ |
    ⟨before, inner, first, outer, after, cut, sameFront, sameBack⟩
  · obtain ⟨segmentsBefore, segmentsAfter, split, rfl, rfl⟩ := List.map_eq_append_iff.mp cut
    exact ⟨segmentsBefore, segmentsAfter, split, by rw [sameFront, List.flatMap_def]⟩
  · obtain ⟨segmentsBefore, segmentsAfter, split, rfl, others⟩ := List.map_eq_append_iff.mp cut
    obtain ⟨segment, segmentsLater, rfl, inside, -⟩ := List.map_eq_cons_iff.mp others
    obtain rfl : byte = first := (List.cons.inj sameBack).1
    cases inner with
    | nil =>
      refine ⟨segmentsBefore, segment :: segmentsLater, split, ?_⟩
      rw [sameFront, List.append_nil, List.flatMap_def]
    | cons lead inner =>
      have member : segment ∈ segments (front ++ byte :: rest) := by simp [split]
      obtain ⟨start, behind, rfl⟩ := exists_leading_of_mem member
      have tail : byte ∈ (leading start behind).tail := by
        rw [Segment.bytes, List.cons_append, List.cons.injEq] at inside
        simp [inside.2]
      have high := UInt8.le_iff_toNat_le.mp (le_of_mem_leading_tail start behind byte tail)
      exact absurd (UInt8.lt_iff_toNat_lt.mp ascii) (Nat.not_lt_of_le high)

/-- Behind an ASCII byte there is a boundary. All markers are ASCII, so a scan cuts at boundaries
however faulty the bytes between the markers are. -/
theorem isBoundary_behind_ascii (front : Bytes) {byte : UInt8} (rest : Bytes)
    (ascii : byte < 0x80) : IsBoundary (front ++ byte :: rest) (front.length + 1) := by
  obtain ⟨before, after, split, length⟩ := isBoundary_before_ascii front rest ascii
  have joined := segments_flatten (front ++ byte :: rest)
  rw [split, List.flatMap_append] at joined
  obtain ⟨-, sameBack⟩ := List.append_inj joined length
  cases after with
  | nil => simp at sameBack
  | cons segment later =>
    have member : segment ∈ segments (front ++ byte :: rest) := by simp [split]
    obtain ⟨lead, behind, rfl⟩ := exists_leading_of_mem member
    obtain rfl : lead = byte := by
      simpa [Segment.bytes] using congrArg List.head? sameBack
    refine ⟨before ++ [leading lead behind], later, by simp [split], ?_⟩
    rw [List.flatMap_append, List.length_append, length, List.flatMap_singleton,
      leading_bytes_of_ascii behind ascii]
    rfl

/-- Behind well-formed bytes the boundaries are those of what follows. This is how the end of a
window inside text decides whether the bytes of the window are text themselves. -/
theorem sound_iff_isBoundary {front middle back : Bytes} (sound : firstIllFormed? front = none)
    (whole : firstIllFormed? (front ++ (middle ++ back)) = none) :
    firstIllFormed? middle = none ↔
      IsBoundary (front ++ (middle ++ back)) (front.length + middle.length) := by
  rw [← List.append_assoc] at whole ⊢
  rw [← List.length_append]
  constructor
  · intro middleSound
    exact isBoundary_of_sound back (firstIllFormed?_append sound middleSound)
  · intro boundary
    exact (sound_cut (sound_cut whole boundary).1 (isBoundary_of_sound middle sound)).2

/-- A byte string has a text exactly if it is well formed throughout. Whether there is a text is
thus settled by the check that a template undergoes, and needs no second definition. -/
theorem text?_isSome_iff {bytes : Bytes} :
    (text? bytes).isSome ↔ firstIllFormed? bytes = none := by
  rw [firstIllFormed?_eq_none_iff, text?, Option.isSome_map]
  induction segments bytes with
  | nil => simp
  | cons segment later inductionHypothesis =>
    rw [List.mapM_cons, List.forall_mem_cons, ← inductionHypothesis, Segment.isWellFormed]
    cases segment.scalar? <;> cases later.mapM Segment.scalar? <;> simp

end TemplateTokens.Utf8
