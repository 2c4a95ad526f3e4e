import TemplateTokens.Guarded.Search
import TemplateTokens.Proofs.Search

/-!
# Guarded searches are not stopped

A guarded search that is not stopped finds what the search without guards finds, however many bytes
are searched. If they are fewer than `2 ^ 63` it is not stopped: no index of a search lies outside
the bytes, and no sum of offsets leaves the machine word.

The bound is asked of the bytes that are searched and not of a template, so the theorems serve any
cursor whose rest is short enough. What a search has not been stopped at lies inside the bytes by
its own guards; the bound is needed for the sums alone. The test for a word character needs none, as
it takes four bytes at most and no more than there are.
-/

namespace TemplateTokens

namespace Utf8

/-- A lead byte above ASCII asks for as many bytes as its width says. The width is read off the lead
byte by a table of its own, which is why the two have to be compared. -/
theorem length_of_followers? {lead : UInt8} {ranges : List ByteRange}
    (above : Bytes.isAscii lead = false) (asked : followers? lead = some ranges) :
    ranges.length + 1 = Guarded.characterWidth lead := by
  have high : ¬lead ≤ 0x7f := by
    intro low
    apply of_decide_eq_false above
    rw [UInt8.lt_iff_toNat_lt]
    exact Nat.lt_succ_of_le (UInt8.le_iff_toNat_le.mp low)
  rw [followers?, if_neg high] at asked
  -- what remains compares the intervals of the two tables, as numbers
  simp only [UInt8.le_iff_toNat_le, UInt8.lt_iff_toNat_lt, ← UInt8.toNat_inj,
    UInt8.reduceToNat] at asked high
  simp only [Guarded.characterWidth, UInt8.le_iff_toNat_le, UInt8.reduceToNat]
  grind

/-- A run takes one byte for each of its ranges at most. -/
theorem fitting_take (ranges : List ByteRange) (bytes : Bytes) :
    fitting ranges (bytes.take ranges.length) = fitting ranges bytes := by
  induction ranges generalizing bytes with
  | nil => simp [fitting]
  | cons range ranges inductionHypothesis =>
    cases bytes with
    | nil => simp [fitting]
    | cons byte rest => simp [fitting, inductionHypothesis]

/-- The first segment is found in as many bytes as the width of its lead byte says. -/
theorem leading_take {lead : UInt8} (above : Bytes.isAscii lead = false) (rest : Bytes) :
    leading lead (rest.take (Guarded.characterWidth lead - 1)) = leading lead rest := by
  cases asked : followers? lead with
  | none => simp [leading, asked]
  | some ranges =>
    have width := length_of_followers? above asked
    rw [← width, Nat.add_sub_cancel]
    simp only [leading, asked, fitting_take]

/-- The text of a lead byte above ASCII with as many bytes behind it as its width says is its
character, if it has one. -/
theorem text?_take {lead : UInt8} (above : Bytes.isAscii lead = false) (rest : Bytes) :
    text? (lead :: rest.take (Guarded.characterWidth lead - 1)) =
      (leading lead rest).scalar?.map (String.ofList [·]) := by
  have first := leading_take above rest
  rw [text?, segments, first]
  cases asked : followers? lead with
  | none => simp [leading, asked, List.mapM_cons]
  | some ranges =>
    by_cases complete : (fitting ranges rest).length = ranges.length
    · have width := length_of_followers? above asked
      have nothing : (rest.take (Guarded.characterWidth lead - 1)).drop ranges.length = [] := by
        rw [← width, Nat.add_sub_cancel]
        simp
      simp [leading, asked, complete, nothing, segments, List.mapM_cons]
    · simp [leading, asked, complete, List.mapM_cons]

end Utf8

namespace Guarded

/-- A search among stop bytes is not stopped. -/
theorem stopOffset?_eq (stops bytes : Bytes) :
    stopOffset? stops bytes = .ok (TemplateTokens.stopOffset? stops bytes) := by
  induction stops, bytes using TemplateTokens.stopOffset?.induct with
  | case1 first second third others bytes primary inductionHypothesis =>
    have inside : primary.getD bytes.length ≤ bytes.length := by
      cases hit : primary with
      | none => exact Nat.le_refl _
      | some offset =>
        obtain ⟨before, -⟩ := List.findIdx?_eq_some_iff_getElem.mp hit
        exact Nat.le_of_lt before
    rw [stopOffset?, front_eq inside, ok_bind, inductionHypothesis]
    rfl
  | case2 stops bytes short =>
    rw [stopOffset?, TemplateTokens.stopOffset?]
    · rfl
    · exact short
    · exact short

/-- The next lead byte is found without a stop. The position behind it is a sum that is guarded, and
the bound on the length is used for nothing else. -/
theorem leadOffsetsFrom?_eq (lead : UInt8) {offset : Nat} {bytes : Bytes}
    (small : bytes.length < 2 ^ 63) (inside : offset ≤ bytes.length) :
    leadOffsetsFrom? lead offset bytes =
      .ok (((bytes.drop offset).findIdx? (· == lead)).map fun distance =>
        (offset + distance, offset + distance + 1)) := by
  rw [leadOffsetsFrom?, behind_eq inside, ok_bind]
  cases search : (bytes.drop offset).findIdx? (· == lead) with
  | none => rfl
  | some distance =>
    obtain ⟨before, -⟩ := List.findIdx?_eq_some_iff_getElem.mp search
    rw [List.length_drop] at before
    simp only
    rw [sum_eq (by omega), ok_bind, sum_eq (by omega)]
    rfl

/-- A search for a pair tests the next lead byte and goes on behind it. -/
theorem pairOffsetFrom?_eq_bind (lead : UInt8) (follow : Bytes) (offset : Nat) (bytes : Bytes) :
    pairOffsetFrom? lead follow offset bytes =
      leadOffsetsFrom? lead offset bytes >>= fun
        | none => .ok none
        | some (position, next) =>
          if bytes[next]?.any follow.contains then .ok (some position)
          else pairOffsetFrom? lead follow next bytes := by
  rw [pairOffsetFrom?]
  split <;> next found => rw [found]; rfl

/-- The next lead byte, if it is found, is the first one. -/
theorem leadOffsetsFrom?_of_ok {lead : UInt8} {offset : Nat} {bytes : Bytes}
    {found : Option (Nat × Nat)} (done : leadOffsetsFrom? lead offset bytes = .ok found) :
    found = ((bytes.drop offset).findIdx? (· == lead)).map fun distance =>
      (offset + distance, offset + distance + 1) := by
  obtain ⟨remaining, cut, done⟩ := bind_eq_ok_iff.mp done
  obtain ⟨-, rfl⟩ := behind_eq_ok_iff.mp cut
  cases search : (bytes.drop offset).findIdx? (· == lead) with
  | none =>
    rw [search] at done
    exact (Except.ok.inj done).symm
  | some distance =>
    rw [search] at done
    obtain ⟨position, summed, done⟩ := bind_eq_ok_iff.mp done
    obtain ⟨next, moved, done⟩ := bind_eq_ok_iff.mp done
    obtain ⟨-, rfl⟩ := sum_eq_ok_iff.mp summed
    obtain ⟨-, rfl⟩ := sum_eq_ok_iff.mp moved
    exact (Except.ok.inj done).symm

/-- A search for a pair that is not stopped finds what the search without guards finds. -/
theorem pairOffsetFrom?_of_ok {lead : UInt8} {follow : Bytes} {offset : Nat} {bytes : Bytes}
    {found : Option Nat} (done : pairOffsetFrom? lead follow offset bytes = .ok found) :
    (firstSuffix? (Needle.beginsPair lead follow) (bytes.drop offset)).map (offset + ·) = found := by
  induction offset using pairOffsetFrom?.induct lead follow bytes with
  | case1 offset trap stopped =>
    rw [pairOffsetFrom?_eq_bind, stopped] at done
    cases done
  | case2 offset missed =>
    rw [pairOffsetFrom?_eq_bind, missed] at done
    have missing := Option.map_eq_none_iff.mp (leadOffsetsFrom?_of_ok missed).symm
    rw [firstSuffix?_beginsPair_of_missing follow missing]
    exact Except.ok.inj done
  | case3 offset position next reached follows =>
    rw [pairOffsetFrom?_eq_bind, reached, ok_bind] at done
    obtain ⟨distance, search, same⟩ :=
      Option.map_eq_some_iff.mp (leadOffsetsFrom?_of_ok reached).symm
    cases same
    rw [firstSuffix?_beginsPair_of_found follow search, List.getElem?_drop, ← Nat.add_assoc,
      if_pos follows]
    exact Except.ok.inj ((if_pos follows).symm.trans done)
  | case4 offset position next reached follows inductionHypothesis =>
    rw [pairOffsetFrom?_eq_bind, reached, ok_bind] at done
    obtain ⟨distance, search, same⟩ :=
      Option.map_eq_some_iff.mp (leadOffsetsFrom?_of_ok reached).symm
    cases same
    rw [firstSuffix?_beginsPair_of_found follow search, List.getElem?_drop, ← Nat.add_assoc,
      if_neg follows, List.drop_drop, Option.map_map,
      ← inductionHypothesis ((if_neg follows).symm.trans done)]
    simp only [Nat.add_assoc, Function.comp_def]

/-- A search for a pair is not stopped. Every round begins behind the lead byte of the one before,
so the offset stays inside the string. -/
theorem exists_pairOffsetFrom? (lead : UInt8) (follow : Bytes) {offset : Nat} {bytes : Bytes}
    (small : bytes.length < 2 ^ 63) (inside : offset ≤ bytes.length) :
    ∃ found, pairOffsetFrom? lead follow offset bytes = .ok found := by
  induction left : bytes.length - offset using Nat.strongRecOn generalizing offset with
  | ind left inductionHypothesis =>
    rw [pairOffsetFrom?_eq_bind, leadOffsetsFrom?_eq lead small inside, ok_bind]
    cases search : (bytes.drop offset).findIdx? (· == lead) with
    | none => exact ⟨_, rfl⟩
    | some distance =>
      obtain ⟨before, -⟩ := List.findIdx?_eq_some_iff_getElem.mp search
      rw [List.length_drop] at before
      simp only [Option.map_some]
      split
      · exact ⟨_, rfl⟩
      · exact inductionHypothesis _ (by omega) (by omega) rfl

/-- A search for a pair finds what the search without guards finds. -/
theorem pairOffsetFrom?_eq (lead : UInt8) (follow : Bytes) {offset : Nat} {bytes : Bytes}
    (small : bytes.length < 2 ^ 63) (inside : offset ≤ bytes.length) :
    pairOffsetFrom? lead follow offset bytes =
      .ok ((firstSuffix? (Needle.beginsPair lead follow) (bytes.drop offset)).map (offset + ·)) := by
  obtain ⟨found, done⟩ := exists_pairOffsetFrom? lead follow small inside
  rw [done, pairOffsetFrom?_of_ok done]

/-- A search is not stopped. Of all needles only a pair is sought with sums of offsets, and that is
where the bound comes from. -/
theorem find?_eq (needle : Needle) {bytes : Bytes} (small : bytes.length < 2 ^ 63) :
    find? needle bytes = .ok (needle.find? bytes) := by
  cases needle with
  | byte | literal => rfl
  | anyOf stops => rw [find?, stopOffset?_eq]; rfl
  | pair lead follow =>
    rw [find?, pairOffsetFrom?_eq lead follow small (Nat.zero_le _)]
    simp [Needle.find?]

/-- A search that is not stopped finds what the search without guards finds. -/
theorem find?_of_ok {needle : Needle} {bytes : Bytes} {found : Option Hit}
    (done : find? needle bytes = .ok found) : needle.find? bytes = found := by
  cases needle with
  | byte | literal => exact Except.ok.inj done
  | anyOf stops =>
    rw [find?, stopOffset?_eq, ok_bind] at done
    exact Except.ok.inj done
  | pair lead follow =>
    obtain ⟨offset?, searched, done⟩ := bind_eq_ok_iff.mp done
    have search := pairOffsetFrom?_of_ok searched
    rw [List.drop_zero] at search
    rw [Needle.find?, ← Except.ok.inj done, ← search]
    simp

/-- A character has a byte at least. -/
theorem characterWidth_pos (lead : UInt8) : 0 < characterWidth lead := by
  unfold characterWidth
  grind

/-- The test for a word character is not stopped. The character is cut out with an end that is cut
short, so no bound on the length is needed. -/
theorem startsWithWord_eq (encoding : Encoding) (bytes : Bytes) :
    startsWithWord encoding bytes = .ok (encoding.startsWithWord bytes) := by
  cases bytes with
  | nil => rfl
  | cons lead rest =>
    rw [startsWithWord, Encoding.startsWithWord]
    by_cases ascii : Bytes.isAscii lead = true
    · rw [if_pos ascii, if_pos ascii]
      rfl
    rw [if_neg ascii, if_neg ascii]
    by_cases text : encoding = .utf8
    · have inside : min (characterWidth lead) (rest.length + 1) ≤ (lead :: rest).length :=
        Nat.min_le_right _ _
      have character : (lead :: rest).take (min (characterWidth lead) (rest.length + 1)) =
          lead :: rest.take (characterWidth lead - 1) := by
        rw [← List.length_cons, ← List.take_eq_take_min]
        exact List.take_cons (characterWidth_pos lead)
      rw [if_neg (by simp [text]), front_eq inside, ok_bind, character,
        Utf8.text?_take (by simpa using ascii)]
      cases (Utf8.leading lead rest).scalar? <;> simp [text]
    · rw [if_pos text]
      simp [text]

/-- The test for a keyword is not stopped. -/
theorem leads_eq (keyword : Keyword) (encoding : Encoding) {body : Bytes}
    (small : body.length < 2 ^ 63) :
    leads keyword encoding body = .ok (keyword.leads encoding body) := by
  rw [leads, Keyword.leads, Keyword.leadLength?, Keyword.marginLength]
  generalize dashes : (if body.head? = some Bytes.dash then 1 else 0) = dashLength
  have dashInside : dashLength ≤ body.length := by
    cases body with
    | nil => simp [← dashes]
    | cons => rw [← dashes]; split <;> simp
  have spaces := (List.takeWhile_sublist Bytes.isSpace (l := body.drop dashLength)).length_le
  rw [List.length_drop] at spaces
  have marginInside : dashLength + ((body.drop dashLength).takeWhile Bytes.isSpace).length ≤
      body.length := by
    omega
  rw [behind_eq dashInside, ok_bind, sum_eq (by omega), ok_bind, behind_eq marginInside, ok_bind]
  generalize dashLength + _ = margin at marginInside ⊢
  by_cases named : keyword.name.isPrefixOf (body.drop margin) = true
  · have fits := (List.isPrefixOf_iff_prefix.mp named).length_le
    rw [List.length_drop] at fits
    rw [if_pos named, sum_eq (by omega), ok_bind, behind_eq (by omega), ok_bind, startsWithWord_eq,
      ok_bind, named, Bool.true_and]
    cases encoding.startsWithWord _ <;> rfl
  · simp [named]

end Guarded

end TemplateTokens
