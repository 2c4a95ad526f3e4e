import Mathlib.Order.Bounds.Defs
import TemplateTokens.Piece

/-!
# Leftmost searches

Every search of the scanner answers with the least offset at which a test of the remaining bytes
holds. This module says so once, for an arbitrary test, and brings the searches of the scanner into
that form: a literal, a set of stop bytes, which is searched three bytes at a time, and the end of a
raw block, which is sought from opener to opener.

A search is either for some offset, in which case nothing before it passes the test, or it fails, in
which case no offset passes. Both are stated as equivalences, so later proofs rewrite with them and
do not open a search. Offsets in what remains of a string and offsets in the whole string are
related once, and for any test.
-/

namespace TemplateTokens

variable {holds : Bytes → Bool}

/-- A search succeeds exactly at the least offset at which its test holds. What a search finds is
told in these terms everywhere else. -/
theorem firstSuffix?_eq_some_iff {bytes : Bytes} {offset : Nat} :
    firstSuffix? holds bytes = some offset ↔
      offset ≤ bytes.length ∧ holds (bytes.drop offset) = true ∧
      ∀ earlier < offset, holds (bytes.drop earlier) = false := by
  induction bytes generalizing offset with
  | nil =>
    rw [firstSuffix?_nil]
    cases atEnd : holds [] <;> simp [atEnd]
    constructor
    · rintro rfl
      simp
    · rintro ⟨rfl, -⟩
      rfl
  | cons byte rest inductionHypothesis =>
    rw [firstSuffix?_cons]
    cases atOnce : holds (byte :: rest) with
    | true =>
      simp only [if_true, Option.some.injEq]
      constructor
      · rintro rfl
        exact ⟨Nat.zero_le _, atOnce, fun earlier impossible => absurd impossible (by omega)⟩
      · rintro ⟨-, -, notEarlier⟩
        symm
        apply Nat.eq_zero_of_not_pos
        intro later
        exact absurd (notEarlier 0 later) (by simp [atOnce])
    | false =>
      rw [if_neg (by simp), Option.map_eq_some_iff]
      constructor
      · rintro ⟨later, found, rfl⟩
        obtain ⟨bounded, held, notEarlier⟩ := inductionHypothesis.mp found
        rw [Nat.add_comm]
        refine ⟨Nat.succ_le_succ bounded, held, ?_⟩
        intro earlier before
        cases earlier with
        | zero => exact atOnce
        | succ earlier => exact notEarlier earlier (by omega)
      · rintro ⟨bounded, held, notEarlier⟩
        cases offset with
        | zero => exact absurd (atOnce.symm.trans held) (by simp)
        | succ later =>
          refine ⟨later, inductionHypothesis.mpr ⟨by simpa using bounded, held, ?_⟩, by omega⟩
          intro earlier before
          exact notEarlier (earlier + 1) (by omega)

/-- A search fails exactly if its test holds at no offset, the end of the string included. -/
theorem firstSuffix?_eq_none_iff {bytes : Bytes} :
    firstSuffix? holds bytes = none ↔
      ∀ offset ≤ bytes.length, holds (bytes.drop offset) = false := by
  induction bytes with
  | nil =>
    rw [firstSuffix?_nil]
    cases atEnd : holds [] <;> simp [atEnd]
  | cons byte rest inductionHypothesis =>
    rw [firstSuffix?_cons]
    cases atOnce : holds (byte :: rest) with
    | true =>
      simp only [if_true, reduceCtorEq, false_iff]
      intro nowhere
      exact absurd (nowhere 0 (Nat.zero_le _)) (by simp [atOnce])
    | false =>
      rw [if_neg (by simp), Option.map_eq_none_iff, inductionHypothesis]
      constructor
      · intro nowhere offset bounded
        cases offset with
        | zero => exact atOnce
        | succ offset => exact nowhere offset (by simpa using bounded)
      · intro nowhere offset bounded
        exact nowhere (offset + 1) (by simpa using bounded)

/-- Offsets at which the test is known to fail may be passed over beforehand. A search that is taken
up again behind a place where it failed is in this way one search. -/
theorem firstSuffix?_eq_map_drop {bytes : Bytes} {passed : Nat} (inside : passed ≤ bytes.length)
    (misses : ∀ offset < passed, holds (bytes.drop offset) = false) :
    firstSuffix? holds bytes = (firstSuffix? holds (bytes.drop passed)).map (passed + ·) := by
  induction passed generalizing bytes with
  | zero => simp
  | succ passed inductionHypothesis =>
    cases bytes with
    | nil => simp at inside
    | cons byte rest =>
      have atOnce : holds (byte :: rest) = false := misses 0 (by omega)
      have later : firstSuffix? holds rest =
          (firstSuffix? holds (rest.drop passed)).map (passed + ·) :=
        inductionHypothesis (by simpa using inside)
          (fun offset before => misses (offset + 1) (by omega))
      rw [firstSuffix?_cons, if_neg (by simp [atOnce]), later, Option.map_map, List.drop_succ_cons]
      congr 1
      funext offset
      simp only [Function.comp_apply]
      omega

/-- A search from some offset on finds the least offset from there on at which its test holds. -/
theorem firstSuffix?_drop_eq_some_iff {bytes : Bytes} {start offset : Nat} :
    firstSuffix? holds (bytes.drop start) = some offset ↔
      IsLeast {place | start ≤ place ∧ holds (bytes.drop place) = true} (start + offset) := by
  simp only [firstSuffix?_eq_some_iff, List.drop_drop, List.length_drop]
  constructor
  · rintro ⟨-, held, notEarlier⟩
    refine ⟨⟨Nat.le_add_right start offset, held⟩, ?_⟩
    rintro place ⟨behind, heldThere⟩
    apply Nat.le_of_not_lt
    intro before
    have missed := notEarlier (place - start) (by omega)
    rw [Nat.add_sub_cancel' behind] at missed
    exact absurd heldThere (by simp [missed])
  · rintro ⟨⟨-, held⟩, least⟩
    refine ⟨?_, held, ?_⟩
    · -- Behind the end no byte remains, as at the end, so the test would have held there.
      apply Nat.le_of_not_lt
      intro beyond
      have atEnd : holds (bytes.drop (start + (bytes.length - start))) = true := by
        rw [List.drop_of_length_le (by omega)] at held ⊢
        exact held
      have notLater := least ⟨Nat.le_add_right _ _, atEnd⟩
      omega
    · intro earlier before
      rw [← Bool.not_eq_true]
      intro heldThere
      have notLater := least ⟨Nat.le_add_right start earlier, heldThere⟩
      omega

/-- A search from some offset on fails exactly if its test holds nowhere from there on. -/
theorem firstSuffix?_drop_eq_none_iff {bytes : Bytes} {start : Nat} :
    firstSuffix? holds (bytes.drop start) = none ↔
      ∀ place, start ≤ place → holds (bytes.drop place) = false := by
  simp only [firstSuffix?_eq_none_iff, List.drop_drop, List.length_drop]
  constructor
  · intro nowhere place behind
    have missed := nowhere (min (place - start) (bytes.length - start)) (Nat.min_le_right _ _)
    rcases Nat.le_total place bytes.length with inside | beyond
    · rwa [Nat.min_eq_left (by omega), Nat.add_sub_cancel' behind] at missed
    · rw [Nat.min_eq_right (by omega), List.drop_of_length_le (by omega)] at missed
      rwa [List.drop_of_length_le beyond]
  · intro nowhere offset _
    exact nowhere (start + offset) (Nat.le_add_right start offset)

/-- Whether a literal begins a string is settled by as many bytes as the literal has. If there are
fewer bytes, what follows may complete the literal. -/
theorem isPrefixOf_append_of_length_le {sought bytes : Bytes} (more : Bytes)
    (long : sought.length ≤ bytes.length) :
    sought.isPrefixOf (bytes ++ more) = sought.isPrefixOf bytes := by
  rw [Bool.eq_iff_iff, List.isPrefixOf_iff_prefix, List.isPrefixOf_iff_prefix]
  constructor
  · intro begins
    exact List.prefix_of_prefix_length_le begins (List.prefix_append bytes more) long
  · intro begins
    exact begins.trans (List.prefix_append bytes more)

/-- The place at which a literal is found, as a cut of the string: the literal stands behind `front`
and nowhere before. -/
theorem Needle.find?_literal_eq_some_iff {sought bytes : Bytes} {hit : Hit} :
    (Needle.literal sought).find? bytes = some hit ↔
      ∃ front rest, bytes = front ++ sought ++ rest ∧ hit = ⟨front.length, sought.length⟩ ∧
        ∀ earlier < front.length, ¬ sought <+: bytes.drop earlier := by
  simp only [find?, Option.map_eq_some_iff, firstSuffix?_eq_some_iff]
  constructor
  · rintro ⟨offset, ⟨bounded, held, notEarlier⟩, rfl⟩
    obtain ⟨rest, cut⟩ := List.isPrefixOf_iff_prefix.mp held
    have length : (bytes.take offset).length = offset := List.length_take_of_le bounded
    refine ⟨bytes.take offset, rest, ?_, by rw [length], ?_⟩
    · rw [List.append_assoc, cut, List.take_append_drop]
    · rw [length]
      intro earlier before begins
      exact absurd (List.isPrefixOf_iff_prefix.mpr begins) (by simp [notEarlier earlier before])
  · rintro ⟨front, rest, rfl, rfl, notEarlier⟩
    refine ⟨front.length, ⟨by simp [List.append_assoc], ?_, ?_⟩, rfl⟩
    · rw [List.isPrefixOf_iff_prefix, List.append_assoc, List.drop_left]
      exact List.prefix_append sought rest
    · intro earlier before
      rw [← Bool.not_eq_true, List.isPrefixOf_iff_prefix]
      exact notEarlier earlier before

/-- A literal is not found exactly if it stands nowhere in the string. -/
theorem Needle.find?_literal_eq_none_iff {sought bytes : Bytes} :
    (Needle.literal sought).find? bytes = none ↔ ¬ sought <:+: bytes := by
  simp only [find?, Option.map_eq_none_iff, firstSuffix?_eq_none_iff]
  constructor
  · rintro nowhere ⟨front, rest, rfl⟩
    have missed := nowhere front.length (by simp [List.append_assoc])
    rw [List.append_assoc, List.drop_left, ← Bool.not_eq_true, List.isPrefixOf_iff_prefix] at missed
    exact missed (List.prefix_append sought rest)
  · intro nowhere offset bounded
    rw [← Bool.not_eq_true, List.isPrefixOf_iff_prefix]
    intro begins
    exact nowhere (begins.isInfix.trans (List.drop_suffix offset bytes).isInfix)

/-- A literal that is sought from some offset on is found where it first stands from there on. -/
theorem Needle.find?_literal_drop_eq_some_iff {sought bytes : Bytes} {start offset : Nat} :
    (Needle.literal sought).find? (bytes.drop start) = some ⟨offset, sought.length⟩ ↔
      IsLeast {place | start ≤ place ∧ sought <+: bytes.drop place} (start + offset) := by
  simp [find?, firstSuffix?_drop_eq_some_iff]

/-- A literal that is sought from some offset on is not found exactly if it stands nowhere from
there on. -/
theorem Needle.find?_literal_drop_eq_none_iff {sought bytes : Bytes} {start : Nat} :
    (Needle.literal sought).find? (bytes.drop start) = none ↔
      ∀ place, start ≤ place → ¬ sought <+: bytes.drop place := by
  simp [find?, firstSuffix?_drop_eq_none_iff, ← List.isPrefixOf_iff_prefix]

/-- The earlier of two offsets moves along with both. -/
theorem earlier?_map_succ (left right : Option Nat) :
    earlier? (left.map (· + 1)) (right.map (· + 1)) = (earlier? left right).map (· + 1) := by
  cases left <;> cases right <;> simp [earlier?]

/-- Two tests can be tried one after the other, the second only in front of the hit of the first. -/
theorem earlier?_findIdx? (primary secondary : UInt8 → Bool) (bytes : Bytes) :
    earlier? (bytes.findIdx? primary)
        ((bytes.take ((bytes.findIdx? primary).getD bytes.length)).findIdx? secondary) =
      bytes.findIdx? fun byte => primary byte || secondary byte := by
  induction bytes with
  | nil => rfl
  | cons byte rest inductionHypothesis =>
    simp only [List.findIdx?_cons]
    cases hit : primary byte with
    | true => simp [earlier?]
    | false =>
      have bound : ((rest.findIdx? primary).map (· + 1)).getD (byte :: rest).length =
          (rest.findIdx? primary).getD rest.length + 1 := by
        cases rest.findIdx? primary <;> simp
      simp only [Bool.false_eq_true, if_false, Bool.false_or, bound, List.take_succ_cons,
        List.findIdx?_cons]
      cases secondary byte with
      | true => cases rest.findIdx? primary <;> simp [earlier?]
      | false =>
        simp only [Bool.false_eq_true, if_false]
        rw [earlier?_map_succ, inductionHypothesis]

/-- Searching a set of stop bytes group by group finds the first byte of the set. The groups are of
three bytes at most, since the finders for bytes take no more, and the earliest of their hits is
kept. -/
theorem stopOffset?_eq_findIdx? (stops bytes : Bytes) :
    stopOffset? stops bytes = bytes.findIdx? stops.contains := by
  induction stops, bytes using stopOffset?.induct with
  | case1 bytes first second third others primary inductionHypothesis =>
    rw [stopOffset?, inductionHypothesis, earlier?_findIdx?]
    congr 1
    funext byte
    simp only [List.contains_cons, Bool.or_assoc]
  | case2 stops bytes short =>
    rw [stopOffset?]
    exact short

/-- No stop byte is found exactly if the string has none. -/
theorem Needle.find?_anyOf_eq_none_iff {stops bytes : Bytes} :
    (Needle.anyOf stops).find? bytes = none ↔ ∀ byte ∈ bytes, byte ∉ stops := by
  simp [find?, stopOffset?_eq_findIdx?]

/-- The first stop byte cuts the string into bytes that are none, the stop byte and the rest. -/
theorem Needle.find?_anyOf_eq_some {stops bytes : Bytes} {hit : Hit}
    (found : (Needle.anyOf stops).find? bytes = some hit) :
    ∃ front stop rest, bytes = front ++ stop :: rest ∧ hit = ⟨front.length, 1⟩ ∧ stop ∈ stops ∧
      ∀ byte ∈ front, byte ∉ stops := by
  simp only [find?, stopOffset?_eq_findIdx?, Option.map_eq_some_iff] at found
  obtain ⟨offset, foundOffset, rfl⟩ := found
  obtain ⟨inside, member, notEarlier⟩ := List.findIdx?_eq_some_iff_getElem.mp foundOffset
  refine ⟨bytes.take offset, bytes[offset], bytes.drop (offset + 1), ?_, ?_, ?_, ?_⟩
  · rw [← List.drop_eq_getElem_cons inside, List.take_append_drop]
  · rw [List.length_take_of_le (Nat.le_of_lt inside)]
  · simpa using member
  · intro byte earlier
    obtain ⟨place, before, rfl⟩ := List.mem_iff_getElem.mp earlier
    rw [List.length_take] at before
    simpa using notEarlier place (by omega)

/-- A lead byte begins a pair if a member of the set is right behind it. -/
theorem Needle.beginsPair_cons (lead : UInt8) (follow : Bytes) (first : UInt8) (rest : Bytes) :
    beginsPair lead follow (first :: rest) = (first == lead && rest.head?.any follow.contains) := by
  cases rest <;> simp [beginsPair]

/-- No pair begins where the lead byte does not stand. -/
theorem Needle.beginsPair_drop {lead : UInt8} {follow bytes : Bytes} {offset : Nat}
    (other : bytes[offset]? ≠ some lead) : beginsPair lead follow (bytes.drop offset) = false := by
  by_cases inside : offset < bytes.length
  · rw [List.getElem?_eq_getElem inside, ne_eq, Option.some.injEq] at other
    rw [List.drop_eq_getElem_cons inside, beginsPair_cons]
    simp [other]
  · rw [List.drop_of_length_le (Nat.le_of_not_lt inside)]
    rfl

/-- Without a lead byte no pair is found. -/
theorem firstSuffix?_beginsPair_of_missing {lead : UInt8} (follow : Bytes) {bytes : Bytes}
    (missing : bytes.findIdx? (· == lead) = none) :
    firstSuffix? (Needle.beginsPair lead follow) bytes = none := by
  apply firstSuffix?_eq_none_iff.mpr
  intro offset _
  apply Needle.beginsPair_drop
  intro stands
  have member := List.mem_of_getElem? stands
  exact absurd (List.findIdx?_eq_none_iff.mp missing lead member) (by simp)

/-- A pair is found at the first lead byte or sought behind it. The search for a pair goes from lead
byte to lead byte in this way, and passes over those that are followed by something else. -/
theorem firstSuffix?_beginsPair_of_found {lead : UInt8} (follow : Bytes) {bytes : Bytes}
    {distance : Nat} (found : bytes.findIdx? (· == lead) = some distance) :
    firstSuffix? (Needle.beginsPair lead follow) bytes =
      if bytes[distance + 1]?.any follow.contains then some distance
      else (firstSuffix? (Needle.beginsPair lead follow) (bytes.drop (distance + 1))).map
        (distance + 1 + ·) := by
  obtain ⟨inside, same, notEarlier⟩ := List.findIdx?_eq_some_iff_getElem.mp found
  have misses : ∀ earlier < distance,
      Needle.beginsPair lead follow (bytes.drop earlier) = false := by
    intro earlier before
    apply Needle.beginsPair_drop
    intro stands
    obtain ⟨within, stands⟩ := List.getElem?_eq_some_iff.mp stands
    exact notEarlier earlier before (by simp [stands])
  have cut : bytes.drop distance = lead :: bytes.drop (distance + 1) := by
    rw [List.drop_eq_getElem_cons inside, beq_iff_eq.mp same]
  rw [firstSuffix?_eq_map_drop (Nat.le_of_lt inside) misses, cut, firstSuffix?_cons,
    Needle.beginsPair_cons, List.head?_drop]
  cases bytes[distance + 1]?.any follow.contains <;> simp [Function.comp_def, Nat.add_assoc]

/-- A match lies inside the bytes searched. -/
theorem Needle.find?_stop_le {needle : Needle} {bytes : Bytes} {hit : Hit}
    (found : needle.find? bytes = some hit) : hit.stop ≤ bytes.length := by
  cases needle with
  | byte value =>
    obtain ⟨offset, search, rfl⟩ := Option.map_eq_some_iff.mp found
    exact (List.findIdx?_eq_some_iff_getElem.mp search).1
  | literal sought => exact (Needle.literal_stop_le found).2
  | anyOf stops =>
    obtain ⟨front, stop, rest, rfl, rfl, -, -⟩ := Needle.find?_anyOf_eq_some found
    simp +arith [Hit.stop]
  | pair lead follow =>
    obtain ⟨offset, search, rfl⟩ := Option.map_eq_some_iff.mp found
    obtain ⟨begins, inside⟩ := firstSuffix?_holds search
    have two : 2 ≤ (bytes.drop offset).length := by
      revert begins
      rcases bytes.drop offset with _ | ⟨first, _ | ⟨second, rest⟩⟩
      · simp [beginsPair]
      · simp [beginsPair]
      · simp
    rw [List.length_drop] at two
    change offset + 2 ≤ bytes.length
    omega

/-- Whether a byte string begins with a tag that ends a raw block. -/
def endsRaw (encoding : Encoding) (bytes : Bytes) : Bool :=
  Bytes.tagOpener.isPrefixOf bytes && Keyword.endraw.leads encoding (bytes.drop 2)

/-- A raw block does not end where no tag is opened. -/
theorem endsRaw_eq_false_of_not_opened {encoding : Encoding} {bytes : Bytes}
    (noOpener : ¬ Bytes.tagOpener <+: bytes) : endsRaw encoding bytes = false := by
  rw [endsRaw, Bool.eq_false_iff.mpr (mt List.isPrefixOf_iff_prefix.mp noOpener), Bool.false_and]

/-- A raw block ends with the opener of a tag. -/
theorem tagOpener_prefix_of_endsRaw {encoding : Encoding} {bytes : Bytes}
    (ends : endsRaw encoding bytes = true) : Bytes.tagOpener <+: bytes := by
  rw [endsRaw, Bool.and_eq_true] at ends
  exact List.isPrefixOf_iff_prefix.mp ends.1

/-- Where a tag is opened, the keyword of its body decides whether a raw block ends. The body need
not have a closer: the test is made before the tag is carved off. -/
theorem endsRaw_tagOpener (encoding : Encoding) (body : Bytes) :
    endsRaw encoding (Bytes.tagOpener ++ body) = Keyword.endraw.leads encoding body := by
  simp [endsRaw]

/-- Without an opener nothing ends a raw block. -/
theorem Piece.rawLengthFrom?_of_missing (encoding : Encoding) (passed : Nat) {content : Bytes}
    (missing : (Needle.literal Bytes.tagOpener).find? content = none) :
    rawLengthFrom? encoding passed content = none := by
  rw [rawLengthFrom?]
  split
  · rfl
  · next found => exact absurd (missing.symm.trans found) (by simp)

/-- At an opener the keyword decides whether the search ends there or goes on behind the opener. -/
theorem Piece.rawLengthFrom?_of_found (encoding : Encoding) (passed : Nat) {content : Bytes}
    {hit : Hit} (found : (Needle.literal Bytes.tagOpener).find? content = some hit) :
    rawLengthFrom? encoding passed content =
      if Keyword.endraw.leads encoding (content.drop hit.stop) then some (passed + hit.offset)
      else rawLengthFrom? encoding (passed + hit.stop) (content.drop hit.stop) := by
  conv => lhs; rw [rawLengthFrom?]
  split
  · next missing => exact absurd (found.symm.trans missing) (by simp)
  · next other foundOther =>
    cases Option.some.inj (found.symm.trans foundOther)
    rfl

/-- The search from opener to opener finds the first tag that ends a raw block. In front of an
opener and at its second byte no tag begins, so nothing is missed. -/
theorem Piece.rawLengthFrom?_eq (encoding : Encoding) (passed : Nat) (content : Bytes) :
    rawLengthFrom? encoding passed content =
      (firstSuffix? (endsRaw encoding) content).map (passed + ·) := by
  induction passed, content using rawLengthFrom?.induct encoding with
  | case1 passed content missing =>
    have nowhere : firstSuffix? (endsRaw encoding) content = none := by
      apply firstSuffix?_eq_none_iff.mpr
      intro offset _
      apply endsRaw_eq_false_of_not_opened
      intro begins
      exact Needle.find?_literal_eq_none_iff.mp missing
        (begins.isInfix.trans (List.drop_suffix offset content).isInfix)
    rw [rawLengthFrom?_of_missing encoding passed missing, nowhere]
    rfl
  | case2 passed content hit found body leads =>
    rw [rawLengthFrom?_of_found encoding passed found, if_pos leads]
    obtain ⟨front, rest, rfl, rfl, notEarlier⟩ := Needle.find?_literal_eq_some_iff.mp found
    have sameBody : body = rest := by simp [body, Hit.stop]
    have here : firstSuffix? (endsRaw encoding) (front ++ Bytes.tagOpener ++ rest) =
        some front.length := by
      refine firstSuffix?_eq_some_iff.mpr ⟨by simp [List.append_assoc], ?_, ?_⟩
      · rw [List.append_assoc, List.drop_left, endsRaw_tagOpener, ← sameBody, leads]
      · intro earlier before
        exact endsRaw_eq_false_of_not_opened (notEarlier earlier before)
    rw [here]
    rfl
  | case3 passed content hit found body leads inductionHypothesis =>
    rw [rawLengthFrom?_of_found encoding passed found, if_neg leads, inductionHypothesis]
    obtain ⟨front, rest, rfl, rfl, notEarlier⟩ := Needle.find?_literal_eq_some_iff.mp found
    have sameBody : body = rest := by simp [body, Hit.stop]
    have misses : ∀ offset < front.length + 2,
        endsRaw encoding ((front ++ Bytes.tagOpener ++ rest).drop offset) = false := by
      intro offset before
      rcases Nat.lt_trichotomy offset front.length with earlier | rfl | behind
      · exact endsRaw_eq_false_of_not_opened (notEarlier offset earlier)
      · rw [List.append_assoc, List.drop_left, endsRaw_tagOpener, ← sameBody]
        exact Bool.eq_false_iff.mpr leads
      -- At the second byte of an opener stands a percent sign, and no tag begins with that.
      · obtain rfl : offset = front.length + 1 := by omega
        rw [List.append_assoc, List.drop_length_add_append]
        exact endsRaw_eq_false_of_not_opened
          (by simp [show ¬ Bytes.openBrace = Bytes.percent by decide])
    rw [firstSuffix?_eq_map_drop (by simp) misses, List.append_assoc, List.drop_length_add_append,
      sameBody, Option.map_map]
    congr 1
    funext offset
    simp only [Hit.stop, List.length_cons, List.length_nil, Function.comp_apply]
    omega

/-- The length of the content of a raw block is the least offset of a tag that ends it. -/
theorem Piece.rawLength?_eq (encoding : Encoding) (content : Bytes) :
    rawLength? encoding content = firstSuffix? (endsRaw encoding) content := by
  rw [rawLength?, rawLengthFrom?_eq]
  simp

end TemplateTokens
