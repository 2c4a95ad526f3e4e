import Mathlib.Data.Set.Basic
import TemplateTokens.Needle.Finders
import TemplateTokens.Proofs.Search

/-!
# The leftmost match

A needle is found where it first fits, and over as many bytes as it fits there. `Needle.fits` is the
test of a place, the same for every place, so one fact about searches for a test
(`firstSuffix?_eq_some_iff`) settles all needles. Made of finders that find the leftmost hit, the
search finds the same: shortening the string for the later stop bytes loses no hit, and neither does
going on behind a lead byte.

A needle without bytes fits everywhere and is found at once; a set without stop bytes fits nowhere.
Finders may be any functions that answer as `Finders.Leftmost` asks, and what they do beyond that
has no influence on the result.
-/

namespace TemplateTokens

/-- A search for a test finds the first place at which it holds. The place behind the last byte
counts among the places, as it does for an empty string that is sought. -/
theorem firstSuffix?_eq_some_iff_isLeast {holds : Bytes → Bool} {bytes : Bytes} {offset : Nat} :
    firstSuffix? holds bytes = some offset ↔
      IsLeast {place | place ≤ bytes.length ∧ holds (bytes.drop place) = true} offset := by
  rw [firstSuffix?_eq_some_iff]
  constructor
  · rintro ⟨inside, held, notEarlier⟩
    refine ⟨⟨inside, held⟩, ?_⟩
    rintro place ⟨-, heldThere⟩
    apply Nat.le_of_not_lt
    intro before
    exact absurd (heldThere.symm.trans (notEarlier place before)) (by simp)
  · rintro ⟨⟨inside, held⟩, least⟩
    refine ⟨inside, held, ?_⟩
    intro earlier before
    rw [← Bool.not_eq_true]
    intro heldThere
    have notBefore := least ⟨by omega, heldThere⟩
    omega

/-- A search for a byte is a search for a place where it comes next. -/
theorem firstSuffix?_head? (sought : UInt8 → Bool) (bytes : Bytes) :
    firstSuffix? (fun suffix => suffix.head?.any sought) bytes = bytes.findIdx? sought := by
  induction bytes with
  | nil => rfl
  | cons byte rest inductionHypothesis =>
    rw [firstSuffix?_cons, inductionHypothesis, List.findIdx?_cons]
    simp [Nat.add_comm]

namespace Needle

/-- Whether a needle fits the front of a byte string. -/
def fits : Needle → Bytes → Bool
  | byte value, bytes => bytes.head?.any (· == value)
  | literal sought, bytes => sought.isPrefixOf bytes
  | anyOf stops, bytes => bytes.head?.any stops.contains
  | pair lead follow, bytes => beginsPair lead follow bytes

/-- The number of bytes that a needle fits. -/
def width : Needle → Nat
  | byte _ => 1
  | literal sought => sought.length
  | anyOf _ => 1
  | pair _ _ => 2

/-- The offsets at which a needle fits. -/
def placesIn (needle : Needle) (bytes : Bytes) : Set Nat :=
  {offset | offset ≤ bytes.length ∧ ∃ length, needle.Matches (bytes.drop offset) length}

/-- A needle fits where its test holds, over as many bytes as it always does. -/
theorem matches_iff {needle : Needle} {bytes : Bytes} {length : Nat} :
    needle.Matches bytes length ↔ needle.fits bytes = true ∧ length = needle.width := by
  constructor
  · intro isMatch
    cases isMatch with
    | byte | literal => simp [fits, width]
    | anyOf _ _ _ member => simp [fits, width, member]
    | pair _ _ _ _ member => simp [fits, width, beginsPair, member]
  · rintro ⟨fitting, rfl⟩
    cases needle with
    | byte value =>
      obtain ⟨first, first?, same⟩ := (Option.any_eq_true _ _).mp fitting
      obtain ⟨rest, rfl⟩ := List.head?_eq_some_iff.mp first?
      rw [beq_iff_eq.mp same]
      exact .byte value rest
    | literal sought =>
      obtain ⟨rest, rfl⟩ := List.isPrefixOf_iff_prefix.mp fitting
      exact .literal sought rest
    | anyOf stops =>
      obtain ⟨stop, first?, member⟩ := (Option.any_eq_true _ _).mp fitting
      obtain ⟨rest, rfl⟩ := List.head?_eq_some_iff.mp first?
      exact .anyOf stops stop rest (List.contains_iff_mem.mp member)
    | pair lead follow =>
      rcases bytes with _ | ⟨first, _ | ⟨next, rest⟩⟩
      · simp [fits, beginsPair] at fitting
      · simp [fits, beginsPair] at fitting
      · simp only [fits, beginsPair, Bool.and_eq_true, beq_iff_eq, List.contains_iff_mem] at fitting
        obtain ⟨rfl, member⟩ := fitting
        exact .pair first follow next rest member

/-- Every search for a needle is the search for its test. The searches differ in how they go through
the bytes, and from here on that no longer matters. -/
theorem find?_eq_firstSuffix? (needle : Needle) (bytes : Bytes) :
    needle.find? bytes = (firstSuffix? needle.fits bytes).map (⟨·, needle.width⟩) := by
  cases needle with
  | byte value => rw [find?, ← firstSuffix?_head?]; rfl
  | literal | pair => rfl
  | anyOf stops => rw [find?, stopOffset?_eq_findIdx?, ← firstSuffix?_head?]; rfl

/-- A needle fits at the offsets at which its test holds. -/
theorem placesIn_eq (needle : Needle) (bytes : Bytes) :
    needle.placesIn bytes =
      {offset | offset ≤ bytes.length ∧ needle.fits (bytes.drop offset) = true} := by
  simp only [placesIn, matches_iff, exists_and_left, exists_eq, and_true]

/-- A needle is found where it first fits. The length follows from the needle, so the hit is known
by its offset. -/
theorem find?_eq_some_iff {needle : Needle} {bytes : Bytes} {hit : Hit} :
    needle.find? bytes = some hit ↔
      IsLeast (needle.placesIn bytes) hit.offset ∧ hit.length = needle.width := by
  rw [find?_eq_firstSuffix?, placesIn_eq, ← firstSuffix?_eq_some_iff_isLeast,
    Option.map_eq_some_iff]
  constructor
  · rintro ⟨offset, found, rfl⟩
    exact ⟨found, rfl⟩
  · rintro ⟨found, length⟩
    exact ⟨hit.offset, found, by rw [← length]⟩

/-- A needle is not found exactly if it fits nowhere. -/
theorem find?_eq_none_iff {needle : Needle} {bytes : Bytes} :
    needle.find? bytes = none ↔ needle.placesIn bytes = ∅ := by
  rw [find?_eq_firstSuffix?, placesIn_eq, Option.map_eq_none_iff, firstSuffix?_eq_none_iff,
    Set.eq_empty_iff_forall_notMem]
  simp

end Needle

namespace Finders

/-- A search for one of some bytes finds the first place of one. -/
theorem findIdx?_contains_eq_some_iff {sought bytes : Bytes} {offset : Nat} :
    bytes.findIdx? sought.contains = some offset ↔ IsLeast (placesOf sought bytes) offset := by
  rw [List.findIdx?_eq_some_iff_getElem]
  constructor
  · rintro ⟨inside, member, notEarlier⟩
    refine ⟨⟨bytes[offset], by simpa using member, List.getElem?_eq_getElem inside⟩, ?_⟩
    rintro place ⟨byte, byteMember, stands⟩
    obtain ⟨within, rfl⟩ := List.getElem?_eq_some_iff.mp stands
    apply Nat.le_of_not_lt
    intro before
    exact notEarlier place before (List.contains_iff_mem.mpr byteMember)
  · rintro ⟨⟨byte, member, stands⟩, least⟩
    obtain ⟨inside, rfl⟩ := List.getElem?_eq_some_iff.mp stands
    refine ⟨inside, List.contains_iff_mem.mpr member, ?_⟩
    intro earlier before memberThere
    have notBefore := least ⟨bytes[earlier], List.contains_iff_mem.mp memberThere,
      List.getElem?_eq_getElem (by omega)⟩
    omega

namespace Leftmost

variable {finders : Finders} (leftmost : finders.Leftmost)
include leftmost

/-- A byte is found where it first stands. -/
theorem one_eq (byte : UInt8) (bytes : Bytes) :
    finders.one byte bytes = bytes.findIdx? [byte].contains := by
  apply Option.ext
  intro offset
  rw [leftmost.one, findIdx?_contains_eq_some_iff]

/-- One of two bytes is found where the first of them stands. -/
theorem two_eq (first second : UInt8) (bytes : Bytes) :
    finders.two first second bytes = bytes.findIdx? [first, second].contains := by
  apply Option.ext
  intro offset
  rw [leftmost.two, findIdx?_contains_eq_some_iff]

/-- One of three bytes is found where the first of them stands. -/
theorem three_eq (first second third : UInt8) (bytes : Bytes) :
    finders.three first second third bytes = bytes.findIdx? [first, second, third].contains := by
  apply Option.ext
  intro offset
  rw [leftmost.three, findIdx?_contains_eq_some_iff]

/-- A string is found where it first stands. An empty string is found at once, which the finders are
asked to do as well. -/
theorem string_eq (sought bytes : Bytes) :
    finders.string sought bytes = firstSuffix? sought.isPrefixOf bytes := by
  apply Option.ext
  intro offset
  rw [leftmost.string, firstSuffix?_eq_some_iff_isLeast]
  simp only [List.isPrefixOf_iff_prefix]

/-- Searching a set of stop bytes group by group finds the first byte of the set. In front of the
hit of the earlier groups the later stop bytes are found as in the whole string, and behind it they
do not matter. -/
theorem stopOffset?_eq (stops bytes : Bytes) :
    finders.stopOffset? stops bytes = bytes.findIdx? stops.contains := by
  induction stops, bytes using Finders.stopOffset?.induct finders with
  | case1 bytes => exact (List.findIdx?_eq_none_iff.mpr (by simp)).symm
  | case2 first bytes => exact leftmost.one_eq first bytes
  | case3 first second bytes => exact leftmost.two_eq first second bytes
  | case4 first second third bytes => exact leftmost.three_eq first second third bytes
  | case5 first second third others bytes longer primary inductionHypothesis =>
    have primaryHit : primary = bytes.findIdx? [first, second, third].contains :=
      leftmost.three_eq first second third bytes
    rw [stopOffset?.eq_5 _ _ _ _ _ _ longer, inductionHypothesis, leftmost.three_eq, primaryHit,
      earlier?_findIdx?]
    congr 1
    funext byte
    simp only [List.contains_cons, List.contains_nil, Bool.or_false, Bool.or_assoc]

/-- A lead byte is sought like any byte. -/
theorem one_eq_beq (lead : UInt8) (bytes : Bytes) :
    finders.one lead bytes = bytes.findIdx? (· == lead) := by
  rw [leftmost.one_eq]
  congr 1
  funext byte
  simp [Bool.beq_eq_decide_eq]

/-- Going from lead byte to lead byte finds the first pair. No pair is missed between two lead
bytes, because every pair begins with one. -/
theorem pairOffsetFrom?_eq (lead : UInt8) (follow : Bytes) (offset : Nat) (bytes : Bytes) :
    finders.pairOffsetFrom? lead follow offset bytes =
      (firstSuffix? (Needle.beginsPair lead follow) (bytes.drop offset)).map (offset + ·) := by
  induction offset using pairOffsetFrom?.induct finders lead follow bytes with
  | case1 offset inside missing =>
    rw [pairOffsetFrom?, if_pos inside, missing]
    rw [leftmost.one_eq_beq] at missing
    rw [firstSuffix?_beginsPair_of_missing follow missing]
    rfl
  | case2 offset inside distance found place follows =>
    rw [pairOffsetFrom?, if_pos inside, found]
    rw [leftmost.one_eq_beq] at found
    rw [firstSuffix?_beginsPair_of_found follow found, List.getElem?_drop, ← Nat.add_assoc,
      if_pos follows]
    exact if_pos follows
  | case3 offset inside distance found place follows inductionHypothesis =>
    rw [pairOffsetFrom?, if_pos inside, found]
    rw [leftmost.one_eq_beq] at found
    rw [firstSuffix?_beginsPair_of_found follow found, List.getElem?_drop, ← Nat.add_assoc,
      if_neg follows]
    refine (if_neg follows).trans (inductionHypothesis.trans ?_)
    rw [List.drop_drop, Option.map_map]
    simp only [place, Nat.add_assoc, Function.comp_def]
  | case4 offset outside =>
    rw [pairOffsetFrom?, if_neg outside, List.drop_of_length_le (Nat.le_of_not_lt outside)]
    rfl

/-- Made of finders that find the leftmost hit, the search for a needle is that of this library. -/
theorem find?_eq (needle : Needle) (bytes : Bytes) :
    finders.find? needle bytes = needle.find? bytes := by
  cases needle with
  | byte value => rw [find?, leftmost.one_eq_beq, Needle.find?]
  | literal sought => rw [find?, leftmost.string_eq, Needle.find?]
  | anyOf stops => rw [find?, leftmost.stopOffset?_eq, Needle.find?, stopOffset?_eq_findIdx?]
  | pair lead follow =>
    rw [find?, leftmost.pairOffsetFrom?_eq, Needle.find?]
    simp

end Leftmost

/-- Walking through the bytes finds the leftmost hit. It shows that what is asked of the finders can
be had. -/
theorem leftmost_walking : walking.Leftmost where
  one _ _ _ := findIdx?_contains_eq_some_iff
  two _ _ _ _ := findIdx?_contains_eq_some_iff
  three _ _ _ _ _ := findIdx?_contains_eq_some_iff
  string sought bytes offset := by
    simp only [walking, firstSuffix?_eq_some_iff_isLeast, List.isPrefixOf_iff_prefix]

/-- Made of finders that find the leftmost hit, the search for a needle is leftmost, whatever the
needle: it finds the least offset at which the needle fits, with the number of bytes that it fits
there, and finds nothing exactly if the needle fits nowhere. So it is the search of this library. A
set of stop bytes, however many and however often repeated, is searched group by group with the
result of one walk through the bytes.

Proof: leftmost finders answer as the walks of this library do. For a set of stop bytes the earlier
of two hits is kept, so a search in front of the first loses nothing; for a pair go from lead byte
to lead byte by induction on the bytes left. What is left is one fact about searches for a test of a
place. -/
theorem find?_leftmost {finders : Finders} (leftmost : finders.Leftmost) (bytes : Bytes) :
    (∀ needle, finders.find? needle bytes = needle.find? bytes) ∧
    (∀ needle offset length, finders.find? needle bytes = some ⟨offset, length⟩ ↔
      IsLeast (needle.placesIn bytes) offset ∧ needle.Matches (bytes.drop offset) length) ∧
    (∀ needle offset length, finders.find? needle bytes = some ⟨offset, length⟩ →
      length = needle.width) ∧
    (∀ needle, finders.find? needle bytes = none ↔ needle.placesIn bytes = ∅) ∧
    ∀ stops, finders.stopOffset? stops bytes = bytes.findIdx? stops.contains := by
  refine ⟨fun needle => leftmost.find?_eq needle bytes, ?_, ?_, ?_,
    fun stops => leftmost.stopOffset?_eq stops bytes⟩
  · intro needle offset length
    rw [leftmost.find?_eq, Needle.find?_eq_some_iff]
    constructor
    · rintro ⟨least, rfl⟩
      obtain ⟨-, width, isMatch⟩ := least.1
      obtain ⟨fitting, -⟩ := Needle.matches_iff.mp isMatch
      exact ⟨least, Needle.matches_iff.mpr ⟨fitting, rfl⟩⟩
    · rintro ⟨least, isMatch⟩
      exact ⟨least, (Needle.matches_iff.mp isMatch).2⟩
  · intro needle offset length found
    rw [leftmost.find?_eq, Needle.find?_eq_some_iff] at found
    exact found.2
  · intro needle
    rw [leftmost.find?_eq, Needle.find?_eq_none_iff]

/-- Five stop bytes, one of them twice: the second group hits in front of the first. The opener of a
tag is found behind a lead byte that it does not follow. -/
theorem find?_leftmost_among_five_stops :
    walking.Leftmost ∧
    walking.find? (.anyOf [1, 2, 3, 4, 1]) [9, 4, 2, 1] = some ⟨1, 1⟩ ∧
    IsLeast ((Needle.anyOf [1, 2, 3, 4, 1]).placesIn [9, 4, 2, 1]) 1 ∧
    walking.find? (.pair Bytes.openBrace [Bytes.openBrace, Bytes.percent])
      [Bytes.openBrace, 9, Bytes.openBrace, Bytes.percent] = some ⟨2, 2⟩ ∧
    walking.find? (.literal []) [9] = some ⟨0, 0⟩ := by
  have search (bytes : Bytes) := find?_leftmost leftmost_walking bytes
  have stop : walking.find? (.anyOf [1, 2, 3, 4, 1]) [9, 4, 2, 1] = some ⟨1, 1⟩ :=
    ((search _).1 _).trans (by decide)
  exact ⟨leftmost_walking, stop, (((search _).2.1 _ _ _).mp stop).1,
    ((search _).1 _).trans (by decide), ((search _).1 _).trans (by decide)⟩

end Finders

end TemplateTokens
