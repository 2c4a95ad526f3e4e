import TemplateTokens.Bytes

/-!
# Needles

A needle is a shape to look for in a byte string: one byte, a fixed string, any one of a set of stop
bytes, or a lead byte with one of a set of bytes right after it. `Needle.Matches` says where a
needle fits, without saying how it is found; `Needle.find?` searches.

A search among stop bytes looks for three of them at a time. Once one of the three is found, the
others need only be sought in front of it.
-/

namespace TemplateTokens

/-- A shape to look for. -/
inductive Needle where
  /-- One given byte. -/
  | byte (value : UInt8)
  /-- A fixed string of bytes, possibly empty. -/
  | literal (bytes : Bytes)
  /-- Any one byte of a set. -/
  | anyOf (stops : Bytes)
  /-- One given byte and right after it any one byte of a set. -/
  | pair (lead : UInt8) (follow : Bytes)
deriving DecidableEq

/-- A place where a needle fits. -/
structure Hit where
  /-- The number of bytes in front of the match. -/
  offset : Nat
  /-- The number of bytes matched. -/
  length : Nat
deriving DecidableEq

/-- The number of bytes up to the end of the match. -/
def Hit.stop (hit : Hit) : Nat := hit.offset + hit.length

/-- The least offset at which the remaining bytes satisfy a test. The end of the string counts as
an offset too, with no bytes remaining. -/
def firstSuffix? (holds : Bytes → Bool) (bytes : Bytes) : Option Nat :=
  go 0 bytes
where
  /-- Counts offsets from `passed`, the number of bytes already passed over. -/
  go (passed : Nat) : Bytes → Option Nat
    | [] => if holds [] then some passed else none
    | byte :: rest => if holds (byte :: rest) then some passed else go (passed + 1) rest

/-- The lesser of two offsets, where either may be missing. -/
def earlier? : Option Nat → Option Nat → Option Nat
  | some left, some right => some (min left right)
  | some left, none => some left
  | none, right => right

/-- The offset of the first byte that belongs to a set, with the set searched three bytes at a time
and each later group only in front of the hit of the earlier ones. -/
def stopOffset? : Bytes → Bytes → Option Nat
  | first :: second :: third :: others, bytes =>
    let primary := bytes.findIdx? fun byte => byte == first || byte == second || byte == third
    earlier? primary (stopOffset? others (bytes.take (primary.getD bytes.length)))
  | stops, bytes => bytes.findIdx? stops.contains

namespace Needle

/-- A needle fits the front of a byte string, over the given number of bytes. -/
inductive Matches : Needle → Bytes → Nat → Prop where
  /-- A byte fits a string that begins with it. -/
  | byte (value : UInt8) (rest : Bytes) : Matches (.byte value) (value :: rest) 1
  /-- A literal fits a string that begins with it. -/
  | literal (bytes rest : Bytes) : Matches (.literal bytes) (bytes ++ rest) bytes.length
  /-- A set of stop bytes fits a string that begins with a member. -/
  | anyOf (stops : Bytes) (stop : UInt8) (rest : Bytes) (member : stop ∈ stops) :
      Matches (.anyOf stops) (stop :: rest) 1
  /-- A pair fits its lead byte with a member of its set right after it. -/
  | pair (lead : UInt8) (follow : Bytes) (next : UInt8) (rest : Bytes) (member : next ∈ follow) :
      Matches (.pair lead follow) (lead :: next :: rest) 2

/-- Whether a byte string begins with a lead byte and a member of a set right after it. -/
def beginsPair (lead : UInt8) (follow : Bytes) : Bytes → Bool
  | first :: next :: _ => first == lead && follow.contains next
  | _ => false

/-- The leftmost match of a needle. -/
def find? (needle : Needle) (bytes : Bytes) : Option Hit :=
  match needle with
  | byte value => (bytes.findIdx? (· == value)).map (⟨·, 1⟩)
  | literal sought => (firstSuffix? sought.isPrefixOf bytes).map (⟨·, sought.length⟩)
  | anyOf stops => (stopOffset? stops bytes).map (⟨·, 1⟩)
  | pair lead follow => (firstSuffix? (beginsPair lead follow) bytes).map (⟨·, 2⟩)

end Needle

/-- Passing over more bytes beforehand moves the answer by as many. The count of bytes passed is
only carried along, so searches can be reasoned about from offset zero. -/
theorem firstSuffix?.go_eq (holds : Bytes → Bool) (passed : Nat) (bytes : Bytes) :
    go holds passed bytes = (firstSuffix? holds bytes).map (passed + ·) := by
  induction bytes generalizing passed with
  | nil => simp only [firstSuffix?, go]; split <;> simp
  | cons byte rest inductionHypothesis =>
    simp only [firstSuffix?, go]
    split
    · simp
    · rw [inductionHypothesis (passed + 1), inductionHypothesis (0 + 1), Option.map_map]
      exact congrArg (Option.map · _) (funext fun offset => by simp only [Function.comp_apply]; omega)

/-- At the end of the string only the end itself is left to try. -/
theorem firstSuffix?_nil (holds : Bytes → Bool) :
    firstSuffix? holds [] = if holds [] then some 0 else none := rfl

/-- The search tries the whole string and then what follows its first byte. Facts about searches are
proved along this equation, by induction on the string. -/
theorem firstSuffix?_cons (holds : Bytes → Bool) (byte : UInt8) (rest : Bytes) :
    firstSuffix? holds (byte :: rest) =
      if holds (byte :: rest) then some 0 else (firstSuffix? holds rest).map (1 + ·) := by
  conv => lhs; rw [firstSuffix?, firstSuffix?.go]
  rw [firstSuffix?.go_eq]

/-- The bytes from the least offset on satisfy the test, and the offset lies inside the string. -/
theorem firstSuffix?_holds {holds : Bytes → Bool} {bytes : Bytes} {offset : Nat}
    (found : firstSuffix? holds bytes = some offset) :
    holds (bytes.drop offset) = true ∧ offset ≤ bytes.length := by
  induction bytes generalizing offset with
  | nil =>
    rw [firstSuffix?_nil] at found
    split at found
    · next atEnd => cases found; exact ⟨atEnd, Nat.le_refl 0⟩
    · exact absurd found (by simp)
  | cons byte rest inductionHypothesis =>
    rw [firstSuffix?_cons] at found
    split at found
    · next atOnce => cases found; exact ⟨atOnce, Nat.zero_le _⟩
    · obtain ⟨later, foundLater, rfl⟩ := Option.map_eq_some_iff.mp found
      obtain ⟨held, bounded⟩ := inductionHypothesis foundLater
      rw [Nat.add_comm]
      exact ⟨held, Nat.succ_le_succ bounded⟩

/-- A literal that is found lies wholly inside the string. What follows a match can therefore be cut
off without asking whether it is there. -/
theorem Needle.literal_stop_le {sought bytes : Bytes} {hit : Hit}
    (found : (Needle.literal sought).find? bytes = some hit) :
    hit.length = sought.length ∧ hit.stop ≤ bytes.length := by
  obtain ⟨offset, foundOffset, rfl⟩ := Option.map_eq_some_iff.mp found
  obtain ⟨held, bounded⟩ := firstSuffix?_holds foundOffset
  have fits := (List.isPrefixOf_iff_prefix.mp held).length_le
  simp only [List.length_drop] at fits
  exact ⟨rfl, by simp only [Hit.stop]; omega⟩

end TemplateTokens
