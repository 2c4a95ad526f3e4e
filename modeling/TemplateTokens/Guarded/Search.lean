import TemplateTokens.Guarded.Trap

/-!
# Guarded searches

The searches of a scan with every index looked at. A search for a pair runs from one lead byte to
the next and cuts off what it has passed each time; a search among stop bytes cuts off what is
behind an earlier hit; the test for a keyword cuts its way through the tag body; and the test for a
word character takes as many bytes as the lead byte asks for, or as there are.

A search for one byte or for a literal is the one without guards: it walks over the bytes and has
nothing to add until its hit is added to what was passed before. The results are to be those of the
searches without guards, and are compared with them in `Proofs.Guarded.Search`.
-/

namespace TemplateTokens.Guarded

/-- The offset of the first byte that belongs to a set, three bytes of the set at a time. -/
def stopOffset? : Bytes → Bytes → Guarded (Option Nat)
  | first :: second :: third :: others, bytes => do
    let primary := bytes.findIdx? fun byte => byte == first || byte == second || byte == third
    let searched ← front bytes (primary.getD bytes.length)
    return earlier? primary (← stopOffset? others searched)
  | stops, bytes => return bytes.findIdx? stops.contains

/-- The offset of the first lead byte from an offset on, with the offset right behind it. -/
def leadOffsetsFrom? (lead : UInt8) (offset : Nat) (bytes : Bytes) :
    Guarded (Option (Nat × Nat)) := do
  let remaining ← behind bytes offset
  match remaining.findIdx? (· == lead) with
  | none => return none
  | some distance =>
    let position ← sum offset distance
    return some (position, ← sum position 1)

/-- A lead byte takes the search on, and not past the end. The first half is what makes the search
for a pair end, the second keeps its next slice in bounds. -/
theorem leadOffsetsFrom?_bounds {lead : UInt8} {offset position next : Nat} {bytes : Bytes}
    (found : leadOffsetsFrom? lead offset bytes = .ok (some (position, next))) :
    offset < next ∧ next ≤ bytes.length := by
  obtain ⟨remaining, cut, searched⟩ := bind_eq_ok_iff.mp found
  obtain ⟨-, rfl⟩ := behind_eq_ok_iff.mp cut
  cases search : (bytes.drop offset).findIdx? (· == lead) with
  | none => simp [search] at searched
  | some distance =>
    rw [search] at searched
    obtain ⟨place, summed, searched⟩ := bind_eq_ok_iff.mp searched
    obtain ⟨behindPlace, moved, same⟩ := bind_eq_ok_iff.mp searched
    obtain ⟨-, rfl⟩ := sum_eq_ok_iff.mp summed
    obtain ⟨-, rfl⟩ := sum_eq_ok_iff.mp moved
    obtain ⟨rfl, rfl⟩ : offset + distance = position ∧ offset + distance + 1 = next := by
      simpa using same
    obtain ⟨before, -⟩ := List.findIdx?_eq_some_iff_getElem.mp search
    rw [List.length_drop] at before
    omega

/-- The offset of the first lead byte with a member of the set right after it, sought from an offset
on. -/
def pairOffsetFrom? (lead : UInt8) (follow : Bytes) (offset : Nat) (bytes : Bytes) :
    Guarded (Option Nat) :=
  match _found : leadOffsetsFrom? lead offset bytes with
  | .error trap => .error trap
  | .ok none => .ok none
  | .ok (some (position, next)) =>
    if bytes[next]?.any follow.contains then .ok (some position)
    else pairOffsetFrom? lead follow next bytes
termination_by bytes.length - offset
decreasing_by
  have bounds := leadOffsetsFrom?_bounds _found
  omega

/-- The leftmost match of a needle. -/
def find? (needle : Needle) (bytes : Bytes) : Guarded (Option Hit) :=
  match needle with
  | .anyOf stops => do return (← stopOffset? stops bytes).map (⟨·, 1⟩)
  | .pair lead follow => do return (← pairOffsetFrom? lead follow 0 bytes).map (⟨·, 2⟩)
  | needle => return needle.find? bytes

/-- The number of bytes of the character that a lead byte begins, read off the byte alone. -/
def characterWidth (lead : UInt8) : Nat :=
  if 0xc0 ≤ lead ∧ lead ≤ 0xdf then 2
  else if 0xe0 ≤ lead ∧ lead ≤ 0xef then 3
  else if 0xf0 ≤ lead ∧ lead ≤ 0xf7 then 4
  else 1

/-- Whether a byte string begins with a word character. -/
def startsWithWord (encoding : Encoding) : Bytes → Guarded Bool
  | [] => return false
  | lead :: rest =>
    if Bytes.isAscii lead then
      return Bytes.isAsciiAlphanumeric lead || lead == Bytes.underscore
    else if encoding ≠ .utf8 then return false
    else do
      let character ← front (lead :: rest) (min (characterWidth lead) (rest.length + 1))
      return (Utf8.text? character).any (·.toList.head?.any isAlphanumeric)

/-- Whether a tag body leads with the keyword. -/
def leads (keyword : Keyword) (encoding : Encoding) (body : Bytes) : Guarded Bool := do
  let dashLength := if body.head? = some Bytes.dash then 1 else 0
  let spaced ← behind body dashLength
  let margin ← sum dashLength (spaced.takeWhile Bytes.isSpace).length
  let named ← behind body margin
  if keyword.name.isPrefixOf named then
    let stop ← sum margin keyword.name.length
    let following ← behind body stop
    return !(← startsWithWord encoding following)
  else return false

end TemplateTokens.Guarded
