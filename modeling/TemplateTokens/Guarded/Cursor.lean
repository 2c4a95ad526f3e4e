import TemplateTokens.Guarded.Search

/-!
# Guarded cursors

The moves of a cursor with every offset looked at. Moving to a position still stops at the end of
the template, as it is meant to. A cursor may also step back, but only over bytes that it can name:
they have to be one of the strings that it claims to have just passed.

A span is a trap if it starts after it ends, as for the cursor without guards, and also if it ends
behind the last byte, where that cursor would cut it short. The fault that a check reports is added
to the start of its span and may not leave the machine word either. `Proofs.Guarded.Cursor` compares
the moves one by one.
-/

namespace TemplateTokens.Guarded

/-- The bytes that the cursor has not passed. -/
def rest (cursor : Cursor) : Guarded Bytes := behind cursor.template.bytes cursor.position

/-- The byte at the cursor, and the cursor moved past it. -/
def read (cursor : Cursor) : Guarded (Option UInt8 × Cursor) :=
  match cursor.peek? with
  | some byte => do
    let position ← sum cursor.position 1
    return (some byte, { cursor with position })
  | none => return (none, cursor)

/-- Moves just past the leftmost match of a needle, or to the end, and tells how many bytes were
passed. -/
def skipPast (cursor : Cursor) (needle : Needle) : Guarded (Option Nat × Cursor) := do
  let remaining ← rest cursor
  match ← find? needle remaining with
  | some hit =>
    let passed ← sum hit.offset hit.length
    let position ← sum cursor.position passed
    return (some passed, { cursor with position })
  | none => return (none, cursor.finish)

/-- Whether the unread bytes lead with a keyword. -/
def leadsWith (cursor : Cursor) (keyword : Keyword) : Guarded Bool := do
  leads keyword cursor.template.encoding (← rest cursor)

/-- The bytes from `start` to `stop`, which have to be in order and inside the template. -/
def slice (cursor : Cursor) (start stop : Nat) : Guarded Bytes :=
  if start ≤ stop then
    if stop ≤ cursor.template.length then .ok (cursor.template.bytes.slice start stop)
    else .error (.outside stop cursor.template.length)
  else .error (.breach { start, stop })

/-- The bytes from `start` to the cursor. -/
def sliceFrom (cursor : Cursor) (start : Nat) : Guarded Bytes := slice cursor start cursor.position

/-- Checks the bytes from `start` to `stop` against the declared encoding. -/
def check (cursor : Cursor) (start stop : Nat) : Guarded (Option InvalidBytes) := do
  match cursor.template.encoding.check (← slice cursor start stop) with
  | none => return none
  | some invalid =>
    let offset ← sum start invalid.offset
    return some { invalid with offset }

/-- The position `count` bytes in front of the cursor, where the bytes between are one of those that
may have been passed. -/
def stepBack (cursor : Cursor) (count : Nat) (passed : List Bytes) : Guarded Nat := do
  let position ← difference cursor.position count
  if cursor.template.bytes.slice position cursor.position ∈ passed then return position
  else .error (.astray cursor.position count)

/-- Moves just past the next byte of a set and tells which one it is. -/
def skipToStop (cursor : Cursor) (stops : Bytes) : Guarded (Option UInt8 × Cursor) := do
  let (passed?, later) ← skipPast cursor (.anyOf stops)
  if passed?.isNone then return (none, later)
  let position ← stepBack later 1 (stops.map ([·]))
  read (later.moveTo position)

end TemplateTokens.Guarded
