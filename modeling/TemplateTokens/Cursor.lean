import TemplateTokens.Template
import TemplateTokens.Needle
import TemplateTokens.Keyword

/-!
# Cursors

A cursor is a position in a template. It reads forward, searches forward, and may be moved to any
position; moves past the end stop at the end, so the position never exceeds the length of the
template. Cutting out a span does not move the cursor. The one demand on a caller is that a span
does not start after it ends: a span that does is a breach, whatever the length of the template.

Positions are natural numbers here and never too large. What becomes of sums and differences of
offsets in machine words is the subject of `Guarded`, and that a search ends at the leftmost match,
of `Proofs.Leftmost`.
-/

namespace TemplateTokens

/-- A position in a template. -/
structure Cursor where
  /-- The template. -/
  template : Template
  /-- The number of bytes in front of the cursor. -/
  position : Nat
deriving DecidableEq

/-- A span that starts after it ends. -/
structure Breach where
  /-- The start that was asked for. -/
  start : Nat
  /-- The end that was asked for. -/
  stop : Nat
deriving DecidableEq

/-- The text of the complaint. -/
def Breach.message (breach : Breach) : String :=
  "slice start " ++ toString breach.start ++ " exceeds end " ++ toString breach.stop

namespace Cursor

/-- A cursor in front of the first byte. -/
def atStart (template : Template) : Cursor := { template, position := 0 }

/-- The bytes that the cursor has not passed. -/
def rest (cursor : Cursor) : Bytes := cursor.template.bytes.drop cursor.position

/-- Whether the cursor has passed every byte. -/
def atEnd (cursor : Cursor) : Bool := cursor.template.length ≤ cursor.position

/-- The byte at the cursor, or nothing at the end. -/
def peek? (cursor : Cursor) : Option UInt8 := cursor.template.bytes[cursor.position]?

/-- Moves to a position, or to the end if the template is shorter. -/
def moveTo (cursor : Cursor) (position : Nat) : Cursor :=
  { cursor with position := min position cursor.template.length }

/-- Moves past the last byte. -/
def finish (cursor : Cursor) : Cursor := { cursor with position := cursor.template.length }

/-- The byte at the cursor, and the cursor moved past it. At the end nothing moves. -/
def read (cursor : Cursor) : Option UInt8 × Cursor :=
  match cursor.peek? with
  | some byte => (some byte, { cursor with position := cursor.position + 1 })
  | none => (none, cursor)

/-- Reading stays in the template and does not go back. At the end it stands still, which is why the
second half is no strict inequality. -/
theorem read_forward (cursor : Cursor) :
    cursor.read.2.template = cursor.template ∧ cursor.position ≤ cursor.read.2.position := by
  rw [read]
  cases cursor.peek? with
  | none => exact ⟨rfl, Nat.le_refl _⟩
  | some byte => exact ⟨rfl, Nat.le_succ _⟩

/-- A byte that is read is in the template and is passed. -/
theorem read_of_peek? {cursor : Cursor} {byte : UInt8} (here : cursor.peek? = some byte) :
    cursor.position < cursor.template.length ∧
    cursor.read = (some byte, { cursor with position := cursor.position + 1 }) := by
  obtain ⟨inside, -⟩ := List.getElem?_eq_some_iff.mp here
  exact ⟨inside, by rw [read, here]⟩

/-- Moves just past the leftmost match of a needle and tells how many bytes were passed. Without a
match the cursor moves to the end. -/
def skipPast (cursor : Cursor) (needle : Needle) : Option Nat × Cursor :=
  match needle.find? cursor.rest with
  | some hit => (some hit.stop, { cursor with position := cursor.position + hit.stop })
  | none => (none, cursor.finish)

/-- Whether the unread bytes lead with a keyword, as a tag body would. Nothing moves. -/
def leadsWith (cursor : Cursor) (keyword : Keyword) : Bool :=
  keyword.leads cursor.template.encoding cursor.rest

/-- The bytes from `start` to `stop`, each cut back to the length of the template. -/
def slice (cursor : Cursor) (start stop : Nat) : Except Breach Bytes :=
  if start ≤ stop then .ok (cursor.template.bytes.slice start stop) else .error { start, stop }

/-- The bytes from `start` to the cursor. -/
def sliceFrom (cursor : Cursor) (start : Nat) : Except Breach Bytes :=
  cursor.slice start cursor.position

/-- Checks the bytes from `start` to `stop` against the declared encoding. A complaint gives the
offset in the template and not in the span. -/
def check (cursor : Cursor) (start stop : Nat) : Except Breach (Option InvalidBytes) :=
  (cursor.slice start stop).map fun span =>
    (cursor.template.encoding.check span).map (·.shift start)

end Cursor

end TemplateTokens
