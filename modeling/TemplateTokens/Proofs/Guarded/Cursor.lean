import TemplateTokens.Guarded.Cursor
import TemplateTokens.Proofs.Guarded.Search
import TemplateTokens.Proofs.Validation

/-!
# Guarded moves of a cursor are not stopped

A cursor inside a template that is short enough for machine words moves as the cursor without guards
does. What it passes lies inside the template, and it can step back over a marker that it has just
passed.

Each move has one theorem, stated by a cut of the rest where the move depends on what stands there,
and later proofs use these and do not open the moves. The bound on the template is `2 ^ 63`
throughout, which leaves room for adding a length to an offset. No theorem says that a trap is
reached; that a longer template would lead to one is not claimed.
-/

namespace TemplateTokens

/-- From an index on as many bytes are left as the index leaves of the length. -/
theorem Template.length_drop (template : Template) (start : Nat) :
    (template.bytes.drop start).length = template.length - start :=
  List.length_drop

namespace Cursor

/-- The cursor has not passed the bytes between its position and the end. -/
theorem length_rest (cursor : Cursor) :
    cursor.rest.length = cursor.template.length - cursor.position :=
  cursor.template.length_drop cursor.position

/-- The bytes in front of the cursor end inside the template. A position given by a sum is then
known not to overflow, since the length does not. -/
theorem position_add_le {cursor : Cursor} {front after : Bytes}
    (inside : cursor.position ≤ cursor.template.length) (cut : cursor.rest = front ++ after) :
    cursor.position + front.length ≤ cursor.template.length := by
  have length := cursor.length_rest
  rw [cut, List.length_append] at length
  omega

/-- The byte at the cursor is the first of those not passed. -/
theorem peek?_eq_head? (cursor : Cursor) : cursor.peek? = cursor.rest.head? :=
  List.head?_drop.symm

/-- Behind the bytes in front of it the cursor has not passed what follows them. -/
theorem rest_of_cut {cursor : Cursor} (count : Nat) (front after : Bytes)
    (cut : cursor.rest = front ++ after) (size : front.length = count) :
    Cursor.rest { cursor with position := cursor.position + count } = after := by
  rw [rest, ← List.drop_drop, ← Cursor.rest, cut, List.drop_left' size]

/-- A move that is cut short leaves nothing, as the whole move would. -/
theorem rest_moveTo (cursor : Cursor) (target : Nat) :
    (cursor.moveTo target).rest = cursor.template.bytes.drop target := by
  rw [moveTo, rest]
  rcases Nat.le_total target cursor.template.length with within | beyond
  · rw [Nat.min_eq_left within]
  · rw [Nat.min_eq_right beyond, List.drop_of_length_le beyond]
    exact List.drop_length

/-- A move past the bytes in front of it, and past some of those that follow, leaves the others. -/
theorem rest_moveTo_of_cut {cursor : Cursor} (count further : Nat) (front after : Bytes)
    (cut : cursor.rest = front ++ after) (size : front.length = count) :
    (cursor.moveTo (cursor.position + count + further)).rest = after.drop further := by
  rw [rest_moveTo, Nat.add_assoc, ← List.drop_drop, ← Cursor.rest, cut, ← size,
    List.drop_length_add_append]

/-- Moving to a position inside the template is not cut short. -/
theorem moveTo_of_le {template : Template} {position target : Nat}
    (inside : target ≤ template.length) :
    moveTo { template, position } target = { template, position := target } := by
  rw [moveTo, Nat.min_eq_left inside]

end Cursor

namespace Guarded

variable {template : Template} {position : Nat}

/-- A span inside the template is cut out. A start behind the end would be stopped, and so would an
end behind the template. -/
theorem slice_eq {start stop : Nat} (ordered : start ≤ stop) (inside : stop ≤ template.length) :
    slice { template, position } start stop = .ok (template.bytes.slice start stop) := by
  rw [slice, if_pos ordered, if_pos inside]

/-- The cursor steps back over bytes that end right in front of it. What was passed is given as a
list, since a turn may have passed one marker or another. -/
theorem stepBack_eq (count : Nat) {start : Nat} {passed : List Bytes} (marker rest : Bytes)
    (follows : template.bytes.drop start = marker ++ rest) (size : marker.length = count)
    (member : marker ∈ passed) :
    stepBack { template, position := start + count } count passed = .ok start := by
  have between : template.bytes.slice start (start + count) = marker := by
    rw [Bytes.slice, follows, Nat.add_sub_cancel_left, List.take_left' size]
  rw [stepBack, difference_eq (Nat.le_add_left count start), ok_bind, Nat.add_sub_cancel, between,
    if_pos member, pure_eq]

variable (small : template.length < 2 ^ 63)
include small

/-- The check of the whole template is not stopped. -/
theorem check_eq : check { template, position } 0 template.length = .ok template.check := by
  have whole : template.bytes.slice 0 template.length = template.bytes := List.take_length
  rw [check, slice_eq (Nat.zero_le _) (Nat.le_refl _), ok_bind, whole, Template.check]
  cases complaint : template.encoding.check template.bytes with
  | none => rfl
  | some invalid =>
    obtain ⟨offset, fault, rfl⟩ := Option.map_eq_some_iff.mp complaint
    obtain ⟨within, -⟩ := Encoding.firstFault?_eq_some_iff.mp fault
    rw [Template.length] at small
    simp only
    rw [sum_eq (by omega), ok_bind, Nat.zero_add]
    rfl

/-- Reading is not stopped, at the end or in front of it. -/
theorem read_eq : read { template, position } = .ok (Cursor.read { template, position }) := by
  cases here : Cursor.peek? { template, position } with
  | none =>
    rw [read, Cursor.read, here]
    rfl
  | some byte =>
    obtain ⟨inside, step⟩ := Cursor.read_of_peek? here
    simp only at inside
    rw [step, read, here]
    simp only
    rw [sum_eq (by omega), ok_bind, pure_eq]

/-- The next byte is read. -/
theorem read_of_rest {byte : UInt8} {after : Bytes}
    (cut : Cursor.rest { template, position } = byte :: after) :
    read { template, position } = .ok (some byte, { template, position := position + 1 }) := by
  have here : Cursor.peek? { template, position } = some byte := by
    rw [Cursor.peek?_eq_head?, cut, List.head?_cons]
  rw [read_eq small, (Cursor.read_of_peek? here).2]

variable (inside : position ≤ template.length)
include inside

/-- A search forward is not stopped. The position behind a match is a sum, and the length of the
template is what keeps it from overflowing. -/
theorem skipPast_eq (needle : Needle) :
    skipPast { template, position } needle = .ok (Cursor.skipPast { template, position } needle) := by
  have length := Cursor.length_rest { template, position }
  have remaining : rest { template, position } = .ok (Cursor.rest { template, position }) :=
    behind_eq inside
  simp only at length
  rw [skipPast, remaining, ok_bind, find?_eq needle (by omega), ok_bind, Cursor.skipPast]
  cases search : needle.find? (Cursor.rest { template, position }) with
  | none => rfl
  | some hit =>
    have within := Needle.find?_stop_le search
    have passed : sum hit.offset hit.length = .ok hit.stop := sum_eq (by rw [← Hit.stop]; omega)
    have reached : sum position hit.stop = .ok (position + hit.stop) := sum_eq (by omega)
    simp only
    rw [passed, ok_bind, reached, ok_bind, pure_eq]

/-- The test for a keyword is not stopped. -/
theorem leadsWith_eq (keyword : Keyword) :
    leadsWith { template, position } keyword =
      .ok (Cursor.leadsWith { template, position } keyword) := by
  have length := Cursor.length_rest { template, position }
  have remaining : rest { template, position } = .ok (Cursor.rest { template, position }) :=
    behind_eq inside
  simp only at length
  rw [leadsWith, remaining, ok_bind, leads_eq keyword _ (by omega), Cursor.leadsWith]

/-- Without a stop byte the cursor moves to the end. -/
theorem skipToStop_of_missing {stops : Bytes}
    (missing : (Needle.anyOf stops).find? (Cursor.rest { template, position }) = none) :
    skipToStop { template, position } stops =
      .ok (none, { template, position := template.length }) := by
  rw [skipToStop, skipPast_eq small inside, Cursor.skipPast, missing]
  rfl

/-- The cursor moves past the first stop byte. -/
theorem skipToStop_of_found {stops front after : Bytes} {stop : UInt8}
    (cut : Cursor.rest { template, position } = front ++ stop :: after) (member : stop ∈ stops)
    (found : (Needle.anyOf stops).find? (front ++ stop :: after) = some ⟨front.length, 1⟩) :
    skipToStop { template, position } stops =
      .ok (some stop, { template, position := position + front.length + 1 }) := by
  have length := Cursor.length_rest { template, position }
  rw [cut, List.length_append, List.length_cons] at length
  simp only at length
  have here := Cursor.rest_of_cut front.length front (stop :: after) cut rfl
  have passed : skipPast { template, position } (.anyOf stops) =
      .ok (some (front.length + 1), { template, position := position + front.length + 1 }) := by
    rw [skipPast_eq small inside, Cursor.skipPast, cut, found]
    rfl
  have back : stepBack { template, position := position + front.length + 1 } 1
      (stops.map ([·])) = .ok (position + front.length) :=
    stepBack_eq 1 [stop] after here rfl (List.mem_map_of_mem member)
  rw [skipToStop, passed, ok_bind]
  simp only [Option.isNone_some, Bool.false_eq_true, if_false]
  rw [back, ok_bind, Cursor.moveTo_of_le (by omega), read_of_rest small here]

end Guarded

end TemplateTokens
