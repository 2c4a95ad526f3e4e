import TemplateTokens.Proofs.Trace
import TemplateTokens.Proofs.Validation

/-!
# Templates can be joined behind a closed marker

If every marker of a template is closed and its last piece is not text, then a scan of the template
with more bytes behind it does the same up to there, and goes on as a scan of those bytes alone.
Every cut is settled by the bytes up to its end (`Carving.append`), with two exceptions that do not
arise here: text could be longer, and the tag that ends a raw block could lead with another keyword.
The first has an opener behind it, and the second its own closer.
-/

namespace TemplateTokens

/-- Whether a piece lacks no closer. -/
def Cause.isClosed : Cause → Bool
  | .openTag | .openOutput | .overtakenOpen _ | .openRaw => false
  | _ => true

/-- Sound strings can be joined. The converse fails, since a character may be cut in two; no side
condition is needed in this direction. -/
theorem Encoding.Sound.append {encoding : Encoding} {front back : Bytes}
    (frontSound : encoding.Sound front) (backSound : encoding.Sound back) :
    encoding.Sound (front ++ back) := by
  cases encoding with
  | utf8 => exact Utf8.firstIllFormed?_append frontSound backSound
  | ascii =>
    simp only [Sound, firstFault?, List.findIdx?_eq_none_iff] at frontSound backSound ⊢
    intro byte member
    rcases List.mem_append.mp member with inFront | inBack
    · exact frontSound byte inFront
    · exact backSound byte inBack
  | binary => rfl

/-- Whether a tag ends a raw block is settled by the bytes up to a percent sign behind its
opener. -/
theorem endsRaw_append {encoding : Encoding} {bytes : Bytes} (more : Bytes)
    (settled : Bytes.percent ∈ bytes.drop 2) :
    endsRaw encoding (bytes ++ more) = endsRaw encoding bytes := by
  have long : 2 ≤ bytes.length := by
    apply Nat.le_of_not_lt
    intro short
    rw [List.drop_of_length_le (by omega)] at settled
    exact absurd settled List.not_mem_nil
  have sameOpener : Bytes.tagOpener.isPrefixOf (bytes ++ more) = Bytes.tagOpener.isPrefixOf bytes :=
    isPrefixOf_append_of_length_le more long
  rw [endsRaw, endsRaw, sameOpener, List.drop_append_of_le_length long,
    Keyword.leads_append encoding more (by decide) settled]

/-- A closed piece takes up bytes. Only a raw block without an end can be carved off where nothing
is left, and that is not closed. -/
theorem Carving.bytes_ne_nil {encoding : Encoding} {context : Context} {bytes : Bytes} {step : Step}
    (carving : Carving encoding context bytes step) (closed : step.piece.cause.isClosed = true) :
    bytes ≠ [] := by
  induction carving with
  | text nonempty | raw nonempty => simp [nonempty]
  | openRaw => exact absurd closed (by simp [Piece.whole, Cause.isClosed])
  | endRaw _ _ inductionHypothesis => exact inductionHypothesis closed
  | _ => simp

/-- Where a raw block ends with a closed tag, a percent sign stands behind the opener of that
tag. -/
theorem Carving.percent_mem {encoding : Encoding} {context : Context} {bytes : Bytes} {step : Step}
    (carving : Carving encoding context bytes step) (closed : step.piece.cause.isClosed = true)
    (ends : endsRaw encoding bytes = true) : Bytes.percent ∈ bytes.drop 2 := by
  have opened : Bytes.tagOpener <+: bytes := by
    by_contra notOpened
    exact absurd ends (by simp [endsRaw_eq_false_of_not_opened notOpened])
  induction carving with
  | text nonempty plain =>
    exact absurd (.inr opened) (plain 0 (List.length_pos_iff.mpr nonempty))
  | tag => simp
  | output | overtaken =>
    simp [show ¬ Bytes.percent = Bytes.openBrace by decide] at opened
  | openTag | overtakenOpen | openOutput | openRaw =>
    exact absurd closed (by simp [Piece.whole, Cause.isClosed])
  | raw nonempty inside =>
    exact absurd ends (by simpa using inside 0 (List.length_pos_iff.mpr nonempty))
  | endRaw _ _ inductionHypothesis => exact inductionHypothesis closed ends opened

/-- A closed piece is carved off in the same way when more bytes follow, provided that text is
followed by something already and that a tag that ends a raw block behind the piece is complete. -/
theorem Carving.append {encoding : Encoding} {context : Context} {bytes rest : Bytes} {step : Step}
    (carving : Carving encoding context bytes step) (cut : bytes = step.piece.region ++ rest)
    (closed : step.piece.cause.isClosed = true)
    (follows : step.piece.cause = .text → rest ≠ [])
    (ended : endsRaw encoding rest = true → Bytes.percent ∈ rest.drop 2) (more : Bytes) :
    Carving encoding context (bytes ++ more) step := by
  induction carving with
  | @text front behind nonempty plain stops =>
    obtain rfl : behind = rest := List.append_cancel_left cut
    -- The text ends at an opener and not with the bytes, and that opener stays where it is.
    have remaining : behind ≠ [] := follows rfl
    have opened : Opens behind := stops.resolve_left remaining
    have openedWithMore : Opens (behind ++ more) :=
      opened.imp (·.trans (List.prefix_append _ _)) (·.trans (List.prefix_append _ _))
    obtain ⟨noOutput, noTag, seam⟩ := (plain_iff stops).mp plain
    rw [List.append_assoc]
    refine .text nonempty ((plain_iff (.inr openedWithMore)).mpr ⟨noOutput, noTag, ?_⟩)
      (.inr openedWithMore)
    exact .inr (seam.resolve_left remaining)
  | tag clean =>
    rw [List.append_assoc]
    exact .tag clean
  | output complete =>
    rw [List.append_assoc]
    exact .output complete
  | overtaken complete clean =>
    rw [List.append_assoc]
    exact .overtaken complete clean
  | openTag | overtakenOpen | openOutput | openRaw =>
    exact absurd closed (by simp [Piece.whole, Cause.isClosed])
  | @raw content behind nonempty inside ends =>
    obtain rfl : behind = rest := List.append_cancel_left cut
    have settled := ended ends
    rw [List.append_assoc]
    refine .raw nonempty (fun offset before => ?_) (by rw [endsRaw_append more settled, ends])
    -- A tag opened further in front has the same percent sign behind it, and is settled with it.
    have settledHere : Bytes.percent ∈ ((content ++ behind).drop offset).drop 2 := by
      have later : behind.drop 2 = (((content ++ behind).drop offset).drop 2).drop
          (content.length - offset) := by
        have place : offset + (2 + (content.length - offset)) = content.length + 2 := by omega
        rw [List.drop_drop, List.drop_drop, place, List.drop_length_add_append]
      rw [later] at settled
      exact List.mem_of_mem_drop settled
    rw [← List.append_assoc, List.drop_append_of_le_length (by simp; omega),
      endsRaw_append more settledHere, inside offset before]
  | @endRaw bytes step ends carving inductionHypothesis =>
    refine .endRaw ?_ (inductionHypothesis cut closed follows)
    rw [endsRaw_append more (carving.percent_mem closed ends), ends]

/-- Where a closed course meets the tag that ends a raw block, that tag is complete. The percent
sign is that of its closer. It shows that the tag does not become another one when more bytes
follow. -/
theorem Course.percent_mem {encoding : Encoding} {context : Context} {bytes : Bytes}
    {carved : List Piece} (course : Course encoding context bytes carved)
    (closed : ∀ piece ∈ carved, piece.cause.isClosed = true)
    (ends : endsRaw encoding bytes = true) : Bytes.percent ∈ bytes.drop 2 := by
  cases course with
  | done => exact absurd ends (by simp [endsRaw])
  | step carving tail => exact carving.percent_mem (closed _ List.mem_cons_self) ends

/-- A closed course over no bytes has no pieces. -/
theorem Course.eq_nil {encoding : Encoding} {context : Context} {bytes : Bytes}
    {carved : List Piece} (course : Course encoding context bytes carved)
    (closed : ∀ piece ∈ carved, piece.cause.isClosed = true) (empty : bytes = []) :
    carved = [] := by
  cases course with
  | done => rfl
  | step carving tail =>
    exact absurd empty (carving.bytes_ne_nil (closed _ List.mem_cons_self))

/-- A closed course whose last piece is not text can be continued by any other.

Proof: by induction on the first course. Each of its carvings is made in the same way in front of
the bytes of the second, since what follows it in the first settles it. -/
theorem Course.append {encoding : Encoding} {context : Context} {front back : Bytes}
    {carvedFront carvedBack : List Piece} (course : Course encoding context front carvedFront)
    (closed : ∀ piece ∈ carvedFront, piece.cause.isClosed = true)
    (noText : ∀ piece ∈ carvedFront.getLast?, piece.cause ≠ .text)
    (continued : Course encoding .markup back carvedBack) :
    Course encoding context (front ++ back) (carvedFront ++ carvedBack) := by
  induction course with
  | done => exact continued
  | @step context rest step later carving tail inductionHypothesis =>
    obtain ⟨closedHere, closedLater⟩ := List.forall_mem_cons.mp closed
    have follows : step.piece.cause = .text → rest ≠ [] := by
      intro isText empty
      have last : later = [] := tail.eq_nil closedLater empty
      exact noText step.piece (by simp [last]) isText
    have noTextLater : ∀ piece ∈ later.getLast?, piece.cause ≠ .text := by
      intro piece member
      exact noText piece (by simp [List.getLast?_cons, Option.mem_def.mp member])
    have extended := carving.append rfl closedHere follows (tail.percent_mem closedLater) back
    rw [List.append_assoc] at extended ⊢
    exact .step extended (inductionHypothesis closedLater noTextLater)

end TemplateTokens
