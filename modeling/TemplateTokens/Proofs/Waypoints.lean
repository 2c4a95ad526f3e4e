import Mathlib.Data.List.Induction
import Mathlib.Data.Set.Basic
import TemplateTokens.Proofs.Grammar
import TemplateTokens.Proofs.Validation

/-!
# Places that a scan comes to

A scan takes one step after the other. `Scan.ComesTo` says at which offset, in which context and
with which pieces behind it a scan can stand in front of a step. The scan of the template is then
what it has behind it and what a scan leaves behind that is resumed there
(`Scan.ComesTo.ofTemplate_eq`), and each of its pieces has such a place in front of it
(`Scan.exists_comesTo`).

What stands next in the template from some offset on is told by offsets in the template itself and
not by offsets in what remains of it.
-/

namespace TemplateTokens

/-- What is left behind the front of what is left. -/
theorem Bytes.drop_of_cut {source front back : Bytes} {start : Nat}
    (cut : source.drop start = front ++ back) : source.drop (start + front.length) = back := by
  rw [← List.drop_drop, cut, List.drop_left]

/-- A step that is taken at an offset carves its piece off there, and leaves what is behind. -/
theorem Carving.of_taken {encoding : Encoding} {context : Context} {source : Bytes} {offset : Nat}
    {step : Step} (taken : next? encoding context (source.drop offset) = some step) :
    source.drop offset =
        step.piece.region ++ source.drop (offset + step.piece.region.length) ∧
      Carving encoding context
        (step.piece.region ++ source.drop (offset + step.piece.region.length)) step := by
  have carving := next?_eq_some_iff.mp taken
  obtain ⟨rest, cut⟩ := carving.exists_rest
  rw [Bytes.drop_of_cut cut]
  exact ⟨cut, cut ▸ carving⟩

namespace Scan

/-- Puts pieces carved beforehand in front of what a scan leaves behind. -/
def behind (carved : List Piece) (scan : Scan) : Scan :=
  { scan with pieces := carved ++ scan.pieces }

/-- Whether a template has been checked once the given pieces are carved. -/
def checkedBehind (carved : List Piece) : Bool := carved.any (·.cause = .text)

/-- A scan of a template comes to an offset in a context, with the given pieces behind it. It comes
there one step after the other, and past text only if there is no complaint about the template.
Behind the content of a raw block it stands between markers, in front of the tag that ends the
block. -/
inductive ComesTo (template : Template) : List Piece → Context → Nat → Prop where
  /-- The scan begins between markers. -/
  | start : ComesTo template [] .markup 0
  /-- The scan takes the next step. -/
  | further {carved : List Piece} {context : Context} {offset : Nat} {step : Step}
      (comes : ComesTo template carved context offset)
      (taken : next? template.encoding context (template.bytes.drop offset) = some step)
      (passes : step.piece.cause = .text → template.check = none) :
      ComesTo template (carved ++ [step.piece]) step.context (offset + step.piece.region.length)

/-- A piece carved off is one more in front of what the scan leaves behind. -/
theorem behind_prepend (carved : List Piece) (piece : Piece) (scan : Scan) :
    (scan.prepend piece).behind carved = scan.behind (carved ++ [piece]) := by
  simp [behind, prepend]

/-- With the first text the template has been checked, and it stays so. -/
theorem checkedBehind_concat (carved : List Piece) (piece : Piece) :
    checkedBehind (carved ++ [piece]) = (checkedBehind carved || piece.cause = .text) := by
  simp [checkedBehind]

variable {template : Template} {carved : List Piece} {context : Context} {offset : Nat}

/-- A scan has come as far as the pieces behind it extend. The offset is thus determined by the
pieces, and is stated beside them because the rules are about offsets. -/
theorem ComesTo.extent_eq (comes : ComesTo template carved context offset) :
    Piece.extent carved = offset := by
  induction comes with
  | start => rfl
  | further comes taken passes inductionHypothesis =>
    rw [← inductionHypothesis]
    simp [Piece.extent]

/-- A scan has passed text only if there is no complaint. A scan that complains stops in front of
its first text and comes to no place behind it. -/
theorem ComesTo.check_eq_none (comes : ComesTo template carved context offset)
    (checked : checkedBehind carved = true) : template.check = none := by
  induction comes with
  | start => exact absurd checked (by simp [checkedBehind])
  | further comes taken passes inductionHypothesis =>
    rw [checkedBehind_concat, Bool.or_eq_true, decide_eq_true_iff] at checked
    exact checked.elim inductionHypothesis passes

/-- From a place that it comes to, a scan goes on as one that is resumed there. -/
theorem ComesTo.ofTemplate_eq (comes : ComesTo template carved context offset) :
    ofTemplate template =
      (resume template (checkedBehind carved) context (template.bytes.drop offset)).behind
        carved := by
  induction comes with
  | start => rfl
  | @further carved context offset step comes taken passes inductionHypothesis =>
    obtain ⟨cut, carving⟩ := Carving.of_taken taken
    rw [inductionHypothesis, cut, resume_eq_of_carving template _ carving, ← behind_prepend,
      checkedBehind_concat]
    by_cases isText : step.piece.cause = .text
    · rw [passes isText]
      cases checkedBehind carved <;> simp [isText]
    · simp [isText]

/-- A scan that checks nothing has carved off as much when it comes to a place, and goes on from
there as from a start. -/
theorem ComesTo.uncheckedPieces_eq (comes : ComesTo template carved context offset) :
    template.uncheckedPieces =
      carved ++ TemplateTokens.pieces template.encoding context (template.bytes.drop offset) := by
  induction comes with
  | start => rfl
  | @further carved context offset step comes taken passes inductionHypothesis =>
    obtain ⟨cut, carving⟩ := Carving.of_taken taken
    rw [inductionHypothesis, cut, carving.pieces_eq, List.append_assoc]
    rfl

/-- Between markers, and with bytes left, a scan that checks nothing carves off what stands there.
It is asked of the scan that checks nothing because the other may be stopped there. -/
theorem ComesTo.exists_next (comes : ComesTo template carved .markup offset)
    (inside : offset < template.length) :
    ∃ later, template.uncheckedPieces =
      carved ++ (Step.ofMarkup template.encoding (template.bytes.drop offset)).piece :: later := by
  have remaining : template.bytes.drop offset ≠ [] := by
    rw [ne_eq, List.drop_eq_nil_iff]
    exact Nat.not_le_of_lt inside
  have taken := next?_markup template.encoding remaining
  rw [comes.uncheckedPieces_eq, TemplateTokens.pieces]
  split
  · next complete => exact absurd (taken.symm.trans complete) (by simp)
  · next other takenOther =>
    cases Option.some.inj (taken.symm.trans takenOther)
    exact ⟨_, rfl⟩

/-- A scan that comes to a place has the pieces behind it among its own. They are the first of them,
in the same order. -/
theorem ComesTo.exists_pieces_eq (comes : ComesTo template carved context offset) :
    ∃ later, (ofTemplate template).pieces = carved ++ later :=
  ⟨_, congrArg Scan.pieces comes.ofTemplate_eq⟩

/-- A scan that stands between markers at the end is complete. -/
theorem ComesTo.ofTemplate_eq_of_end (comes : ComesTo template carved .markup offset)
    (atEnd : template.length ≤ offset) :
    ofTemplate template = { pieces := carved, invalid? := none } := by
  have nothing : resume template (checkedBehind carved) .markup [] =
      { pieces := [], invalid? := none } := by
    rw [resume]
    rfl
  rw [comes.ofTemplate_eq, List.drop_of_length_le atEnd, nothing, behind, List.append_nil]

/-- A scan that comes to the place in front of one of its pieces takes the step that carves it
off. -/
theorem ComesTo.exists_further {piece : Piece} {after : List Piece}
    (comes : ComesTo template carved context offset)
    (cut : (ofTemplate template).pieces = carved ++ piece :: after) :
    ∃ next, next? template.encoding context (template.bytes.drop offset) = some ⟨piece, next⟩ ∧
      ComesTo template (carved ++ [piece]) next (offset + piece.region.length) := by
  have goesOn : (resume template (checkedBehind carved) context
      (template.bytes.drop offset)).pieces = piece :: after := by
    rw [comes.ofTemplate_eq] at cut
    exact List.append_cancel_left cut
  rw [resume] at goesOn
  split at goesOn
  · exact absurd goesOn (by simp)
  · next step taken =>
    have passes : step.piece.cause = .text → template.check = none := by
      intro isText
      cases checked : checkedBehind carved with
      | true => exact comes.check_eq_none checked
      | false =>
        cases complaint : template.check with
        | none => rfl
        | some invalid => simp [isText, checked, complaint] at goesOn
    have further := comes.further taken passes
    obtain ⟨later, same⟩ := further.exists_pieces_eq
    rw [cut, List.append_assoc, List.append_cancel_left_eq] at same
    cases same
    exact ⟨step.context, taken, further⟩

/-- A scan comes to the place in front of each of its pieces. With its converse this makes the
places of a scan and the cuts of its list of pieces the same. -/
theorem exists_comesTo {after : List Piece} (cut : (ofTemplate template).pieces = carved ++ after) :
    ∃ context, ComesTo template carved context (Piece.extent carved) := by
  induction carved using List.reverseRecOn generalizing after with
  | nil => exact ⟨.markup, .start⟩
  | append_singleton carved piece inductionHypothesis =>
    rw [List.append_assoc, List.singleton_append] at cut
    obtain ⟨context, comes⟩ := inductionHypothesis cut
    obtain ⟨next, -, further⟩ := comes.exists_further cut
    rw [further.extent_eq]
    exact ⟨next, further⟩

end Scan

namespace Template

/-- The offsets from `start` on at which the closer of a tag stands. -/
def closersFrom (template : Template) (start : Nat) : Set Nat :=
  {offset | start ≤ offset ∧ Bytes.tagCloser <+: template.bytes.drop offset}

/-- The offsets from `start` on at which a tag stands that ends a raw block. -/
def rawEndsFrom (template : Template) (start : Nat) : Set Nat :=
  {offset | start ≤ offset ∧ endsRaw template.encoding (template.bytes.drop offset) = true}

/-- The tag that is opened at `start`, as a piece. It runs up to the end of its first closer, and
without one it is its bare opener. -/
inductive TagAt (template : Template) (start : Nat) : Piece → Prop where
  /-- A closer stands behind the opener. -/
  | closed {closer : Nat} (first : IsLeast (template.closersFrom (start + 2)) closer) :
      TagAt template start (.whole .tag (template.bytes.slice start (closer + 2)))
  /-- No closer stands behind the opener. -/
  | unclosed (nowhere : template.closersFrom (start + 2) = ∅) :
      TagAt template start (.whole .openTag Bytes.tagOpener)

variable {template : Template} {start : Nat}

/-- The closer of a tag is found where it first stands from the offset on from which it is
sought. -/
theorem isLeast_closersFrom_iff {distance : Nat} :
    IsLeast (template.closersFrom start) (start + distance) ↔
      (Needle.literal Bytes.tagCloser).find? (template.bytes.drop start) = some ⟨distance, 2⟩ :=
  Needle.find?_literal_drop_eq_some_iff.symm

/-- The closer of a tag is not found exactly if it stands nowhere from the offset on from which it
is sought. -/
theorem closersFrom_eq_empty_iff : template.closersFrom start = ∅ ↔
    (Needle.literal Bytes.tagCloser).find? (template.bytes.drop start) = none := by
  rw [Needle.find?_literal_drop_eq_none_iff, Set.eq_empty_iff_forall_notMem]
  exact forall_congr' fun _ => not_and

/-- Where no closer stands from some offset on, none stands from a later one on. -/
theorem closersFrom_eq_empty_of_le {later : Nat} (nowhere : template.closersFrom start = ∅)
    (behind : start ≤ later) : template.closersFrom later = ∅ := by
  rw [Set.eq_empty_iff_forall_notMem] at nowhere ⊢
  rintro offset ⟨laterLe, closes⟩
  exact nowhere offset ⟨Nat.le_trans behind laterLe, closes⟩

/-- The end of a raw block is found where a tag first ends it from the offset on from which it is
sought. -/
theorem isLeast_rawEndsFrom_iff {distance : Nat} :
    IsLeast (template.rawEndsFrom start) (start + distance) ↔
      firstSuffix? (endsRaw template.encoding) (template.bytes.drop start) = some distance :=
  firstSuffix?_drop_eq_some_iff.symm

/-- The end of a raw block is not found exactly if no tag ends it from the offset on from which it
is sought. -/
theorem rawEndsFrom_eq_empty_iff : template.rawEndsFrom start = ∅ ↔
    firstSuffix? (endsRaw template.encoding) (template.bytes.drop start) = none := by
  rw [firstSuffix?_drop_eq_none_iff, Set.eq_empty_iff_forall_notMem]
  simp [rawEndsFrom]

/-- A tag with a closer is cut off behind the first one. The closer is sought behind the opener, so
the percent sign of the opener is never taken for that of the closer. -/
theorem ofTag_of_isLeast {closer : Nat}
    (first : IsLeast (template.closersFrom (start + 2)) closer) :
    Piece.ofTag .tag .openTag (template.bytes.drop start) 2 =
      .whole .tag (template.bytes.slice start (closer + 2)) := by
  obtain ⟨distance, rfl⟩ := Nat.exists_eq_add_of_le first.1.1
  have found : (Needle.literal Bytes.tagCloser).find? ((template.bytes.drop start).drop 2) =
      some ⟨distance, 2⟩ := by
    rw [List.drop_drop]
    exact isLeast_closersFrom_iff.mp first
  have length : start + 2 + distance + 2 - start = 2 + (distance + 2) := by omega
  rw [Piece.ofTag, found, Bytes.slice, length]
  simp only [Piece.whole, Hit.stop, Nat.add_comm 2]

/-- A tag whose closer stands nowhere is cut off where the closer was sought. -/
theorem ofTag_of_closerless {passed : Nat} (closed unclosed : Cause)
    (nowhere : template.closersFrom (start + passed) = ∅) :
    Piece.ofTag closed unclosed (template.bytes.drop start) passed =
      { cause := unclosed
        region := (template.bytes.drop start).take passed
        token := ⟨Bytes.tagOpener⟩ } := by
  rw [closersFrom_eq_empty_iff, ← List.drop_drop] at nowhere
  rw [Piece.ofTag, nowhere]

/-- A tag without a closer is cut off behind its opener. -/
theorem ofTag_of_empty (opened : Bytes.tagOpener <+: template.bytes.drop start)
    (nowhere : template.closersFrom (start + 2) = ∅) :
    Piece.ofTag .tag .openTag (template.bytes.drop start) 2 = .whole .openTag Bytes.tagOpener := by
  have bare : Bytes.tagOpener = (template.bytes.drop start).take 2 :=
    List.prefix_iff_eq_take.mp opened
  rw [ofTag_of_closerless .tag .openTag nowhere, ← bare]
  rfl

/-- What is cut off where a tag is opened is that tag. The left side is told by the places of
closers in the source, and the right side by the function that carves tags off. -/
theorem tagAt_iff (opened : Bytes.tagOpener <+: template.bytes.drop start) {tag : Piece} :
    template.TagAt start tag ↔ tag = .ofTag .tag .openTag (template.bytes.drop start) 2 := by
  constructor
  · intro isTag
    cases isTag with
    | closed first => exact (ofTag_of_isLeast first).symm
    | unclosed nowhere => exact (ofTag_of_empty opened nowhere).symm
  · rintro rfl
    cases search : (Needle.literal Bytes.tagCloser).find? (template.bytes.drop (start + 2)) with
    | none =>
      have nowhere := closersFrom_eq_empty_iff.mpr search
      rw [ofTag_of_empty opened nowhere]
      exact .unclosed nowhere
    | some hit =>
      obtain ⟨distance, -, rfl⟩ := Option.map_eq_some_iff.mp search
      have first := isLeast_closersFrom_iff.mpr search
      rw [ofTag_of_isLeast first]
      exact .closed first

end Template

/-- No text is cut off as a tag, whatever the causes of a tag are. -/
theorem Piece.ofTag_cause_ne_text {closed unclosed : Cause} (bytes : Bytes) (passed : Nat)
    (closedNe : closed ≠ .text) (unclosedNe : unclosed ≠ .text) :
    (ofTag closed unclosed bytes passed).cause ≠ .text := by
  unfold ofTag
  split
  · exact closedNe
  · exact unclosedNe

/-- The step between markers where a tag is opened. -/
theorem next?_of_tagOpener (encoding : Encoding) {bytes : Bytes}
    (opened : Bytes.tagOpener <+: bytes) :
    next? encoding .markup bytes =
      some ⟨.ofTag .tag .openTag bytes 2, .behindTag encoding (bytes.drop 2)⟩ := by
  obtain ⟨body, rfl⟩ := opened
  rw [next?_markup _ (by simp), Step.ofMarkup_tagOpener]
  rfl

namespace Scan

variable {template : Template} {carved : List Piece} {start stop : Nat}

/-- A scan that stands between markers in front of a tag carves it off. No check is made for a tag,
so nothing is asked of the encoding. -/
theorem ComesTo.tag (comes : ComesTo template carved .markup start)
    (opened : Bytes.tagOpener <+: template.bytes.drop start) {tag : Piece}
    (cut : .ofTag .tag .openTag (template.bytes.drop start) 2 = tag) :
    ComesTo template (carved ++ [tag])
      (.behindTag template.encoding (template.bytes.drop (start + 2)))
      (start + tag.region.length) := by
  subst cut
  rw [← List.drop_drop]
  exact .further comes (next?_of_tagOpener _ opened) fun isText =>
    absurd isText (Piece.ofTag_cause_ne_text _ _ (by simp) (by simp))

/-- A scan that stands in a raw block in front of the tag that ends it carves that tag off, and then
stands between markers. -/
theorem ComesTo.endRaw (comes : ComesTo template carved .raw start)
    (ends : endsRaw template.encoding (template.bytes.drop start) = true) {tag : Piece}
    (cut : .ofTag .tag .openTag (template.bytes.drop start) 2 = tag) :
    ComesTo template (carved ++ [tag]) .markup (start + tag.region.length) := by
  subst cut
  have opened := tagOpener_prefix_of_endsRaw ends
  have carving := next?_eq_some_iff.mp (next?_of_tagOpener template.encoding opened)
  obtain ⟨-, leads⟩ := Bool.and_eq_true_iff.mp ends
  rw [Context.behindTag_of_endraw leads] at carving
  exact comes.further (Carving.endRaw ends carving).next?_eq fun isText =>
    absurd isText (Piece.ofTag_cause_ne_text _ _ (by simp) (by simp))

/-- A scan that stands in a raw block carves off its content, if there is any, and the tag that ends
the block, and then stands between markers. -/
theorem ComesTo.rawContent (comes : ComesTo template carved .raw start)
    (first : IsLeast (template.rawEndsFrom start) stop) {tag : Piece}
    (cut : .ofTag .tag .openTag (template.bytes.drop stop) 2 = tag) :
    ComesTo template
      (carved ++ (if start < stop then [.whole .raw (template.bytes.slice start stop)] else []) ++
        [tag]) .markup (stop + tag.region.length) := by
  obtain ⟨distance, rfl⟩ := Nat.exists_eq_add_of_le first.1.1
  have ends := first.1.2
  cases distance with
  | zero => simpa using comes.endRaw ends cut
  | succ distance =>
    have found := Template.isLeast_rawEndsFrom_iff.mp first
    have inside := (firstSuffix?_holds found).2
    have taken : next? template.encoding .raw (template.bytes.drop start) =
        some ⟨.whole .raw ((template.bytes.drop start).take (distance + 1)), .markup⟩ := by
      rw [next?, Step.ofRaw, Piece.rawLength?_eq, found]
      rfl
    have content := comes.further taken (by simp [Piece.whole])
    simp only [Piece.whole, List.length_take_of_le inside] at content
    obtain ⟨-, leads⟩ := Bool.and_eq_true_iff.mp ends
    rw [List.drop_drop] at leads
    have closing := content.tag (tagOpener_prefix_of_endsRaw ends) cut
    rw [Context.behindTag_of_endraw leads] at closing
    rw [if_pos (by omega), Bytes.slice, Nat.add_sub_cancel_left]
    exact closing

/-- A raw block that nothing ends is the last piece of a scan. Its content may be empty, and then
the scan has a token without bytes. -/
theorem ComesTo.openRaw (comes : ComesTo template carved .raw start)
    (nowhere : template.rawEndsFrom start = ∅) :
    ofTemplate template =
      { pieces := carved ++ [.whole .openRaw (template.bytes.drop start)], invalid? := none } := by
  have taken : next? template.encoding .raw (template.bytes.drop start) =
      some ⟨.whole .openRaw (template.bytes.drop start), .markup⟩ := by
    rw [next?, Step.ofRaw, Piece.rawLength?_eq, Template.rawEndsFrom_eq_empty_iff.mp nowhere]
  have last := comes.further taken (by simp [Piece.whole])
  apply last.ofTemplate_eq_of_end
  simp only [Piece.whole, List.length_drop, Template.length]
  omega

end Scan

end TemplateTokens
