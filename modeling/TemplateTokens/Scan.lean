import TemplateTokens.Piece
import TemplateTokens.Template

/-!
# Scanning a template

A scan carves pieces off the front of a template until nothing is left. Between markers and inside a
raw block different things can come next, and the only memory of a scan is which of the two holds.

`next?` is one step, and `pieces` runs it to the end. `scan` runs it too, but checks the declared
encoding of the whole template before the first piece of text, and stops there if the check fails. A
template without text is never checked.
-/

namespace TemplateTokens

/-- Where a scan stands. -/
inductive Context where
  /-- Between markers. -/
  | markup
  /-- Behind the tag that opens a raw block. -/
  | raw
deriving DecidableEq, Repr

/-- A piece, and where the scan stands behind it. -/
structure Step where
  /-- The piece. -/
  piece : Piece
  /-- Where the scan stands behind the piece. -/
  context : Context
deriving DecidableEq

namespace Step

/-- The step between markers. A tag whose body leads with `raw` opens a raw block, with or without a
closer. -/
def ofMarkup (encoding : Encoding) (bytes : Bytes) : Step :=
  if Bytes.tagOpener.isPrefixOf bytes then
    { piece := .ofTag .tag .openTag bytes 2
      context := if Keyword.raw.leads encoding (bytes.drop 2) then .raw else .markup }
  else if Bytes.outputOpener.isPrefixOf bytes then
    { piece := .ofOutput bytes, context := .markup }
  else { piece := .ofText bytes, context := .markup }

/-- The step inside a raw block: its content if it has any, and otherwise the tag that ends it. A
raw block that is never ended takes up all that is left, even if nothing is. -/
def ofRaw (encoding : Encoding) (bytes : Bytes) : Step :=
  match Piece.rawLength? encoding bytes with
  | none => { piece := .whole .openRaw bytes, context := .markup }
  | some 0 => ofMarkup encoding bytes
  | some length => { piece := .whole .raw (bytes.take length), context := .markup }

end Step

/-- The next step of a scan, or nothing if the scan is complete. -/
def next? (encoding : Encoding) : Context → Bytes → Option Step
  | .markup, [] => none
  | .markup, byte :: rest => some (.ofMarkup encoding (byte :: rest))
  | .raw, bytes => some (.ofRaw encoding bytes)

/-- A bound on the number of steps that are left. A raw block can take one step more than the bytes
allow, because its content may be missing. -/
def Context.stepBound (context : Context) (bytes : Bytes) : Nat :=
  match context with
  | .markup => 2 * bytes.length
  | .raw => 2 * bytes.length + 1

/-- Text is not empty where no opener stands. The search for the end of text begins at its first
byte, so an opener there would leave the text empty. -/
theorem Piece.ofText_region_pos {bytes : Bytes} (remaining : bytes ≠ [])
    (noTag : Bytes.tagOpener.isPrefixOf bytes = false)
    (noOutput : Bytes.outputOpener.isPrefixOf bytes = false) :
    0 < (Piece.ofText bytes).region.length := by
  have nonempty : 0 < bytes.length := List.length_pos_iff.mpr remaining
  unfold Piece.ofText
  split
  · next hit found =>
    obtain ⟨offset, foundOffset, rfl⟩ := Option.map_eq_some_iff.mp found
    have later : 0 < offset := by
      refine Nat.pos_of_ne_zero fun atOnce => ?_
      subst atOnce
      have begins := (firstSuffix?_holds foundOffset).1
      rw [List.drop_zero] at begins
      match bytes, begins with
      | first :: next :: _, begins =>
        simp only [Needle.beginsPair, Bool.and_eq_true, beq_iff_eq, List.contains_cons,
          List.contains_nil, Bool.or_false, Bool.or_eq_true] at begins
        obtain ⟨rfl, rfl | rfl⟩ := begins
        · simp at noOutput
        · simp at noTag
    simp only [Piece.whole, List.length_take]
    omega
  · exact nonempty

/-- A tag takes up at least the bytes passed before its closer is sought. -/
theorem Piece.le_ofTag_region_length {bytes : Bytes} {passed : Nat} (closed unclosed : Cause)
    (inside : passed ≤ bytes.length) :
    passed ≤ (Piece.ofTag closed unclosed bytes passed).region.length := by
  unfold Piece.ofTag
  split <;> simp only [List.length_take] <;> omega

/-- An output takes up at least its opener. -/
theorem Piece.ofOutput_region_pos {bytes : Bytes} (remaining : bytes ≠ []) :
    0 < (Piece.ofOutput bytes).region.length := by
  have nonempty : 0 < bytes.length := List.length_pos_iff.mpr remaining
  unfold Piece.ofOutput
  split
  · simp only [Piece.whole, List.length_take]; omega
  · unfold Piece.ofTag
    split <;> simp only [List.length_take] <;> omega
  · exact nonempty

/-- Between markers every step takes up a byte at least. A raw block is the other case: its content
may be empty, and there the context lowers the bound instead. -/
theorem Step.ofMarkup_region_pos (encoding : Encoding) {bytes : Bytes} (remaining : bytes ≠ []) :
    0 < (Step.ofMarkup encoding bytes).piece.region.length := by
  unfold Step.ofMarkup
  split
  · next tagOpens =>
    have opened := (List.isPrefixOf_iff_prefix.mp tagOpens).length_le
    exact Nat.lt_of_lt_of_le (by decide) (Piece.le_ofTag_region_length .tag .openTag opened)
  · next noTag =>
    split
    · exact Piece.ofOutput_region_pos remaining
    · next noOutput =>
      exact Piece.ofText_region_pos remaining (Bool.eq_false_iff.mpr noTag)
        (Bool.eq_false_iff.mpr noOutput)

/-- Every step lowers the bound. The bound counts every byte left twice, and one more inside a raw
block, since a step there may take up nothing and only leave the block. -/
theorem stepBound_lt {encoding : Encoding} {context : Context} {bytes : Bytes} {step : Step}
    (taken : next? encoding context bytes = some step) :
    step.context.stepBound (bytes.drop step.piece.region.length) < context.stepBound bytes := by
  have anyBound (after : Context) (length : Nat) (positive : 0 < length)
      (remaining : bytes ≠ []) :
      after.stepBound (bytes.drop length) < 2 * bytes.length := by
    have nonempty : 0 < bytes.length := List.length_pos_iff.mpr remaining
    cases after <;> simp only [Context.stepBound, List.length_drop] <;> omega
  match context, bytes, taken with
  | .markup, byte :: rest, taken =>
    cases taken
    exact anyBound _ _ (Step.ofMarkup_region_pos encoding (by simp)) (by simp)
  | .raw, bytes, taken =>
    cases taken
    unfold Step.ofRaw
    split
    · simp only [Piece.whole, Context.stepBound, List.drop_length, List.length_nil]
      omega
    · by_cases remaining : bytes = []
      · subst remaining
        simp [Step.ofMarkup, Context.stepBound]
      · exact Nat.lt_succ_of_lt
          (anyBound _ _ (Step.ofMarkup_region_pos encoding remaining) remaining)
    · simp only [Piece.whole, Context.stepBound, List.length_drop, List.length_take]
      omega

/-- The pieces of the bytes that remain, without any check of the encoding. -/
def pieces (encoding : Encoding) (context : Context) (bytes : Bytes) : List Piece :=
  match _taken : next? encoding context bytes with
  | none => []
  | some step => step.piece :: pieces encoding step.context (bytes.drop step.piece.region.length)
termination_by context.stepBound bytes
decreasing_by exact stepBound_lt _taken

/-- What a scan leaves behind. -/
structure Scan where
  /-- The pieces carved, in order. -/
  pieces : List Piece
  /-- The complaint that stopped the scan before the end, if one did. -/
  invalid? : Option InvalidBytes
deriving DecidableEq

namespace Scan

/-- Puts a piece in front of what a scan leaves behind. -/
def prepend (piece : Piece) (scan : Scan) : Scan := { scan with pieces := piece :: scan.pieces }

/-- Scans the bytes that remain of a template. Unless the template has been `checked`, the first
piece of text waits for a check of the whole template and does not come about if the check fails. -/
def resume (template : Template) (checked : Bool) (context : Context) (bytes : Bytes) : Scan :=
  match _taken : next? template.encoding context bytes with
  | none => { pieces := [], invalid? := none }
  | some step =>
    let rest := bytes.drop step.piece.region.length
    if step.piece.cause = .text && !checked then
      match template.check with
      | some invalid => { pieces := [], invalid? := some invalid }
      | none => (resume template true step.context rest).prepend step.piece
    else (resume template checked step.context rest).prepend step.piece
termination_by context.stepBound bytes
decreasing_by all_goals exact stepBound_lt _taken

/-- Scans a template from the start. -/
def ofTemplate (template : Template) : Scan := resume template false .markup template.bytes

end Scan

end TemplateTokens
