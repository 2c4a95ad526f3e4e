import TemplateTokens.Proofs.Guarded.Progress
import TemplateTokens.Proofs.RawExtent

/-!
# A scan ends within its source

Every iteration of a loop takes the cursor on, so a scan ends, and it makes no more tokens than the
source has bytes. A piece takes up bytes, with one exception: the content of a raw block that is
opened at the very end. The tag that opens the block has bytes to spare for that one token, which is
the only token without bytes that a source can have.

Iterations are told by the turns of a guarded machine, which goes where its cursor goes and back,
and tokens by the pieces that are carved off. The bound on tokens holds for every template that is
accepted. A template need not fit in machine words for its iterations to be bounded; this is only
asked where the machine is to come to its end without a trap.
-/

namespace TemplateTokens

/-- The number of pieces without bytes that can come next. -/
def Context.spare : Context → Nat
  | .markup => 0
  | .raw => 1

/-- No more than one such piece can come. -/
theorem Context.spare_le (context : Context) : context.spare ≤ 1 := by
  cases context <;> simp [spare]

/-- A piece takes up a byte, and one more if a piece without bytes can come behind it, unless it can
be such a piece itself. -/
theorem Carving.spare_lt {encoding : Encoding} {context : Context} {bytes : Bytes} {step : Step}
    (carving : Carving encoding context bytes step) :
    step.context.spare < step.piece.region.length + context.spare := by
  have atMost := step.context.spare_le
  induction carving with
  | text nonempty => exact List.length_pos_iff.mpr nonempty
  | raw nonempty => exact Nat.lt_succ_of_lt (List.length_pos_iff.mpr nonempty)
  | openRaw => exact Nat.succ_pos _
  | endRaw ends carving inductionHypothesis =>
    exact Nat.lt_succ_of_lt (inductionHypothesis atMost)
  | tag =>
    simp only [Piece.whole, List.length_append, List.length_cons, List.length_nil] at atMost ⊢
    omega
  | openTag => exact Nat.lt_of_le_of_lt atMost Nat.one_lt_two
  | _ => simp [Piece.whole, Context.spare]

/-- A course has no more pieces than bytes, but for the piece without any a raw block may be. -/
theorem Course.length_le {encoding : Encoding} {context : Context} {bytes : Bytes}
    {carved : List Piece} (course : Course encoding context bytes carved) :
    carved.length ≤ bytes.length + context.spare := by
  induction course with
  | done => exact Nat.zero_le _
  | step carving tail inductionHypothesis =>
    have spare := carving.spare_lt
    simp only [List.length_cons, List.length_append]
    omega

/-- A token without bytes is the content of a raw block that is opened at the end. -/
theorem Carving.of_empty_token {encoding : Encoding} {context : Context} {bytes : Bytes}
    {step : Step} (carving : Carving encoding context bytes step)
    (empty : step.piece.token.bytes = []) :
    context = .raw ∧ bytes = [] ∧ step = ⟨.whole .openRaw [], .markup⟩ := by
  induction carving with
  | openRaw endless =>
    obtain rfl : _ = [] := empty
    exact ⟨rfl, rfl, rfl⟩
  | text nonempty | raw nonempty => exact absurd empty nonempty
  | endRaw ends carving inductionHypothesis => cases (inductionHypothesis empty).1
  | _ => simp [Piece.whole] at empty

/-- The tag that is opened at `start` has a closer, leads with `raw` and ends the template. -/
structure Template.EndsWithRawTag (template : Template) (start : Nat) : Prop where
  /-- A tag is opened. -/
  opened : Bytes.tagOpener <+: template.bytes.drop start
  /-- The tag leads with `raw`. -/
  leads : Keyword.raw.leads template.encoding (template.bytes.drop (start + 2)) = true
  /-- Behind its first closer nothing is left. -/
  closed : ∃ closer, IsLeast (template.closersFrom (start + 2)) closer ∧
      closer + 2 = template.length

namespace Scan

variable {template : Template}

/-- A scan has no more pieces than its template has bytes, even if a complaint stops it. -/
theorem pieces_length_le (template : Template) :
    (ofTemplate template).pieces.length ≤ template.length := by
  obtain ⟨dropped, cut, -⟩ := exists_dropped template
  have all := (course_pieces template.encoding .markup template.bytes).length_le
  rw [← Template.uncheckedPieces, cut, List.length_append] at all
  exact Nat.le_trans (Nat.le_add_right _ _) all

/-- A piece whose token has no bytes is the last of a scan, and in front of it is a tag with a
closer that leads with `raw` and ends the template. -/
theorem of_empty_token {before after : List Piece} {piece : Piece}
    (cut : (ofTemplate template).pieces = before ++ piece :: after)
    (empty : piece.token.bytes = []) :
    after = [] ∧ ∃ earlier start, before = earlier ++ [.whole .tag (template.bytes.drop start)] ∧
      template.EndsWithRawTag start := by
  obtain ⟨context, comes⟩ := exists_comesTo cut
  obtain ⟨next, taken, further⟩ := comes.exists_further cut
  obtain ⟨rfl, atEnd, same⟩ := (next?_eq_some_iff.mp taken).of_empty_token empty
  cases same
  have complete : template.length ≤ Piece.extent before := List.drop_eq_nil_iff.mp atEnd
  constructor
  · have all := congrArg Scan.pieces (further.ofTemplate_eq_of_end complete)
    rw [cut] at all
    simpa using all
  · generalize Piece.extent before = offset at comes complete
    obtain ⟨earlier, opening, start, rfl, -, opened, leads, isTag, rfl⟩ := comes.exists_rawTag
    cases isTag with
    | @closed closer first =>
      have inside := first.1.2.length_le
      have behind := first.1.1
      simp only [List.length_cons, List.length_nil, Template.length_drop] at inside
      simp only [Piece.whole, Bytes.slice, List.length_take, Template.length_drop] at complete
      have last : closer + 2 = template.length := by omega
      have all : template.bytes.slice start (closer + 2) = template.bytes.drop start := by
        rw [last]
        exact List.take_of_length_le (by simp [Template.length])
      rw [all]
      exact ⟨earlier, start, rfl, opened, leads, closer, first, last⟩
    | unclosed nowhere =>
      have nothing : template.bytes.drop (start + 2) = [] :=
        List.drop_eq_nil_iff.mpr complete
      rw [nothing] at leads
      exact absurd leads (by cases template.encoding <;> decide)

end Scan

namespace TokenStream

/-- The scan of a template that is cut at its markers ends, and within bounds that the length of the
template sets. Every iteration of a loop that no complaint cuts short takes the cursor on and not
past the end. Whatever machine is reached is in or between iterations of the main loop, of which
there are no more than bytes, and no machine takes turns forever. A template that fits in memory is
scanned to the end; if a complaint ends the scan, the bound holds with the iteration that is cut
short counted in. There are no more tokens than bytes, and a token without bytes is the last one,
behind a tag with a closer that leads with `raw` and ends the template.

Proof: the first turn of an iteration passes a byte and no other turn falls back behind it, which
gives the bounds on iterations and on turns. That the machine halts, and with the report, is taken
from its run without traps. For the tokens compare the number of pieces with the bytes left, with
one to spare in a raw block; the spare one is used only at the end, behind the tag that opened the
block. -/
theorem scan_ends_within_source {settings : Settings} (markup : settings.forLiquidTag = false)
    (template : Template) :
    (∀ loop head next, head.Reached template → Machine.Iteration loop head next →
      head.cursor.position < next.cursor.position ∧ next.cursor.position ≤ template.length) ∧
    (∀ machine : Machine, machine.Reached template →
      ∃ count ≤ template.length, machine.Amid template count) ∧
    (∀ count machine, Machine.Passed template count machine → count ≤ template.length) ∧
    (∀ run : Nat → Machine, run 0 = .atStart template →
      ∃ count ≤ 3 * template.length, (run count).turn ≠ .ok (.running (run (count + 1)))) ∧
    (template.length < 2 ^ 63 → ∃ count last verdict, Machine.Passed template count last ∧
      last.turn = .ok (.halted verdict) ∧
      reportOf settings template verdict = report settings template ∧
      ∀ invalid, verdict.outcome = .error invalid → count + 1 ≤ template.length) ∧
    ∀ stream, ofTemplate settings template = .ok stream →
      stream.pending.length ≤ template.length ∧
      ∀ before after, stream.pending = before ++ ⟨[]⟩ :: after →
        after = [] ∧ ∃ earlier start, before = earlier ++ [⟨template.bytes.drop start⟩] ∧
          template.EndsWithRawTag start := by
  refine ⟨?_, ?_, fun count machine passed => (Machine.Amid.between passed).le_length,
    fun run start => Machine.exists_last_turn start, ?_, ?_⟩
  · intro loop head next reached iteration
    obtain ⟨same, -, inside⟩ := reached.advances
    rw [← same] at inside
    obtain ⟨-, onward, within⟩ := iteration.lap.advances inside
    rw [same] at within
    exact ⟨onward, within⟩
  · intro machine reached
    obtain ⟨count, amid⟩ := reached.exists_amid
    exact ⟨count, amid.le_length, amid⟩
  · intro small
    obtain ⟨count, last, passed, halted⟩ :=
      (Machine.halts_atStart small).exists_passed (.between .atStart)
    refine ⟨count, last, _, passed, halted, reportOf_scan template markup, ?_⟩
    intro invalid refused
    have remaining := Machine.not_atEnd_of_error halted refused
    obtain ⟨same, onward, -⟩ := passed.advances
    have before := Nat.lt_of_not_le (of_decide_eq_false remaining)
    rw [same] at before
    simp only [Cursor.atStart] at onward before
    omega
  · intro stream accepted
    obtain ⟨samePieces, tokens⟩ := pending_of_accepted markup accepted
    rw [← samePieces] at tokens
    constructor
    · rw [tokens, List.length_map]
      exact Scan.pieces_length_le template
    · intro before after cut
      rw [tokens] at cut
      obtain ⟨front, back, pieces, rfl, behind⟩ := List.map_eq_append_iff.mp cut
      obtain ⟨piece, later, rfl, empty, rfl⟩ := List.map_eq_cons_iff.mp behind
      obtain ⟨rfl, earlier, start, rfl, ends⟩ := Scan.of_empty_token pieces (congrArg _ empty)
      exact ⟨rfl, earlier.map Piece.token, start, by simp [Piece.whole], ends⟩

/-- In `{%raw%}` the tag ends the template, and behind its token comes one without bytes. -/
theorem scan_ends_behind_raw_tag :
    let bytes : Bytes := [0x7b, 0x25, 0x72, 0x61, 0x77, 0x25, 0x7d]
    let template := Template.utf8 bytes
    let stream := ofTokens {} [⟨bytes⟩, ⟨[]⟩]
    ({} : Settings).forLiquidTag = false ∧ template.length < 2 ^ 63 ∧
    ofTemplate {} template = .ok stream ∧ (∃ start, template.EndsWithRawTag start) ∧
    ∃ count ≤ 7, ∃ last verdict, Machine.Passed template count last ∧
      last.turn = .ok (.halted verdict) ∧
      reportOf {} template verdict = report {} template := by
  intro bytes template stream
  have small : template.length < 2 ^ 63 := by decide
  have accepted : ofTemplate {} template = .ok stream := by decide +kernel
  obtain ⟨-, -, bounded, -, ended, tokens⟩ :=
    @scan_ends_within_source {} rfl template
  obtain ⟨-, earlier, start, -, ends⟩ := (tokens stream accepted).2 [⟨bytes⟩] [] rfl
  obtain ⟨count, last, verdict, passed, halted, same, -⟩ := ended small
  exact ⟨rfl, small, accepted, ⟨start, ends⟩, count, bounded count last passed, last, verdict,
    passed, halted, same⟩

end TokenStream

end TemplateTokens
