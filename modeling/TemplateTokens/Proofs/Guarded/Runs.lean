import TemplateTokens.Proofs.Guarded.Bounds
import TemplateTokens.Proofs.Guarded.Halts

/-!
# A guarded machine comes to an end

Piece after piece a machine makes what a scan carves off, and what it leaves behind at the end is
what the scan leaves behind. With the bounds that every turn keeps, the work on a template with all
its offsets guarded comes out in one way only, as the report of the template.

Both directions are shown: the report is what the work comes to, and it comes to nothing else, be it
a trap or another report. The induction is on the course of the scan, so a machine that makes its
pieces in another number of turns needs other lemmas about its turns and no other argument here.
-/

namespace TemplateTokens

namespace Machine

/-- What a machine leaves behind if a scan goes on from its position. -/
def verdict (machine : Machine) (scan : Scan) : Verdict :=
  { outcome :=
      match scan.invalid? with
      | some invalid => .error invalid
      | none => .ok (machine.tokens ++ scan.pieces.map Piece.token)
    log := machine.log ++ LogEntry.ofPieces machine.cursor.position scan.pieces }

/-- Behind a piece the verdict is the one about the piece and what follows. Tokens and notes are
collected in front of what is still to come, as the pieces of a scan are. -/
theorem verdict_behind (machine : Machine) (piece : Piece) (context : Context) (scan : Scan) :
    (machine.behind machine.cursor.position piece context).verdict scan =
      machine.verdict (scan.prepend piece) := by
  cases scan with
  | mk pieces invalid? =>
    cases invalid? <;>
      simp [verdict, behind, placed, enter, Scan.prepend, LogEntry.ofPieces]

/-- A machine stands where a scan stands. -/
structure StandsAt (template : Template) (checked : Bool) (context : Context) (bytes : Bytes)
    (machine : Machine) : Prop where
  /-- The machine scans the template. -/
  same : machine.cursor.template = template
  /-- The template has been checked, or it has not. -/
  checks : machine.checked = checked
  /-- The same bytes remain. -/
  remaining : machine.cursor.rest = bytes
  /-- The cursor is not behind the end. -/
  inside : machine.cursor.position ≤ template.length
  /-- The machine is between markers or in a raw block. -/
  phase : machine.phase = context.phaseAt machine.cursor.position

/-- Behind a piece the machine stands where the scan does. The bytes left are the only thing that
the two have to agree on, besides the context and whether the template has been checked. -/
theorem StandsAt.behind {template : Template} {checked : Bool} {context : Context}
    {machine : Machine} {piece : Piece} {rest : Bytes}
    (stands : machine.StandsAt template checked context (piece.region ++ rest))
    (after : Context) :
    (machine.behind machine.cursor.position piece after).StandsAt template checked after rest := by
  obtain ⟨rfl, checks, remaining, inside, -⟩ := stands
  have reach := Cursor.position_add_le inside remaining
  exact ⟨rfl, checks, Cursor.rest_of_cut piece.region.length piece.region rest remaining rfl,
    reach, rfl⟩

section Carved

variable {template : Template} (small : template.length < 2 ^ 63) {checked : Bool}
  {context : Context} {bytes : Bytes} {step : Step} {machine : Machine} {verdict : Verdict}
  (stands : machine.StandsAt template checked context bytes)
  (carving : Carving template.encoding context bytes step)
include small stands carving

/-- Where no text comes next the machine goes on behind the next piece. There is one case for each
rule of carving, and in each the machine takes the turns that make that piece. -/
theorem Halts.of_carving (noText : step.piece.cause ≠ .text)
    (later : (machine.behind machine.cursor.position step.piece step.context).Halts verdict) :
    machine.Halts verdict := by
  obtain ⟨rfl, rfl, rfl, inside, phase⟩ := stands
  have taken := carving.next?_eq
  cases context with
  | raw => exact Halts.of_rawStep small inside phase (Option.some.inj taken) later
  | markup =>
    have remaining : machine.cursor.rest ≠ [] := by
      intro nothing
      rw [nothing] at taken
      cases taken
    rw [next?_markup _ remaining, Option.some.injEq] at taken
    subst taken
    by_cases opens : Opens machine.cursor.rest
    · rcases opens with ⟨body, opens⟩ | ⟨body, opens⟩
      · rw [← opens, Step.ofMarkup_outputOpener, opens] at later
        exact Halts.of_outputOpener small inside phase opens.symm later
      · rw [← opens, Step.ofMarkup_tagOpener, opens] at later
        exact Halts.of_tagOpener small inside phase opens.symm later
    · rw [Step.ofMarkup_of_not_opens _ opens] at noText
      exact absurd (Piece.ofText_cause _) noText

/-- Where text comes next and nothing speaks against it the machine goes on behind the text, with
the template checked. -/
theorem Halts.of_carving_text (isText : step.piece.cause = .text)
    (sound : checked = true ∨ template.check = none)
    (later : ({ machine with checked := true }.behind machine.cursor.position step.piece
      step.context).Halts verdict) : machine.Halts verdict := by
  obtain ⟨rfl, remaining, plain⟩ := carving.eq_of_text isText
  obtain ⟨rfl, rfl, rfl, inside, phase⟩ := stands
  have taken := carving.next?_eq
  rw [next?_markup _ remaining, Step.ofMarkup_of_not_opens _ plain, Option.some.injEq] at taken
  subst taken
  exact Halts.of_text small inside phase remaining plain sound later

/-- Where text comes next in a faulty template that has not been checked the scan is over. -/
theorem Halts.of_fault {invalid : InvalidBytes} (isText : step.piece.cause = .text)
    (unchecked : checked = false) (fault : template.check = some invalid) :
    machine.Halts (machine.verdict { pieces := [], invalid? := some invalid }) := by
  obtain ⟨rfl, remaining, plain⟩ := carving.eq_of_text isText
  obtain ⟨rfl, rfl, rfl, inside, phase⟩ := stands
  apply Halts.now
  rw [turn_of_markup phase, turnMarkup_of_not_opens small phase remaining plain,
    turnText_of_fault small unchecked fault]
  simp [Machine.verdict, LogEntry.ofPieces]

end Carved

/-- A machine leaves behind what a scan does that goes on where the machine stands.

Proof: by induction on the course of the scan, which cuts what remains into pieces. -/
theorem Halts.of_course {template : Template} (small : template.length < 2 ^ 63)
    {context : Context} {bytes : Bytes} {carved : List Piece}
    (course : Course template.encoding context bytes carved) {checked : Bool} {machine : Machine}
    (stands : machine.StandsAt template checked context bytes) :
    machine.Halts (machine.verdict (Scan.resume template checked context bytes)) := by
  induction course generalizing checked machine with
  | done =>
    have nothing : Scan.resume template checked .markup [] = { pieces := [], invalid? := none } := by
      rw [Scan.resume]
      rfl
    apply Halts.now
    rw [turn_of_markup stands.phase, turnMarkup_of_end stands.remaining, nothing]
    simp [verdict, LogEntry.ofPieces]
  | @step context rest step later carving tail inductionHypothesis =>
    rw [Scan.resume_eq_of_carving template checked carving]
    by_cases isText : step.piece.cause = .text
    · have passes (sound : checked = true ∨ template.check = none) :
          machine.Halts (machine.verdict
            ((Scan.resume template true step.context rest).prepend step.piece)) := by
        have stillStands : Machine.StandsAt template true context (step.piece.region ++ rest)
            { machine with checked := true } :=
          { stands with checks := rfl }
        have further := inductionHypothesis (stillStands.behind step.context)
        rw [verdict_behind] at further
        exact Halts.of_carving_text small stands carving isText sound further
      cases checked with
      | true => simpa [isText] using passes (.inl rfl)
      | false =>
        cases complaint : template.check with
        | none => simpa [isText] using passes (.inr complaint)
        | some invalid =>
          simpa [isText] using Halts.of_fault small stands carving isText rfl complaint
    · have further := inductionHypothesis (stands.behind step.context)
      rw [verdict_behind] at further
      simp only [isText, decide_false, Bool.false_and, Bool.false_eq_true, if_false]
      exact Halts.of_carving small stands carving isText further

/-- A machine that begins in front of a template leaves behind what the scan of the template
does. -/
theorem halts_atStart {template : Template} (small : template.length < 2 ^ 63) :
    (atStart template).Halts ((atStart template).verdict (Scan.ofTemplate template)) := by
  have stands : (atStart template).StandsAt template false .markup template.bytes :=
    ⟨rfl, rfl, List.drop_zero, Nat.zero_le _, rfl⟩
  exact Halts.of_course small (course_pieces template.encoding .markup template.bytes) stands

end Machine

namespace TokenStream

/-- The report on a `liquid` tag is the one that follows from its lines. -/
theorem reportOf_lines {settings : Settings} (template : Template)
    (mode : settings.forLiquidTag = true) :
    reportOf settings template { outcome := .ok (template.bytes.lines.map Token.mk), log := [] } =
      report settings template := by
  rw [report, if_pos mode]
  rfl

/-- The report on a template cut at its markers is the one that follows from its scan. -/
theorem reportOf_scan {settings : Settings} (template : Template)
    (mode : settings.forLiquidTag = false) :
    reportOf settings template ((Machine.atStart template).verdict (Scan.ofTemplate template)) =
      report settings template := by
  rw [report, if_neg (by simp [mode])]
  cases complaint : (Scan.ofTemplate template).invalid? with
  | none =>
    simp [reportOf, Machine.verdict, Machine.atStart, Cursor.atStart, complaint, Except.map,
      Except.toOption]
  | some invalid =>
    simp [reportOf, Machine.verdict, Machine.atStart, Cursor.atStart, complaint, Except.map,
      Except.toOption]

/-- The work on a template with every offset guarded: no trap stops it, every machine that comes
about on the way has its offsets in order and inside the template, and the work comes out in one
way, as the report of the template.

Proof: every turn keeps the offsets in order and inside the template and is not stopped, so no
reached machine is stopped. By induction on the course of the scan the turns come to an end with the
pieces of the scan, and since a turn has one outcome they end with nothing else. -/
theorem constructs_without_trap (settings : Settings) {template : Template}
    (small : template.length < 2 ^ 63) :
    (∀ machine : Machine, machine.Reached template → machine.InBounds template ∧
      ∃ progress, machine.turn = .ok progress ∧ progress.InBounds template) ∧
    ∀ outcome, Constructs settings template outcome ↔ outcome = .ok (report settings template) := by
  constructor
  · intro machine reached
    have inBounds := reached.inBounds small
    exact ⟨inBounds, inBounds.exists_turn small⟩
  intro outcome
  cases mode : settings.forLiquidTag with
  | true =>
    constructor
    · intro constructs
      cases constructs with
      | lines => rw [reportOf_lines template mode]
      | halted markup | trapped markup => exact absurd (mode.symm.trans markup) (by simp)
    · rintro rfl
      rw [← reportOf_lines template mode]
      exact .lines mode
  | false =>
    have halts := Machine.halts_atStart small
    constructor
    · intro constructs
      cases constructs with
      | lines liquid => exact absurd (mode.symm.trans liquid) (by simp)
      | halted markup reached ended =>
        obtain rfl := (reached.halts halts).eq_of_turn ended
        rw [reportOf_scan template mode]
      | trapped markup reached stopped =>
        obtain ⟨progress, taken, -⟩ := (reached.inBounds small).exists_turn small
        exact absurd (stopped.symm.trans taken) (by simp)
    · rintro rfl
      obtain ⟨last, reached, ended⟩ := halts.exists_reached .atStart
      rw [← reportOf_scan template mode]
      exact .halted mode reached ended

/-- In `{{a{%b%}x` a tag overtakes an output. The token starts where the output is opened and ends
in front of the tag body, and neither it nor the text behind it meets a trap. -/
theorem constructs_overtaken_output_without_trap :
    let template := Template.utf8 [0x7b, 0x7b, 0x61, 0x7b, 0x25, 0x62, 0x25, 0x7d, 0x78]
    let stream := ofTokens {} [⟨[0x7b, 0x7b, 0x61, 0x7b, 0x25]⟩, ⟨[0x78]⟩]
    template.length < 2 ^ 63 ∧ (report {} template).outcome = .ok stream ∧
    Constructs {} template (.ok (report {} template)) ∧
    ∀ trap, ¬Constructs {} template (.error trap) := by
  intro template stream
  have small : template.length < 2 ^ 63 := by decide
  have accepted : (report {} template).outcome = .ok stream := by decide +kernel
  obtain ⟨-, outcomes⟩ := constructs_without_trap {} small
  refine ⟨small, accepted, (outcomes _).mpr rfl, ?_⟩
  intro trap trapped
  exact absurd ((outcomes _).mp trapped) (by simp)

end TokenStream

end TemplateTokens
