import TemplateTokens.Proofs.Grammar
import TemplateTokens.Proofs.Guarded.Turns

/-!
# A guarded machine comes to the next piece

A machine halts if its turns come to an end. It does so if it halts behind the next piece: one turn
takes it behind text, two take it behind a tag, and behind an output or a raw block it takes as many
turns as there are stop bytes or tags to look at. The theorems below say so for each kind of piece,
with the piece that a scan carves off.

The turns in an output and in a raw block are counted by induction on the bytes that remain; the
others are written out. No machine is run here on a template that is given: every statement is about
any machine in the phase that it names, with the cursor wherever it may stand.
-/

namespace TemplateTokens

namespace Machine

/-- The turns of a machine come to an end with a verdict. -/
inductive Halts : Machine → Verdict → Prop where
  /-- The scan is over with the next turn. -/
  | now {machine : Machine} {verdict : Verdict} (halted : machine.turn = .ok (.halted verdict)) :
      Halts machine verdict
  /-- The scan goes on with the next turn. -/
  | later {machine next : Machine} {verdict : Verdict} (taken : machine.turn = .ok (.running next))
      (halts : Halts next verdict) : Halts machine verdict

/-- A machine that halts does so behind its next turn. -/
theorem Halts.of_turn {machine next : Machine} {verdict : Verdict} (halts : Halts machine verdict)
    (taken : machine.turn = .ok (.running next)) : Halts next verdict := by
  cases halts with
  | now halted => exact absurd (halted.symm.trans taken) (by simp)
  | later other halts =>
    obtain rfl : _ = next := by simpa using other.symm.trans taken
    exact halts

/-- A machine that is about to halt halts with no other verdict. A machine takes one turn only, so
there is no other way for it to go on. -/
theorem Halts.eq_of_turn {machine : Machine} {verdict other : Verdict}
    (halts : Halts machine verdict) (halted : machine.turn = .ok (.halted other)) :
    verdict = other := by
  cases halts with
  | now same => simpa using same.symm.trans halted
  | later taken halts => exact absurd (halted.symm.trans taken) (by simp)

/-- The machines that are reached from one that halts halt with the same verdict. Turns are
determined by the machine that takes them, so every run is part of the one that halts. -/
theorem Reached.halts {template : Template} {machine : Machine} {verdict : Verdict}
    (reached : machine.Reached template) (halts : (Machine.atStart template).Halts verdict) :
    machine.Halts verdict := by
  induction reached with
  | atStart => exact halts
  | turn reached taken inductionHypothesis => exact inductionHypothesis.of_turn taken

/-- A machine that halts reaches one that is about to halt. -/
theorem Halts.exists_reached {template : Template} {machine : Machine} {verdict : Verdict}
    (halts : machine.Halts verdict) (reached : machine.Reached template) :
    ∃ last : Machine, last.Reached template ∧ last.turn = .ok (.halted verdict) := by
  induction halts with
  | now halted => exact ⟨_, reached, halted⟩
  | later taken halts inductionHypothesis => exact inductionHypothesis (reached.turn taken)

/-- The log of an output that is taken for a tag has an entry more than that of the tag. -/
theorem behind_note_ofTag (machine : Machine) (start passed distance : Nat) (bytes : Bytes)
    (context : Context) :
    (machine.note .overtakenOutput start).behind start (.ofTag .tag .openTag bytes passed) context =
      machine.behind start (.ofTag (.overtaken distance) (.overtakenOpen distance) bytes passed)
        context := by
  unfold Piece.ofTag
  split <;> simp [behind, placed, enter, note, Cause.fallbacks]

/-- The piece of an output that ends in the given way. -/
def endedOutput (bytes : Bytes) : Output.Ending → Piece
  | .closed length => .whole .output (bytes.take (length + 2))
  | .overtaken length => .ofTag (.overtaken length) (.overtakenOpen length) bytes (length + 2)
  | .missing => { cause := .openOutput, region := bytes, token := ⟨Bytes.outputOpener⟩ }

/-- The piece of an output is the one that its ending asks for. The machine finds the ending in
several turns, and makes the piece only once it is known. -/
theorem endedOutput_ending (bytes : Bytes) :
    endedOutput bytes (Output.ending (bytes.drop 2)) = .ofOutput bytes := by
  rw [Piece.ofOutput]
  cases Output.ending (bytes.drop 2) <;> rfl

/-- The machine behind a raw block that starts at `start`, up to the opener of the tag that ends it
after `length?` bytes or up to the end of the template. -/
def pastRaw (machine : Machine) (start : Nat) (length? : Option Nat) : Machine :=
  match length? with
  | none =>
    machine.behind start (.whole .openRaw (machine.cursor.template.bytes.drop start)) .markup
  | some length => machine.pastContent start (start + length)

section Turns

variable {machine : Machine} {verdict : Verdict} (small : machine.cursor.template.length < 2 ^ 63)
  (inside : machine.cursor.position ≤ machine.cursor.template.length)
include small inside

/-- Behind the opener of a tag the machine goes on behind the tag. The piece begins at the opener of
an overtaken output, if there was one, and at the opener of the tag otherwise. -/
theorem Halts.of_tag {start : Nat} {opensRaw : Bool} (phase : machine.phase = .tag start opensRaw)
    (opened : start + 2 ≤ machine.cursor.position)
    (later : (machine.behind start
      (.ofTag .tag .openTag (machine.cursor.template.bytes.drop start)
        (machine.cursor.position - start))
      (if opensRaw then .raw else .markup)).Halts verdict) : machine.Halts verdict :=
  .later (turn_of_tag phase (turnTag_eq small inside opensRaw opened)) later

/-- Where the opener of a tag has just been passed the machine goes on behind the tag. -/
theorem Halts.of_openedTag {body : Bytes} {opensRaw : Bool}
    (opens : machine.cursor.rest = Bytes.tagOpener ++ body)
    (later : (machine.behind machine.cursor.position (.ofTag .tag .openTag machine.cursor.rest 2)
      (if opensRaw then .raw else .markup)).Halts verdict) :
    (machine.placed (machine.cursor.position + 2)
      (.tag machine.cursor.position opensRaw)).Halts verdict := by
  have within := Cursor.position_add_le inside opens
  have passed : machine.cursor.position + 2 - machine.cursor.position = 2 :=
    Nat.add_sub_cancel_left _ _
  rw [← passed] at later
  exact Halts.of_tag small within rfl (Nat.le_refl _) later

/-- In an output the machine goes on behind the output, however it ends.

Proof: by induction on the bytes that remain. Each turn passes the bytes up to the next stop byte,
as the search for the ending does. A backslash at the very end takes the search one byte too far,
but then no byte remains and nothing ends the output. -/
theorem Halts.of_output {start : Nat} {quoting : Output.Quoting}
    (phase : machine.phase = .output start quoting) (opened : start + 2 ≤ machine.cursor.position)
    (later : (machine.behind start
      (endedOutput (machine.cursor.template.bytes.drop start)
        (Output.endingFrom quoting (machine.cursor.position - start - 2) machine.cursor.rest))
      .markup).Halts verdict) : machine.Halts verdict := by
  induction size : machine.cursor.rest.length using Nat.strongRecOn generalizing machine quoting with
  | ind size inductionHypothesis =>
    have length := machine.cursor.length_rest
    cases search : (Needle.anyOf Output.stops).find? machine.cursor.rest with
    | none =>
      rw [Output.endingFrom_of_missing _ _ search] at later
      have turned := turnOutput_of_missing small inside quoting opened search
      exact .later (turn_of_output phase turned) later
    | some hit =>
      obtain ⟨front, stop, after, cut, rfl, member, -⟩ := Needle.find?_anyOf_eq_some search
      rw [cut] at search
      rw [cut, Output.endingFrom_append _ _ _ search] at later
      rw [cut, List.length_append, List.length_cons] at length
      have taken := turn_of_output phase
        (turnOutput_of_found small inside quoting opened cut member search)
      by_cases closes : quoting = .outside ∧ stop = Bytes.closeBrace ∧
          after.head? = some Bytes.closeBrace
      · rw [if_pos closes] at later taken
        have reach : machine.cursor.position - start - 2 + front.length + 2 + 2 =
            machine.cursor.position + front.length + 2 - start := by
          omega
        rw [endedOutput, reach] at later
        exact .later taken later
      rw [if_neg closes] at later taken
      by_cases overtakes : quoting = .outside ∧ stop = Bytes.openBrace ∧
          after.head? = some Bytes.percent
      · rw [if_pos overtakes] at later taken
        obtain ⟨tail, rfl⟩ := List.head?_eq_some_iff.mp overtakes.2.2
        rw [List.length_cons] at length
        have reach : machine.cursor.position - start - 2 + front.length + 2 + 2 =
            machine.cursor.position + front.length + 2 - start := by
          omega
        have ordered : start + 2 ≤ machine.cursor.position + front.length + 2 := by omega
        have within : machine.cursor.position + front.length + 2 ≤
            machine.cursor.template.length := by
          omega
        rw [endedOutput, ← behind_note_ofTag, reach] at later
        exact .later taken (Halts.of_tag small within rfl ordered later)
      rw [if_neg overtakes] at later taken
      -- The output goes on behind the stop byte, or behind the byte that it shields.
      generalize (if quoting ≠ .outside ∧ stop = Bytes.backslash then 1 else 0) = shielded at *
      have remaining : (machine.cursor.moveTo
          (machine.cursor.position + (front.length + 1) + shielded)).rest = after.drop shielded :=
        Cursor.rest_moveTo_of_cut (front.length + 1) shielded (front ++ [stop]) after
          (by rw [cut, List.append_assoc, List.singleton_append]) List.length_append
      have reach : machine.cursor.position - start - 2 + front.length + 1 + shielded =
          machine.cursor.position + (front.length + 1) + shielded - start - 2 := by
        omega
      have nothing : machine.cursor.template.length <
          machine.cursor.position + (front.length + 1) + shielded → after.drop shielded = [] := by
        intro beyond
        exact List.drop_eq_nil_iff.mpr (by omega)
      simp only at later
      rw [reach, Output.endingFrom_min _ _ _ _ nothing, ← remaining] at later
      refine .later taken (inductionHypothesis _ ?_ small (Nat.min_le_right _ _) rfl ?_ later rfl)
      · have shorter := congrArg List.length remaining
        rw [List.length_drop] at shorter
        rw [← size, cut, List.length_append, List.length_cons]
        exact Nat.lt_of_le_of_lt (Nat.le_of_eq shorter) (by omega)
      · change start + 2 ≤ min _ _
        omega

/-- In a raw block the machine goes on behind the opener of the tag that ends it, or at the end.

Proof: by induction on the bytes that remain. Each turn passes the next tag opener. -/
theorem Halts.of_raw {start : Nat} (phase : machine.phase = .raw start)
    (started : start ≤ machine.cursor.position)
    (later : (machine.pastRaw start
      (Piece.rawLengthFrom? machine.cursor.template.encoding (machine.cursor.position - start)
        machine.cursor.rest)).Halts verdict) : machine.Halts verdict := by
  induction size : machine.cursor.rest.length using Nat.strongRecOn generalizing machine with
  | ind size inductionHypothesis =>
    have length := machine.cursor.length_rest
    cases search : (Needle.literal Bytes.tagOpener).find? machine.cursor.rest with
    | none =>
      rw [Piece.rawLengthFrom?_of_missing _ _ search] at later
      exact .later (turn_of_raw phase (turnRaw_of_missing small inside started search)) later
    | some hit =>
      obtain ⟨front, body, cut, rfl, -⟩ := Needle.find?_literal_eq_some_iff.mp search
      have taken := turn_of_raw phase (turnRaw_of_found small inside cut search)
      have behindOpener : Cursor.rest { machine.cursor with
          position := machine.cursor.position + front.length + 2 } = body :=
        Cursor.rest_of_cut (front.length + 2) (front ++ Bytes.tagOpener) body cut (by simp)
      have dropped : machine.cursor.rest.drop (front.length + 2) = body := by
        rw [cut, List.drop_left' (by simp)]
      rw [Piece.rawLengthFrom?_of_found _ _ search] at later
      simp only [Hit.stop, List.length_cons, List.length_nil, Nat.reduceAdd, dropped] at later
      rw [cut] at length
      simp only [List.length_append, List.length_cons, List.length_nil] at length
      cases ends : Keyword.endraw.leads machine.cursor.template.encoding body with
      | true =>
        have distance : machine.cursor.position + front.length =
            start + (machine.cursor.position - start + front.length) := by
          omega
        simp only [ends, if_true] at later taken
        rw [distance] at taken
        exact .later taken later
      | false =>
        have passed : machine.cursor.position - start + (front.length + 2) =
            machine.cursor.position + front.length + 2 - start := by
          omega
        simp only [ends, Bool.false_eq_true, if_false] at later taken
        rw [passed, ← behindOpener] at later
        refine .later taken (inductionHypothesis _ ?_ small ?_ rfl ?_ later rfl)
        · have shorter := congrArg List.length behindOpener
          rw [← size, cut]
          simp only [List.length_append, List.length_cons, List.length_nil]
          exact Nat.lt_of_le_of_lt (Nat.le_of_eq shorter) (by omega)
        · change _ + _ ≤ machine.cursor.template.length
          omega
        · change start ≤ _ + _
          omega

/-- Where an output is opened the machine goes on behind its piece. It takes as many turns as there
are stop bytes up to the ending, which is an induction of its own. -/
theorem Halts.of_outputOpener {body : Bytes} (phase : machine.phase = .markup)
    (opens : machine.cursor.rest = Bytes.outputOpener ++ body)
    (later : (machine.behind machine.cursor.position (.ofOutput machine.cursor.rest)
      .markup).Halts verdict) : machine.Halts verdict := by
  have opened : (machine.placed (machine.cursor.position + 2)
      (.output machine.cursor.position .outside)).cursor.rest = body :=
    Cursor.rest_of_cut 2 Bytes.outputOpener body opens rfl
  have taken := (turn_of_markup phase).trans (turnMarkup_of_outputOpener small opens)
  have within := Cursor.position_add_le inside opens
  have passed : machine.cursor.position + 2 - machine.cursor.position - 2 = 0 := by omega
  have dropped : machine.cursor.rest.drop 2 = body := by
    rw [opens]
    rfl
  rw [← endedOutput_ending, dropped, Output.ending, ← passed, ← opened] at later
  exact .later taken (Halts.of_output small within rfl (Nat.le_refl _) later)

/-- Where a tag is opened the machine goes on behind its piece. -/
theorem Halts.of_tagOpener {body : Bytes} (phase : machine.phase = .markup)
    (opens : machine.cursor.rest = Bytes.tagOpener ++ body)
    (later : (machine.behind machine.cursor.position (.ofTag .tag .openTag machine.cursor.rest 2)
      (.behindTag machine.cursor.template.encoding body)).Halts verdict) :
    machine.Halts verdict := by
  have taken := (turn_of_markup phase).trans (turnMarkup_of_tagOpener small opens)
  exact .later taken (Halts.of_openedTag small inside opens later)

/-- Where nothing is opened the machine goes on behind the text. The check has been passed before or
is passed now, and from then on the machine does not ask again. -/
theorem Halts.of_text (phase : machine.phase = .markup) (remaining : machine.cursor.rest ≠ [])
    (plain : ¬Opens machine.cursor.rest)
    (sound : machine.checked = true ∨ machine.cursor.template.check = none)
    (later : ({ machine with checked := true }.behind machine.cursor.position
      (.ofText machine.cursor.rest) .markup).Halts verdict) : machine.Halts verdict := by
  apply Halts.later _ later
  rw [turn_of_markup phase, turnMarkup_of_not_opens small phase remaining plain,
    turnText_of_sound small inside sound]

/-- Where a raw block has no content the machine goes on behind the tag that ends it. -/
theorem Halts.of_noContent {body : Bytes} (opens : machine.cursor.rest = Bytes.tagOpener ++ body)
    (later : (machine.behind machine.cursor.position (.ofTag .tag .openTag machine.cursor.rest 2)
      .markup).Halts verdict) :
    (machine.pastRaw machine.cursor.position (some 0)).Halts verdict := by
  have past : machine.pastRaw machine.cursor.position (some 0) =
      machine.placed (machine.cursor.position + 2) (.tag machine.cursor.position false) := by
    simp [pastRaw, pastContent]
  rw [past]
  exact Halts.of_openedTag small inside opens later

omit inside in
/-- Behind the content of a raw block the machine goes on as it does between markers, where the
opener of a tag that leads with `endraw` is next. -/
theorem Halts.of_content {body : Bytes} {length : Nat} (filled : 0 < length)
    (bounded : length ≤ machine.cursor.rest.length)
    (opens : machine.cursor.rest.drop length = Bytes.tagOpener ++ body)
    (ends : Keyword.endraw.leads machine.cursor.template.encoding body = true)
    (later : (machine.behind machine.cursor.position
      (.whole .raw (machine.cursor.rest.take length)) .markup).Halts verdict) :
    (machine.pastRaw machine.cursor.position (some length)).Halts verdict := by
  generalize between : machine.behind machine.cursor.position
    (.whole .raw (machine.cursor.rest.take length)) .markup = content at later
  have place : content.cursor.position = machine.cursor.position + length := by
    rw [← between]
    change machine.cursor.position + (machine.cursor.rest.take length).length = _
    rw [List.length_take, Nat.min_eq_left bounded]
  have same : content.cursor.template = machine.cursor.template := by rw [← between]; rfl
  have past : machine.pastRaw machine.cursor.position (some length) =
      content.placed (content.cursor.position + 2) (.tag content.cursor.position false) := by
    rw [place, ← between, pastRaw, pastContent, if_pos (Nat.lt_add_of_pos_right filled),
      Nat.add_sub_cancel_left]
    rfl
  have opensContent : content.cursor.rest = Bytes.tagOpener ++ body := by
    rw [Cursor.rest, same, place, ← List.drop_drop, ← Cursor.rest, opens]
  have markup : content.phase = .markup := by rw [← between]; rfl
  have taken := (turn_of_markup markup).trans (turnMarkup_of_tagOpener (same ▸ small) opensContent)
  rw [same, Keyword.leads_raw_of_endraw ends] at taken
  rw [past]
  exact later.of_turn taken

/-- In a raw block the machine goes on behind its content, or behind the tag that ends it. -/
theorem Halts.of_rawStep (phase : machine.phase = .raw machine.cursor.position) {step : Step}
    (made : Step.ofRaw machine.cursor.template.encoding machine.cursor.rest = step)
    (later : (machine.behind machine.cursor.position step.piece step.context).Halts verdict) :
    machine.Halts verdict := by
  have started : Piece.rawLengthFrom? machine.cursor.template.encoding
      (machine.cursor.position - machine.cursor.position) machine.cursor.rest =
        Piece.rawLength? machine.cursor.template.encoding machine.cursor.rest := by
    rw [Nat.sub_self, Piece.rawLength?]
  apply Halts.of_raw small inside phase (Nat.le_refl _)
  rw [started]
  rw [Step.ofRaw] at made
  cases found : Piece.rawLength? machine.cursor.template.encoding machine.cursor.rest with
  | none =>
    rw [found] at made
    subst made
    exact later
  | some length =>
    obtain ⟨ends, bounded⟩ := firstSuffix?_holds ((Piece.rawLength?_eq _ _).symm.trans found)
    obtain ⟨body, opens⟩ := tagOpener_prefix_of_endsRaw ends
    rw [← opens, endsRaw_tagOpener] at ends
    rw [found] at made
    subst made
    cases length with
    | zero =>
      rw [List.drop_zero] at opens
      simp only [← opens, Step.ofMarkup_tagOpener, Context.behindTag_of_endraw ends] at later
      rw [opens] at later
      exact Halts.of_noContent small inside opens.symm later
    | succ length =>
      exact Halts.of_content small (Nat.succ_pos length) bounded opens.symm ends later

end Turns

end Machine

end TemplateTokens
