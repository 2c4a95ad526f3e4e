import TemplateTokens.Guarded.Machine
import TemplateTokens.Proofs.Guarded.Cursor
import TemplateTokens.Proofs.Output

/-!
# What a turn does

As long as the offsets of a machine are in order and inside a template of fewer than `2 ^ 63` bytes,
no turn is stopped. The theorems below say what each turn does, in terms of the piece that it makes
or of the bytes that it passes.

There is one theorem for each way in which a turn can go on: the end of the template, the two
openers and the text between markers; the closer of a tag found or missing; the stop bytes of an
output; and the tags in a raw block. A turn in text may end the scan with a complaint. What several
turns amount to is left to `Proofs.Guarded.Halts`, and that the offsets stay in order to
`Proofs.Guarded.Bounds`.
-/

namespace TemplateTokens

/-- The phase in which a scan goes on at a position. -/
def Context.phaseAt (position : Nat) : Context → Phase
  | .markup => .markup
  | .raw => .raw position

namespace Machine

/-- The machine at a position. -/
def placed (machine : Machine) (position : Nat) (phase : Phase) : Machine :=
  machine.enter { machine.cursor with position } phase

/-- The machine behind a piece that starts at `start`. -/
def behind (machine : Machine) (start : Nat) (piece : Piece) (context : Context) : Machine :=
  { machine.placed (start + piece.region.length) (context.phaseAt (start + piece.region.length)) with
    tokens := machine.tokens ++ [piece.token]
    log := machine.log ++ piece.cause.fallbacks.map (.fellBack · start) }

/-- The machine behind the content of a raw block that starts at `start` and the opener of the tag
at `tagStart` that ends it. -/
def pastContent (machine : Machine) (start tagStart : Nat) : Machine :=
  if start < tagStart then
    (machine.behind start
      (.whole .raw ((machine.cursor.template.bytes.drop start).take (tagStart - start)))
      .markup).placed (tagStart + 2) (.tag tagStart false)
  else machine.placed (tagStart + 2) (.tag tagStart false)

section Turns

variable {machine : Machine}

/-- Between markers a machine takes a turn of this kind. -/
theorem turn_of_markup (phase : machine.phase = .markup) : machine.turn = machine.turnMarkup := by
  rw [turn, phase]

/-- Behind the opener of a tag a machine takes a turn of this kind. -/
theorem turn_of_tag {next : Machine} {start : Nat} {opensRaw : Bool}
    (phase : machine.phase = .tag start opensRaw)
    (turned : machine.turnTag start opensRaw = .ok next) : machine.turn = .ok (.running next) := by
  simp only [turn, phase, turned, Guarded.map_ok]

/-- In an output a machine takes a turn of this kind. -/
theorem turn_of_output {next : Machine} {start : Nat} {quoting : Output.Quoting}
    (phase : machine.phase = .output start quoting)
    (turned : machine.turnOutput start quoting = .ok next) :
    machine.turn = .ok (.running next) := by
  simp only [turn, phase, turned, Guarded.map_ok]

/-- In a raw block a machine takes a turn of this kind. -/
theorem turn_of_raw {next : Machine} {start : Nat} (phase : machine.phase = .raw start)
    (turned : machine.turnRaw start = .ok next) : machine.turn = .ok (.running next) := by
  simp only [turn, phase, turned, Guarded.map_ok]

/-- The machine behind a piece is where the piece ends. A turn names the place it has come to, and
the piece names its region; the two have to be matched once. -/
theorem behind_eq (stop : Nat) {start : Nat} {piece : Piece} {context : Context}
    (reaches : start + piece.region.length = stop) :
    machine.behind start piece context =
      { machine.placed stop (context.phaseAt stop) with
        tokens := machine.tokens ++ [piece.token]
        log := machine.log ++ piece.cause.fallbacks.map (.fellBack · start) } := by
  rw [behind, reaches]

variable (small : machine.cursor.template.length < 2 ^ 63)
  (inside : machine.cursor.position ≤ machine.cursor.template.length)
include small inside

/-- Scanning to the closer of a tag makes the piece of the tag. Both a tag with a closer and one
without are covered, and the machine is placed behind the piece in either case. -/
theorem turnTag_eq {start : Nat} (opensRaw : Bool) (opened : start + 2 ≤ machine.cursor.position) :
    machine.turnTag start opensRaw =
      .ok (machine.behind start
        (.ofTag .tag .openTag (machine.cursor.template.bytes.drop start)
          (machine.cursor.position - start))
        (if opensRaw then .raw else .markup)) := by
  have length := machine.cursor.length_rest
  have whole := machine.cursor.template.length_drop start
  have remaining :
      (machine.cursor.template.bytes.drop start).drop (machine.cursor.position - start) =
        machine.cursor.rest := by
    rw [List.drop_drop, Nat.add_sub_of_le (by omega), Cursor.rest]
  rw [turnTag, Guarded.skipPast_eq small inside, Cursor.skipPast, Piece.ofTag, remaining]
  cases search : (Needle.literal Bytes.tagCloser).find? machine.cursor.rest with
  | none =>
    rw [behind_eq machine.cursor.position]
    · simp only [Guarded.ok_bind, Cursor.finish, Cursor.moveTo_of_le inside]
      cases opensRaw <;> rfl
    · rw [List.length_take]
      omega
  | some hit =>
    have within := Needle.find?_stop_le search
    simp only [Guarded.ok_bind]
    rw [Guarded.sum_eq (by omega), Guarded.ok_bind, Guarded.sum_eq (by omega), Guarded.ok_bind,
      if_neg (by omega), Guarded.slice_eq (by omega) (by omega),
      behind_eq (machine.cursor.position + hit.stop)]
    · simp only [Guarded.ok_bind, Bytes.slice, Nat.add_assoc, Nat.add_sub_cancel_left]
      cases opensRaw <;> simp [emit, enter, placed, Context.phaseAt, Cause.fallbacks]
    · rw [List.length_take]
      omega

/-- Cutting out text makes the piece of the text. -/
theorem cutText_eq :
    machine.cutText = .ok (machine.behind machine.cursor.position (.ofText machine.cursor.rest)
      .markup) := by
  have length := machine.cursor.length_rest
  rw [cutText, Guarded.skipPast_eq small inside, Cursor.skipPast, Piece.ofText]
  cases search : (Needle.pair Bytes.openBrace [Bytes.openBrace, Bytes.percent]).find?
      machine.cursor.rest with
  | none =>
    have all : machine.cursor.template.bytes.slice machine.cursor.position
        machine.cursor.template.length = machine.cursor.rest := by
      exact List.take_of_length_le (Nat.le_of_eq length)
    rw [behind_eq machine.cursor.template.length]
    · simp only [Guarded.ok_bind, Cursor.finish, Guarded.sliceFrom]
      rw [Guarded.slice_eq inside (Nat.le_refl _), all]
      simp [emit, enter, placed, Context.phaseAt, Piece.whole, Cause.fallbacks]
    · simp only [Piece.whole]
      omega
  | some hit =>
    obtain ⟨offset, begins, rfl⟩ := Option.map_eq_some_iff.mp search
    have within := Needle.find?_stop_le search
    change offset + 2 ≤ _ at within
    obtain ⟨marker, tail, follows, size, isOpener⟩ : ∃ marker tail,
        machine.cursor.rest.drop offset = marker ++ tail ∧ marker.length = 2 ∧
        marker ∈ [Bytes.outputOpener, Bytes.tagOpener] := by
      rcases beginsPair_iff_opens.mp (firstSuffix?_holds begins).1 with
        ⟨tail, follows⟩ | ⟨tail, follows⟩
      · exact ⟨_, tail, follows.symm, rfl, by simp⟩
      · exact ⟨_, tail, follows.symm, rfl, by simp⟩
    rw [Cursor.rest, List.drop_drop] at follows
    rw [behind_eq (machine.cursor.position + offset)]
    · simp only [Guarded.ok_bind, Hit.stop, ← Nat.add_assoc]
      rw [Guarded.stepBack_eq 2 marker tail follows size isOpener, Guarded.ok_bind,
        Cursor.moveTo_of_le (by omega), Guarded.slice_eq (by omega) (by omega), Bytes.slice,
        Nat.add_sub_cancel_left]
      simp [emit, enter, placed, Context.phaseAt, Piece.whole, Cause.fallbacks, Cursor.rest]
    · simp only [Piece.whole, List.length_take]
      omega

omit inside in
/-- Before the first text the template is checked, and a fault ends the scan. The machine halts
there without a token, although the text itself may be sound. -/
theorem turnText_of_fault {invalid : InvalidBytes} (unchecked : machine.checked = false)
    (fault : machine.cursor.template.check = some invalid) :
    machine.turnText = .ok (.halted { outcome := .error invalid, log := machine.log }) := by
  rw [turnText, validate, unchecked, if_neg Bool.false_ne_true, Guarded.check_eq small, fault]
  rfl

/-- Once the template is checked the text is cut out. -/
theorem turnText_of_sound (sound : machine.checked = true ∨ machine.cursor.template.check = none) :
    machine.turnText =
      .ok (.running ({ machine with checked := true }.behind machine.cursor.position
        (.ofText machine.cursor.rest) .markup)) := by
  have passes : machine.validate = .ok none := by
    by_cases checked : machine.checked = true
    · rw [validate, if_pos checked, Guarded.pure_eq]
    · rw [validate, if_neg checked, Guarded.check_eq small, sound.resolve_left checked]
  have cut := @cutText_eq { machine with checked := true } small inside
  rw [turnText, passes, Guarded.ok_bind]
  simp only
  rw [cut, Guarded.map_ok]

omit small inside in
/-- At the end the scan is over. -/
theorem turnMarkup_of_end (complete : machine.cursor.rest = []) :
    machine.turnMarkup = .ok (.halted { outcome := .ok machine.tokens, log := machine.log }) := by
  have atEnd : machine.cursor.atEnd = true := by
    exact decide_eq_true (List.drop_eq_nil_iff.mp complete)
  rw [turnMarkup, if_pos atEnd, Guarded.pure_eq]

omit small inside in
/-- Where bytes are left the scan is not over. -/
theorem not_atEnd_of_rest {byte : UInt8} {after : Bytes}
    (cut : machine.cursor.rest = byte :: after) : ¬machine.cursor.atEnd = true := by
  intro atEnd
  have nothing : machine.cursor.rest = [] := List.drop_eq_nil_iff.mpr (of_decide_eq_true atEnd)
  rw [nothing] at cut
  cases cut

omit inside in
/-- The opener of a tag is passed, and the body is tested for `raw`. -/
theorem turnMarkup_of_tagOpener {body : Bytes}
    (opens : machine.cursor.rest = Bytes.tagOpener ++ body) :
    machine.turnMarkup =
      .ok (.running (machine.placed (machine.cursor.position + 2)
        (.tag machine.cursor.position
          (Keyword.raw.leads machine.cursor.template.encoding body)))) := by
  have opened := Cursor.rest_of_cut 1 [Bytes.openBrace] (Bytes.percent :: body) opens rfl
  have behind := Cursor.rest_of_cut 2 Bytes.tagOpener body opens rfl
  have length := machine.cursor.length_rest
  rw [opens] at length
  simp only [List.length_append, List.length_cons, List.length_nil] at length
  rw [turnMarkup, if_neg (not_atEnd_of_rest opens), Cursor.peek?_eq_head?, opens,
    if_pos (by rfl), Guarded.read_of_rest small opens, Guarded.ok_bind]
  simp only
  rw [Cursor.peek?_eq_head?, opened, if_pos (by rfl), Guarded.read_of_rest small opened,
    Guarded.ok_bind]
  simp only [Nat.add_assoc, Nat.reduceAdd]
  rw [Guarded.leadsWith_eq small (by omega), Guarded.ok_bind, Cursor.leadsWith, behind,
    Guarded.stepBack_eq 2 Bytes.tagOpener body opens rfl (by simp), Guarded.ok_bind]
  rfl

omit inside in
/-- The opener of an output is passed. -/
theorem turnMarkup_of_outputOpener {body : Bytes}
    (opens : machine.cursor.rest = Bytes.outputOpener ++ body) :
    machine.turnMarkup =
      .ok (.running (machine.placed (machine.cursor.position + 2)
        (.output machine.cursor.position .outside))) := by
  have opened := Cursor.rest_of_cut 1 [Bytes.openBrace] (Bytes.openBrace :: body) opens rfl
  rw [turnMarkup, if_neg (not_atEnd_of_rest opens), Cursor.peek?_eq_head?, opens,
    if_pos (by rfl), Guarded.read_of_rest small opens, Guarded.ok_bind]
  simp only
  rw [Cursor.peek?_eq_head?, opened, List.head?_cons, if_neg (mt Option.some.inj (by decide)),
    if_pos rfl, Guarded.read_of_rest small opened, Guarded.ok_bind]
  simp only [Nat.add_assoc, Nat.reduceAdd]
  rw [Guarded.stepBack_eq 2 Bytes.outputOpener body opens rfl (by simp), Guarded.ok_bind]
  rfl

omit inside in
/-- Where nothing is opened text is scanned. A brace that was read to find out is given back. -/
theorem turnMarkup_of_not_opens (markup : machine.phase = .markup)
    (remaining : machine.cursor.rest ≠ []) (plain : ¬Opens machine.cursor.rest) :
    machine.turnMarkup = machine.turnText := by
  obtain ⟨first, after, cut⟩ := List.exists_cons_of_ne_nil remaining
  rw [turnMarkup, if_neg (not_atEnd_of_rest cut), Cursor.peek?_eq_head?, cut, List.head?_cons]
  by_cases brace : first = Bytes.openBrace
  · have opened := Cursor.rest_of_cut 1 [first] after cut rfl
    have length := machine.cursor.length_rest
    rw [cut, List.length_cons] at length
    have noTag : ¬after.head? = some Bytes.percent := by
      intro next
      obtain ⟨tail, rfl⟩ := List.head?_eq_some_iff.mp next
      exact plain (.inr ⟨tail, by rw [cut, brace]; rfl⟩)
    have noOutput : ¬after.head? = some Bytes.openBrace := by
      intro next
      obtain ⟨tail, rfl⟩ := List.head?_eq_some_iff.mp next
      exact plain (.inl ⟨tail, by rw [cut, brace]; rfl⟩)
    rw [if_pos (congrArg some brace), Guarded.read_of_rest small cut, Guarded.ok_bind]
    simp only
    rw [Cursor.peek?_eq_head?, opened, if_neg noTag, if_neg noOutput,
      Guarded.stepBack_eq 1 [first] after cut rfl (by simp [brace]), Guarded.ok_bind,
      Cursor.moveTo_of_le (by omega), enter, ← markup]
  · rw [if_neg (by simpa using brace)]

/-- An output without another stop byte is given up. Nothing else could end it, so all that is left
goes into its region. -/
theorem turnOutput_of_missing {start : Nat} (quoting : Output.Quoting)
    (opened : start + 2 ≤ machine.cursor.position)
    (missing : (Needle.anyOf Output.stops).find? machine.cursor.rest = none) :
    machine.turnOutput start quoting =
      .ok (machine.behind start
        { cause := .openOutput
          region := machine.cursor.template.bytes.drop start
          token := ⟨Bytes.outputOpener⟩ }
        .markup) := by
  have whole := machine.cursor.template.length_drop start
  have abandoned (position : Nat) (last : position = machine.cursor.template.length) :
      machine.abandonOutput { machine.cursor with position } start =
        machine.behind start
          { cause := .openOutput
            region := machine.cursor.template.bytes.drop start
            token := ⟨Bytes.outputOpener⟩ }
          .markup := by
    rw [behind_eq position]
    · rfl
    · simp only
      omega
  rw [turnOutput]
  by_cases atEnd : machine.cursor.atEnd = true
  · have last := Nat.le_antisymm inside (of_decide_eq_true atEnd)
    rw [if_pos atEnd, abandoned machine.cursor.position last, Guarded.pure_eq]
  · rw [if_neg atEnd, Guarded.skipToStop_of_missing small inside missing, Guarded.ok_bind]
    simp only
    rw [abandoned machine.cursor.template.length rfl, Guarded.pure_eq]

/-- At a stop byte an output ends, is overtaken or goes on. -/
theorem turnOutput_of_found {start : Nat} (quoting : Output.Quoting) {front after : Bytes}
    {stop : UInt8} (opened : start + 2 ≤ machine.cursor.position)
    (cut : machine.cursor.rest = front ++ stop :: after) (member : stop ∈ Output.stops)
    (found : (Needle.anyOf Output.stops).find? (front ++ stop :: after) =
      some ⟨front.length, 1⟩) :
    machine.turnOutput start quoting = .ok (
      if quoting = .outside ∧ stop = Bytes.closeBrace ∧ after.head? = some Bytes.closeBrace then
        machine.behind start
          (.whole .output ((machine.cursor.template.bytes.drop start).take
            (machine.cursor.position + front.length + 2 - start)))
          .markup
      else if quoting = .outside ∧ stop = Bytes.openBrace ∧ after.head? = some Bytes.percent then
        (machine.note .overtakenOutput start).placed
          (machine.cursor.position + front.length + 2) (.tag start false)
      else
        let shielded := if quoting ≠ .outside ∧ stop = Bytes.backslash then 1 else 0
        machine.placed
          (min (machine.cursor.position + front.length + 1 + shielded)
            machine.cursor.template.length)
          (.output start (quoting.after stop))) := by
  have length := machine.cursor.length_rest
  rw [cut, List.length_append, List.length_cons] at length
  have whole := machine.cursor.template.length_drop start
  have behindStop := Cursor.rest_of_cut (front.length + 1) (front ++ [stop]) after
    (by rw [cut]; simp) (by simp)
  rw [← Nat.add_assoc] at behindStop
  have notAtEnd : ¬machine.cursor.atEnd = true := by
    intro atEnd
    have passed := of_decide_eq_true atEnd
    omega
  rw [turnOutput, if_neg notAtEnd, Guarded.skipToStop_of_found small inside cut member found,
    Guarded.ok_bind]
  simp only
  rw [Cursor.peek?_eq_head?, behindStop]
  by_cases closes : quoting = .outside ∧ stop = Bytes.closeBrace ∧
      after.head? = some Bytes.closeBrace
  · obtain ⟨tail, rfl⟩ := List.head?_eq_some_iff.mp closes.2.2
    rw [List.length_cons] at length
    rw [if_pos closes, if_pos closes, Guarded.read_of_rest small behindStop, Guarded.ok_bind,
      behind_eq (machine.cursor.position + front.length + 2)]
    · simp only [Guarded.sliceFrom]
      rw [Guarded.slice_eq (by omega) (by omega), Guarded.ok_bind]
      simp [emit, enter, placed, Context.phaseAt, Piece.whole, Cause.fallbacks, Bytes.slice]
    · simp only [Piece.whole, List.length_take]
      omega
  rw [if_neg closes, if_neg closes]
  by_cases overtakes : quoting = .outside ∧ stop = Bytes.openBrace ∧
      after.head? = some Bytes.percent
  · obtain ⟨tail, rfl⟩ := List.head?_eq_some_iff.mp overtakes.2.2
    rw [if_pos overtakes, if_pos overtakes, Guarded.read_of_rest small behindStop, Guarded.ok_bind]
    rfl
  rw [if_neg overtakes, if_neg overtakes]
  by_cases shields : quoting ≠ .outside ∧ stop = Bytes.backslash
  · have unchanged : quoting.after stop = quoting := by
      rw [shields.2]
      rfl
    rw [if_pos shields, if_pos shields, Guarded.sum_eq (by omega), Guarded.ok_bind, unchanged]
    rfl
  · simp only [if_neg shields, Nat.add_zero]
    rw [Nat.min_eq_left (by omega)]
    rfl

/-- A raw block without another tag takes up all that is left. -/
theorem turnRaw_of_missing {start : Nat} (started : start ≤ machine.cursor.position)
    (missing : (Needle.literal Bytes.tagOpener).find? machine.cursor.rest = none) :
    machine.turnRaw start = .ok (machine.behind start
      (.whole .openRaw (machine.cursor.template.bytes.drop start)) .markup) := by
  have whole := machine.cursor.template.length_drop start
  have all : machine.cursor.template.bytes.slice start machine.cursor.template.length =
      machine.cursor.template.bytes.drop start := by
    exact List.take_of_length_le (Nat.le_of_eq whole)
  rw [turnRaw, Guarded.skipPast_eq small inside, Cursor.skipPast, missing, Guarded.ok_bind,
    behind_eq machine.cursor.template.length]
  · simp only [Cursor.finish, Guarded.sliceFrom]
    rw [Guarded.slice_eq (by omega) (Nat.le_refl _), Guarded.ok_bind, all]
    rfl
  · simp only [Piece.whole]
    omega

/-- At a tag a raw block ends or goes on. If it goes on, the search begins again behind the opener,
and the block still starts where it did. -/
theorem turnRaw_of_found {start : Nat} {front body : Bytes}
    (cut : machine.cursor.rest = front ++ Bytes.tagOpener ++ body)
    (found : (Needle.literal Bytes.tagOpener).find? machine.cursor.rest =
      some ⟨front.length, 2⟩) :
    machine.turnRaw start = .ok (
      if Keyword.endraw.leads machine.cursor.template.encoding body then
        machine.pastContent start (machine.cursor.position + front.length)
      else machine.placed (machine.cursor.position + front.length + 2) (.raw start)) := by
  have length := machine.cursor.length_rest
  rw [cut] at length
  simp only [List.length_append, List.length_cons, List.length_nil] at length
  have behindOpener := Cursor.rest_of_cut (front.length + 2) (front ++ Bytes.tagOpener) body
    cut (by simp)
  rw [List.append_assoc] at cut
  have atOpener : machine.cursor.template.bytes.drop (machine.cursor.position + front.length) =
      Bytes.tagOpener ++ body :=
    Cursor.rest_of_cut front.length front (Bytes.tagOpener ++ body) cut rfl
  rw [turnRaw, Guarded.skipPast_eq small inside, Cursor.skipPast, found, Guarded.ok_bind]
  simp only [Hit.stop]
  rw [Guarded.leadsWith_eq small (by omega), Guarded.ok_bind, Cursor.leadsWith, behindOpener,
    ← Nat.add_assoc]
  cases ends : Keyword.endraw.leads machine.cursor.template.encoding body with
  | false => rfl
  | true =>
    simp only [if_true, pastContent]
    rw [Guarded.stepBack_eq 2 Bytes.tagOpener body atOpener rfl (by simp), Guarded.ok_bind]
    by_cases content : start < machine.cursor.position + front.length
    · rw [if_pos content, if_pos content, Guarded.slice_eq (by omega) (by omega), Guarded.ok_bind]
      simp [emit, enter, placed, behind, Piece.whole, Cause.fallbacks, Bytes.slice]
    · rw [if_neg content, if_neg content]
      rfl

end Turns

end Machine

end TemplateTokens
