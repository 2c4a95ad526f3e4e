import TemplateTokens.Output.Automaton
import TemplateTokens.Proofs.Guarded.Cursor
import TemplateTokens.Proofs.Output

/-!
# Jumping from stop byte to stop byte loses nothing

The scan of an output jumps from one stop byte to the next and cuts its piece off the bytes that
remain. The automaton (`Output.automaton`) moves a cursor byte by byte. Both end where the walk of
`Output.walkFrom` does, and from the ending follow the token, the place where the scan goes on and
the entries of the log.

The walk is the third description of an output and the simplest: it goes over the bytes with a
quoting and remembers nothing else. Comparing both scans with it avoids comparing a jump with many
steps. The entries are compared with those that the cause of the piece gives, in their order and
with their offsets. Nothing is assumed about the encoding, and the template may be of any length.
-/

namespace TemplateTokens.Output

/-- The moves of the automaton are those of the walk: markers are looked for outside of strings
only, a backslash shields the next byte inside of strings only, and every other byte is passed. -/
theorem Quoting.move_eq (quoting : Quoting) (byte : UInt8) (next? : Option UInt8) :
    quoting.move byte next? =
      if quoting = .outside ∧ byte = Bytes.closeBrace ∧ next? = some Bytes.closeBrace then .close
      else if quoting = .outside ∧ byte = Bytes.openBrace ∧ next? = some Bytes.percent then
        .overtake
      else if quoting ≠ .outside ∧ byte = Bytes.backslash then .shield
      else .pass (quoting.after byte) := by
  by_cases isDouble : byte = Bytes.doubleQuote
  · subst isDouble
    cases quoting <;> rfl
  by_cases isSingle : byte = Bytes.singleQuote
  · subst isSingle
    cases quoting <;> rfl
  cases quoting <;> simp [move, after, isDouble, isSingle]

/-- What a scan leaves behind that carves off a piece where `start` is. -/
def Scanned.ofPiece (template : Template) (start : Nat) (piece : Piece) : Scanned :=
  { token := piece.token
    cursor := { template, position := start + piece.region.length }
    entries := piece.cause.fallbacks.map (.fellBack · start) }

/-- What the scan of an output that is opened at `start` leaves behind if the output ends in the
given way. -/
def Scanned.ofEnding (template : Template) (start : Nat) : Ending → Scanned
  | .closed length =>
    { token := ⟨template.bytes.slice start (start + (length + 2))⟩
      cursor := { template, position := start + (length + 2) }
      entries := [] }
  | .overtaken length =>
    (scanTag start { template, position := start + (length + 2) }).note
      (.fellBack .overtakenOutput start)
  | .missing =>
    { token := ⟨Bytes.outputOpener⟩
      cursor := { template, position := template.length }
      entries := [.fellBack .openOutput start] }

section Runs

variable {template : Template} {start position : Nat} (quoting : Quoting)

/-- The automaton stops at the end of the template. In which kind of string the walk is makes no
difference. -/
theorem automaton_of_end (atEnd : template.bytes.drop position = []) :
    automaton start quoting { template, position } = Scanned.ofEnding template start .missing := by
  have nothing : Cursor.peek? { template, position } = none := by
    rw [Cursor.peek?_eq_head?, Cursor.rest, atEnd]
    rfl
  rw [automaton]
  split
  · rfl
  · next byte here => exact absurd (nothing.symm.trans here) (by simp)

/-- The automaton takes the same decision at a byte as the walk. The automaton counts positions from
the start of the template and the walk counts bytes from the opener on, which is the only difference
between the two. -/
theorem automaton_of_cons {passed : Nat} {byte : UInt8} {rest : Bytes}
    (cut : template.bytes.drop (start + 2 + passed) = byte :: rest) :
    automaton start quoting { template, position := start + 2 + passed } =
      if quoting = .outside ∧ byte = Bytes.closeBrace ∧ rest.head? = some Bytes.closeBrace then
        Scanned.ofEnding template start (.closed (passed + 2))
      else if quoting = .outside ∧ byte = Bytes.openBrace ∧ rest.head? = some Bytes.percent then
        Scanned.ofEnding template start (.overtaken (passed + 2))
      else if quoting ≠ .outside ∧ byte = Bytes.backslash then
        automaton start quoting (Cursor.read { template, position := start + 2 + passed + 1 }).2
      else automaton start (quoting.after byte) { template, position := start + 2 + passed + 1 } := by
  have here : Cursor.peek? { template, position := start + 2 + passed } = some byte := by
    rw [Cursor.peek?_eq_head?, Cursor.rest, cut]
    rfl
  have next : Cursor.peek? { template, position := start + 2 + passed + 1 } = rest.head? := by
    rw [Cursor.peek?_eq_head?, Cursor.rest, ← List.drop_drop, cut]
    rfl
  have behindNext {follow : UInt8} (follows : rest.head? = some follow) :
      (Cursor.read { template, position := start + 2 + passed + 1 }).2 =
        { template, position := start + (passed + 2 + 2) } := by
    have reach : start + 2 + passed + 1 + 1 = start + (passed + 2 + 2) := by omega
    rw [(Cursor.read_of_peek? (next.trans follows)).2, ← reach]
  conv => lhs; rw [automaton]
  split
  · next nothing => exact absurd (here.symm.trans nothing) (by simp)
  · next other same =>
    obtain rfl : byte = other := Option.some.inj (here.symm.trans same)
    simp only [(Cursor.read_of_peek? here).2, next, Quoting.move_eq]
    by_cases closes : quoting = .outside ∧ byte = Bytes.closeBrace ∧
        rest.head? = some Bytes.closeBrace
    · simp only [if_pos closes, behindNext closes.2.2, Scanned.ofEnding]
    by_cases overtakes : quoting = .outside ∧ byte = Bytes.openBrace ∧
        rest.head? = some Bytes.percent
    · simp only [if_neg closes, if_pos overtakes, behindNext overtakes.2.2, Scanned.ofEnding]
    by_cases shields : quoting ≠ .outside ∧ byte = Bytes.backslash
    · simp only [if_neg closes, if_neg overtakes, if_pos shields]
    · simp only [if_neg closes, if_neg overtakes, if_neg shields]

/-- The automaton leaves behind what the walk asks for.

Proof: by induction on the number of bytes left. At each byte both take the same decision, and a
backslash inside a string passes the byte behind it, if there is one, by a second reading here and
by the shield there. -/
theorem automaton_eq_ofEnding (passed : Nat) :
    automaton start quoting { template, position := start + 2 + passed } =
      Scanned.ofEnding template start
        (walkFrom quoting false passed (template.bytes.drop (start + 2 + passed))) := by
  generalize cut : template.bytes.drop (start + 2 + passed) = bytes
  induction length : bytes.length using Nat.strongRecOn generalizing quoting passed bytes with
  | ind size inductionHypothesis =>
    cases bytes with
    | nil => exact automaton_of_end quoting cut
    | cons byte rest =>
      have behind : template.bytes.drop (start + 2 + (passed + 1)) = rest := by
        rw [← Nat.add_assoc, ← List.drop_drop, cut]
        rfl
      rw [automaton_of_cons quoting cut, walkFrom_cons]
      split
      · rfl
      split
      · rfl
      split
      · rw [walkFrom_shielded]
        cases rest with
        | nil =>
          have stays : (Cursor.read { template, position := start + 2 + passed + 1 }).2 =
              { template, position := start + 2 + (passed + 1) } := by
            rw [Cursor.read, Cursor.peek?_eq_head?, Cursor.rest, Nat.add_assoc, behind]
            rfl
          rw [stays]
          exact automaton_of_end quoting behind
        | cons shielded tail =>
          have onward : (Cursor.read { template, position := start + 2 + passed + 1 }).2 =
              { template, position := start + 2 + (passed + 1 + 1) } := by
            rw [Cursor.read, Cursor.peek?_eq_head?, Cursor.rest, Nat.add_assoc, behind]
            rfl
          have further : template.bytes.drop (start + 2 + (passed + 1 + 1)) = tail := by
            rw [← Nat.add_assoc, ← List.drop_drop, behind]
            rfl
          rw [onward]
          exact inductionHypothesis _ (by simp +arith [← length]) _ _ _ further rfl
      · exact inductionHypothesis _ (by simp [← length]) _ _ _ behind rfl

end Runs

/-- A tag is scanned from the cursor on as it is carved off. The bytes passed beforehand are those
between the start of the token and the cursor, two for a tag by itself and more for one that
overtakes an output. -/
theorem scanTag_eq_ofTag {template : Template} {start passed : Nat}
    (within : start + passed ≤ template.length) :
    scanTag start { template, position := start + passed } =
      Scanned.ofPiece template start
        (.ofTag .tag .openTag (template.bytes.drop start) passed) := by
  have size : (template.bytes.drop start).length = template.length - start :=
    template.length_drop start
  have behind : (template.bytes.drop start).drop passed =
      Cursor.rest { template, position := start + passed } := List.drop_drop
  rw [scanTag, Cursor.skipPast, Piece.ofTag, behind]
  cases search : (Needle.literal Bytes.tagCloser).find?
      (Cursor.rest { template, position := start + passed }) with
  | none =>
    have region : ((template.bytes.drop start).take passed).length = passed :=
      List.length_take_of_le (by omega)
    simp only [Scanned.ofPiece, region, Cursor.finish, Cursor.moveTo_of_le within]
    rfl
  | some hit =>
    have bounded := Needle.find?_stop_le search
    rw [Cursor.length_rest] at bounded
    simp only at bounded
    have region : ((template.bytes.drop start).take (passed + hit.stop)).length =
        passed + hit.stop :=
      List.length_take_of_le (by omega)
    simp only [Scanned.ofPiece, region, Bytes.slice, Nat.add_assoc, Nat.add_sub_cancel_left]
    rfl

/-- An output that is taken for a tag has an entry more than that tag. The entry comes first, since
the program writes it before it goes on to scan the tag. -/
theorem Scanned.ofPiece_note (template : Template) (start passed distance : Nat) (bytes : Bytes) :
    (ofPiece template start (.ofTag .tag .openTag bytes passed)).note
        (.fellBack .overtakenOutput start) =
      ofPiece template start
        (.ofTag (.overtaken distance) (.overtakenOpen distance) bytes passed) := by
  unfold Piece.ofTag
  split <;> rfl

/-- The marker with which a body ends is inside of it. The bytes up to the ending are thus there to
be passed, and the cursor stays in the template. -/
theorem length_le_of_ending {body : Bytes} {length : Nat}
    (ends : (ending body).length? = some length) : length ≤ body.length := by
  have inside {offset : Nat} {marker : Bytes} (two : marker.length = 2)
      (stands : marker <+: body.drop offset) : offset + 2 ≤ body.length := by
    have bounded := stands.length_le
    rw [List.length_drop] at bounded
    omega
  have stands := walkFrom_standsIn .outside false 0 body
  rw [← ending_eq_walkFrom] at stands
  cases ended : ending body with
  | closed other =>
    rw [ended] at stands ends
    obtain ⟨offset, rfl, marker⟩ := stands
    cases ends
    have bounded := inside rfl marker
    omega
  | overtaken other =>
    rw [ended] at stands ends
    obtain ⟨offset, rfl, marker⟩ := stands
    cases ends
    have bounded := inside rfl marker
    omega
  | missing => simp [ended, Ending.length?] at ends

/-- What the ending of an output asks for is its piece. The left side is put together from the
outcome of a walk and the right side from the piece that is carved off, so this joins the two
accounts of an output. -/
theorem Scanned.ofEnding_ending {template : Template} {start : Nat}
    (opened : Bytes.outputOpener <+: template.bytes.drop start) :
    ofEnding template start (ending ((template.bytes.drop start).drop 2)) =
      ofPiece template start (.ofOutput (template.bytes.drop start)) := by
  have size : (template.bytes.drop start).length = template.length - start :=
    template.length_drop start
  have two := opened.length_le
  simp only [List.length_cons, List.length_nil] at two
  rw [Piece.ofOutput]
  cases ends : ending ((template.bytes.drop start).drop 2) with
  | closed length =>
    have inside := length_le_of_ending (congrArg Ending.length? ends)
    rw [List.length_drop] at inside
    have region : ((template.bytes.drop start).take (length + 2)).length = length + 2 :=
      List.length_take_of_le (by omega)
    simp only [ofEnding, ofPiece, Piece.whole, region, Bytes.slice, Nat.add_sub_cancel_left]
    rfl
  | overtaken length =>
    have inside := length_le_of_ending (congrArg Ending.length? ends)
    rw [List.length_drop] at inside
    simp only [ofEnding]
    rw [scanTag_eq_ofTag (by omega), ofPiece_note]
  | missing =>
    have reach : start + (template.bytes.drop start).length = template.length := by omega
    simp only [ofEnding, ofPiece, reach]
    rfl

/-- The scan of an output that jumps from stop byte to stop byte leaves behind what the automaton
does, which goes byte by byte: the same token, the same cursor and the same entries of the log. This
holds of every template and wherever in it an opener stands.

Proof: compare both with the walk over the bytes of the output. The jumps end where the walk does,
because no byte between two stop bytes changes the quoting; the automaton ends there by induction on
the bytes left. What is left behind depends on the ending alone. -/
theorem automaton_eq_ofOutput {template : Template} {start : Nat}
    (opened : Bytes.outputOpener <+: template.bytes.drop start) :
    automaton start .outside { template, position := start + 2 } =
      Scanned.ofPiece template start (.ofOutput (template.bytes.drop start)) := by
  have walked := @automaton_eq_ofEnding template start .outside 0
  rw [Nat.add_zero, ← List.drop_drop, ← ending_eq_walkFrom] at walked
  rw [walked, Scanned.ofEnding_ending opened]

/-- In `a{{"}}\"{%"{%d%}` the automaton goes through a string that contains a closer, a shielded
mark and a tag opener, and hands over to a tag behind it. -/
theorem automaton_through_string :
    let template := Template.utf8
      [0x61, 0x7b, 0x7b, 0x22, 0x7d, 0x7d, 0x5c, 0x22, 0x7b, 0x25, 0x22, 0x7b, 0x25, 0x64, 0x25, 0x7d]
    Bytes.outputOpener <+: template.bytes.drop 1 ∧
    automaton 1 .outside { template, position := 3 } =
      { token := ⟨[0x7b, 0x7b, 0x22, 0x7d, 0x7d]⟩
        cursor := { template, position := 16 }
        entries := [.fellBack .overtakenOutput 1] } := by
  intro template
  have opened : Bytes.outputOpener <+: template.bytes.drop 1 := ⟨_, rfl⟩
  have carved : Scanned.ofPiece template 1 (.ofOutput (template.bytes.drop 1)) =
      { token := ⟨[0x7b, 0x7b, 0x22, 0x7d, 0x7d]⟩
        cursor := { template, position := 16 }
        entries := [.fellBack .overtakenOutput 1] } := by
    decide +kernel
  exact ⟨opened, (automaton_eq_ofOutput opened).trans carved⟩

end TemplateTokens.Output
