import TemplateTokens.Proofs.Conservation
import TemplateTokens.Proofs.Consumption
import TemplateTokens.Proofs.Lines

/-!
# The line of a token and the line of the source

A stream counts the line ends in the tokens taken from it, and not those in the source. The two
counts differ by the line ends that the tokens leave out, and only outputs overtaken by a tag leave
any out in front of another token: an output that does not end leaves out more, but it is the last
piece. The line told for a token is therefore that of the first byte of its region, less the line
ends that overtaken outputs in front of it have left out.
-/

namespace TemplateTokens

namespace Piece

/-- The bytes of its region that an output overtaken by a tag leaves out of its token: those behind
the token if the tag has a closer, and otherwise those in front of the tag opener. -/
def leftOut (piece : Piece) : Bytes :=
  match piece.cause with
  | .overtaken _ => piece.region.drop piece.token.length
  | .overtakenOpen distance => piece.region.take distance
  | _ => []

/-- The number of line ends that overtaken outputs leave out of their tokens. -/
def lostLines (pieces : List Piece) : Nat := Bytes.newlineCount (pieces.flatMap leftOut)

/-- No line end is lost if overtaken outputs leave none out. Lines can only be lost where bytes are
left out, and only overtaken outputs are followed by more tokens. -/
theorem lostLines_eq_zero {pieces : List Piece}
    (keepsAll : ∀ piece ∈ pieces, piece.cause.isOvertaken = true →
      Bytes.newline ∉ piece.leftOut) : lostLines pieces = 0 := by
  refine List.count_eq_zero.mpr fun member => ?_
  obtain ⟨piece, among, inside⟩ := List.mem_flatMap.mp member
  apply keepsAll piece among ?_ inside
  cases cause : piece.cause with
  | overtaken _ | overtakenOpen _ => rfl
  | _ => exact absurd inside (by simp [leftOut, cause])

end Piece

/-- The line ends of a region are those of its token and those left out. The output that does not
end is set aside because no token follows it, so that nothing is counted as left out there. -/
theorem Carving.newlineCount_region {encoding : Encoding} {context : Context} {bytes : Bytes}
    {step : Step} (carving : Carving encoding context bytes step)
    (ends : step.piece.cause ≠ .openOutput) :
    step.piece.region.newlineCount =
      step.piece.token.newlineCount + step.piece.leftOut.newlineCount := by
  induction carving with
  | text | tag | openTag | output | openRaw | raw => rfl
  | @overtaken body inner =>
    have cut := List.take_append_drop (inner.length + 4) (Bytes.outputOpener ++
      (body ++ Bytes.tagOpener) ++ (inner ++ Bytes.tagCloser))
    have kept : inner.length + 4 ≤ (Bytes.outputOpener ++ (body ++ Bytes.tagOpener) ++
        (inner ++ Bytes.tagCloser)).length := by
      simp only [List.length_append, List.length_cons, List.length_nil]
      omega
    rw [Piece.leftOut, Token.newlineCount, ← Bytes.newlineCount_append]
    dsimp only [Token.length]
    rw [List.length_take_of_le kept, cut]
  | @overtakenOpen body =>
    have front : (Bytes.outputOpener ++ (body ++ Bytes.tagOpener)).take (body.length + 2) =
        Bytes.outputOpener ++ body := by
      rw [← List.append_assoc, List.take_left' (by simp)]
    rw [Piece.leftOut, Token.newlineCount]
    dsimp only
    rw [front, ← List.append_assoc, Bytes.newlineCount_append, Nat.add_comm]
  | openOutput => exact absurd rfl ends
  | endRaw _ _ inductionHypothesis => exact inductionHypothesis ends

/-- An output that does not end is the last piece. -/
theorem Course.ne_openOutput {encoding : Encoding} {context : Context} {bytes : Bytes}
    {before after : List Piece} {piece : Piece}
    (course : Course encoding context bytes (before ++ piece :: after)) :
    ∀ earlier ∈ before, earlier.cause ≠ .openOutput := by
  intro earlier among endless
  obtain ⟨front, back, rfl⟩ := List.append_of_mem among
  rw [List.append_assoc, List.cons_append] at course
  exact absurd (course.eq_nil_of_takesAll (by rw [endless]; rfl)) (by simp)

/-- The line ends in front of a piece are those of the tokens in front of it and those left out. -/
theorem Course.newlineCount_eq {encoding : Encoding} {context : Context} {bytes : Bytes}
    {before after : List Piece}
    (course : Course encoding context bytes (before ++ after))
    (ends : ∀ earlier ∈ before, earlier.cause ≠ .openOutput) :
    Bytes.newlineCount (bytes.take (Piece.extent before)) =
      Bytes.newlineCount (before.flatMap (·.token.bytes)) + Piece.lostLines before := by
  induction before generalizing context bytes with
  | nil => simp [Piece.extent, Piece.lostLines]
  | cons first before inductionHypothesis =>
    obtain ⟨endsHere, endsLater⟩ := List.forall_mem_cons.mp ends
    cases course with
    | @step context rest step later carving tail =>
      have extent : Piece.extent (step.piece :: before) =
          step.piece.region.length + Piece.extent before := by
        rw [Piece.extent, List.flatMap_cons, List.length_append, Piece.extent]
      have here := carving.newlineCount_region endsHere
      have behind := inductionHypothesis tail endsLater
      rw [Token.newlineCount] at here
      rw [Piece.lostLines] at behind ⊢
      rw [extent, List.take_length_add_append, List.flatMap_cons, List.flatMap_cons,
        Bytes.newlineCount_append, Bytes.newlineCount_append, Bytes.newlineCount_append]
      omega

namespace TokenStream

/-- The line of a token of a template is told when the tokens in front of it have been taken. -/
theorem exists_line_of_region {settings : Settings} {template : Template} {stream : TokenStream}
    {first : LineNumber} (markup : settings.forLiquidTag = false)
    (tracked : settings.initialLine? = some first)
    (accepted : ofTemplate settings template = .ok stream) {before after : List Piece}
    {piece : Piece} (cut : (Scan.ofTemplate template).pieces = before ++ piece :: after)
    {calls : List Call} (taken : (stream.popped calls).length = before.length) :
    let lineEnds := Bytes.newlineCount (template.bytes.take (Piece.extent before))
    Piece.lostLines before ≤ lineEnds ∧
    ∃ line, (stream.after calls).line? = some line ∧
      line.toNat =
        min (first.toNat + lineEnds - Piece.lostLines before) (UInt32.size - 1) := by
  intro lineEnds
  obtain ⟨carvedAll, sameTokens⟩ := pending_of_accepted markup accepted
  obtain ⟨-, made⟩ := (ofTemplate_eq_ok_iff markup).mp accepted
  have course := course_pieces template.encoding .markup template.bytes
  rw [carvedAll] at cut
  rw [show pieces template.encoding .markup template.bytes = before ++ piece :: after from cut]
    at course
  have popped : stream.popped calls = before.map Piece.token := by
    have consumed := (Consumed.after stream calls).pending
    rw [sameTokens, cut, List.map_append] at consumed
    exact (List.append_inj_left consumed (by simp [taken])).symm
  have lines := course.newlineCount_eq course.ne_openOutput
  obtain ⟨line, reached, number⟩ :=
    exists_line_after stream (by rw [made]; exact tracked : stream.line? = some first) calls
  rw [linesInAll_of_markup (by rw [made]; exact markup), popped, List.flatMap_map] at number
  exact ⟨by omega, line, reached, by omega⟩

/-- The line of a line of a `liquid` tag is told when the lines in front of it have been taken. -/
theorem exists_line_of_line {settings : Settings} {template : Template} {stream : TokenStream}
    {first : LineNumber} (liquid : settings.forLiquidTag = true)
    (tracked : settings.initialLine? = some first)
    (accepted : ofTemplate settings template = .ok stream) {before after : List Token}
    {token : Token} (cut : stream.pending = before ++ token :: after) {calls : List Call}
    (taken : (stream.popped calls).length = before.length) :
    let start := (before.map (·.length + 1)).sum
    token.bytes <+: template.bytes.drop start ∧
    ∃ line, (stream.after calls).line? = some line ∧
      line.toNat =
        min (first.toNat + Bytes.newlineCount (template.bytes.take start)) (UInt32.size - 1) := by
  intro start
  have made := Except.ok.inj ((ofTemplate_of_liquidTag template liquid).symm.trans accepted)
  have sameLines : template.bytes.lines = before.map Token.bytes ++ token.bytes ::
      after.map Token.bytes := by
    have lines : stream.pending.map Token.bytes = template.bytes.lines := by
      rw [← made]
      simp [ofTokens, Function.comp_def]
    rw [← lines, cut, List.map_append, List.map_cons]
  obtain ⟨rest, source, -⟩ := Bytes.lines_cut sameLines
  have size : (withLineEnds (before.map Token.bytes)).length = start := by
    rw [withLineEnds, List.length_flatMap, List.map_map]
    congr 1
    apply List.map_congr_left
    intro token _
    exact List.length_append
  have clean : ∀ line ∈ before.map Token.bytes, Bytes.newline ∉ line := by
    intro line member
    have among : line ∈ template.bytes.lines := by
      rw [sameLines]
      exact List.mem_append_left _ member
    exact Bytes.newline_not_mem_of_mem_lines among
  constructor
  · rw [source, List.drop_left' size]
    exact List.prefix_append token.bytes rest
  obtain ⟨line, reached, number⟩ :=
    exists_line_after stream (by rw [← made]; exact tracked : stream.line? = some first) calls
  refine ⟨line, reached, ?_⟩
  rw [number, linesInAll_of_liquidTag (by rw [← made]; exact liquid), taken, source,
    List.take_left' size, Bytes.newlineCount_withLineEnds clean, List.length_map]

/-- The line told for a token, against the line of the source on which it begins. In a template it
is the line of the first byte of the token's region, less the line ends that outputs overtaken by a
tag have left out before: never a later line, and the very line if they have left out none. Nothing
else makes it drift. In the body of a `liquid` tag it is the line of the first byte of the token.
All are capped at the last representable line, and how the tokens in front were taken makes no
difference.

Proof: the line told is the first one moved on by the tokens in front, whichever calls have taken
them. Add the newlines of these tokens to those that each piece leaves out of its token, piece by
piece; the sum is the number of newlines in front of the region. Only an overtaken output leaves
bytes out of its token and has pieces behind it. In a `liquid` tag each line takes exactly one
newline with it. -/
theorem line_of_token {settings : Settings} {template : Template} {stream : TokenStream}
    {first : LineNumber} (tracked : settings.initialLine? = some first)
    (accepted : ofTemplate settings template = .ok stream) (calls : List Call) :
    if settings.forLiquidTag then
      ∀ before token after, stream.pending = before ++ token :: after →
        (stream.popped calls).length = before.length →
          let start := (before.map (·.length + 1)).sum
          let source := first.toNat + Bytes.newlineCount (template.bytes.take start)
          token.bytes <+: template.bytes.drop start ∧
          ∃ line, (stream.after calls).line? = some line ∧
            line.toNat = min source (UInt32.size - 1)
    else
      stream.pending = (Scan.ofTemplate template).pieces.map Piece.token ∧
      ∀ before piece after, (Scan.ofTemplate template).pieces = before ++ piece :: after →
        (stream.popped calls).length = before.length →
          let start := Piece.extent before
          let lineEnds := Bytes.newlineCount (template.bytes.take start)
          let source := first.toNat + lineEnds
          piece.region <+: template.bytes.drop start ∧ Piece.lostLines before ≤ lineEnds ∧
          ∃ line, (stream.after calls).line? = some line ∧
            line.toNat = min (source - Piece.lostLines before) (UInt32.size - 1) ∧
            line.toNat ≤ min source (UInt32.size - 1) ∧
            ((∀ earlier ∈ before, earlier.cause.isOvertaken = true →
                Bytes.newline ∉ earlier.leftOut) →
              line.toNat = min source (UInt32.size - 1)) := by
  cases mode : settings.forLiquidTag with
  | true =>
    rw [if_pos rfl]
    intro before token after cut taken
    exact exists_line_of_line mode tracked accepted cut taken
  | false =>
    rw [if_neg (by simp)]
    obtain ⟨carvedAll, sameTokens⟩ := pending_of_accepted mode accepted
    refine ⟨by rw [carvedAll, sameTokens], ?_⟩
    intro before piece after cut taken start lineEnds source
    have region : piece.region <+: template.bytes.drop start := by
      have whole := (course_pieces template.encoding .markup template.bytes).regions_flatten
      rw [carvedAll, Template.uncheckedPieces] at cut
      rw [cut, List.flatMap_append, List.flatMap_cons] at whole
      rw [← whole, show start = (before.flatMap Piece.region).length from rfl, List.drop_left]
      exact List.prefix_append piece.region _
    obtain ⟨fewer, line, reached, number⟩ :=
      exists_line_of_region mode tracked accepted cut taken
    change line.toNat = min (source - Piece.lostLines before) (UInt32.size - 1) at number
    clear_value source
    refine ⟨region, fewer, line, reached, number, by omega, ?_⟩
    intro keepsAll
    rw [number, Piece.lostLines_eq_zero keepsAll, Nat.sub_zero]

/-- In `{{a{%`, line end, `%}x` an output is overtaken by a tag, and the line end in the tag is left
out. The text behind it is on line 2, but line 1 is told for it. -/
theorem line_of_text_behind_overtaken_output :
    let settings : Settings := { countLines := true }
    let template := Template.utf8 [0x7b, 0x7b, 0x61, 0x7b, 0x25, 0x0a, 0x25, 0x7d, 0x78]
    let stream := TokenStream.ofTokens settings [⟨[0x7b, 0x7b, 0x61, 0x7b, 0x25]⟩, ⟨[0x78]⟩]
    TokenStream.ofTemplate settings template = .ok stream ∧
    (stream.popped [.next]).length = 1 ∧
    (stream.after [.next]).line?.map UInt32.toNat = some 1 ∧
    settings.initialLine? = some 1 ∧ Bytes.newlineCount (template.bytes.take 8) = 1 := by
  intro settings template stream
  have accepted : TokenStream.ofTemplate settings template = .ok stream := by decide +kernel
  have carved : (Scan.ofTemplate template).pieces =
      [⟨.overtaken 3, template.bytes.take 8, ⟨template.bytes.take 5⟩⟩,
        ⟨.text, [0x78], ⟨[0x78]⟩⟩] := by
    decide +kernel
  have lines := @line_of_token settings template stream 1 rfl accepted [.next]
  rw [if_neg (by decide)] at lines
  obtain ⟨-, -, line, reached, number, -⟩ := lines.2 [_] _ [] carved rfl
  refine ⟨accepted, rfl, ?_, rfl, rfl⟩
  rw [reached, Option.map_some, number]
  rfl

end TokenStream

end TemplateTokens
