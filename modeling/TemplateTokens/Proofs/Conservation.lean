import TemplateTokens.TokenStream
import TemplateTokens.Proofs.Carving
import TemplateTokens.Proofs.Validation

/-!
# Every byte is accounted for

The regions of the pieces of a template lie one behind the other and together are the template. A
token is the whole of its region with three exceptions, all of them outputs that do not end with a
closer: one overtaken by a tag loses as many bytes as the tag opener is behind its own, and one that
does not end loses everything behind its opener. The bytes missing from the tokens are therefore
exactly those, and the tokens joined give back the template exactly if nothing was lost.
-/

namespace TemplateTokens

/-- Whether the token of a piece is the whole of its region. -/
def Cause.isWhole : Cause → Bool
  | .overtaken _ | .overtakenOpen _ | .openOutput => false
  | _ => true

/-- Whether a piece began as an output and was taken for a tag. -/
def Cause.isOvertaken : Cause → Bool
  | .overtaken _ | .overtakenOpen _ => true
  | _ => false

namespace Piece

/-- The number of bytes of the region of a piece that its token leaves out. -/
def loss (piece : Piece) : Nat :=
  match piece.cause with
  | .overtaken distance | .overtakenOpen distance => distance
  | .openOutput => piece.region.length - 2
  | _ => 0

/-- The number of bytes that the tokens of pieces leave out together. -/
def totalLoss : List Piece → Nat
  | [] => 0
  | piece :: pieces => piece.loss + totalLoss pieces

/-- Nothing is left out together exactly if no piece leaves anything out. Losses are natural numbers
and cannot make up for one another. -/
theorem totalLoss_eq_zero_iff {pieces : List Piece} :
    totalLoss pieces = 0 ↔ ∀ piece ∈ pieces, piece.loss = 0 := by
  induction pieces with
  | nil => simp [totalLoss]
  | cons piece pieces inductionHypothesis =>
    rw [totalLoss, Nat.add_eq_zero_iff, inductionHypothesis, List.forall_mem_cons]

end Piece

/-- How the token made of the bytes of `source` from `start` up to `stop` is related to them. -/
inductive Accounted (source : Bytes) (start stop : Nat) : Cause → Token → Prop where
  /-- The token is all of the bytes. -/
  | whole {cause : Cause} {token : Token} (kept : cause.isWhole = true)
      (same : token.bytes = source.slice start stop) : Accounted source start stop cause token
  /-- An output is opened at `start`, a tag opener overtakes it `distance` bytes later, and the
  first closer of a tag behind that ends at `stop`. The token is the front of the bytes without as
  many as the distance. -/
  | overtaken {distance : Nat} {token : Token}
      (ordered : 2 ≤ distance ∧ start + distance + 4 ≤ stop)
      (opens : source.slice start (start + 2) = Bytes.outputOpener)
      (complete : Output.Body Bytes.tagOpener (source.slice (start + 2) (start + distance)))
      (overtakes : source.slice (start + distance) (start + distance + 2) = Bytes.tagOpener)
      (clean : ¬ Bytes.tagCloser <:+: source.slice (start + distance + 2) (stop - 2))
      (closes : source.slice (stop - 2) stop = Bytes.tagCloser)
      (shortened : token.bytes = source.slice start (stop - distance)) :
      Accounted source start stop (.overtaken distance) token
  /-- An output is opened at `start`, a tag opener overtakes it `distance` bytes later and ends at
  `stop`, and no closer of a tag follows. The token is that opener, the last two bytes. -/
  | overtakenOpen {distance : Nat} {token : Token}
      (ordered : 2 ≤ distance ∧ start + distance + 2 = stop)
      (opens : source.slice start (start + 2) = Bytes.outputOpener)
      (complete : Output.Body Bytes.tagOpener (source.slice (start + 2) (start + distance)))
      (overtakes : source.slice (start + distance) stop = Bytes.tagOpener)
      (unclosed : ¬ Bytes.tagCloser <:+: source.drop stop)
      (shortened : token.bytes = source.slice (stop - 2) stop) :
      Accounted source start stop (.overtakenOpen distance) token
  /-- An output is opened at `start` and does not end, and `stop` is the end of the source. The
  token is its opener, the first two bytes. -/
  | openOutput {token : Token} (last : stop = source.length)
      (opens : source.slice start (start + 2) = Bytes.outputOpener)
      (endless : Output.Endless (source.drop (start + 2)))
      (shortened : token.bytes = source.slice start (start + 2)) :
      Accounted source start stop .openOutput token

/-- The part of a string between two others is the slice at its place. A rule of carving names the
parts of what is left, and the account of a token is given in offsets into the source; this is the
way from one to the other. -/
theorem Bytes.slice_of_cut {source middle : Bytes} {start stop : Nat} (front back : Bytes)
    (cut : source = front ++ (middle ++ back)) (starts : front.length = start)
    (stops : start + middle.length = stop) : source.slice start stop = middle := by
  rw [cut, slice, List.drop_left' starts, List.take_left' (by omega)]

/-- The places of the opener of an output, of its body and of the two bytes behind the body. -/
theorem Bytes.slices_of_output {source follow : Bytes} (front body back : Bytes)
    (cut : source = front ++ (outputOpener ++ (body ++ follow) ++ back))
    (short : follow.length = 2) :
    source.slice front.length (front.length + 2) = outputOpener ∧
    source.slice (front.length + 2) (front.length + (body.length + 2)) = body ∧
    source.slice (front.length + (body.length + 2)) (front.length + (body.length + 2) + 2) =
      follow := by
  refine ⟨?_, ?_, ?_⟩
  · exact slice_of_cut front (body ++ follow ++ back) (by simp [cut]) rfl rfl
  · exact slice_of_cut (front ++ outputOpener) (follow ++ back) (by simp [cut]) (by simp) (by omega)
  · refine slice_of_cut (front ++ outputOpener ++ body) back (by simp [cut]) ?_ (by omega)
    simp only [List.length_append, List.length_cons, List.length_nil]
    omega

/-- A piece whose token is its region is accounted for. A tag without a closer is such a piece too,
since its region is its opener alone. -/
theorem Accounted.of_whole {cause : Cause} (kept : cause.isWhole = true)
    (front region rest : Bytes) :
    Accounted (front ++ (region ++ rest)) front.length (front.length + region.length) cause
      ⟨region⟩ :=
  .whole kept (Bytes.slice_of_cut front rest rfl rfl rfl).symm

/-- An output overtaken by a tag with a closer is accounted for. The token begins where the output
does and has as many bytes as the tag. -/
theorem Accounted.of_overtaken {body inner : Bytes} (complete : Output.Body Bytes.tagOpener body)
    (clean : ¬ Bytes.tagCloser <:+: inner) (front rest : Bytes) :
    let region := Bytes.outputOpener ++ (body ++ Bytes.tagOpener) ++ (inner ++ Bytes.tagCloser)
    Accounted (front ++ (region ++ rest)) front.length (front.length + region.length)
      (.overtaken (body.length + 2)) ⟨region.take (inner.length + 4)⟩ := by
  intro region
  have size : region.length = body.length + inner.length + 6 := by
    simp only [region, List.length_append, List.length_cons, List.length_nil]
    omega
  have cut : front ++ (region ++ rest) = front ++ (Bytes.outputOpener ++
      (body ++ Bytes.tagOpener) ++ (inner ++ Bytes.tagCloser ++ rest)) := by
    simp [region]
  obtain ⟨opens, sameBody, overtakes⟩ := Bytes.slices_of_output front body _ cut rfl
  have sameInner : (front ++ (region ++ rest)).slice (front.length + (body.length + 2) + 2)
      (front.length + region.length - 2) = inner := by
    refine Bytes.slice_of_cut
      (front ++ (Bytes.outputOpener ++ (body ++ Bytes.tagOpener))) (Bytes.tagCloser ++ rest)
      (by simp [region]) ?_ (by omega)
    simp only [List.length_append, List.length_cons, List.length_nil]
    omega
  have closes : (front ++ (region ++ rest)).slice (front.length + region.length - 2)
      (front.length + region.length) = Bytes.tagCloser := by
    refine Bytes.slice_of_cut
      (front ++ (Bytes.outputOpener ++ (body ++ Bytes.tagOpener)) ++ inner) rest
      (by simp [region]) ?_ (by simp only [List.length_cons, List.length_nil]; omega)
    simp only [List.length_append, List.length_cons, List.length_nil]
    omega
  refine .overtaken ⟨by omega, by omega⟩ opens (by rwa [sameBody]) overtakes (by rwa [sameInner])
    closes ?_
  have kept : front.length + region.length - (body.length + 2) - front.length =
      inner.length + 4 := by
    omega
  rw [Bytes.slice, List.drop_left, kept]
  exact (List.take_append_of_le_length (by omega)).symm

/-- An output overtaken by a tag without a closer is accounted for. The region goes up to the end of
the tag opener, and the token is no more than the tag opener. -/
theorem Accounted.of_overtakenOpen {body rest : Bytes}
    (complete : Output.Body Bytes.tagOpener body) (unclosed : ¬ Bytes.tagCloser <:+: rest)
    (front : Bytes) :
    let region := Bytes.outputOpener ++ (body ++ Bytes.tagOpener)
    Accounted (front ++ (region ++ rest)) front.length (front.length + region.length)
      (.overtakenOpen (body.length + 2)) ⟨Bytes.tagOpener⟩ := by
  intro region
  have stop : front.length + region.length = front.length + (body.length + 2) + 2 := by
    simp only [region, List.length_append, List.length_cons, List.length_nil]
    omega
  have behind : (front ++ (region ++ rest)).drop (front.length + region.length) = rest := by
    rw [← List.append_assoc, List.drop_left' (by simp)]
  have cut : front ++ (region ++ rest) =
      front ++ (Bytes.outputOpener ++ (body ++ Bytes.tagOpener) ++ rest) := rfl
  obtain ⟨opens, sameBody, overtakes⟩ := Bytes.slices_of_output front body rest cut rfl
  refine .overtakenOpen ⟨by omega, stop.symm⟩ opens (sameBody.symm ▸ complete) (stop ▸ overtakes)
    (by rwa [behind]) ?_
  rw [stop, Nat.add_sub_cancel]
  exact overtakes.symm

/-- An output that does not end is accounted for. The region goes to the end of the source and the
token is the opener, so nothing is lost exactly if the opener is all there is. -/
theorem Accounted.of_openOutput {rest : Bytes} (endless : Output.Endless rest) (front : Bytes) :
    let region := Bytes.outputOpener ++ rest
    Accounted (front ++ region) front.length (front.length + region.length) .openOutput
      ⟨Bytes.outputOpener⟩ := by
  intro region
  have opens : (front ++ region).slice front.length (front.length + 2) = Bytes.outputOpener :=
    Bytes.slice_of_cut front rest rfl rfl rfl
  have behind : (front ++ region).drop (front.length + 2) = rest := by
    rw [← List.append_assoc, List.drop_left' (by simp)]
  exact .openOutput (by simp) opens (by rwa [behind]) opens.symm

/-- A carving accounts for its token. The front is any bytes whatever, so a piece is accounted for
wherever in a template it is carved off. -/
theorem Carving.accounted {encoding : Encoding} {context : Context} {bytes : Bytes} {step : Step}
    (carving : Carving encoding context bytes step) (front : Bytes) :
    Accounted (front ++ bytes) front.length (front.length + step.piece.region.length)
      step.piece.cause step.piece.token := by
  induction carving with
  | text | tag | output | raw => exact .of_whole rfl front _ _
  | openTag => exact .of_whole rfl front _ _
  | @openRaw content endless =>
    have all := Accounted.of_whole (rfl : Cause.openRaw.isWhole = true) front content []
    rwa [List.append_nil] at all
  | overtaken complete clean => exact .of_overtaken complete clean front _
  | overtakenOpen complete unclosed => exact .of_overtakenOpen complete unclosed front
  | openOutput endless => exact .of_openOutput endless front
  | endRaw _ _ inductionHypothesis => exact inductionHypothesis

/-- What the token of a piece leaves out of its region is the loss. It is stated as a sum because
the subtraction would say nothing of a token longer than its region. -/
theorem Carving.token_length_add_loss {encoding : Encoding} {context : Context} {bytes : Bytes}
    {step : Step} (carving : Carving encoding context bytes step) :
    step.piece.token.length + step.piece.loss = step.piece.region.length := by
  induction carving with
  | text | tag | openTag | output | openRaw | raw => rfl
  | overtaken =>
    simp only [Token.length, Piece.loss, List.length_take, List.length_append, List.length_cons,
      List.length_nil]
    omega
  | overtakenOpen => simp +arith [Token.length, Piece.loss]
  | openOutput => simp +arith [Token.length, Piece.loss]
  | endRaw _ _ inductionHypothesis => exact inductionHypothesis

/-- Nothing is lost exactly if no output was overtaken and none without an end has more than its
opener. -/
theorem Carving.loss_eq_zero_iff {encoding : Encoding} {context : Context} {bytes : Bytes}
    {step : Step} (carving : Carving encoding context bytes step) :
    step.piece.loss = 0 ↔ step.piece.cause.isOvertaken = false ∧
      (step.piece.cause = .openOutput → step.piece.region = Bytes.outputOpener) := by
  induction carving with
  | text | tag | openTag | output | openRaw | raw =>
    simp [Piece.whole, Piece.loss, Cause.isOvertaken]
  | overtaken | overtakenOpen => simp [Piece.loss, Cause.isOvertaken]
  | openOutput => simp [Piece.loss, Cause.isOvertaken]
  | endRaw _ _ inductionHypothesis => exact inductionHypothesis

/-- Where nothing is lost the token is the region. The lengths agree, and a token that is not a
front of its region is shorter than it. -/
theorem Carving.token_eq_region {encoding : Encoding} {context : Context} {bytes : Bytes}
    {step : Step} (carving : Carving encoding context bytes step) (lossless : step.piece.loss = 0) :
    step.piece.token.bytes = step.piece.region := by
  induction carving with
  | text | tag | openTag | output | openRaw | raw => rfl
  | overtaken | overtakenOpen => exact absurd lossless (by simp [Piece.loss])
  | openOutput => simpa [Piece.loss, eq_comm] using lossless
  | endRaw _ _ inductionHypothesis => exact inductionHypothesis lossless

/-- Every piece of a course is carved off behind the regions of those before it. Both the context
and the step are found with it, and the bytes behind are those from that offset on. -/
theorem Course.exists_carving {encoding : Encoding} {context : Context} {bytes : Bytes}
    {before after : List Piece} {piece : Piece}
    (course : Course encoding context bytes (before ++ piece :: after)) :
    ∃ front rest within step, bytes = front ++ rest ∧ front.length = Piece.extent before ∧
      step.piece = piece ∧ Carving encoding within rest step := by
  obtain ⟨front, rest, within, next, cut, length, carving, -⟩ := course.exists_cut
  exact ⟨front, _, within, _, cut, length, rfl, carving⟩

/-- Every piece of a course is carved off at some point. -/
theorem Course.exists_carving_of_mem {encoding : Encoding} {context : Context} {bytes : Bytes}
    {carved : List Piece} (course : Course encoding context bytes carved) {piece : Piece}
    (member : piece ∈ carved) :
    ∃ rest within step, step.piece = piece ∧ Carving encoding within rest step := by
  obtain ⟨before, after, rfl⟩ := List.append_of_mem member
  obtain ⟨-, rest, within, step, -, -, same, carving⟩ := course.exists_carving
  exact ⟨rest, within, step, same, carving⟩

/-- The bytes scanned are the bytes of the tokens and those lost. The sum is over all pieces, so it
also counts a tail that was dropped behind an output without an end. -/
theorem Course.length_eq {encoding : Encoding} {context : Context} {bytes : Bytes}
    {carved : List Piece} (course : Course encoding context bytes carved) :
    bytes.length = (carved.flatMap (·.token.bytes)).length + Piece.totalLoss carved := by
  induction course with
  | done => rfl
  | step carving tail inductionHypothesis =>
    have kept := carving.token_length_add_loss
    rw [Token.length] at kept
    simp only [List.length_append, List.flatMap_cons, Piece.totalLoss]
    omega

/-- The tokens of a course joined are the bytes scanned exactly if no piece loses any. From left to
right the lengths are compared, because a token need not be a front of its region. -/
theorem Course.tokens_flatten_iff {encoding : Encoding} {context : Context} {bytes : Bytes}
    {carved : List Piece} (course : Course encoding context bytes carved) :
    carved.flatMap (·.token.bytes) = bytes ↔ ∀ piece ∈ carved, piece.loss = 0 := by
  constructor
  · intro joined
    have accounted := course.length_eq
    rw [joined] at accounted
    exact Piece.totalLoss_eq_zero_iff.mp (by omega)
  · intro lossless
    rw [← course.regions_flatten, List.flatMap_def, List.flatMap_def]
    apply congrArg List.flatten
    apply List.map_congr_left
    intro piece member
    obtain ⟨rest, within, step, rfl, carving⟩ := course.exists_carving_of_mem member
    exact carving.token_eq_region (lossless step.piece member)

/-- The whole of a template is accounted for. Its tokens are those of its pieces, whose regions lie
one behind the other from the start to the end of the template. Every token is related to the bytes
of its region as `Accounted` says. What is missing from the tokens is what the overtaken outputs
lose, their distances, and what an output without an end loses, the bytes behind its opener. The
tokens joined are the template exactly if no output was overtaken and none without an end has any
bytes behind its opener: a bare opener at the end of a template is kept whole.

Proof: cut the template in front of each piece and read what the carving there says of its region
and its token. The lengths add up over the course of the scan, and a sum of losses is zero exactly
if each of them is. -/
theorem tokens_account_for_template {settings : Settings} {template : Template}
    {stream : TokenStream} (markup : settings.forLiquidTag = false)
    (accepted : TokenStream.ofTemplate settings template = .ok stream) :
    let carved := (Scan.ofTemplate template).pieces
    stream.pending = carved.map Piece.token ∧
    Piece.extent carved = template.length ∧
    (∀ before piece after, carved = before ++ piece :: after →
      let start := Piece.extent before
      let stop := start + piece.region.length
      piece.region = template.bytes.slice start stop ∧
      Accounted template.bytes start stop piece.cause piece.token) ∧
    template.length =
      (stream.pending.flatMap Token.bytes).length + Piece.totalLoss carved ∧
    (stream.pending.flatMap Token.bytes = template.bytes ↔
      ∀ piece ∈ carved, piece.cause.isOvertaken = false ∧
        (piece.cause = .openOutput → piece.region = Bytes.outputOpener)) := by
  obtain ⟨carvedAll, sameTokens⟩ := TokenStream.pending_of_accepted markup accepted
  have course : Course template.encoding .markup template.bytes template.uncheckedPieces :=
    course_pieces template.encoding .markup template.bytes
  intro carved
  rw [show carved = template.uncheckedPieces from carvedAll, sameTokens]
  refine ⟨rfl, ?_, ?_, ?_, ?_⟩
  · exact course.extent_eq
  · intro before piece after cut
    rw [cut] at course
    obtain ⟨front, bytes, within, step, source, length, rfl, carving⟩ := course.exists_carving
    obtain ⟨rest, rfl⟩ := carving.exists_rest
    rw [source, ← length]
    exact ⟨(Bytes.slice_of_cut front rest rfl rfl rfl).symm, carving.accounted front⟩
  · rw [List.flatMap_map]
    exact course.length_eq
  · rw [List.flatMap_map, course.tokens_flatten_iff]
    apply forall₂_congr
    intro piece member
    obtain ⟨rest, within, step, rfl, carving⟩ := course.exists_carving_of_mem member
    exact carving.loss_eq_zero_iff

/-- In `{{a{%b%}{{c` an output is overtaken by a tag three bytes behind its opener, and another does
not end. Four bytes of eleven are lost. -/
theorem tokens_account_for_overtaken_output :
    let template := Template.utf8
      [0x7b, 0x7b, 0x61, 0x7b, 0x25, 0x62, 0x25, 0x7d, 0x7b, 0x7b, 0x63]
    let stream := TokenStream.ofTokens {} [⟨[0x7b, 0x7b, 0x61, 0x7b, 0x25]⟩, ⟨[0x7b, 0x7b]⟩]
    TokenStream.ofTemplate {} template = .ok stream ∧
    Piece.extent (Scan.ofTemplate template).pieces = 11 ∧
    Piece.totalLoss (Scan.ofTemplate template).pieces = 4 ∧
    ¬ ∀ piece ∈ (Scan.ofTemplate template).pieces, piece.cause.isOvertaken = false ∧
      (piece.cause = .openOutput → piece.region = Bytes.outputOpener) := by
  intro template stream
  have accepted : TokenStream.ofTemplate {} template = .ok stream := by decide +kernel
  obtain ⟨-, extent, -, lengths, joined⟩ :=
    @tokens_account_for_template {} template stream rfl accepted
  refine ⟨accepted, extent, ?_, mt joined.mpr (by decide)⟩
  have kept : (stream.pending.flatMap Token.bytes).length = 7 := rfl
  have size : template.length = 11 := rfl
  omega

end TemplateTokens
