import TemplateTokens.Proofs.Boundaries
import TemplateTokens.Proofs.Conservation
import TemplateTokens.Proofs.Lines

/-!
# Tokens of text

A scan works on bytes and knows nothing of characters, and a backslash in a string can take a single
byte of a longer character along. Still it cuts a template only in front of an opener, behind a
closer or an opener, and at the end, where an ASCII byte stands next to the cut or nothing follows
it (`Carving.nextToAscii`). A template that is text therefore falls into regions that are text.
Their tokens are text as well, except that the token of an output overtaken by a tag with a closer
ends after a number of bytes, wherever that may be.
-/

namespace TemplateTokens

/-- A cut lies at an end, behind an ASCII byte or in front of one. -/
inductive NextToAscii : Bytes → Bytes → Prop where
  /-- Nothing is in front. -/
  | atStart (back : Bytes) : NextToAscii [] back
  /-- Nothing is behind. -/
  | atEnd (front : Bytes) : NextToAscii front []
  /-- An ASCII byte is in front. -/
  | behind {front back : Bytes} {byte : UInt8} (last : front.getLast? = some byte)
      (ascii : byte < 0x80) : NextToAscii front back
  /-- An ASCII byte is behind. -/
  | before {front back : Bytes} {byte : UInt8} (first : back.head? = some byte)
      (ascii : byte < 0x80) : NextToAscii front back

/-- Text is cut into text next to an ASCII byte. The ASCII byte may stand on either side of the cut,
and one of the two sides may be empty instead. -/
theorem Encoding.Sound.cut {front back : Bytes} (sound : utf8.Sound (front ++ back))
    (nextToAscii : NextToAscii front back) : utf8.Sound front ∧ utf8.Sound back := by
  have boundary : Utf8.IsBoundary (front ++ back) front.length := by
    cases nextToAscii with
    | atStart back =>
      have empty : utf8.firstFault? [] = none := by decide +kernel
      exact Utf8.isBoundary_of_sound back empty
    | atEnd front =>
      rw [List.append_nil] at sound
      exact Utf8.isBoundary_of_sound [] sound
    | behind last ascii =>
      obtain ⟨before, rfl⟩ := List.getLast?_eq_some_iff.mp last
      rw [List.length_append, List.append_assoc]
      exact Utf8.isBoundary_behind_ascii before back ascii
    | before first ascii =>
      obtain ⟨rest, rfl⟩ := List.head?_eq_some_iff.mp first
      exact Utf8.isBoundary_before_ascii front rest ascii
  exact Utf8.sound_cut sound boundary

/-- A step cuts next to an ASCII byte. Markers are ASCII, and a region ends with one, in front of
one, or at the end of the bytes. -/
theorem Carving.nextToAscii {encoding : Encoding} {context : Context} {bytes rest : Bytes}
    {step : Step} (carving : Carving encoding context bytes step)
    (cut : bytes = step.piece.region ++ rest) : NextToAscii step.piece.region rest := by
  have closes : Bytes.closeBrace < 0x80 := by decide
  have opens : Bytes.openBrace < 0x80 := by decide
  have shields : Bytes.percent < 0x80 := by decide
  induction carving with
  | @text front follow nonempty plain stops =>
    obtain rfl : follow = rest := List.append_cancel_left cut
    rcases stops with rfl | ⟨tail, rfl⟩ | ⟨tail, rfl⟩
    · exact .atEnd _
    · exact .before rfl opens
    · exact .before rfl opens
  | tag | output | overtaken =>
    apply NextToAscii.behind _ closes
    simp [Piece.whole, List.getLast?_cons, List.getLast?_append]
  | openTag | overtakenOpen =>
    apply NextToAscii.behind _ shields
    simp [Piece.whole, List.getLast?_cons, List.getLast?_append]
  | openOutput | openRaw =>
    obtain rfl : rest = [] := List.self_eq_append_right.mp cut
    exact .atEnd _
  | @raw content follow nonempty inside ends =>
    obtain rfl : follow = rest := List.append_cancel_left cut
    obtain ⟨body, rfl⟩ := tagOpener_prefix_of_endsRaw ends
    exact .before rfl opens
  | endRaw _ _ inductionHypothesis => exact inductionHypothesis cut

/-- A token is the front of its region or one of the two openers. The window of an overtaken output
is the exception, because it ends where a number of bytes is used up and not at a marker. -/
theorem Carving.token_sound {encoding : Encoding} {context : Context} {bytes : Bytes} {step : Step}
    (carving : Carving encoding context bytes step)
    (sound : Encoding.utf8.Sound step.piece.region)
    (noWindow : ∀ distance, step.piece.cause ≠ .overtaken distance) :
    Encoding.utf8.Sound step.piece.token.bytes := by
  induction carving with
  | text | tag | openTag | output | openRaw | raw => exact sound
  | @overtaken body => exact absurd rfl (noWindow (body.length + 2))
  | overtakenOpen =>
    change Encoding.utf8.firstFault? Bytes.tagOpener = none
    decide +kernel
  | openOutput =>
    change Encoding.utf8.firstFault? Bytes.outputOpener = none
    decide +kernel
  | endRaw _ _ inductionHypothesis => exact inductionHypothesis sound noWindow

/-- The region of an output overtaken by a tag with a closer ends with that tag. The token is the
front of the region, of the length of the tag. -/
theorem Carving.exists_window {encoding : Encoding} {context : Context} {bytes : Bytes}
    {step : Step} (carving : Carving encoding context bytes step) {distance : Nat}
    (window : step.piece.cause = .overtaken distance) :
    ∃ inner tail,
      step.piece.region.drop distance = Bytes.tagOpener ++ (inner ++ Bytes.tagCloser) ∧
      ¬Bytes.tagCloser <:+: inner ∧ step.piece.region = step.piece.token.bytes ++ tail ∧
      step.piece.token.bytes.length = inner.length + 4 := by
  induction carving with
  | @overtaken body inner rest complete clean =>
    obtain rfl : body.length + 2 = distance := by simpa using window
    refine ⟨inner, _, ?_, clean, (List.take_append_drop _ _).symm, ?_⟩
    · rw [List.append_assoc, List.append_assoc, ← List.append_assoc Bytes.outputOpener]
      exact List.drop_left' (by simp +arith)
    · simp only [List.length_take, List.length_append, List.length_cons, List.length_nil]
      omega
  | endRaw _ _ inductionHypothesis => exact inductionHypothesis window
  | _ => exact absurd window (by simp [Piece.whole])

/-- The pieces of text are carved off text behind text. The parts in front of the piece and behind
it are text because the cuts are made next to ASCII bytes. -/
theorem Course.exists_sound_carving {encoding : Encoding} {context : Context} {bytes : Bytes}
    {before after : List Piece} {piece : Piece}
    (course : Course encoding context bytes (before ++ piece :: after))
    (sound : Encoding.utf8.Sound bytes) :
    ∃ front rest within step, bytes = front ++ (step.piece.region ++ rest) ∧
      front.length = Piece.extent before ∧ step.piece = piece ∧
      Carving encoding within (step.piece.region ++ rest) step ∧
      Encoding.utf8.Sound front ∧ Encoding.utf8.Sound step.piece.region := by
  induction before generalizing context bytes with
  | nil =>
    cases course with
    | step carving tail =>
      have empty : Encoding.utf8.firstFault? [] = none := by decide +kernel
      exact ⟨[], _, _, _, rfl, rfl, rfl, carving, empty, (sound.cut (carving.nextToAscii rfl)).1⟩
  | cons first before inductionHypothesis =>
    cases course with
    | step carving tail =>
      obtain ⟨here, behind⟩ := sound.cut (carving.nextToAscii rfl)
      obtain ⟨front, rest, within, step, rfl, length, rfl, later, soundFront, soundRegion⟩ :=
        inductionHypothesis tail behind
      refine ⟨_ ++ front, rest, within, step, (List.append_assoc _ _ _).symm, ?_, rfl, later,
        Utf8.firstIllFormed?_append here soundFront, soundRegion⟩
      simp [length, Piece.extent]

/-- The lines of text are text. They are cut at line ends, which are ASCII. -/
theorem Bytes.sound_of_mem_lines {bytes line : Bytes} (sound : Encoding.utf8.Sound bytes)
    (member : line ∈ bytes.lines) : Encoding.utf8.Sound line := by
  obtain ⟨before, after, cut⟩ := List.append_of_mem member
  obtain ⟨rest, source, follows⟩ := Bytes.lines_cut cut
  have newlineAscii : Bytes.newline < 0x80 := by decide
  have seamBefore : NextToAscii (withLineEnds before) (line ++ rest) := by
    rcases List.eq_nil_or_concat before with rfl | ⟨earlier, last, rfl⟩
    · exact .atStart _
    · have ends : (withLineEnds (earlier ++ [last])).getLast? = some Bytes.newline := by
        simp [withLineEnds, List.getLast?_append]
      exact .behind (by simpa using ends) newlineAscii
  have seamBehind : NextToAscii line rest := by
    rcases follows with rfl | ⟨later, rfl⟩
    · exact .atEnd line
    · exact .before rfl newlineAscii
  rw [source] at sound
  exact ((sound.cut seamBefore).2.cut seamBehind).1

namespace TokenStream

/-- The tokens of a template that is text. In the body of a `liquid` tag they are all text.
Otherwise every token is text but that of an output overtaken by a tag with a closer. Such a token
has as many bytes as are behind the tag opener, and two more. It is text exactly if it ends at a
boundary between characters of the template. A template declared to be the UTF-8 that it is, is
always accepted.

Proof: every piece begins at a boundary, because the piece before it ends with ASCII or in front of
ASCII, and so does every region. A token that is its region is text therefore; a bare opener is
ASCII; and the token of an overtaken output is the front of a text, which is text exactly if it is
cut at a boundary. The lines of a body are cut at newlines, which are ASCII as well. -/
theorem tokens_of_text {settings : Settings} {template : Template}
    (sound : Encoding.utf8.Sound template.bytes) :
    (template.encoding = .utf8 → ∃ stream, ofTemplate settings template = .ok stream) ∧
    ∀ stream, ofTemplate settings template = .ok stream →
      if settings.forLiquidTag then ∀ token ∈ stream.pending, token.text?.isSome
      else
        stream.pending = (Scan.ofTemplate template).pieces.map Piece.token ∧
        ∀ before piece after,
          (Scan.ofTemplate template).pieces = before ++ piece :: after →
            let start := Piece.extent before
            piece.region <+: template.bytes.drop start ∧
            ((∀ distance, piece.cause ≠ .overtaken distance) → piece.token.text?.isSome) ∧
            ∀ distance, piece.cause = .overtaken distance →
              ∃ inner, piece.region.drop distance =
                  Bytes.tagOpener ++ (inner ++ Bytes.tagCloser) ∧
                ¬Bytes.tagCloser <:+: inner ∧
                let consumed := inner.length + 2
                piece.token.bytes = template.bytes.slice start (start + consumed + 2) ∧
                (piece.token.text?.isSome ↔
                  Utf8.IsBoundary template.bytes (start + consumed + 2)) := by
  constructor
  · intro declared
    exact exists_ofTemplate_of_sound settings (by rwa [declared])
  intro stream accepted
  cases mode : settings.forLiquidTag with
  | true =>
    rw [if_pos rfl]
    intro token member
    have made := Except.ok.inj ((ofTemplate_of_liquidTag template mode).symm.trans accepted)
    rw [← made] at member
    obtain ⟨line, among, rfl⟩ := List.mem_map.mp member
    exact Utf8.text?_isSome_iff.mpr (Bytes.sound_of_mem_lines sound among)
  | false =>
    rw [if_neg (by simp)]
    obtain ⟨carvedAll, sameTokens⟩ := pending_of_accepted mode accepted
    refine ⟨by rw [carvedAll, sameTokens], ?_⟩
    intro before piece after cut start
    have course := course_pieces template.encoding .markup template.bytes
    rw [carvedAll, Template.uncheckedPieces] at cut
    rw [cut] at course
    obtain ⟨front, rest, within, step, source, length, rfl, carving, soundFront, soundRegion⟩ :=
      course.exists_sound_carving sound
    refine ⟨?_, ?_, ?_⟩
    · rw [source, List.drop_left' length]
      exact List.prefix_append step.piece.region rest
    · intro noWindow
      exact Utf8.text?_isSome_iff.mpr (carving.token_sound soundRegion noWindow)
    · intro distance window
      obtain ⟨inner, tail, tag, clean, region, tokenLength⟩ := carving.exists_window window
      refine ⟨inner, tag, clean, ?_⟩
      intro consumed
      -- Behind the token stand what is left of its region and what is left of the template.
      have whole : template.bytes = front ++ (step.piece.token.bytes ++ (tail ++ rest)) := by
        rw [source, region, List.append_assoc]
      have place : front.length + step.piece.token.bytes.length = start + consumed + 2 := by
        rw [length, tokenLength]
        rfl
      constructor
      · exact (Bytes.slice_of_cut front (tail ++ rest) whole length (length ▸ place)).symm
      · rw [← place, whole, Token.text?, Utf8.text?_isSome_iff]
        exact Utf8.sound_iff_isBoundary soundFront (whole ▸ sound)

/-- In `{{aé{%%}` a tag overtakes an output. The one token ends within the `é`, where there is no
boundary, and is not text. -/
theorem tokens_of_text_cut_inside_character :
    let template := Template.utf8 [0x7b, 0x7b, 0x61, 0xc3, 0xa9, 0x7b, 0x25, 0x25, 0x7d]
    let token : Token := ⟨[0x7b, 0x7b, 0x61, 0xc3]⟩
    ofTemplate {} template = .ok (ofTokens {} [token]) ∧ token.text? = none ∧
    ¬Utf8.IsBoundary template.bytes 4 := by
  intro template token
  have sound : Encoding.utf8.Sound template.bytes := by
    change Encoding.utf8.firstFault? _ = none
    decide +kernel
  have accepted : ofTemplate {} template = .ok (ofTokens {} [token]) := by decide +kernel
  have carved :
      (Scan.ofTemplate template).pieces = [⟨.overtaken 5, template.bytes, token⟩] := by
    decide +kernel
  have notText : token.text? = none := by decide +kernel
  have tokens := (@tokens_of_text {} template sound).2 _ accepted
  rw [if_neg (by decide)] at tokens
  obtain ⟨inner, tag, -, -, text⟩ := (tokens.2 [] _ [] carved).2.2 5 rfl
  have lengths := congrArg List.length tag
  have short : inner.length = 0 := by simpa [template, Template.utf8] using lengths.symm
  refine ⟨accepted, notText, fun boundary => ?_⟩
  have isText := text.mpr (by rwa [short])
  rw [notText] at isText
  exact absurd isText (by decide)

end TokenStream

end TemplateTokens
