import TemplateTokens.Proofs.TextTokens
import TemplateTokens.Proofs.Waypoints

/-!
# Tags without a closer

A tag without a closer is its bare opener, and a scan goes on right behind that. What stands there
is scanned as a template of its own, unless it leads with `raw`: then it is the content of a raw
block.

The closer of a tag is sought up to the end of the template. A tag without one therefore has no tag
with one behind it: over a whole scan, tags have a closer up to some piece and none from there on.
-/

namespace TemplateTokens

/-- What follows an ASCII byte in a sound string is sound. It holds in every encoding, since no
encoding has ASCII bytes inside of longer characters. -/
theorem Encoding.Sound.behind {encoding : Encoding} {front back : Bytes} {byte : UInt8}
    (sound : encoding.Sound (front ++ back)) (last : front.getLast? = some byte)
    (ascii : byte < 0x80) : encoding.Sound back := by
  cases encoding with
  | utf8 => exact (sound.cut (.behind last ascii)).2
  | ascii =>
    simp only [Sound, firstFault?, List.findIdx?_eq_none_iff] at sound ⊢
    intro other member
    exact sound other (List.mem_append_right front member)
  | binary => rfl

/-- What follows the opener of a tag in a sound template is sound. -/
theorem Template.sound_drop_of_opened {template : Template} {start : Nat}
    (sound : template.encoding.Sound template.bytes)
    (opened : Bytes.tagOpener <+: template.bytes.drop start) :
    template.encoding.Sound (template.bytes.drop (start + 2)) := by
  obtain ⟨body, cut⟩ := opened
  have remaining : template.bytes.drop (start + 2) = body := Bytes.drop_of_cut cut.symm
  have whole : template.bytes = template.bytes.take start ++ Bytes.tagOpener ++ body := by
    rw [List.append_assoc, cut, List.take_append_drop]
  rw [whole] at sound
  rw [remaining]
  exact sound.behind (by simp [List.getLast?_append]) (by decide : Bytes.percent < 0x80)

/-- No tag is opened where a body leads with `raw`. The first byte of a body that leads with the
keyword is a dash, a space or its first letter. -/
theorem Keyword.not_tagOpener_of_raw {encoding : Encoding} {body : Bytes}
    (leads : raw.leads encoding body = true) : ¬ Bytes.tagOpener <+: body := by
  rintro ⟨rest, rfl⟩
  have margin : marginLength (Bytes.tagOpener ++ rest) = 0 := rfl
  obtain ⟨⟨other, cut⟩, -⟩ := leads_iff.mp leads
  rw [margin] at cut
  exact absurd cut (by simp [raw, show ¬ (0x72 : UInt8) = Bytes.openBrace by decide])

namespace TokenStream

variable {settings : Settings} {template : Template} {carved : List Piece} {context : Context}
  {start offset : Nat}

/-- Behind a place that a scan comes to, the tokens go on with those of the pieces that are carved
off there. -/
theorem pending_of_comesTo {stream : TokenStream} (markup : settings.forLiquidTag = false)
    (accepted : ofTemplate settings template = .ok stream)
    (comes : Scan.ComesTo template carved context offset) :
    stream.pending = carved.map Piece.token ++
      (pieces template.encoding context (template.bytes.drop offset)).map Piece.token := by
  obtain ⟨-, tokens⟩ := pending_of_accepted markup accepted
  rw [tokens, comes.uncheckedPieces_eq, List.map_append]

/-- Where a scan of a sound template stands between markers behind the opener of a tag, the tokens
go on with those of a scan of what is left as a template of its own. -/
theorem exists_pending_behind_tagOpener {stream : TokenStream}
    (markup : settings.forLiquidTag = false)
    (sound : template.encoding.Sound template.bytes)
    (accepted : ofTemplate settings template = .ok stream)
    (opened : Bytes.tagOpener <+: template.bytes.drop start)
    (comes : Scan.ComesTo template carved .markup (start + 2)) :
    ∃ later, ofTemplate settings ⟨template.bytes.drop (start + 2), template.encoding⟩ = .ok later ∧
      stream.pending = carved.map Piece.token ++ later.pending :=
  ⟨_, (ofTemplate_eq_ok_iff markup).mpr ⟨.inr (Template.sound_drop_of_opened sound opened), rfl⟩,
    pending_of_comesTo markup accepted comes⟩

/-- What a tag without a closer costs. Wherever the scan of a sound template stands between markers
in front of such a tag, its token is the bare opener. If what is behind the opener does not lead
with `raw`, the tokens go on with those of a scan of it as a template of its own. If it does, it is
the content of a raw block: up to the first tag that leads with `endraw`, which has no closer
either, so that it is a bare opener too and the tokens go on with those of a scan of what is behind
that opener; or, if there is no such tag, up to the end.

Proof: no closer stands behind the opener, so the step taken there is the bare opener, and by the
keyword the scan goes on between markers or in a raw block. A scan that goes on between markers at
an offset has the tokens of a scan that begins there. In a raw block the tag that ends it has no
closer either. -/
theorem pending_of_unclosed_tag (markup : settings.forLiquidTag = false)
    (sound : template.encoding.Sound template.bytes)
    (comes : Scan.ComesTo template carved .markup start)
    (opened : Bytes.tagOpener <+: template.bytes.drop start)
    (nowhere : template.closersFrom (start + 2) = ∅) :
    ∃ stream, ofTemplate settings template = .ok stream ∧
      let earlier := carved.map Piece.token ++ [⟨Bytes.tagOpener⟩]
      let body := start + 2
      let restAt (offset : Nat) : Template := ⟨template.bytes.drop offset, template.encoding⟩
      (Keyword.raw.leads template.encoding (template.bytes.drop body) = false →
        ∃ later, ofTemplate settings (restAt body) = .ok later ∧
          stream.pending = earlier ++ later.pending) ∧
      (Keyword.raw.leads template.encoding (template.bytes.drop body) = true →
        (∀ stop, IsLeast (template.rawEndsFrom body) stop →
          ∃ later, ofTemplate settings (restAt (stop + 2)) = .ok later ∧
            stream.pending = earlier ++
              [⟨template.bytes.slice body stop⟩, ⟨Bytes.tagOpener⟩] ++ later.pending) ∧
        (template.rawEndsFrom body = ∅ →
          stream.pending = earlier ++ [⟨template.bytes.drop body⟩])) := by
  obtain ⟨stream, accepted⟩ := exists_ofTemplate_of_sound settings sound
  refine ⟨stream, accepted, ?_⟩
  intro earlier body restAt
  have tag : Scan.ComesTo template (carved ++ [.whole .openTag Bytes.tagOpener])
      (.behindTag template.encoding (template.bytes.drop body)) body :=
    comes.tag opened (Template.ofTag_of_empty opened nowhere)
  constructor
  · intro plain
    rw [Context.behindTag, if_neg (by simp [plain])] at tag
    obtain ⟨later, acceptedLater, pending⟩ :=
      exists_pending_behind_tagOpener markup sound accepted opened tag
    exact ⟨later, acceptedLater, by simpa [earlier, Piece.whole] using pending⟩
  · intro leads
    rw [Context.behindTag, if_pos leads] at tag
    constructor
    · intro stop ends
      have closingOpened := tagOpener_prefix_of_endsRaw ends.1.2
      -- What leads with `raw` does not begin with a tag, so there is content in front of this one.
      have notAtOnce : body ≠ stop := by
        rintro rfl
        exact Keyword.not_tagOpener_of_raw leads closingOpened
      have inside : body < stop := Nat.lt_of_le_of_ne ends.1.1 notAtOnce
      have closing := Template.ofTag_of_empty closingOpened
        (Template.closersFrom_eq_empty_of_le nowhere (by omega : start + 2 ≤ stop + 2))
      have behind := tag.rawContent ends closing
      rw [if_pos inside] at behind
      obtain ⟨later, acceptedLater, pending⟩ :=
        exists_pending_behind_tagOpener markup sound accepted closingOpened behind
      exact ⟨later, acceptedLater, by simpa [earlier, Piece.whole] using pending⟩
    · intro endless
      obtain ⟨samePieces, tokens⟩ := pending_of_accepted markup accepted
      rw [tokens, ← samePieces, tag.openRaw endless]
      simp [earlier, Piece.whole, body]

/-- In `{% a {{b}}` the tag has no closer, and the tokens behind its opener are those of ` a
{{b}}`. -/
theorem pending_of_unclosed_tag_in_front_of_output :
    let text : Bytes := [0x20, 0x61, 0x20]
    let output : Bytes := [0x7b, 0x7b, 0x62, 0x7d, 0x7d]
    let template := Template.utf8 (Bytes.tagOpener ++ text ++ output)
    template.encoding.Sound template.bytes ∧ template.closersFrom 2 = ∅ ∧
    Keyword.raw.leads template.encoding (template.bytes.drop 2) = false ∧
    ∃ stream, ofTemplate {} template = .ok stream ∧
      stream.pending = [⟨Bytes.tagOpener⟩, ⟨text⟩, ⟨output⟩] := by
  intro text output template
  have sound : template.encoding.Sound template.bytes :=
    (by decide +kernel : Utf8.firstIllFormed? template.bytes = none)
  have nowhere : template.closersFrom 2 = ∅ :=
    Template.closersFrom_eq_empty_iff.mpr (by decide +kernel)
  have plain : Keyword.raw.leads template.encoding (template.bytes.drop 2) = false := by
    decide +kernel
  have acceptedRest : ofTemplate {} (.utf8 (text ++ output)) =
      .ok (ofTokens {} [⟨text⟩, ⟨output⟩]) := by
    decide +kernel
  obtain ⟨stream, accepted, goesOn, -⟩ :=
    @pending_of_unclosed_tag {} template [] 0 rfl sound .start ⟨_, rfl⟩ nowhere
  obtain ⟨later, acceptedLater, pending⟩ := goesOn plain
  cases acceptedRest.symm.trans acceptedLater
  exact ⟨sound, nowhere, plain, stream, accepted, pending⟩

/-- Not every tag without a closer costs its opener only: in `{% raw {{x}}` what is behind the
opener is the content of a raw block, and the output in it is none. -/
theorem not_all_unclosed_tags_cost_opener :
    ¬ ∀ settings template carved start, settings.forLiquidTag = false →
      template.encoding.Sound template.bytes → Scan.ComesTo template carved .markup start →
        Bytes.tagOpener <+: template.bytes.drop start → template.closersFrom (start + 2) = ∅ →
          ∃ stream later, ofTemplate settings template = .ok stream ∧
            ofTemplate settings ⟨template.bytes.drop (start + 2), template.encoding⟩ = .ok later ∧
            stream.pending = carved.map Piece.token ++ ⟨Bytes.tagOpener⟩ :: later.pending := by
  intro all
  let text : Bytes := [0x20, 0x72, 0x61, 0x77, 0x20]
  let output : Bytes := [0x7b, 0x7b, 0x78, 0x7d, 0x7d]
  let template := Template.utf8 (Bytes.tagOpener ++ text ++ output)
  have sound : template.encoding.Sound template.bytes :=
    (by decide +kernel : Utf8.firstIllFormed? template.bytes = none)
  have nowhere : template.closersFrom 2 = ∅ :=
    Template.closersFrom_eq_empty_iff.mpr (by decide +kernel)
  have swallowed : ofTemplate {} template =
      .ok (ofTokens {} [⟨Bytes.tagOpener⟩, ⟨text ++ output⟩]) := by
    decide +kernel
  have fresh : ofTemplate {} (.utf8 (text ++ output)) =
      .ok (ofTokens {} [⟨text⟩, ⟨output⟩]) := by
    decide +kernel
  obtain ⟨stream, later, accepted, acceptedLater, pending⟩ :=
    all {} template [] 0 rfl sound .start ⟨_, rfl⟩ nowhere
  cases swallowed.symm.trans accepted
  cases fresh.symm.trans acceptedLater
  exact absurd pending (by decide)

end TokenStream

namespace Cause

/-- Whether a piece is a tag with a closer, be it that it overtook an output. -/
def isClosedTag : Cause → Bool
  | .tag | .overtaken _ => true
  | _ => false

/-- Whether a piece is a tag without a closer, be it that it overtook an output. -/
def isUnclosedTag : Cause → Bool
  | .openTag | .overtakenOpen _ => true
  | _ => false

/-- The number of bytes of a tag that are passed before its closer is sought: those up to the end of
its opener. -/
def passed? : Cause → Option Nat
  | .tag | .openTag => some 2
  | .overtaken distance | .overtakenOpen distance => some (distance + 2)
  | _ => none

/-- A tag with a closer is none without one. -/
theorem isUnclosedTag_of_isClosedTag {cause : Cause} (closed : cause.isClosedTag = true) :
    cause.isUnclosedTag = false := by
  cases cause <;> simp_all [isClosedTag, isUnclosedTag]

/-- The closer of a tag is sought for the tags that have one and for those that have none. -/
theorem passed?_ne_none_iff {cause : Cause} :
    cause.passed? ≠ none ↔ cause.isClosedTag = true ∨ cause.isUnclosedTag = true := by
  cases cause <;> simp [passed?, isClosedTag, isUnclosedTag]

end Cause

/-- The closer of a tag is sought right behind its opener, be it that the tag overtook an output. -/
theorem Carving.exists_ofTag {encoding : Encoding} {context : Context} {bytes : Bytes} {step : Step}
    (carving : Carving encoding context bytes step) {passed : Nat}
    (scans : step.piece.cause.passed? = some passed) :
    2 ≤ passed ∧ Bytes.tagOpener <+: bytes.drop (passed - 2) ∧
    ∃ closed unclosed, closed.isClosedTag = true ∧ unclosed.isUnclosedTag = true ∧
      step.piece = .ofTag closed unclosed bytes passed := by
  induction carving with
  | @tag body rest clean =>
    cases scans
    have asTag := Piece.ofTag_of_closed .tag .openTag rest (rfl : Bytes.tagOpener.length = 2)
      (Nat.le_refl 2) clean
    rw [List.take_of_length_le (by simp)] at asTag
    refine ⟨Nat.le_refl 2, ?_, .tag, .openTag, rfl, rfl, asTag.symm⟩
    rw [List.append_assoc]
    exact List.prefix_append _ _
  | @openTag rest unclosed =>
    cases scans
    have asTag := Piece.ofTag_of_unclosed .tag .openTag (rfl : Bytes.tagOpener.length = 2) unclosed
    exact ⟨Nat.le_refl 2, List.prefix_append _ _, .tag, .openTag, rfl, rfl, asTag.symm⟩
  | @overtaken body inner rest complete clean =>
    cases scans
    have length : (Bytes.outputOpener ++ (body ++ Bytes.tagOpener)).length = body.length + 4 := by
      simp
    have asTag := Piece.ofTag_of_closed (.overtaken (body.length + 2))
      (.overtakenOpen (body.length + 2)) rest length (by omega) clean
    refine ⟨by omega, ?_, _, _, rfl, rfl, asTag.symm⟩
    simp [List.append_assoc]
  | @overtakenOpen body rest complete unclosed =>
    cases scans
    have length : (Bytes.outputOpener ++ (body ++ Bytes.tagOpener)).length = body.length + 4 := by
      simp
    have asTag := Piece.ofTag_of_unclosed (.overtaken (body.length + 2))
      (.overtakenOpen (body.length + 2)) length unclosed
    refine ⟨by omega, ?_, _, _, rfl, rfl, asTag.symm⟩
    simp [List.append_assoc]
  | endRaw _ _ inductionHypothesis => exact inductionHypothesis scans
  | _ => exact absurd scans (by simp [Piece.whole, Cause.passed?])

/-- What a piece is where no closer of a tag is left. -/
structure Piece.IsCloserless (piece : Piece) : Prop where
  /-- The token has no closer of a tag in it. -/
  clean : ¬ Bytes.tagCloser <:+: piece.token.bytes
  /-- The piece is no tag with a closer. -/
  notClosed : piece.cause.isClosedTag = false
  /-- A tag is its bare opener. -/
  bare : piece.cause.isUnclosedTag = true → piece.token = ⟨Bytes.tagOpener⟩

/-- A step that has no closer of a tag in front of it carves off none. An output that is overtaken
is among these steps: the tag in it has no closer either. -/
theorem Carving.isCloserless {encoding : Encoding} {context : Context} {bytes : Bytes}
    {step : Step} (carving : Carving encoding context bytes step)
    (closerless : ¬ Bytes.tagCloser <:+: bytes) : step.piece.IsCloserless := by
  have notInTagOpener : ¬ Bytes.tagCloser <:+: Bytes.tagOpener := by decide
  have notInOutputOpener : ¬ Bytes.tagCloser <:+: Bytes.outputOpener := by decide
  induction carving with
  | text | output | raw =>
    exact ⟨fun inside => closerless (inside.trans (List.prefix_append _ _).isInfix), rfl,
      fun unclosed => absurd unclosed (by simp [Piece.whole, Cause.isUnclosedTag])⟩
  | openRaw =>
    exact ⟨closerless, rfl,
      fun unclosed => absurd unclosed (by simp [Piece.whole, Cause.isUnclosedTag])⟩
  | @tag body rest clean =>
    exact absurd ⟨Bytes.tagOpener ++ body, rest, by simp [List.append_assoc]⟩ closerless
  | @overtaken body inner rest complete clean =>
    have inside : Bytes.tagCloser <:+: Bytes.outputOpener ++ (body ++ Bytes.tagOpener) ++
        (inner ++ Bytes.tagCloser) ++ rest :=
      ⟨Bytes.outputOpener ++ (body ++ Bytes.tagOpener) ++ inner, rest, by simp [List.append_assoc]⟩
    exact absurd inside closerless
  | openTag | overtakenOpen => exact ⟨notInTagOpener, rfl, fun _ => rfl⟩
  | openOutput =>
    exact ⟨notInOutputOpener, rfl, fun unclosed => absurd unclosed (by simp [Cause.isUnclosedTag])⟩
  | endRaw _ _ inductionHypothesis => exact inductionHypothesis closerless

/-- A course that has no closer of a tag in front of it carves off none: what is behind a piece has
none either. -/
theorem Course.isCloserless {encoding : Encoding} {context : Context} {bytes : Bytes}
    {carved : List Piece} (course : Course encoding context bytes carved)
    (closerless : ¬ Bytes.tagCloser <:+: bytes) : ∀ piece ∈ carved, piece.IsCloserless := by
  induction course with
  | done => simp
  | @step context rest step later carving tail inductionHypothesis =>
    have behind : ¬ Bytes.tagCloser <:+: rest := fun inside =>
      closerless (inside.trans (List.suffix_append _ _).isInfix)
    exact List.forall_mem_cons.mpr ⟨carving.isCloserless closerless, inductionHypothesis behind⟩

namespace Template

variable {template : Template} {start passed : Nat} {closed unclosed : Cause}

/-- Where no closer stands from some offset on, what is left behind it has none in it. -/
theorem not_tagCloser_infix_of_empty (nowhere : template.closersFrom start = ∅) :
    ¬ Bytes.tagCloser <:+: template.bytes.drop start :=
  Needle.find?_literal_eq_none_iff.mp (closersFrom_eq_empty_iff.mp nowhere)

/-- A tag has a closer exactly if one stands where it is sought. Without one, what was passed is cut
off. -/
theorem ofTag_cases (template : Template) (start passed : Nat) (closed unclosed : Cause) :
    let piece := Piece.ofTag closed unclosed (template.bytes.drop start) passed
    (template.closersFrom (start + passed)).Nonempty ∧ piece.cause = closed ∨
      template.closersFrom (start + passed) = ∅ ∧ piece =
        { cause := unclosed
          region := (template.bytes.drop start).take passed
          token := ⟨Bytes.tagOpener⟩ } := by
  intro piece
  rcases (template.closersFrom (start + passed)).eq_empty_or_nonempty with nowhere | somewhere
  · exact .inr ⟨nowhere, ofTag_of_closerless closed unclosed nowhere⟩
  · refine .inl ⟨somewhere, ?_⟩
    rw [Set.nonempty_iff_ne_empty, ne_eq, closersFrom_eq_empty_iff, ← ne_eq,
      Option.ne_none_iff_exists'] at somewhere
    obtain ⟨hit, search⟩ := somewhere
    simp [piece, Piece.ofTag, search]

end Template

namespace Scan

variable {template : Template} {before after : List Piece} {piece : Piece} {context : Context}
  {offset passed : Nat}

/-- Where a scan has come to a place from which on no closer of a tag stands, it carves off nothing
that has one. -/
theorem ComesTo.isCloserless (comes : ComesTo template before context offset)
    (cut : (ofTemplate template).pieces = before ++ after)
    (nowhere : template.closersFrom offset = ∅) : ∀ later ∈ after, later.IsCloserless := by
  obtain ⟨dropped, unchecked, -⟩ := exists_dropped template
  rw [comes.uncheckedPieces_eq, cut, List.append_assoc, List.append_cancel_left_eq] at unchecked
  have course := course_pieces template.encoding context (template.bytes.drop offset)
  rw [unchecked] at course
  intro later member
  exact course.isCloserless (Template.not_tagCloser_infix_of_empty nowhere) later
    (List.mem_append_left dropped member)

/-- What comes of the search for the closer of a tag. Where one stands, the tag has it. Where none
does, the tag is its bare opener, and the scan goes on where the search began. -/
theorem closing_of_tag (cut : (ofTemplate template).pieces = before ++ piece :: after)
    (scans : piece.cause.passed? = some passed) :
    let start := Piece.extent before
    let sought := start + passed
    Bytes.tagOpener <+: template.bytes.drop (sought - 2) ∧
    (∃ closed unclosed, piece = .ofTag closed unclosed (template.bytes.drop start) passed) ∧
    ((template.closersFrom sought).Nonempty ∧ piece.cause.isClosedTag = true ∨
      template.closersFrom sought = ∅ ∧ piece.cause.isUnclosedTag = true ∧
      piece.token = ⟨Bytes.tagOpener⟩ ∧
      ∃ next, ComesTo template (before ++ [piece]) next sought) := by
  intro start sought
  obtain ⟨context, comes⟩ := exists_comesTo cut
  obtain ⟨next, taken, further⟩ := comes.exists_further cut
  obtain ⟨behindOpener, opened, closed, unclosed, isClosed, isUnclosed, same⟩ :=
    (next?_eq_some_iff.mp taken).exists_ofTag scans
  change piece = .ofTag closed unclosed (template.bytes.drop start) passed at same
  have place : start + (passed - 2) = sought - 2 := by omega
  rw [List.drop_drop, place] at opened
  refine ⟨opened, ⟨closed, unclosed, same⟩, ?_⟩
  rcases template.ofTag_cases start passed closed unclosed with ⟨somewhere, cause⟩ | ⟨nowhere, bare⟩
  · rw [← same] at cause
    exact .inl ⟨somewhere, by rw [cause, isClosed]⟩
  · rw [← same] at bare
    have inside := opened.length_le
    simp only [List.length_cons, List.length_nil, List.length_drop] at inside
    have length : piece.region.length = passed := by
      rw [bare]
      apply List.length_take_of_le
      rw [List.length_drop]
      omega
    rw [length] at further
    exact .inr ⟨nowhere, by rw [bare, isUnclosed], by rw [bare], next, further⟩

/-- Behind a tag without a closer a scan carves off nothing that has a closer of a tag. -/
theorem isCloserless_behind_unclosedTag
    (cut : (ofTemplate template).pieces = before ++ piece :: after)
    (unclosed : piece.cause.isUnclosedTag = true) : ∀ later ∈ after, later.IsCloserless := by
  have sought := Cause.passed?_ne_none_iff.mpr (.inr unclosed)
  obtain ⟨passed, scans⟩ := Option.ne_none_iff_exists'.mp sought
  obtain ⟨-, -, ⟨-, closed⟩ | ⟨nowhere, -, -, next, comes⟩⟩ := closing_of_tag cut scans
  · exact absurd unclosed (by simp [Cause.isUnclosedTag_of_isClosedTag closed])
  · apply comes.isCloserless _ nowhere
    rw [cut, List.append_assoc, List.singleton_append]

/-- The closing of tags is monotone over a scan. Up to some piece all tags have a closer, be it that
they overtook an output, and from there on none has. The closer of a tag is sought right behind its
opener, and the tag has one exactly if one stands from there on. If none does, the token is the bare
opener, the scan goes on where the search began, and of what is carved off from there on no token
has the closer of a tag in it, and each tag has no closer and is its bare opener.

Proof: a search that fails to find a closer says that none stands from its offset on, and every
later piece is carved off behind that offset. So no later piece has a closer in its token, and by
its carving a later tag is a bare opener. The list of pieces is split at the first tag without a
closer. -/
theorem tag_closing_is_monotone (template : Template) :
    let carved := (ofTemplate template).pieces
    (∃ front back, carved = front ++ back ∧
      (∀ piece ∈ front, piece.cause.isUnclosedTag = false) ∧
      ∀ piece ∈ back, piece.cause.isClosedTag = false) ∧
    ∀ before piece after passed, carved = before ++ piece :: after →
      piece.cause.passed? = some passed →
        let start := Piece.extent before
        let sought := start + passed
        Bytes.tagOpener <+: template.bytes.drop (sought - 2) ∧
        (∃ closed unclosed, piece = .ofTag closed unclosed (template.bytes.drop start) passed) ∧
        (piece.cause.isClosedTag = true ↔ (template.closersFrom sought).Nonempty) ∧
        (piece.cause.isUnclosedTag = true ↔ template.closersFrom sought = ∅) ∧
        (piece.cause.isUnclosedTag = true →
          piece.token = ⟨Bytes.tagOpener⟩ ∧ Piece.extent (before ++ [piece]) = sought ∧
          ∀ later ∈ after, ¬ Bytes.tagCloser <:+: later.token.bytes ∧
            (later.cause.passed? ≠ none →
              later.cause.isUnclosedTag = true ∧ later.token = ⟨Bytes.tagOpener⟩)) := by
  intro carved
  constructor
  · cases search : carved.find? (·.cause.isUnclosedTag) with
    | none =>
      refine ⟨carved, [], (List.append_nil carved).symm, ?_, by simp⟩
      simpa using List.find?_eq_none.mp search
    | some piece =>
      -- The front ends at the first tag without a closer.
      obtain ⟨unclosed, front, later, cut, notEarlier⟩ := List.find?_eq_some_iff_append.mp search
      refine ⟨front, piece :: later, cut, by simpa using notEarlier, ?_⟩
      rw [List.forall_mem_cons]
      constructor
      · rw [Bool.eq_false_iff]
        intro closed
        exact absurd unclosed (by simp [Cause.isUnclosedTag_of_isClosedTag closed])
      · intro other member
        exact (isCloserless_behind_unclosedTag cut unclosed other member).notClosed
  · intro before piece after passed cut scans start sought
    obtain ⟨opened, same, closing⟩ := closing_of_tag cut scans
    refine ⟨opened, same, ?_⟩
    rcases closing with ⟨somewhere, closed⟩ | ⟨nowhere, unclosed, bare, next, comes⟩
    · have notUnclosed := Cause.isUnclosedTag_of_isClosedTag closed
      exact ⟨iff_of_true closed somewhere, iff_of_false (by simp [notUnclosed]) somewhere.ne_empty,
        fun unclosed => absurd unclosed (by simp [notUnclosed])⟩
    · have notClosed : ¬ piece.cause.isClosedTag = true := fun closed =>
        absurd unclosed (by simp [Cause.isUnclosedTag_of_isClosedTag closed])
      refine ⟨iff_of_false notClosed (by simp [sought, start, nowhere]), iff_of_true unclosed nowhere,
        fun _ => ⟨bare, comes.extent_eq, ?_⟩⟩
      intro later member
      have closerless := isCloserless_behind_unclosedTag cut unclosed later member
      refine ⟨closerless.clean, fun laterScans => ?_⟩
      have laterUnclosed := (Cause.passed?_ne_none_iff.mp laterScans).resolve_left
        (by simp [closerless.notClosed])
      exact ⟨laterUnclosed, closerless.bare laterUnclosed⟩

/-- In `{%a%}{{b{%c{%` the first tag has a closer, and the one that overtakes the output has none.
It is a bare opener that ends where its closer was sought, and no closer of a tag comes after it. -/
theorem no_tag_closes_behind_overtaken_output :
    let closed : Bytes := [0x7b, 0x25, 0x61, 0x25, 0x7d]
    let output : Bytes := [0x7b, 0x7b, 0x62, 0x7b, 0x25]
    let template := Template.utf8 (closed ++ output ++ [0x63] ++ Bytes.tagOpener)
    let overtaken : Piece := ⟨.overtakenOpen 3, output, ⟨Bytes.tagOpener⟩⟩
    let after : List Piece := [.whole .text [0x63], .whole .openTag Bytes.tagOpener]
    (ofTemplate template).pieces = [.whole .tag closed] ++ overtaken :: after ∧
    template.closersFrom 10 = ∅ ∧ Piece.extent [.whole .tag closed, overtaken] = 10 ∧
    ∀ later ∈ after, ¬ Bytes.tagCloser <:+: later.token.bytes := by
  intro closed output template overtaken after
  have cut : (ofTemplate template).pieces = [.whole .tag closed] ++ overtaken :: after := by
    decide +kernel
  obtain ⟨-, closing⟩ := tag_closing_is_monotone template
  obtain ⟨-, -, -, hasNone, bare⟩ := closing _ overtaken after 5 cut rfl
  obtain ⟨-, extent, later⟩ := bare rfl
  exact ⟨cut, hasNone.mp rfl, extent, fun other member => (later other member).1⟩

end Scan

end TemplateTokens
