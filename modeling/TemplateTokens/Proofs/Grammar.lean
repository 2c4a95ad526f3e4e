import TemplateTokens.Grammar
import TemplateTokens.Proofs.Trace
import TemplateTokens.Proofs.Validation

/-!
# A scan accepts exactly the grammar

A well-formed list of elements is cut by a scan into the pieces of its elements and into nothing
else, so the seams that the grammar allows are seen as such. Conversely a scan that never fell back
has pieces that can be put together to elements, and these are well formed. Since pieces determine
the elements they come from, a template is written by one well-formed list at most.

The grammar is stated in `Grammar` and mentions no scan. The pieces of an element are what connects
the two, and the seams are needed at the places where the end of one element and the beginning of
the next could be read together. A template that is refused has no tokens to compare, so the theorem
is about those that are accepted; and it says nothing about how a slip in a template is dealt with.
-/

namespace TemplateTokens

/-- An element that is not text begins with an opener. This is what makes the end of text in front
of it visible to a search. -/
theorem Element.opens_written {element : Element} (notText : element.isText = false)
    (rest : List Element) : Opens (written (element :: rest)) := by
  cases element with
  | text bytes => exact absurd notText (by simp [isText])
  | output body => exact .inl (by simp [written, bytes, outputBytes])
  | tag body => exact .inr (by simp [written, bytes, tagBytes])
  | raw opening content closing => exact .inr (by simp [written, bytes, tagBytes])

/-- A body cannot lead with both keywords: they differ in their first letters. -/
theorem Keyword.leads_raw_of_endraw {encoding : Encoding} {body : Bytes}
    (ends : endraw.leads encoding body = true) : raw.leads encoding body = false := by
  rw [Bool.eq_false_iff]
  intro opens
  obtain ⟨⟨rest, cut⟩, -⟩ := leads_iff.mp ends
  obtain ⟨⟨other, otherCut⟩, -⟩ := leads_iff.mp opens
  exact absurd (otherCut.trans cut.symm) (by simp [raw, endraw])

/-- Behind a tag with a closer that ends a raw block a scan stands between markers. A stray tag of
that name is then a tag like any other. -/
theorem Context.behindTag_of_endraw {encoding : Encoding} {body : Bytes}
    (ends : Keyword.endraw.leads encoding body = true) : behindTag encoding body = .markup := by
  rw [behindTag, Keyword.leads_raw_of_endraw ends]
  rfl

/-- A tag with a closer ends a raw block exactly if its body leads with `endraw`. The bytes behind
the closer play no part, although the test is made of all that is left. -/
theorem endsRaw_tagBytes (encoding : Encoding) (body rest : Bytes) :
    endsRaw encoding (Element.tagBytes body ++ rest) =
      Keyword.endraw.leads encoding (body ++ Bytes.tagCloser) := by
  rw [Element.tagBytes, List.append_assoc, endsRaw_tagOpener,
    Keyword.leads_append encoding rest (by decide) (by simp)]

/-- No tag ends a raw block inside of its content, in the terms of the grammar. An opener cannot
begin with the last byte of the content, since a brace follows it. -/
theorem endsRaw_inside_iff {encoding : Encoding} {content closing : Bytes} (rest : Bytes) :
    (∀ offset < content.length,
        endsRaw encoding ((content ++ (Element.tagBytes closing ++ rest)).drop offset) = false) ↔
      ∀ before after, content = before ++ Bytes.tagOpener ++ after →
        Keyword.endraw.leads encoding (after ++ Element.tagBytes closing ++ rest) = false := by
  constructor
  · rintro nowhere before after rfl
    have here := nowhere before.length (by simp)
    rwa [List.append_assoc, List.append_assoc, List.drop_left, endsRaw_tagOpener,
      ← List.append_assoc] at here
  · intro inside offset before
    have cut := List.take_append_drop offset content
    rw [List.drop_append_of_le_length (Nat.le_of_lt before)]
    match behind : content.drop offset with
    | [] => exact absurd behind (by simpa using before)
    | [byte] =>
      apply endsRaw_eq_false_of_not_opened
      simp [Element.tagBytes, show ¬ Bytes.percent = Bytes.openBrace by decide]
    | first :: second :: after =>
      by_cases opened : first = Bytes.openBrace ∧ second = Bytes.percent
      · obtain ⟨rfl, rfl⟩ := opened
        rw [behind] at cut
        have noEnd := inside (content.take offset) after (by rw [List.append_assoc]; exact cut.symm)
        rw [List.append_assoc] at noEnd
        exact (endsRaw_tagOpener encoding _).trans noEnd
      · apply endsRaw_eq_false_of_not_opened
        simpa [eq_comm] using opened

namespace Element

/-- The pieces into which an element is cut. -/
def pieces : Element → List Piece
  | text bytes => [.whole .text bytes]
  | output body => [.whole .output (outputBytes body)]
  | tag body => [.whole .tag (tagBytes body)]
  | raw opening content closing =>
    .whole .tag (tagBytes opening) ::
      ((if content = [] then [] else [.whole .raw content]) ++ [.whole .tag (tagBytes closing)])

/-- The tokens of an element are those of its pieces. -/
theorem map_token_pieces (element : Element) : element.pieces.map Piece.token = element.tokens := by
  cases element with
  | text | output | tag => rfl
  | raw opening content closing =>
    by_cases empty : content = []
    · simp [pieces, tokens, empty, Piece.whole]
    · simp [pieces, tokens, empty, Piece.whole]

/-- The pieces of elements are cut without a fallback. A well-formed template therefore leaves no
trace. -/
theorem fallbacks_pieces {element : Element} {piece : Piece} (member : piece ∈ element.pieces) :
    piece.cause.fallbacks = [] := by
  cases element with
  | text | output | tag =>
    obtain rfl := List.mem_singleton.mp member
    rfl
  | raw opening content closing =>
    simp only [pieces, List.mem_cons, List.mem_append, List.mem_ite_nil_left, List.not_mem_nil,
      or_false] at member
    rcases member with rfl | ⟨-, rfl⟩ | rfl
    · rfl
    · rfl
    · rfl

/-- Elements that follow text are cut off from it by an opener, or are none. -/
theorem opens_of_noText {rest : List Element} (noText : ∀ next ∈ rest.head?, next.isText = false) :
    written rest = [] ∨ Opens (written rest) := by
  cases rest with
  | nil => exact .inl rfl
  | cons next rest => exact .inr (opens_written (noText next rfl) rest)

/-- Text that the grammar allows in front of other elements has no opener up to them. An opener that
lies across the seam is excluded by the last byte of the text, and one inside the text by what the
grammar demands of it. -/
theorem plain_of_seam {bytes : Bytes} {rest : List Element}
    (noOutput : ¬ Bytes.outputOpener <:+: bytes) (noTag : ¬ Bytes.tagOpener <:+: bytes)
    (noText : ∀ next ∈ rest.head?, next.isText = false)
    (seam : rest = [] ∨ bytes.getLast? ≠ some Bytes.openBrace) :
    ∀ offset < bytes.length, ¬ Opens ((bytes ++ written rest).drop offset) := by
  have seamBytes : written rest = [] ∨ bytes.getLast? ≠ some Bytes.openBrace := by
    apply seam.imp_left
    rintro rfl
    rfl
  exact (plain_iff (opens_of_noText noText)).mpr ⟨noOutput, noTag, seamBytes⟩

/-- What follows the opening tag of a well-formed raw block is cut into its content, if it has any,
and the tag that ends it. -/
theorem course_of_raw {encoding : Encoding} {content closing bytes : Bytes} {later : List Piece}
    (noCloser : ¬ Bytes.tagCloser <:+: closing)
    (ends : Keyword.endraw.leads encoding (closing ++ Bytes.tagCloser) = true)
    (inside : ∀ before after, content = before ++ Bytes.tagOpener ++ after →
      Keyword.endraw.leads encoding (after ++ tagBytes closing ++ bytes) = false)
    (tail : Course encoding .markup bytes later) :
    Course encoding .raw (content ++ (tagBytes closing ++ bytes))
      ((if content = [] then [] else [.whole .raw content]) ++
        .whole .tag (tagBytes closing) :: later) := by
  have endTag : Carving encoding .markup (tagBytes closing ++ bytes)
      ⟨.whole .tag (tagBytes closing), .behindTag encoding (closing ++ Bytes.tagCloser)⟩ :=
    .tag noCloser
  rw [Context.behindTag_of_endraw ends] at endTag
  have endsHere : endsRaw encoding (tagBytes closing ++ bytes) = true := by
    rw [endsRaw_tagBytes, ends]
  by_cases empty : content = []
  · subst empty
    exact .carve (.endRaw endsHere endTag) rfl tail
  · rw [if_neg empty]
    exact .carve (.raw empty ((endsRaw_inside_iff bytes).mpr inside) endsHere) rfl
      (.carve endTag rfl tail)

/-- A well-formed list of elements is cut into the pieces of its elements.

Proof: by induction on the list. Every element is carved off as what it is, because the grammar
rules out what could make the scan cut elsewhere. -/
theorem WellFormed.course {encoding : Encoding} {elements : List Element}
    (wellFormed : WellFormed encoding elements) :
    Course encoding .markup (written elements) (elements.flatMap pieces) := by
  induction wellFormed with
  | nil => exact .done
  | @text bytes rest nonempty noOutput noTag noText seam tail inductionHypothesis =>
    have plain := plain_of_seam noOutput noTag noText seam
    exact .carve (.text nonempty plain (opens_of_noText noText)) rfl inductionHypothesis
  | output complete tail inductionHypothesis =>
    exact .carve (.output complete) rfl inductionHypothesis
  | @tag body rest noCloser noRaw tail inductionHypothesis =>
    have behind : Context.behindTag encoding (body ++ Bytes.tagCloser) = .markup := by
      rw [Context.behindTag, noRaw]
      rfl
    have carving : Carving encoding .markup (tagBytes body ++ written rest)
        ⟨.whole .tag (tagBytes body), .behindTag encoding (body ++ Bytes.tagCloser)⟩ :=
      .tag noCloser
    rw [behind] at carving
    exact .carve carving rfl inductionHypothesis
  | @raw opening content closing rest noCloserInOpening opens noCloserInClosing ends inside tail
      inductionHypothesis =>
    have behind : Context.behindTag encoding (opening ++ Bytes.tagCloser) = .raw := by
      rw [Context.behindTag, opens]
      rfl
    have carving : Carving encoding .markup
        (tagBytes opening ++ (content ++ (tagBytes closing ++ written rest)))
        ⟨.whole .tag (tagBytes opening), .behindTag encoding (opening ++ Bytes.tagCloser)⟩ :=
      .tag noCloserInOpening
    rw [behind] at carving
    have course := Course.carve carving rfl
      (course_of_raw noCloserInClosing ends inside inductionHypothesis)
    simpa [written, bytes, pieces] using course

/-- Well-formed elements take up bytes. -/
theorem WellFormed.written_eq_nil_iff {encoding : Encoding} {elements : List Element}
    (wellFormed : WellFormed encoding elements) : written elements = [] ↔ elements = [] := by
  cases wellFormed with
  | nil => simp [written]
  | text nonempty => simp [written, bytes, nonempty]
  | output => simp [written, bytes, outputBytes]
  | tag => simp [written, bytes, tagBytes]
  | raw => simp [written, bytes, tagBytes]

/-- Well-formed elements do not begin with text where an opener stands: text has none in it and
leaves its last brace to none. -/
theorem WellFormed.noText_of_opens {encoding : Encoding} {elements : List Element}
    (wellFormed : WellFormed encoding elements)
    (opened : written elements = [] ∨ Opens (written elements)) :
    ∀ next ∈ elements.head?, next.isText = false := by
  cases wellFormed with
  | nil | output | tag | raw => simp [isText]
  | @text bytes rest nonempty noOutput noTag noText seam tail =>
    have plain := plain_of_seam noOutput noTag noText seam
    have notHere := plain 0 (List.length_pos_iff.mpr nonempty)
    rcases opened with empty | opened
    · exact absurd (List.append_eq_nil_iff.mp empty).1 nonempty
    · exact absurd opened notHere

/-- Well-formed elements that begin by ending a raw block begin with a tag that does so. It is
needed for raw blocks, where the grammar and the scan have to agree on which tag is the one that
ends the block. -/
theorem WellFormed.exists_tag_of_endsRaw {encoding : Encoding} {elements : List Element}
    (wellFormed : WellFormed encoding elements)
    (ends : endsRaw encoding (written elements) = true) :
    ∃ closing rest, elements = .tag closing :: rest ∧ ¬ Bytes.tagCloser <:+: closing ∧
      Keyword.endraw.leads encoding (closing ++ Bytes.tagCloser) = true ∧
      WellFormed encoding rest := by
  have opened : Bytes.tagOpener <+: written elements := by
    by_contra notOpened
    exact absurd ends (by simp [endsRaw_eq_false_of_not_opened notOpened])
  have noText := wellFormed.noText_of_opens (.inr (.inr opened))
  cases wellFormed with
  | nil => exact absurd ends (by simp [written, endsRaw])
  | text => exact absurd (noText _ rfl) (by simp [isText])
  | output =>
    simp [written, bytes, outputBytes, show ¬ Bytes.percent = Bytes.openBrace by decide] at opened
  | @tag body rest noCloser noRaw tail =>
    exact ⟨body, rest, rfl, noCloser, (endsRaw_tagBytes encoding body _).symm.trans ends, tail⟩
  | @raw opening content closing rest _ opens =>
    have endsAtOnce : endsRaw encoding
        (tagBytes opening ++ (content ++ tagBytes closing ++ written rest)) = true := by
      simpa [written, bytes] using ends
    rw [endsRaw_tagBytes] at endsAtOnce
    exact absurd opens (by simp [Keyword.leads_raw_of_endraw endsAtOnce])

end Element

/-- Bytes can be read by the grammar from where a scan stands. Between markers they are well-formed
elements; behind the tag that opens a raw block they complete the block first. -/
def Readable (encoding : Encoding) : Context → Bytes → Prop
  | .markup, bytes => ∃ elements, Element.WellFormed encoding elements ∧
      bytes = Element.written elements
  | .raw, bytes => ∃ content closing rest, ¬ Bytes.tagCloser <:+: closing ∧
      Keyword.endraw.leads encoding (closing ++ Bytes.tagCloser) = true ∧
      Element.WellFormed encoding rest ∧
      bytes = content ++ (Element.tagBytes closing ++ Element.written rest) ∧
      ∀ before after, content = before ++ Bytes.tagOpener ++ after →
        Keyword.endraw.leads encoding
          (after ++ Element.tagBytes closing ++ Element.written rest) = false

/-- The content of a raw block in front of bytes that begin with the tag that ends it. -/
theorem Readable.raw_of_markup {encoding : Encoding} {rest : Bytes} (content : Bytes)
    (inside : ∀ offset < content.length,
      endsRaw encoding ((content ++ rest).drop offset) = false)
    (ends : endsRaw encoding rest = true) (later : Readable encoding .markup rest) :
    Readable encoding .raw (content ++ rest) := by
  obtain ⟨elements, wellFormed, rfl⟩ := later
  obtain ⟨closing, rest, rfl, noCloser, leads, tail⟩ := wellFormed.exists_tag_of_endsRaw ends
  refine ⟨content, closing, rest, noCloser, leads, tail, rfl, ?_⟩
  exact (endsRaw_inside_iff (Element.written rest)).mp inside

/-- A carving without a fallback reads an element, or a part of one, in front of what can be
read. -/
theorem Carving.readable {encoding : Encoding} {context : Context} {bytes rest : Bytes}
    {step : Step} (carving : Carving encoding context bytes step)
    (smooth : step.piece.cause.fallbacks = [])
    (cut : bytes = step.piece.region ++ rest) (later : Readable encoding step.context rest) :
    Readable encoding context bytes := by
  induction carving with
  | @text front behind nonempty plain stops =>
    obtain rfl : behind = rest := List.append_cancel_left cut
    obtain ⟨elements, wellFormed, rfl⟩ := later
    obtain ⟨noOutput, noTag, seam⟩ := (plain_iff stops).mp plain
    rw [wellFormed.written_eq_nil_iff] at seam
    exact ⟨.text front :: elements,
      .text nonempty noOutput noTag (wellFormed.noText_of_opens stops) seam wellFormed, rfl⟩
  | @tag body behind noCloser =>
    obtain rfl : behind = rest := List.append_cancel_left cut
    cases opens : Keyword.raw.leads encoding (body ++ Bytes.tagCloser) with
    | false =>
      simp only [Context.behindTag, opens, Bool.false_eq_true, if_false] at later
      obtain ⟨elements, wellFormed, rfl⟩ := later
      exact ⟨.tag body :: elements, .tag noCloser opens wellFormed, rfl⟩
    | true =>
      simp only [Context.behindTag, opens, if_true] at later
      obtain ⟨content, closing, rest, noCloserInClosing, ends, wellFormed, rfl, inside⟩ := later
      refine ⟨.raw body content closing :: rest,
        .raw noCloser opens noCloserInClosing ends inside wellFormed, ?_⟩
      simp [Element.written, Element.bytes, Element.tagBytes]
  | @output body behind complete =>
    obtain rfl : behind = rest := List.append_cancel_left cut
    obtain ⟨elements, wellFormed, rfl⟩ := later
    exact ⟨.output body :: elements, .output complete wellFormed, rfl⟩
  | openTag | overtaken | overtakenOpen | openOutput | openRaw =>
    exact absurd smooth (by simp [Piece.whole, Cause.fallbacks])
  | @raw content behind nonempty inside ends =>
    obtain rfl : behind = rest := List.append_cancel_left cut
    exact .raw_of_markup content inside ends later
  | endRaw ends carving inductionHypothesis =>
    exact .raw_of_markup [] (by simp) ends (inductionHypothesis smooth cut later)

/-- What a course without fallbacks has cut can be read by the grammar. The induction is on the
course, with a raw block read together with the tag that ends it. -/
theorem Course.readable {encoding : Encoding} {context : Context} {bytes : Bytes}
    {carved : List Piece} (course : Course encoding context bytes carved)
    (smooth : ∀ piece ∈ carved, piece.cause.fallbacks = []) : Readable encoding context bytes := by
  induction course with
  | done => exact ⟨[], .nil, rfl⟩
  | step carving tail inductionHypothesis =>
    obtain ⟨first, later⟩ := List.forall_mem_cons.mp smooth
    exact carving.readable first rfl (inductionHypothesis later)

namespace Element

/-- A tag is determined by its bytes. -/
theorem tagBytes_inj {body other : Bytes} : tagBytes body = tagBytes other ↔ body = other := by
  simp [tagBytes]

/-- An output is determined by its bytes. -/
theorem outputBytes_inj {body other : Bytes} :
    outputBytes body = outputBytes other ↔ body = other := by
  simp [outputBytes]

/-- What stands between the tags of a raw block is determined by its pieces. A block without content
has no piece for it, so the two cases are told apart by the cause of the first piece. -/
theorem content_eq {content other closing otherClosing : Bytes} {later otherLater : List Piece}
    (same : (if content = [] then [] else [Piece.whole .raw content]) ++
        .whole .tag closing :: later =
      (if other = [] then [] else [Piece.whole .raw other]) ++
        .whole .tag otherClosing :: otherLater) :
    content = other ∧ closing = otherClosing ∧ later = otherLater := by
  cases content with
  | nil =>
    cases other with
    | nil => simpa [Piece.whole] using same
    | cons => simp [Piece.whole] at same
  | cons =>
    cases other with
    | nil => simp [Piece.whole] at same
    | cons => simpa [Piece.whole, and_assoc] using same

/-- The first of some well-formed elements is determined by the pieces of all. A raw block begins
with a piece of a tag, as a tag does, but only the tag that opens a block leads with `raw`. -/
theorem WellFormed.head_eq {encoding : Encoding} {element other : Element}
    {rest otherRest : List Element} {later otherLater : List Piece}
    (wellFormed : WellFormed encoding (element :: rest))
    (otherWellFormed : WellFormed encoding (other :: otherRest))
    (same : element.pieces ++ later = other.pieces ++ otherLater) :
    element = other ∧ later = otherLater := by
  cases wellFormed with
  | text =>
    cases otherWellFormed with
    | text => simpa [pieces, Piece.whole] using same
    | output | tag | raw => simp [pieces, Piece.whole] at same
  | output =>
    cases otherWellFormed with
    | output => simpa [pieces, Piece.whole, outputBytes_inj] using same
    | text | tag | raw => simp [pieces, Piece.whole] at same
  | tag noCloser noRaw =>
    cases otherWellFormed with
    | tag => simpa [pieces, Piece.whole, tagBytes_inj] using same
    | raw noCloserInOpening opens =>
      simp only [pieces, Piece.whole, List.cons_append, List.cons.injEq, Piece.mk.injEq, true_and,
        tagBytes_inj] at same
      obtain ⟨⟨rfl, -⟩, -⟩ := same
      exact absurd opens (by simp [noRaw])
    | text | output => simp [pieces, Piece.whole] at same
  | @raw opening content closing rest _ opens =>
    cases otherWellFormed with
    | tag noCloser noRaw =>
      simp only [pieces, Piece.whole, List.cons_append, List.cons.injEq, Piece.mk.injEq, true_and,
        tagBytes_inj] at same
      obtain ⟨⟨rfl, -⟩, -⟩ := same
      exact absurd opens (by simp [noRaw])
    | raw =>
      simp only [pieces, List.cons_append, List.append_assoc, List.nil_append,
        List.cons.injEq] at same
      obtain ⟨sameContent, sameClosing, sameLater⟩ := content_eq same.2
      have sameOpening := congrArg Piece.region same.1
      simp only [Piece.whole, tagBytes_inj] at sameOpening
      rw [tagBytes_inj] at sameClosing
      exact ⟨by rw [sameOpening, sameContent, sameClosing], sameLater⟩
    | text | output => simp [pieces, Piece.whole] at same

/-- What follows a well-formed element is well formed. -/
theorem WellFormed.of_cons {encoding : Encoding} {element : Element} {rest : List Element}
    (wellFormed : WellFormed encoding (element :: rest)) : WellFormed encoding rest := by
  cases wellFormed with
  | text _ _ _ _ _ tail => exact tail
  | output _ tail => exact tail
  | tag _ _ tail => exact tail
  | raw _ _ _ _ _ tail => exact tail

/-- Well-formed elements are determined by their pieces. The pieces are determined by the template,
so there is only one way to read it. -/
theorem WellFormed.eq_of_pieces {encoding : Encoding} {elements others : List Element}
    (wellFormed : WellFormed encoding elements) (otherWellFormed : WellFormed encoding others)
    (same : elements.flatMap pieces = others.flatMap pieces) : elements = others := by
  have nonempty (element : Element) : element.pieces ≠ [] := by
    cases element <;> simp [pieces]
  induction elements generalizing others with
  | nil =>
    cases others with
    | nil => rfl
    | cons other others => simp [nonempty] at same
  | cons element elements inductionHypothesis =>
    cases others with
    | nil => simp [nonempty] at same
    | cons other others =>
      obtain ⟨rfl, later⟩ := wellFormed.head_eq otherWellFormed same
      rw [inductionHypothesis wellFormed.of_cons otherWellFormed.of_cons later]

end Element

/-- A template that is accepted is scanned without a fallback exactly if it is written in the
grammar. Its tokens are then the tokens of its elements, and it is written by one well-formed list
of elements only.

Proof: the pieces of well-formed elements are a course of carvings, so they are the pieces of the
scan, and none of them fell back. Conversely read a course without fallbacks from its end: every
carving puts one more element in front of well-formed ones, or the opening half of a raw block. Two
lists with the same pieces have the same first element, and so on. -/
theorem trace_eq_nil_iff_wellFormed {settings : Settings} {template : Template}
    {stream : TokenStream} (markup : settings.forLiquidTag = false)
    (accepted : TokenStream.ofTemplate settings template = .ok stream) :
    ((TokenStream.report settings template).trace = [] ↔
      ∃ elements, Element.WellFormed template.encoding elements ∧
        Element.written elements = template.bytes) ∧
    ∀ elements, Element.WellFormed template.encoding elements →
      Element.written elements = template.bytes →
        stream.pending = elements.flatMap Element.tokens ∧
        ∀ others, Element.WellFormed template.encoding others →
          Element.written others = template.bytes → others = elements := by
  obtain ⟨carvedAll, sameTokens⟩ := TokenStream.pending_of_accepted markup accepted
  have piecesOf (elements : List Element)
      (wellFormed : Element.WellFormed template.encoding elements)
      (writes : Element.written elements = template.bytes) :
      template.uncheckedPieces = elements.flatMap Element.pieces := by
    rw [Template.uncheckedPieces, ← writes]
    exact wellFormed.course.pieces_eq
  rw [TokenStream.trace_report template markup, carvedAll, LogEntry.ofPieces_eq_nil_iff, sameTokens]
  refine ⟨⟨?_, ?_⟩, ?_⟩
  · intro smooth
    obtain ⟨elements, wellFormed, writes⟩ :=
      (course_pieces template.encoding .markup template.bytes).readable smooth
    exact ⟨elements, wellFormed, writes.symm⟩
  · rintro ⟨elements, wellFormed, writes⟩ piece member
    rw [piecesOf elements wellFormed writes] at member
    obtain ⟨element, -, own⟩ := List.mem_flatMap.mp member
    exact Element.fallbacks_pieces own
  · intro elements wellFormed writes
    have carved := piecesOf elements wellFormed writes
    constructor
    · rw [carved, List.map_flatMap]
      simp only [Element.map_token_pieces]
    · intro others otherWellFormed otherWrites
      apply otherWellFormed.eq_of_pieces wellFormed
      rw [← carved, piecesOf others otherWellFormed otherWrites]

/-- The template `a{{'}}'}}{%raw%}{{{%endraw%}` is written in the grammar: the closer in the string
ends no output, and the opener in the raw block opens none. -/
theorem trace_eq_nil_of_closer_in_string :
    let template := Template.utf8
      [0x61, 0x7b, 0x7b, 0x27, 0x7d, 0x7d, 0x27, 0x7d, 0x7d, 0x7b, 0x25, 0x72, 0x61, 0x77, 0x25,
        0x7d, 0x7b, 0x7b, 0x7b, 0x25, 0x65, 0x6e, 0x64, 0x72, 0x61, 0x77, 0x25, 0x7d]
    let stream := TokenStream.ofTokens {}
      [⟨[0x61]⟩,
        ⟨[0x7b, 0x7b, 0x27, 0x7d, 0x7d, 0x27, 0x7d, 0x7d]⟩,
        ⟨[0x7b, 0x25, 0x72, 0x61, 0x77, 0x25, 0x7d]⟩,
        ⟨[0x7b, 0x7b]⟩,
        ⟨[0x7b, 0x25, 0x65, 0x6e, 0x64, 0x72, 0x61, 0x77, 0x25, 0x7d]⟩]
    TokenStream.ofTemplate {} template = .ok stream ∧
    (TokenStream.report {} template).trace = [] ∧
    ∃ elements, Element.WellFormed .utf8 elements ∧
      Element.written elements = template.bytes ∧
      stream.pending = elements.flatMap Element.tokens := by
  intro template stream
  have accepted : TokenStream.ofTemplate {} template = .ok stream := by decide +kernel
  have smooth : (TokenStream.report {} template).trace = [] := by decide +kernel
  obtain ⟨grammatical, tokensOf⟩ := @trace_eq_nil_iff_wellFormed {} template stream rfl accepted
  obtain ⟨elements, wellFormed, writes⟩ := grammatical.mp smooth
  exact ⟨accepted, smooth, elements, wellFormed, writes, (tokensOf elements wellFormed writes).1⟩

end TemplateTokens
