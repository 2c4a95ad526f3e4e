import Mathlib.Data.List.Chain
import TemplateTokens.Proofs.Conservation
import TemplateTokens.Proofs.FirstText
import TemplateTokens.Proofs.Trace

/-!
# What the log tells of a scan

Where a fallback has to be taken is said of the bytes alone (`FallsBack`): of markers, of the body of
an output, and of closers that stand nowhere. The trace of a run has an entry for each such place that
the scan comes to, and no other (`TokenStream.mem_trace_iff`). The entries are held against the source
in this way, and not against the pieces from which they are read off.

Each entry belongs to a piece, and the pieces lie one behind the other. So the entries are in the
order of their offsets, and two of them have the same offset only if they belong to one piece: an
output overtaken by a tag without a closer. An output or a raw block without an end is the last
piece, and its entry the last of the trace. A scan that is stopped by a complaint has told of the
pieces in front of the first text, none of which is of that kind.
-/

namespace TemplateTokens

namespace LogEntry

/-- The offset that an entry of the trace tells. -/
def start? : LogEntry → Option Nat
  | fellBack _ start => some start
  | _ => none

/-- Whether an entry tells of a piece that takes up all that is left. -/
def isLast : LogEntry → Bool
  | fellBack .openOutput _ | fellBack .openRaw _ => true
  | _ => false

/-- One entry of the trace may stand right in front of another. -/
inductive Precedes : LogEntry → LogEntry → Prop where
  /-- The other tells of a later offset. -/
  | ahead {fallback other : Fallback} {start later : Nat} (ordered : start < later) :
      Precedes (fellBack fallback start) (fellBack other later)
  /-- An output is overtaken by a tag, and the tag has no closer. -/
  | overtaken (start : Nat) :
      Precedes (fellBack .overtakenOutput start) (fellBack .openTag start)

/-- No entry tells of an offset in front of the first piece. -/
theorem exists_fellBack_of_mem {start : Nat} {pieces : List Piece} {entry : LogEntry}
    (member : entry ∈ ofPieces start pieces) :
    ∃ fallback place, entry = fellBack fallback place ∧ start ≤ place := by
  induction pieces generalizing start with
  | nil => exact absurd member List.not_mem_nil
  | cons piece pieces inductionHypothesis =>
    rcases List.mem_append.mp member with own | later
    · obtain ⟨fallback, -, rfl⟩ := List.mem_map.mp own
      exact ⟨fallback, start, rfl, Nat.le_refl start⟩
    · obtain ⟨fallback, place, rfl, behind⟩ := inductionHypothesis later
      exact ⟨fallback, place, rfl, by omega⟩

/-- The offsets that the entries tell never decrease. Entries of one piece have the same offset, and
the next piece starts no earlier than where the region before it ends. -/
theorem pairwise_start?_ofPieces (start : Nat) (pieces : List Piece) :
    ((ofPieces start pieces).filterMap start?).Pairwise (· ≤ ·) := by
  induction pieces generalizing start with
  | nil => exact .nil
  | cons piece pieces inductionHypothesis =>
    have own : (piece.cause.fallbacks.map (fellBack · start)).filterMap start? =
        List.replicate piece.cause.fallbacks.length start := by
      induction piece.cause.fallbacks with
      | nil => rfl
      | cons fallback fallbacks inductionHypothesis =>
        simp [start?, inductionHypothesis, List.replicate_succ]
    rw [ofPieces, List.filterMap_append, own, List.pairwise_append]
    refine ⟨List.pairwise_replicate_of_refl, inductionHypothesis _, ?_⟩
    intro here isHere later isLater
    obtain ⟨-, rfl⟩ := List.mem_replicate.mp isHere
    obtain ⟨entry, member, told⟩ := List.mem_filterMap.mp isLater
    obtain ⟨fallback, place, rfl, behind⟩ := exists_fellBack_of_mem member
    cases told
    omega

/-- An entry belongs to a piece. In front of it are the entries of the pieces before and the earlier
ones of the piece itself, and behind it the later ones and those of the pieces that follow. -/
theorem exists_piece_of_ofPieces_eq {start : Nat} {pieces : List Piece}
    {before after : List LogEntry} {fallback : Fallback} {place : Nat}
    (told : ofPieces start pieces = before ++ fellBack fallback place :: after) :
    ∃ front piece back own later, pieces = front ++ piece :: back ∧
      start + Piece.extent front = place ∧
      piece.cause.fallbacks = own ++ fallback :: later ∧
      before = ofPieces start front ++ own.map (fellBack · place) ∧
      after = later.map (fellBack · place) ++
        ofPieces (place + piece.region.length) back := by
  induction pieces generalizing start before with
  | nil => simp [ofPieces] at told
  | cons piece pieces inductionHypothesis =>
    let own := piece.cause.fallbacks.map (fellBack · start)
    let others := ofPieces (start + piece.region.length) pieces
    have apart : (∃ among, before = own ++ among ∧
        others = among ++ fellBack fallback place :: after) ∨
          ∃ among, own = before ++ fellBack fallback place :: among ∧ after = among ++ others := by
      rcases List.append_eq_append_iff.mp told with
        ⟨among, front, back⟩ | ⟨_ | ⟨entry, among⟩, front, back⟩
      · exact .inl ⟨among, front, back⟩
      · exact .inl ⟨[], by simpa using front.symm, back.symm⟩
      · cases back
        exact .inr ⟨among, front, rfl⟩
    rcases apart with ⟨among, rfl, othersTold⟩ | ⟨among, ownTold, rfl⟩
    · obtain ⟨front, other, back, own, later, rfl, reached, fell, rfl, rfl⟩ :=
        inductionHypothesis othersTold
      have extent : Piece.extent (piece :: front) = piece.region.length + Piece.extent front := by
        simp [Piece.extent]
      refine ⟨piece :: front, other, back, own, later, rfl, by omega, fell, ?_, rfl⟩
      rw [ofPieces, List.append_assoc]
    · obtain ⟨earlier, later, fell, rfl, laterTold⟩ := List.map_eq_append_iff.mp ownTold
      obtain ⟨same, later, rfl, entry, rfl⟩ := List.map_eq_cons_iff.mp laterTold
      cases entry
      exact ⟨[], piece, pieces, earlier, later, rfl, rfl, fell, rfl, rfl⟩

/-- The entries of one piece stand in a chain. There are two of them at most, and only where an
output is overtaken by a tag without a closer. -/
theorem isChain_fallbacks (cause : Cause) (start : Nat) :
    (cause.fallbacks.map (fellBack · start)).IsChain Precedes := by
  cases cause with
  | overtakenOpen => exact .cons_cons (.overtaken start) (.singleton _)
  | _ => simp [Cause.fallbacks]

end LogEntry

/-- A piece that takes up no bytes takes up all that is left. The empty content of a raw block at
the end of a template is such a piece, and there is no other. -/
theorem Carving.region_ne_nil {encoding : Encoding} {context : Context} {bytes : Bytes}
    {step : Step} (carving : Carving encoding context bytes step)
    (notAll : step.piece.cause.takesAll = false) : step.piece.region ≠ [] := by
  induction carving with
  | text nonempty => exact nonempty
  | raw nonempty => exact nonempty
  | openRaw => exact absurd notAll (by simp [Piece.whole, Cause.takesAll])
  | endRaw _ _ inductionHypothesis => exact inductionHypothesis notAll
  | _ => simp [Piece.whole]

/-- A piece of a course behind which another is carved off takes up bytes. -/
theorem Course.region_ne_nil {encoding : Encoding} {context : Context} {bytes : Bytes}
    {before after : List Piece} {piece : Piece}
    (course : Course encoding context bytes (before ++ piece :: after)) (goesOn : after ≠ []) :
    piece.region ≠ [] := by
  obtain ⟨front, rest, within, next, -, -, carving, -⟩ := course.exists_cut
  apply carving.region_ne_nil
  cases takesAll : piece.cause.takesAll with
  | false => rfl
  | true => exact absurd (course.eq_nil_of_takesAll takesAll) goesOn

/-- Behind a piece of a course the entries tell of later offsets. The inequality is strict because
the piece takes up bytes, there being another one behind it. -/
theorem Course.later_of_mem {encoding : Encoding} {context : Context} {bytes : Bytes}
    {before after : List Piece} {piece : Piece} {start : Nat} {entry : LogEntry}
    (course : Course encoding context bytes (before ++ piece :: after))
    (member : entry ∈ LogEntry.ofPieces (start + piece.region.length) after) :
    ∃ fallback place, entry = .fellBack fallback place ∧ start < place := by
  obtain ⟨fallback, place, rfl, behind⟩ := LogEntry.exists_fellBack_of_mem member
  have goesOn : after ≠ [] := by
    rintro rfl
    exact absurd member List.not_mem_nil
  have positive := List.length_pos_iff.mpr (course.region_ne_nil goesOn)
  exact ⟨fallback, place, rfl, by omega⟩

/-- The entries about the front of a course tell of offsets in front of what follows, if anything
does. -/
theorem Course.lt_extent_of_mem {encoding : Encoding} {context : Context} {bytes : Bytes}
    {carved after : List Piece} {entry : LogEntry}
    (course : Course encoding context bytes (carved ++ after)) (goesOn : after ≠ [])
    (member : entry ∈ LogEntry.ofPieces 0 carved) :
    ∃ fallback start, entry = .fellBack fallback start ∧ start < Piece.extent carved := by
  obtain ⟨fallback, start, rfl, -⟩ := LogEntry.exists_fellBack_of_mem member
  obtain ⟨earlier, further, entries⟩ := List.append_of_mem member
  obtain ⟨front, piece, back, own, later, rfl, rfl, -⟩ :=
    LogEntry.exists_piece_of_ofPieces_eq entries
  rw [List.append_assoc, List.cons_append] at course
  have positive := List.length_pos_iff.mpr (course.region_ne_nil (by simp [goesOn]))
  refine ⟨fallback, _, rfl, ?_⟩
  simp only [Piece.extent, List.flatMap_append, List.flatMap_cons, List.length_append]
  omega

/-- The entries of a course stand in a chain: those of one piece do, and the next entry is about a
piece that starts later. -/
theorem Course.isChain_ofPieces {encoding : Encoding} {context : Context} {bytes : Bytes}
    {carved : List Piece} (course : Course encoding context bytes carved) (start : Nat) :
    (LogEntry.ofPieces start carved).IsChain LogEntry.Precedes := by
  induction course generalizing start with
  | done => exact .nil
  | @step context rest step later carving tail inductionHypothesis =>
    have course : Course encoding context _ ([] ++ step.piece :: later) := .step carving tail
    rw [LogEntry.ofPieces, List.isChain_append]
    refine ⟨LogEntry.isChain_fallbacks step.piece.cause start, inductionHypothesis _, ?_⟩
    intro entry isOwn next isNext
    obtain ⟨fallback, -, rfl⟩ := List.mem_map.mp (List.mem_of_getLast? isOwn)
    obtain ⟨other, place, rfl, ahead⟩ := course.later_of_mem (List.mem_of_head? isNext)
    exact .ahead ahead

/-- A fallback has to be taken in front of the given bytes, in the given context. This is said of
the bytes alone: no piece, no cause and no token is mentioned, so that it can be held against the
log. -/
inductive FallsBack (encoding : Encoding) : Context → Bytes → Fallback → Prop where
  /-- An output is opened, and a tag is opened in its body before anything ends it. -/
  | overtakenOutput {body rest : Bytes} (complete : Output.Body Bytes.tagOpener body) :
      FallsBack encoding .markup (Bytes.outputOpener ++ (body ++ Bytes.tagOpener) ++ rest)
        .overtakenOutput
  /-- The tag that is opened in the body of an output is closed nowhere behind its opener. -/
  | overtakenTag {body rest : Bytes} (complete : Output.Body Bytes.tagOpener body)
      (unclosed : ¬ Bytes.tagCloser <:+: rest) :
      FallsBack encoding .markup (Bytes.outputOpener ++ (body ++ Bytes.tagOpener) ++ rest) .openTag
  /-- A tag between markers is closed nowhere behind its opener. -/
  | openTag {rest : Bytes} (unclosed : ¬ Bytes.tagCloser <:+: rest) :
      FallsBack encoding .markup (Bytes.tagOpener ++ rest) .openTag
  /-- A tag ends a raw block without content, and is closed nowhere behind its opener. -/
  | closingTag {rest : Bytes} (ends : endsRaw encoding (Bytes.tagOpener ++ rest) = true)
      (unclosed : ¬ Bytes.tagCloser <:+: rest) :
      FallsBack encoding .raw (Bytes.tagOpener ++ rest) .openTag
  /-- An output is opened, and neither a closer nor a tag opener follows outside its strings. -/
  | openOutput {rest : Bytes} (endless : Output.Endless rest) :
      FallsBack encoding .markup (Bytes.outputOpener ++ rest) .openOutput
  /-- No tag ends a raw block, be it that nothing of the block is left. -/
  | openRaw {content : Bytes}
      (endless : ∀ offset ≤ content.length, endsRaw encoding (content.drop offset) = false) :
      FallsBack encoding .raw content .openRaw

section Falling

variable {encoding : Encoding} {context : Context} {bytes : Bytes} {step : Step}
  {fallback : Fallback}

/-- Where a fallback has to be taken a piece is carved off that records it. Which rule that is
depends on more than the fallback: an output overtaken by a tag is carved off in one of two ways,
with the closer of the tag or without. -/
theorem FallsBack.exists_carving (falls : FallsBack encoding context bytes fallback) :
    ∃ step, Carving encoding context bytes step ∧ fallback ∈ step.piece.cause.fallbacks := by
  cases falls with
  | @overtakenOutput body rest complete =>
    rcases tagCloser_cut rest with unclosed | ⟨inner, rest, rfl, clean⟩
    · exact ⟨_, .overtakenOpen complete unclosed, by simp [Cause.fallbacks]⟩
    · rw [← List.append_assoc]
      exact ⟨_, .overtaken complete clean, by simp [Cause.fallbacks]⟩
  | overtakenTag complete unclosed =>
    exact ⟨_, .overtakenOpen complete unclosed, by simp [Cause.fallbacks]⟩
  | openTag unclosed => exact ⟨_, .openTag unclosed, by simp [Piece.whole, Cause.fallbacks]⟩
  | closingTag ends unclosed =>
    exact ⟨_, .endRaw ends (.openTag unclosed), by simp [Piece.whole, Cause.fallbacks]⟩
  | openOutput endless => exact ⟨_, .openOutput endless, by simp [Cause.fallbacks]⟩
  | openRaw endless => exact ⟨_, .openRaw endless, by simp [Piece.whole, Cause.fallbacks]⟩

/-- A carving records no fallback but one that has to be taken there. The tag that ends a raw block
is carved off as a tag between markers is, and only there can its missing closer be recorded. -/
theorem Carving.fallsBack (carving : Carving encoding context bytes step)
    (fell : fallback ∈ step.piece.cause.fallbacks) :
    FallsBack encoding context bytes fallback := by
  induction carving with
  | text | tag | output | raw => exact absurd fell (by simp [Piece.whole, Cause.fallbacks])
  | openTag unclosed =>
    obtain rfl := List.mem_singleton.mp fell
    exact .openTag unclosed
  | overtaken complete clean =>
    obtain rfl := List.mem_singleton.mp fell
    rw [List.append_assoc]
    exact .overtakenOutput complete
  | overtakenOpen complete unclosed =>
    rcases List.mem_pair.mp fell with rfl | rfl
    · exact .overtakenOutput complete
    · exact .overtakenTag complete unclosed
  | openOutput endless =>
    obtain rfl := List.mem_singleton.mp fell
    exact .openOutput endless
  | openRaw endless =>
    obtain rfl := List.mem_singleton.mp fell
    exact .openRaw endless
  | endRaw ends _ inductionHypothesis =>
    -- The bytes begin with the opener of a tag, so no fallback of an output is meant.
    have noOutput : ¬ Bytes.percent = Bytes.openBrace := by decide
    cases inductionHypothesis fell with
    | openTag unclosed => exact .closingTag ends unclosed
    | _ => exact absurd (tagOpener_prefix_of_endsRaw ends) (by simp [noOutput])

end Falling

/-- What an entry about a fallback tells of the source and of the outcome of the scan, given the
entries in front of it and behind it. -/
inductive Told (source : Bytes) (outcome : Except InvalidBytes TokenStream)
    (before after : List LogEntry) (start : Nat) : Fallback → Prop where
  /-- An output is opened here and overtaken by a tag. The next entry is about the same piece
  exactly if nothing behind the opener of the tag closes it. -/
  | overtakenOutput {front body rest : Bytes} (starts : front.length = start)
      (cut : source = front ++ (Bytes.outputOpener ++ (body ++ Bytes.tagOpener) ++ rest))
      (complete : Output.Body Bytes.tagOpener body)
      (followed : after.head? = some (.fellBack .openTag start) ↔ ¬ Bytes.tagCloser <:+: rest) :
      Told source outcome before after start .overtakenOutput
  /-- The tag that overtook the output of the entry before has no closer. -/
  | overtakenTag (follows : before.getLast? = some (.fellBack .overtakenOutput start)) :
      Told source outcome before after start .openTag
  /-- A tag is opened here and nothing behind its opener closes it. -/
  | openTag {front rest : Bytes} (starts : front.length = start)
      (cut : source = front ++ (Bytes.tagOpener ++ rest)) (unclosed : ¬ Bytes.tagCloser <:+: rest) :
      Told source outcome before after start .openTag
  /-- An output is opened here and does not end. It is the last of the scan, which succeeds. -/
  | openOutput {front rest : Bytes} {stream : TokenStream} (starts : front.length = start)
      (cut : source = front ++ (Bytes.outputOpener ++ rest)) (endless : Output.Endless rest)
      (last : after = []) (accepted : outcome = .ok stream)
      (token : stream.pending.getLast? = some ⟨Bytes.outputOpener⟩) :
      Told source outcome before after start .openOutput
  /-- The content of a raw block that nothing ends starts here. It is the last token of the scan,
  which succeeds. -/
  | openRaw {stream : TokenStream} (last : after = []) (accepted : outcome = .ok stream)
      (token : stream.pending.getLast? = some ⟨source.drop start⟩) :
      Told source outcome before after start .openRaw

/-- What the entries of a carving tell, if those behind them are about later pieces, and there are
none behind a piece that takes up all that is left. -/
theorem Carving.told {encoding : Encoding} {context : Context} {source front bytes : Bytes}
    {step : Step} {outcome : Except InvalidBytes TokenStream} {own later : List Fallback}
    {fallback : Fallback} {others : List LogEntry} (before : List LogEntry)
    (carving : Carving encoding context bytes step) (cut : source = front ++ bytes)
    (fell : step.piece.cause.fallbacks = own ++ fallback :: later)
    (behind : ∀ entry ∈ others, ∃ other place, entry = .fellBack other place ∧ front.length < place)
    (last : step.piece.cause.takesAll = true → others = [] ∧
      ∃ stream, outcome = .ok stream ∧ stream.pending.getLast? = some step.piece.token) :
    Told source outcome (before ++ own.map (.fellBack · front.length))
      (later.map (.fellBack · front.length) ++ others) front.length fallback := by
  have single {only : Fallback} {own : List Fallback} (fell : [only] = own ++ fallback :: later) :
      own = [] ∧ fallback = only ∧ later = [] := by
    rcases List.cons_eq_append_iff.mp fell with ⟨rfl, same⟩ | ⟨others, rfl, impossible⟩
    · cases same
      exact ⟨rfl, rfl, rfl⟩
    · exact absurd impossible (by simp)
  induction carving with
  | text | tag | output | raw => exact absurd fell (by simp [Piece.whole, Cause.fallbacks])
  | openTag unclosed =>
    obtain ⟨rfl, rfl, rfl⟩ := single fell
    exact .openTag rfl cut unclosed
  | @overtaken body inner rest complete clean =>
    obtain ⟨rfl, rfl, rfl⟩ := single fell
    have closed : Bytes.tagCloser <:+: inner ++ Bytes.tagCloser ++ rest := ⟨inner, rest, rfl⟩
    rw [List.append_assoc] at cut
    refine .overtakenOutput rfl cut complete ⟨?_, absurd (by simpa using closed)⟩
    intro next
    obtain ⟨other, place, same, ahead⟩ := behind _ (List.mem_of_head? next)
    cases same
    omega
  | overtakenOpen complete unclosed =>
    rcases List.cons_eq_append_iff.mp fell with ⟨rfl, first⟩ | ⟨others, rfl, second⟩
    · cases first
      exact .overtakenOutput rfl cut complete (by simp [unclosed])
    · obtain ⟨rfl, rfl, rfl⟩ := single second
      exact .overtakenTag (by simp)
  | openOutput endless =>
    obtain ⟨rfl, rfl, rfl⟩ := single fell
    obtain ⟨nothing, stream, accepted, token⟩ := last rfl
    exact .openOutput rfl cut endless nothing accepted token
  | openRaw =>
    obtain ⟨rfl, rfl, rfl⟩ := single fell
    obtain ⟨nothing, stream, accepted, token⟩ := last rfl
    refine .openRaw nothing accepted ?_
    rw [cut, List.drop_left]
    exact token
  | endRaw _ _ inductionHypothesis => exact inductionHypothesis cut fell last

/-- At most one of a list is of a kind whose members are last wherever they stand. -/
theorem countP_le_one_of_last {entries : List LogEntry} {isLast : LogEntry → Bool}
    (last : ∀ before entry after, entries = before ++ entry :: after → isLast entry = true →
      after = []) : entries.countP isLast ≤ 1 := by
  induction entries with
  | nil => simp
  | cons first entries inductionHypothesis =>
    have fewer := inductionHypothesis fun before entry after cut =>
      last (first :: before) entry after (by rw [cut, List.cons_append])
    cases isFirst : isLast first with
    | false => simpa [isFirst] using fewer
    | true =>
      have nothing := last [] first entries rfl isFirst
      simp [nothing, isFirst]

namespace Scan

/-- The entries of a scan stand in a chain. -/
theorem isChain_ofPieces (template : Template) :
    (LogEntry.ofPieces 0 (ofTemplate template).pieces).IsChain LogEntry.Precedes := by
  obtain ⟨dropped, cut, -⟩ := exists_dropped template
  have chain := (course_pieces template.encoding .markup template.bytes).isChain_ofPieces 0
  rw [← Template.uncheckedPieces, cut, LogEntry.ofPieces_append] at chain
  exact chain.left_of_append

/-- The entries of a scan are about exactly the fallbacks that have to be taken where it comes. -/
theorem mem_ofPieces_iff {template : Template} {fallback : Fallback} {start : Nat} :
    .fellBack fallback start ∈ LogEntry.ofPieces 0 (ofTemplate template).pieces ↔
      ∃ carved context, ComesTo template carved context start ∧
        FallsBack template.encoding context (template.bytes.drop start) fallback := by
  constructor
  · intro member
    obtain ⟨before, after, entries⟩ := List.append_of_mem member
    obtain ⟨front, piece, back, own, later, cut, reached, fell, -, -⟩ :=
      LogEntry.exists_piece_of_ofPieces_eq entries
    rw [Nat.zero_add] at reached
    subst reached
    obtain ⟨context, comes⟩ := exists_comesTo cut
    obtain ⟨next, taken, -⟩ := comes.exists_further cut
    exact ⟨front, context, comes, (next?_eq_some_iff.mp taken).fallsBack (by simp [fell])⟩
  · rintro ⟨carved, context, comes, falls⟩
    obtain ⟨step, carving, fell⟩ := falls.exists_carving
    -- No text is carved off here, so the check does not stand in the way of the step.
    have notText : step.piece.cause ≠ .text := by
      intro isText
      exact absurd fell (by simp [isText, Cause.fallbacks])
    obtain ⟨later, cut⟩ :=
      (comes.further carving.next?_eq fun isText => absurd isText notText).exists_pieces_eq
    rw [cut, LogEntry.ofPieces_append, LogEntry.ofPieces_append, Nat.zero_add, comes.extent_eq]
    simp [LogEntry.ofPieces, fell]

/-- What the entries of a scan tell. A scan that is stopped has no piece that takes up all that is
left, so what an entry tells of the last token is told of scans that succeed. -/
theorem told {template : Template} {outcome : Except InvalidBytes TokenStream}
    {before after : List LogEntry} {fallback : Fallback} {start : Nat}
    (entries : LogEntry.ofPieces 0 (ofTemplate template).pieces =
      before ++ .fellBack fallback start :: after)
    (succeeds : (ofTemplate template).invalid? = none → ∃ stream, outcome = .ok stream ∧
      stream.pending = (ofTemplate template).pieces.map Piece.token) :
    Told template.bytes outcome before after start fallback := by
  obtain ⟨dropped, cut, complete⟩ := exists_dropped template
  obtain ⟨front, piece, back, own, later, carved, reached, fell, rfl, rfl⟩ :=
    LogEntry.exists_piece_of_ofPieces_eq entries
  have course : Course template.encoding .markup template.bytes
      (front ++ piece :: (back ++ dropped)) := by
    have course := course_pieces template.encoding .markup template.bytes
    rwa [← Template.uncheckedPieces, cut, carved, List.append_assoc, List.cons_append] at course
  obtain ⟨passed, rest, within, step, source, length, rfl, carving⟩ := course.exists_carving
  obtain rfl : passed.length = start := by omega
  refine carving.told _ source fell ?_ ?_
  · intro entry member
    apply course.later_of_mem
    rw [LogEntry.ofPieces_append]
    exact List.mem_append_left _ member
  · intro takesAll
    obtain ⟨rfl, nothing⟩ := List.append_eq_nil_iff.mp (course.eq_nil_of_takesAll takesAll)
    obtain ⟨stream, accepted, tokens⟩ := succeeds (complete nothing)
    refine ⟨rfl, stream, accepted, ?_⟩
    rw [tokens, carved, List.map_append, List.map_cons, List.map_nil, List.getLast?_concat]

end Scan

namespace TokenStream

/-- The trace of a `liquid` tag is empty. -/
theorem trace_report_of_liquidTag {settings : Settings} (template : Template)
    (liquid : settings.forLiquidTag = true) : (report settings template).trace = [] := by
  simp [report, liquid, Report.trace, LogEntry.isFallback]

/-- The log of a run begins with the length of the source and the mode, goes on with the trace, and
closes with the number of tokens, unless the run fails. -/
theorem log_report (settings : Settings) (template : Template) :
    (report settings template).log =
      .opened template.length settings.forLiquidTag :: (report settings template).trace ++
        ((report settings template).outcome.toOption.map (.finished ·.remaining)).toList := by
  cases mode : settings.forLiquidTag with
  | true =>
    rw [trace_report_of_liquidTag template mode]
    simp [report, mode, Except.toOption, remaining, ofTokens]
  | false =>
    rw [trace_report template mode]
    simp only [report, mode, Bool.false_eq_true, if_false]
    cases (Scan.ofTemplate template).invalid? <;> simp [Except.toOption, remaining, ofTokens]

/-- The trace of a run that succeeds has the fallbacks of all the pieces. A run that succeeds is one
that the check has passed, or that has never come to it. -/
theorem trace_of_accepted {settings : Settings} {template : Template} {stream : TokenStream}
    (markup : settings.forLiquidTag = false)
    (accepted : ofTemplate settings template = .ok stream) :
    (report settings template).trace = LogEntry.ofPieces 0 template.uncheckedPieces := by
  rw [trace_report template markup, (pending_of_accepted markup accepted).1]

/-- The trace of a run that fails has the fallbacks of the pieces in front of the first text. -/
theorem trace_of_refused {settings : Settings} {template : Template} {invalid : InvalidBytes}
    (refused : ofTemplate settings template = .error invalid) :
    (report settings template).trace =
      LogEntry.ofPieces 0 (template.uncheckedPieces.takeWhile (·.cause ≠ .text)) := by
  obtain ⟨markup, faulty⟩ := ofTemplate_eq_error_iff.mp refused
  rw [trace_report template markup,
    Scan.ofTemplate_pieces_of_invalid (Scan.ofTemplate_invalid?_eq_some_iff.mpr faulty)]

/-- What the entries of a trace tell. -/
theorem told_of_trace {settings : Settings} {template : Template} {before after : List LogEntry}
    {fallback : Fallback} {start : Nat}
    (entries : (report settings template).trace = before ++ .fellBack fallback start :: after) :
    Told template.bytes (ofTemplate settings template) before after start fallback := by
  cases mode : settings.forLiquidTag with
  | true =>
    rw [trace_report_of_liquidTag template mode] at entries
    exact absurd entries (by simp)
  | false =>
    rw [trace_report template mode] at entries
    refine Scan.told entries fun valid => ?_
    rw [ofTemplate_of_markup template mode, valid, Scan.ofTemplate_pieces valid]
    exact ⟨_, rfl, rfl⟩

/-- The trace of a template cut at its markers has an entry for every fallback that has to be taken
where the scan comes, and no other. -/
theorem mem_trace_iff {settings : Settings} {template : Template}
    (markup : settings.forLiquidTag = false) {fallback : Fallback} {start : Nat} :
    .fellBack fallback start ∈ (report settings template).trace ↔
      ∃ carved context, Scan.ComesTo template carved context start ∧
        FallsBack template.encoding context (template.bytes.drop start) fallback := by
  rw [trace_report template markup]
  exact Scan.mem_ofPieces_iff

/-- A run that fails comes in front of its first text, and its trace is about places in front of
that. -/
theorem exists_firstText_of_refused {settings : Settings} {template : Template}
    {invalid : InvalidBytes} (refused : ofTemplate settings template = .error invalid) :
    ∃ carved first, Scan.TextAt template carved first ∧
      (∀ others later, Scan.TextAt template others later → first ≤ later) ∧
      ∀ entry ∈ (report settings template).trace, ∃ fallback start,
        entry = .fellBack fallback start ∧ start < first := by
  obtain ⟨-, hasText, -⟩ := ofTemplate_eq_error_iff.mp refused
  obtain ⟨carved, piece, after, cut, isText, noText⟩ := Scan.exists_firstText hasText
  have stands := Scan.textAt_of_noText cut isText noText
  have trace := trace_of_refused refused
  rw [cut, List.takeWhile_append_of_pos (by simpa using noText),
    List.takeWhile_cons_of_neg (by simp [isText]), List.append_nil] at trace
  have course := course_pieces template.encoding .markup template.bytes
  rw [← Template.uncheckedPieces, cut] at course
  refine ⟨carved, _, stands, fun _ _ => stands.le_of_noText noText, ?_⟩
  rw [trace]
  exact fun entry => course.lt_extent_of_mem (by simp)

/-- The entries of a trace stand in a chain, and their offsets never decrease. The chain says more
where two offsets are the same, and the order says something of entries that are not neighbours. -/
theorem trace_ordered (settings : Settings) (template : Template) :
    (report settings template).trace.IsChain LogEntry.Precedes ∧
    ((report settings template).trace.filterMap LogEntry.start?).Pairwise (· ≤ ·) := by
  cases mode : settings.forLiquidTag with
  | true =>
    rw [trace_report_of_liquidTag template mode]
    exact ⟨.nil, .nil⟩
  | false =>
    rw [trace_report template mode]
    exact ⟨Scan.isChain_ofPieces template, LogEntry.pairwise_start?_ofPieces 0 _⟩

/-- The log is a faithful account of a run. It tells the length and the mode, then the fallbacks,
and of a run that succeeds also the number of tokens. The trace of a `liquid` tag is empty. The
trace of a template cut at its markers has an entry for every fallback that the bytes call for where
the scan comes, and has no other; of a run that fails those are the fallbacks in front of the first
text, and of a run that succeeds they belong to all the pieces. The offsets in the trace never
decrease, and an entry with the offset of the one before is about a tag without a closer that
overtook an output. At most one entry is about an output without an end or a raw block without one.
What each entry tells is so: an output or a tag is opened at its offset, or the content of a raw
block begins there, and the last token is as an entry about a last piece says.

Proof: the trace is read off the pieces, and a scan comes in front of each of them, so a step that
records exactly the fallbacks that its bytes call for gives the entries of the whole run. Order and
exclusion come of the course of the pieces, each of which takes up bytes unless it is the last; and
what an entry tells is found by cases on the carving that recorded it. -/
theorem log_accounts_for_run (settings : Settings) (template : Template) :
    let run := report settings template
    let opened := LogEntry.opened template.length settings.forLiquidTag
    (∀ stream, run.outcome = .ok stream →
      run.log = opened :: run.trace ++ [.finished stream.remaining] ∧
      (settings.forLiquidTag = false →
        run.trace = LogEntry.ofPieces 0 template.uncheckedPieces)) ∧
    (∀ invalid, run.outcome = .error invalid →
      run.log = opened :: run.trace ∧
      run.trace = LogEntry.ofPieces 0 (template.uncheckedPieces.takeWhile (·.cause ≠ .text)) ∧
      ∃ carved first, Scan.TextAt template carved first ∧
        (∀ others later, Scan.TextAt template others later → first ≤ later) ∧
        ∀ entry ∈ run.trace, ∃ fallback start, entry = .fellBack fallback start ∧ start < first) ∧
    (settings.forLiquidTag = true → run.trace = []) ∧
    (settings.forLiquidTag = false → ∀ fallback start, .fellBack fallback start ∈ run.trace ↔
      ∃ carved context, Scan.ComesTo template carved context start ∧
        FallsBack template.encoding context (template.bytes.drop start) fallback) ∧
    (run.trace.filterMap LogEntry.start?).Pairwise (· ≤ ·) ∧
    run.trace.IsChain LogEntry.Precedes ∧
    run.trace.countP LogEntry.isLast ≤ 1 ∧
    ∀ before fallback start after, run.trace = before ++ .fellBack fallback start :: after →
      Told template.bytes run.outcome before after start fallback := by
  intro run opened
  have log := log_report settings template
  refine ⟨?_, ?_, trace_report_of_liquidTag template, fun markup _ _ => mem_trace_iff markup,
    (trace_ordered settings template).2, (trace_ordered settings template).1, ?_, ?_⟩
  · intro stream accepted
    rw [accepted] at log
    exact ⟨log, fun markup => trace_of_accepted markup accepted⟩
  · intro invalid refused
    rw [refused] at log
    exact ⟨log.trans (List.append_nil _), trace_of_refused refused,
      exists_firstText_of_refused refused⟩
  · apply countP_le_one_of_last
    intro before entry after entries isLast
    match entry, isLast with
    | .fellBack .openOutput start, _ =>
      cases told_of_trace entries with
      | openOutput _ _ _ last => exact last
    | .fellBack .openRaw start, _ =>
      cases told_of_trace entries with
      | openRaw last => exact last
  · intro before fallback start after
    exact told_of_trace

/-- In `{{a{%b%}{{{%{%{{` two outputs are overtaken, the second by a tag without a closer, another
tag has no closer either, and the last output does not end. In `{%raw%}x` nothing ends the raw
block, and in `{%a` with the byte `0xff` behind it the scan falls back on a bare opener and is
stopped at the text behind that. -/
theorem log_accounts_for_every_fallback :
    let outputs := Template.utf8
      [0x7b, 0x7b, 0x61, 0x7b, 0x25, 0x62, 0x25, 0x7d,
        0x7b, 0x7b, 0x7b, 0x25, 0x7b, 0x25, 0x7b, 0x7b]
    let block := Template.utf8 [0x7b, 0x25, 0x72, 0x61, 0x77, 0x25, 0x7d, 0x78]
    let faulty := Template.utf8 [0x7b, 0x25, 0x61, 0xff]
    (report {} outputs).log =
      [.opened 16 false, .fellBack .overtakenOutput 0, .fellBack .overtakenOutput 8,
        .fellBack .openTag 8, .fellBack .openTag 12, .fellBack .openOutput 14, .finished 4] ∧
    (report {} block).log = [.opened 8 false, .fellBack .openRaw 7, .finished 2] ∧
    (report {} faulty).log = [.opened 4 false, .fellBack .openTag 0] ∧
    Told outputs.bytes (report {} outputs).outcome [.fellBack .overtakenOutput 0]
      [.fellBack .openTag 8, .fellBack .openTag 12, .fellBack .openOutput 14] 8 .overtakenOutput ∧
    .fellBack .openRaw 7 ∈ (report {} block).trace ∧
    ∃ carved first, Scan.TextAt faulty carved first ∧ 0 < first := by
  intro outputs block faulty
  have outputsLog : (report {} outputs).log =
      [.opened 16 false, .fellBack .overtakenOutput 0, .fellBack .overtakenOutput 8,
        .fellBack .openTag 8, .fellBack .openTag 12, .fellBack .openOutput 14, .finished 4] := by
    decide +kernel
  have blockLog : (report {} block).log =
      [.opened 8 false, .fellBack .openRaw 7, .finished 2] := by
    decide +kernel
  have faultyLog : (report {} faulty).log = [.opened 4 false, .fellBack .openTag 0] := by
    decide +kernel
  have refused : (report {} faulty).outcome = .error { encoding := .utf8, offset := 3 } := by
    decide +kernel
  have outputsTrace : (report {} outputs).trace =
      [.fellBack .overtakenOutput 0] ++ .fellBack .overtakenOutput 8 ::
        [.fellBack .openTag 8, .fellBack .openTag 12, .fellBack .openOutput 14] := by
    rw [Report.trace, outputsLog]
    rfl
  have faultyTrace : (report {} faulty).trace = [.fellBack .openTag 0] := by
    rw [Report.trace, faultyLog]
    rfl
  let opening : Piece := .whole .tag [0x7b, 0x25, 0x72, 0x61, 0x77, 0x25, 0x7d]
  have taken : next? .utf8 .markup block.bytes = some ⟨opening, .raw⟩ := by
    decide +kernel
  have inBlock : Scan.ComesTo block [opening] .raw 7 :=
    @Scan.ComesTo.further block [] .markup 0 ⟨opening, .raw⟩ .start taken (by decide)
  have endless : ∀ offset ≤ 1, endsRaw .utf8 (List.drop offset [0x78]) = false := by
    decide +kernel
  obtain ⟨-, -, -, -, -, -, -, told⟩ := log_accounts_for_run {} outputs
  obtain ⟨-, -, -, exactly, -⟩ := log_accounts_for_run {} block
  obtain ⟨-, stopped, -⟩ := log_accounts_for_run {} faulty
  obtain ⟨-, -, carved, first, stands, -, inFront⟩ := stopped _ refused
  refine ⟨outputsLog, blockLog, faultyLog, told _ _ _ _ outputsTrace,
    (exactly rfl .openRaw 7).mpr ⟨_, _, inBlock, .openRaw endless⟩, carved, first, stands, ?_⟩
  obtain ⟨fallback, start, same, before⟩ := inFront (.fellBack .openTag 0) (by simp [faultyTrace])
  cases same
  exact before

end TokenStream

end TemplateTokens
