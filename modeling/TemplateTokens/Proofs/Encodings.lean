import TemplateTokens.Proofs.Boundaries
import TemplateTokens.Proofs.Validation

/-!
# What the encoding decides

A scan asks the encoding two things only: at the first text, whether the whole template is sound,
and behind the keywords `raw` and `endraw`, whether a word character follows. The first can stop a
scan but does not change its pieces. The second has the same answer in all encodings unless a byte
above ASCII follows the keyword, and in the encodings other than UTF-8 even then. Two encodings that
answer it alike wherever a tag may be opened carve a template alike, step by step
(`Carving.of_readsAlike`) and therefore as a whole.
-/

namespace TemplateTokens

namespace Encoding

/-- In front of an ASCII byte, and at the end, all encodings see a word character or none. -/
theorem startsWithWord_eq_of_head (encoding other : Encoding) {bytes : Bytes}
    (low : ∀ byte ∈ bytes.head?, byte < 0x80) :
    encoding.startsWithWord bytes = other.startsWithWord bytes := by
  cases bytes with
  | nil => rfl
  | cons lead rest =>
    have isAscii : Bytes.isAscii lead = true := decide_eq_true (low lead rfl)
    rw [startsWithWord, startsWithWord, if_pos isAscii, if_pos isAscii]

/-- The encodings other than UTF-8 have the same word characters. -/
theorem startsWithWord_ascii (bytes : Bytes) :
    ascii.startsWithWord bytes = binary.startsWithWord bytes := by
  cases bytes with
  | nil => rfl
  | cons lead rest => rfl

/-- Bytes that are all ASCII are sound in all encodings. For UTF-8 this is a fact about segments,
and for the others about single bytes. -/
theorem sound_of_ascii (encoding : Encoding) {bytes : Bytes} (low : ∀ byte ∈ bytes, byte < 0x80) :
    encoding.Sound bytes := by
  cases encoding with
  | utf8 => exact Utf8.firstIllFormed?_of_ascii low
  | ascii =>
    simp only [Sound, firstFault?, List.findIdx?_eq_none_iff]
    intro byte member
    simp [Bytes.isAscii, low byte member]
  | binary => rfl

/-- Two encodings tell alike which tags could open or end a raw block, wherever in a string a tag
body may begin. -/
def ReadsAlike (encoding other : Encoding) (bytes : Bytes) : Prop :=
  ∀ body, body <:+ bytes → ∀ keyword ∈ [Keyword.raw, Keyword.endraw],
    keyword.leads encoding body = keyword.leads other body

namespace ReadsAlike

variable {encoding other : Encoding} {bytes : Bytes} (alike : encoding.ReadsAlike other bytes)
include alike

/-- What holds of a string holds of its ends. A scan asks about what is left of its bytes, which is
a suffix at every step. -/
theorem of_suffix {rest : Bytes} (suffix : rest <:+ bytes) : encoding.ReadsAlike other rest :=
  fun body inside => alike body (inside.trans suffix)

/-- Behind a tag both scans stand in the same place. The keyword is looked for in the body of the
tag, which is a suffix of the bytes that are read alike. -/
theorem behindTag_eq : Context.behindTag encoding bytes = Context.behindTag other bytes := by
  rw [Context.behindTag, Context.behindTag, alike bytes (List.suffix_refl bytes) _ (by simp)]

/-- A raw block ends for both or for neither. Both take the keyword for a word of its own at the
same places. -/
theorem endsRaw_eq : endsRaw encoding bytes = endsRaw other bytes := by
  rw [endsRaw, endsRaw, alike (bytes.drop 2) (List.drop_suffix 2 bytes) _ (by simp)]

/-- A raw block ends for both or for neither, at any place of a string. -/
theorem endsRaw_drop_eq (offset : Nat) :
    endsRaw encoding (bytes.drop offset) = endsRaw other (bytes.drop offset) :=
  (alike.of_suffix (List.drop_suffix offset bytes)).endsRaw_eq

end ReadsAlike

end Encoding

/-- A keyword leads a body in both encodings or in neither if the two agree on what follows the
keyword in it. -/
theorem Keyword.leads_congr {keyword : Keyword} {encoding other : Encoding} {body : Bytes}
    (same : ∀ rest, keyword.name ++ rest <:+ body →
      encoding.startsWithWord rest = other.startsWithWord rest) :
    keyword.leads encoding body = keyword.leads other body := by
  rw [Bool.eq_iff_iff, leads_iff, leads_iff]
  apply and_congr_right
  rintro ⟨rest, named⟩
  rw [← named, List.drop_left, same rest]
  rw [named]
  exact List.drop_suffix _ body

/-- Two encodings that read the keywords alike make the same cut. The encoding comes into the rules
only where they ask about a keyword. -/
theorem Carving.of_readsAlike {encoding other : Encoding} {context : Context} {bytes : Bytes}
    {step : Step} (alike : encoding.ReadsAlike other bytes)
    (carving : Carving encoding context bytes step) : Carving other context bytes step := by
  induction carving with
  | text nonempty plain stops => exact .text nonempty plain stops
  | @tag body rest clean =>
    have sameContext : Context.behindTag encoding (body ++ Bytes.tagCloser) =
        Context.behindTag other (body ++ Bytes.tagCloser) := by
      rw [← Context.behindTag_append encoding body rest, ← Context.behindTag_append other body rest]
      exact (alike.of_suffix ⟨Bytes.tagOpener, by simp⟩).behindTag_eq
    rw [sameContext]
    exact .tag clean
  | openTag unclosed =>
    rw [(alike.of_suffix (List.suffix_append _ _)).behindTag_eq]
    exact .openTag unclosed
  | output complete => exact .output complete
  | overtaken complete clean => exact .overtaken complete clean
  | overtakenOpen complete unclosed => exact .overtakenOpen complete unclosed
  | openOutput endless => exact .openOutput endless
  | openRaw endless =>
    refine .openRaw fun offset inside => ?_
    rw [← alike.endsRaw_drop_eq, endless offset inside]
  | raw nonempty inside ends =>
    refine .raw nonempty (fun offset before => ?_) ?_
    · rw [← alike.endsRaw_drop_eq, inside offset before]
    · rw [← (alike.of_suffix (List.suffix_append _ _)).endsRaw_eq, ends]
  | endRaw ends carving inductionHypothesis =>
    exact .endRaw (alike.endsRaw_eq ▸ ends) (inductionHypothesis alike)

/-- Two encodings that read the keywords alike cut a string into the same pieces. Whether the bytes
are sound in either encoding is not asked, since nothing is checked. -/
theorem Course.of_readsAlike {encoding other : Encoding} {context : Context} {bytes : Bytes}
    {carved : List Piece} (alike : encoding.ReadsAlike other bytes)
    (course : Course encoding context bytes carved) : Course other context bytes carved := by
  induction course with
  | done => exact .done
  | step carving tail inductionHypothesis =>
    exact .step (carving.of_readsAlike alike)
      (inductionHypothesis (alike.of_suffix (List.suffix_append _ _)))

/-- No byte above ASCII stands right behind the letters `raw`, be it as a keyword, at the end of
`endraw` or anywhere else. -/
def Bytes.AsciiBehindRaw (bytes : Bytes) : Prop :=
  ∀ byte rest, Keyword.raw.name ++ byte :: rest <:+ bytes → byte < 0x80

/-- Where only ASCII follows the letters `raw`, all encodings read the keywords alike. The encodings
agree on ASCII characters, and no other byte is ever tested for being part of a word. -/
theorem Bytes.AsciiBehindRaw.readsAlike {bytes : Bytes} (low : bytes.AsciiBehindRaw)
    (encoding other : Encoding) : encoding.ReadsAlike other bytes := by
  intro body suffix keyword member
  have endsWithRaw : Keyword.raw.name <:+ keyword.name := by
    simp only [List.mem_cons, List.not_mem_nil, or_false] at member
    rcases member with rfl | rfl <;> decide
  obtain ⟨front, name⟩ := endsWithRaw
  apply Keyword.leads_congr
  intro rest inside
  apply Encoding.startsWithWord_eq_of_head
  intro byte first
  obtain ⟨tail, rfl⟩ := List.head?_eq_some_iff.mp first
  apply low byte tail
  rw [← name, List.append_assoc] at inside
  exact (List.suffix_append front _).trans (inside.trans suffix)

namespace TokenStream

/-- Templates of the same bytes with the same pieces have the same report, if both are accepted. -/
theorem report_eq_of_readsAlike {settings : Settings} {bytes : Bytes} {encoding other : Encoding}
    {stream otherStream : TokenStream} (markup : settings.forLiquidTag = false)
    (accepted : ofTemplate settings ⟨bytes, encoding⟩ = .ok stream)
    (otherAccepted : ofTemplate settings ⟨bytes, other⟩ = .ok otherStream)
    (alike : encoding.ReadsAlike other bytes) :
    report settings ⟨bytes, encoding⟩ = report settings ⟨bytes, other⟩ := by
  have samePieces : Template.uncheckedPieces ⟨bytes, other⟩ =
      Template.uncheckedPieces ⟨bytes, encoding⟩ :=
    ((course_pieces encoding .markup bytes).of_readsAlike alike).pieces_eq
  rw [report_eq_of_accepted markup accepted, report_eq_of_accepted markup otherAccepted, samePieces]
  rfl

/-- How the encodings agree on the same bytes. The lines of a `liquid` tag are the same in all of
them. A template cut at its markers that is accepted as ASCII has the report that it has as binary,
tokens, lines and log; and so has one that is accepted as UTF-8, provided that no byte above ASCII
stands right behind the letters `raw`. Bytes that are all ASCII are accepted in all three encodings
with one report.

Proof: the encoding is consulted only for the end of `raw` and `endraw`. Where the byte behind these
letters is ASCII it decides alike in every encoding, so by induction on the course all carvings and
contexts agree, and with them tokens, lines and entries. ASCII bytes are sound in all three
encodings, and satisfy the condition. -/
theorem report_agrees_across_encodings (settings : Settings) (bytes : Bytes) :
    (settings.forLiquidTag = true → ∀ encoding other : Encoding,
      report settings ⟨bytes, encoding⟩ = report settings ⟨bytes, other⟩) ∧
    (settings.forLiquidTag = false →
      ((∃ stream, ofTemplate settings ⟨bytes, .ascii⟩ = .ok stream) →
        report settings ⟨bytes, .ascii⟩ = report settings ⟨bytes, .binary⟩) ∧
      ((∃ stream, ofTemplate settings ⟨bytes, .utf8⟩ = .ok stream) → bytes.AsciiBehindRaw →
        report settings ⟨bytes, .utf8⟩ = report settings ⟨bytes, .binary⟩)) ∧
    ((∀ byte ∈ bytes, byte < 0x80) →
      ∃ stream log, ∀ encoding : Encoding,
        report settings ⟨bytes, encoding⟩ = { outcome := .ok stream, log }) := by
  have inLiquidTag (liquid : settings.forLiquidTag = true) (encoding other : Encoding) :
      report settings ⟨bytes, encoding⟩ = report settings ⟨bytes, other⟩ := by
    rw [report, report, if_pos liquid, if_pos liquid]
    rfl
  obtain ⟨binaryStream, binaryAccepted⟩ : ∃ stream, ofTemplate settings ⟨bytes, .binary⟩ = .ok stream :=
    exists_ofTemplate_of_sound settings rfl
  refine ⟨inLiquidTag, ?_, ?_⟩
  · intro markup
    constructor
    · rintro ⟨stream, accepted⟩
      apply report_eq_of_readsAlike markup accepted binaryAccepted
      intro body _ keyword _
      exact Keyword.leads_congr fun rest _ => Encoding.startsWithWord_ascii rest
    · rintro ⟨stream, accepted⟩ low
      exact report_eq_of_readsAlike markup accepted binaryAccepted (low.readsAlike .utf8 .binary)
  · intro low
    have lowBehindRaw : bytes.AsciiBehindRaw := by
      intro byte rest suffix
      exact low byte (suffix.subset (by simp))
    have accepted (encoding : Encoding) :
        ∃ stream, ofTemplate settings ⟨bytes, encoding⟩ = .ok stream :=
      exists_ofTemplate_of_sound settings (encoding.sound_of_ascii low)
    have sameReport (encoding : Encoding) :
        report settings ⟨bytes, encoding⟩ = report settings ⟨bytes, .binary⟩ := by
      cases mode : settings.forLiquidTag with
      | true => exact inLiquidTag mode encoding .binary
      | false =>
        obtain ⟨stream, acceptedHere⟩ := accepted encoding
        exact report_eq_of_readsAlike mode acceptedHere binaryAccepted
          (lowBehindRaw.readsAlike encoding .binary)
    refine ⟨binaryStream, (report settings ⟨bytes, .binary⟩).log, ?_⟩
    intro encoding
    rw [sameReport encoding, ← binaryAccepted]
    rfl

/-- In the template `é{%raw%}{{` a byte above ASCII stands in the text but none behind `raw`, so it
has one report as UTF-8 and as binary, and the line end and the `{%raw` of an ASCII template are
read in all encodings alike. -/
theorem report_agrees_on_wide_text :
    let settings : Settings := { countLines := true }
    let wide : Bytes := [0xc3, 0xa9, 0x7b, 0x25, 0x72, 0x61, 0x77, 0x25, 0x7d, 0x7b, 0x7b]
    let narrow : Bytes := [0x0a, 0x7b, 0x25, 0x72, 0x61, 0x77]
    let stream := ofTokens settings
      [⟨[0xc3, 0xa9]⟩, ⟨[0x7b, 0x25, 0x72, 0x61, 0x77, 0x25, 0x7d]⟩, ⟨[0x7b, 0x7b]⟩]
    settings.forLiquidTag = false ∧ wide.AsciiBehindRaw ∧
    ofTemplate settings ⟨wide, .utf8⟩ = .ok stream ∧
    report settings ⟨wide, .utf8⟩ = report settings ⟨wide, .binary⟩ ∧
    (∀ byte ∈ narrow, byte < 0x80) ∧
    report settings ⟨narrow, .utf8⟩ = report settings ⟨narrow, .ascii⟩ := by
  intro settings wide narrow stream
  have accepted : ofTemplate settings ⟨wide, .utf8⟩ = .ok stream := by decide +kernel
  have lowBehindRaw : wide.AsciiBehindRaw := by
    intro byte rest suffix
    simp [wide, Keyword.raw, List.suffix_cons_iff] at suffix
    rw [suffix.1]
    decide
  have low : ∀ byte ∈ narrow, byte < 0x80 := by decide +kernel
  obtain ⟨-, cutAtMarkers, -⟩ := report_agrees_across_encodings settings wide
  obtain ⟨-, -, allAscii⟩ := report_agrees_across_encodings settings narrow
  obtain ⟨_, _, sameReport⟩ := allAscii low
  refine ⟨rfl, lowBehindRaw, accepted, (cutAtMarkers rfl).2 ⟨stream, accepted⟩ lowBehindRaw, low, ?_⟩
  rw [sameReport .utf8, sameReport .ascii]

end TokenStream

end TemplateTokens
