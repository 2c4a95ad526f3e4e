import TemplateTokens.Proofs.Conservation

/-!
# Raw blocks

A tag whose body leads with `raw` opens a raw block, whose content runs up to the first tag that
leads with `endraw`, or up to the end of the template if there is none. The content is one token, or
none where there is nothing in front of the tag that ends the block, and it has every byte as it
stands.

Nothing in a token says that it is the content of a raw block. The parser knows it by its place: it
is behind the tag that opens the block. Its kind is read off its first two bytes like that of any
token, so content that begins with an opener has the kind of an output or of a tag.
-/

namespace TemplateTokens

/-- Whether a piece is a tag that did not overtake an output. -/
def Cause.isTag : Cause → Bool
  | .tag | .openTag => true
  | _ => false

/-- Behind a tag that leads with `raw` a scan stands in a raw block. That the tag has a closer is
not asked: the block is entered behind an opener that stands alone as well. -/
theorem Carving.context_of_raw {encoding : Encoding} {context : Context} {bytes : Bytes}
    {step : Step} (carving : Carving encoding context bytes step)
    (isTag : step.piece.cause.isTag = true)
    (opens : Keyword.raw.leads encoding (bytes.drop 2) = true) : step.context = .raw := by
  induction carving with
  | @tag body rest clean =>
    rw [List.append_assoc] at opens
    rw [← Context.behindTag_append encoding body rest, Context.behindTag]
    exact if_pos opens
  | openTag => exact if_pos opens
  | endRaw _ _ inductionHypothesis => exact inductionHypothesis isTag opens
  | _ => exact absurd isTag (by simp [Piece.whole, Cause.isTag])

/-- In a raw block what is carved off first is its content, unless there is none in front of the tag
that ends it, and the course goes on between markers. -/
theorem Course.raw_cases {encoding : Encoding} {bytes : Bytes} {carved : List Piece}
    (course : Course encoding .raw bytes carved) :
    ∃ content rest later, bytes = content ++ rest ∧
      (∀ offset < content.length, endsRaw encoding (bytes.drop offset) = false) ∧
      Course encoding .markup rest later ∧
      (rest = [] ∧ carved = [.whole .openRaw content] ∨
        endsRaw encoding rest = true ∧
          carved = (if content = [] then [] else [.whole .raw content]) ++ later) := by
  cases course with
  | @step _ rest step later carving tail =>
    generalize cut : step.piece.region ++ rest = bytes at carving
    cases carving with
    | openRaw endless =>
      obtain rfl : rest = [] := List.append_right_eq_self.mp cut
      obtain rfl : later = [] := tail.pieces_eq.symm.trans (pieces_nil encoding)
      refine ⟨bytes, [], [], (List.append_nil _).symm, ?_, tail, .inl ⟨rfl, rfl⟩⟩
      intro offset inside
      exact endless offset (Nat.le_of_lt inside)
    | @raw content behind nonempty inside ends =>
      obtain rfl : rest = behind := List.append_cancel_left cut
      exact ⟨content, rest, later, rfl, inside, tail, .inr ⟨ends, by rw [if_neg nonempty]; rfl⟩⟩
    | endRaw ends carving =>
      subst cut
      exact ⟨[], _, _, rfl, by simp, .step carving tail, .inr ⟨ends, rfl⟩⟩

/-- Where a tag is opened between markers, a tag is carved off. Whether it is closed does not
matter, since a tag without a closer is carved off as its opener. -/
theorem Course.exists_tag {encoding : Encoding} {bytes : Bytes} {carved : List Piece}
    (course : Course encoding .markup bytes carved) (opened : Bytes.tagOpener <+: bytes) :
    ∃ later, carved = .ofTag .tag .openTag bytes 2 :: later := by
  cases course with
  | done => exact absurd opened (by simp)
  | @step _ rest step later carving tail =>
    generalize step.piece.region ++ rest = bytes at carving opened
    obtain ⟨body, rfl⟩ := opened
    have taken := carving.next?_eq
    rw [next?_markup encoding (by simp), Step.ofMarkup_tagOpener] at taken
    cases taken
    exact ⟨later, rfl⟩

namespace Token

/-- The tokens with the kind of an output begin with the opener of one. The kind is read off the
bytes of the token, so it is not known from how the token was cut off. -/
theorem kind_eq_output_iff {token : Token} :
    token.kind = .output ↔ Bytes.outputOpener <+: token.bytes := by
  rw [kind, Kind.of, ← List.isPrefixOf_iff_prefix]
  split
  · next opened => simp [opened]
  · next unopened =>
    split <;> simp [unopened]

/-- The tokens with the kind of a tag begin with the opener of one. -/
theorem kind_eq_tag_iff {token : Token} :
    token.kind = .tag ↔ Bytes.tagOpener <+: token.bytes := by
  rw [kind, Kind.of, ← List.isPrefixOf_iff_prefix]
  split
  · next opened =>
    obtain ⟨rest, cut⟩ := List.isPrefixOf_iff_prefix.mp opened
    simp [← cut, show ¬ Bytes.percent = Bytes.openBrace by decide]
  · split
    · next opened => simp [opened]
    · next unopened => simp [unopened]

/-- The tokens with the kind of text do not begin with an opener. -/
theorem kind_eq_literal_iff {token : Token} : token.kind = .literal ↔ ¬ Opens token.bytes := by
  rw [Opens, ← kind_eq_output_iff, ← kind_eq_tag_iff]
  cases token.kind <;> simp

end Token

/-- A tag cut off where one is opened has the kind of a tag. -/
theorem Piece.kind_ofTag {bytes : Bytes} (opened : Bytes.tagOpener <+: bytes) :
    (ofTag .tag .openTag bytes 2).token.kind = .tag := by
  obtain ⟨body, rfl⟩ := opened
  rw [Token.kind_eq_tag_iff, ofTag]
  split
  · next hit _ => exact ⟨body.take hit.stop, by simp⟩
  · exact List.prefix_refl _

/-- The bytes from `start` up to `stop` are the content of a raw block: a tag that ends the block
stands at `stop`, unless the template ends there, and none stands in front of it. -/
structure Template.RawContent (template : Template) (start stop : Nat) : Prop where
  /-- The content is not behind its end. -/
  ordered : start ≤ stop
  /-- The content is in the template. -/
  within : stop ≤ template.length
  /-- No tag in the content ends the block. -/
  clean : ∀ offset, start ≤ offset → offset < stop →
    endsRaw template.encoding (template.bytes.drop offset) = false
  /-- The tag behind the content ends the block. -/
  ends : stop < template.length → endsRaw template.encoding (template.bytes.drop stop) = true

/-- Behind a tag that opens a raw block comes the content, which is one token unless nothing stands
in front of the tag that ends the block, and then that tag. -/
theorem Course.exists_rawContent {template : Template} {before after : List Piece}
    {opening : Piece}
    (course : Course template.encoding .markup template.bytes (before ++ opening :: after))
    (isTag : opening.cause.isTag = true)
    (opens : Keyword.raw.leads template.encoding
      (template.bytes.drop (Piece.extent before + 2)) = true) :
    let start := Piece.extent before + opening.region.length
    ∃ stop, template.RawContent start stop ∧
      ((stop = template.length ∧ after.map Piece.token = [⟨template.bytes.slice start stop⟩]) ∨
        (stop < template.length ∧ ∃ later,
          after.map Piece.token =
            (if start = stop then [] else [⟨template.bytes.slice start stop⟩]) ++
              (Piece.ofTag .tag .openTag (template.bytes.drop stop) 2).token :: later)) := by
  intro start
  obtain ⟨front, rest, within, next, source, length, carving, inBlock⟩ := course.exists_cut
  rw [source, ← length, ← List.drop_drop, List.drop_left] at opens
  obtain rfl : next = .raw := carving.context_of_raw isTag opens
  obtain ⟨content, behind, later, rfl, inside, tail, ending⟩ := inBlock.raw_cases
  have head : (front ++ opening.region).length = start := by
    rw [List.length_append, length]
  have cut : template.bytes = front ++ opening.region ++ (content ++ behind) := by
    rw [source, List.append_assoc]
  have size : template.length = start + content.length + behind.length := by
    rw [Template.length, cut, List.length_append, head, List.length_append]
    exact (Nat.add_assoc start content.length behind.length).symm
  have fromHead (distance : Nat) :
      template.bytes.drop (start + distance) = (content ++ behind).drop distance := by
    rw [cut, ← head, ← List.drop_drop, List.drop_left]
  have slice : template.bytes.slice start (start + content.length) = content :=
    Bytes.slice_of_cut _ behind cut head rfl
  have here : template.bytes.drop (start + content.length) = behind := by
    rw [fromHead, List.drop_left]
  have clean (offset : Nat) (behindStart : start ≤ offset)
      (before : offset < start + content.length) :
      endsRaw template.encoding (template.bytes.drop offset) = false := by
    obtain ⟨distance, rfl⟩ := Nat.exists_eq_add_of_le behindStart
    rw [fromHead]
    exact inside distance (by omega)
  rcases ending with ⟨rfl, rfl⟩ | ⟨ends, rfl⟩
  · have atEnd : start + content.length = template.length := size.symm
    refine ⟨start + content.length, ⟨by omega, by omega, clean, by omega⟩, .inl ⟨atEnd, ?_⟩⟩
    rw [slice]
    rfl
  · obtain ⟨others, rfl⟩ := tail.exists_tag (tagOpener_prefix_of_endsRaw ends)
    have opened := (tagOpener_prefix_of_endsRaw ends).length_le
    simp only [List.length_cons, List.length_nil] at opened
    refine ⟨start + content.length, ⟨by omega, by omega, clean, fun _ => here.symm ▸ ends⟩,
      .inr ⟨by omega, others.map Piece.token, ?_⟩⟩
    rw [slice, here]
    cases content <;> simp [Piece.whole]

namespace TokenStream

/-- What the content of a raw block is to the parser. Behind every tag of a template that opens a
raw block, the tokens go on with the content of the block and the tag that ends it, or with the
content alone if it runs to the end of the template. The content is one token of just the bytes in
between; only where the block is ended at once there is none. It has the kind of text unless it
begins with an opener, and if it does, the kind that goes with that opener. The tag that ends the
block always has the kind of a tag.

Proof: behind a tag that leads with `raw` the course goes on in a raw block. By its cases there is
the content and the tag that ends it, that tag alone, or the content up to the end. The kind is read
off the first two bytes, which for the tag are its opener. -/
theorem kind_of_rawContent {settings : Settings} {template : Template} {stream : TokenStream}
    (markup : settings.forLiquidTag = false)
    (accepted : ofTemplate settings template = .ok stream) {before after : List Piece}
    {opening : Piece} (cut : (Scan.ofTemplate template).pieces = before ++ opening :: after)
    (isTag : opening.cause.isTag = true)
    (opens : Keyword.raw.leads template.encoding
      (template.bytes.drop (Piece.extent before + 2)) = true) :
    let start := Piece.extent before + opening.region.length
    ∃ stop, template.RawContent start stop ∧
      let content : Token := ⟨template.bytes.slice start stop⟩
      let closing := (Piece.ofTag .tag .openTag (template.bytes.drop stop) 2).token
      let earlier := before.map Piece.token ++ [opening.token]
      ((stop = template.length ∧ stream.pending = earlier ++ [content]) ∨
        (stop < template.length ∧ closing.kind = .tag ∧ ∃ later, stream.pending =
          earlier ++ (if start = stop then [] else [content]) ++ closing :: later)) ∧
      (content.kind = .literal ↔ ¬ Opens content.bytes) ∧
      (content.kind = .output ↔ Bytes.outputOpener <+: content.bytes) ∧
      (content.kind = .tag ↔ Bytes.tagOpener <+: content.bytes) := by
  intro start
  obtain ⟨samePieces, tokens⟩ := pending_of_accepted markup accepted
  have course : Course template.encoding .markup template.bytes (before ++ opening :: after) := by
    rw [← cut, samePieces]
    exact course_pieces template.encoding .markup template.bytes
  obtain ⟨stop, contents, ending⟩ := course.exists_rawContent isTag opens
  have pending : stream.pending =
      before.map Piece.token ++ [opening.token] ++ after.map Piece.token := by
    rw [tokens, ← samePieces, cut]
    simp
  refine ⟨stop, contents, ?_, Token.kind_eq_literal_iff, Token.kind_eq_output_iff,
    Token.kind_eq_tag_iff⟩
  rw [pending]
  rcases ending with ⟨atEnd, same⟩ | ⟨inside, later, same⟩
  · exact .inl ⟨atEnd, by rw [same]⟩
  · have opened := tagOpener_prefix_of_endsRaw (contents.ends inside)
    exact .inr ⟨inside, Piece.kind_ofTag opened, later, by rw [same, ← List.append_assoc]⟩

/-- Not all content of raw blocks has the kind of text: in `{%raw%}{{x}}{%endraw%}` it has that of
an output. -/
theorem not_all_rawContent_literal :
    ¬ ∀ settings template stream, settings.forLiquidTag = false →
      ofTemplate settings template = .ok stream →
        ∀ piece ∈ (Scan.ofTemplate template).pieces,
          piece.cause = .raw ∨ piece.cause = .openRaw → piece.token.kind = .literal := by
  intro all
  let opening : Bytes := [0x7b, 0x25, 0x72, 0x61, 0x77, 0x25, 0x7d]
  let content : Bytes := [0x7b, 0x7b, 0x78, 0x7d, 0x7d]
  let closing : Bytes := [0x7b, 0x25, 0x65, 0x6e, 0x64, 0x72, 0x61, 0x77, 0x25, 0x7d]
  let template := Template.utf8 (opening ++ content ++ closing)
  have accepted : ofTemplate {} template =
      .ok (ofTokens {} [⟨opening⟩, ⟨content⟩, ⟨closing⟩]) := by
    decide +kernel
  have member : Piece.whole .raw content ∈ (Scan.ofTemplate template).pieces := by decide +kernel
  have isLiteral := all {} template _ rfl accepted _ member (.inl rfl)
  exact absurd isLiteral (by decide)

/-- In `{%raw%}{{x}}{%endraw%}` the content has the kind of an output, as the opener with which it
begins has. -/
theorem kind_of_output_in_rawBlock :
    let opening : Bytes := [0x7b, 0x25, 0x72, 0x61, 0x77, 0x25, 0x7d]
    let content : Bytes := [0x7b, 0x7b, 0x78, 0x7d, 0x7d]
    let closing : Bytes := [0x7b, 0x25, 0x65, 0x6e, 0x64, 0x72, 0x61, 0x77, 0x25, 0x7d]
    let template := Template.utf8 (opening ++ content ++ closing)
    let stream := ofTokens {} [⟨opening⟩, ⟨content⟩, ⟨closing⟩]
    ofTemplate {} template = .ok stream ∧
    (Scan.ofTemplate template).pieces =
      [] ++ .whole .tag opening :: [.whole .raw content, .whole .tag closing] ∧
    Keyword.raw.leads .utf8 (template.bytes.drop 2) = true ∧
    ∃ stop, template.RawContent 7 stop ∧ template.bytes.slice 7 stop = content ∧
      (⟨content⟩ : Token).kind = .output := by
  intro opening content closing template stream
  have accepted : ofTemplate {} template = .ok stream := by decide +kernel
  have pieces : (Scan.ofTemplate template).pieces =
      [] ++ .whole .tag opening :: [.whole .raw content, .whole .tag closing] := by
    decide +kernel
  have opens : Keyword.raw.leads .utf8 (template.bytes.drop 2) = true := by decide +kernel
  obtain ⟨stop, contents, ending, -, isOutput, -⟩ :=
    kind_of_rawContent rfl accepted pieces rfl opens
  have same : template.bytes.slice 7 stop = content := by
    rcases ending with ⟨-, pending⟩ | ⟨-, isTag, later, pending⟩
    · exact absurd (congrArg List.length pending) (by simp [stream, ofTokens])
    · split at pending
      · -- The token behind the opening tag would be a tag.
        injection pending with _ others
        injection others with same _
        rw [← same] at isTag
        exact absurd isTag (by decide)
      · injection pending with _ others
        injection others with same _
        injection same with same
        exact same.symm
  refine ⟨accepted, pieces, opens, stop, contents, same, ?_⟩
  rw [← same]
  exact isOutput.mpr (same ▸ ⟨_, rfl⟩)

end TokenStream

end TemplateTokens
