import TemplateTokens.Proofs.Waypoints

/-!
# Where raw blocks begin and end

A raw block is opened by a tag between markers that leads with `raw`, and by nothing else: not by an
output that a tag overtakes, whatever the tag leads with. If that tag has a closer, the content
begins behind the first one and runs up to the first tag from there on that leads with `endraw`.
Nothing else in the content has any effect, so the extent of a block is told by two least offsets in
the template.
-/

namespace TemplateTokens

/-- A step behind which a scan stands in a raw block was taken where a tag is opened, and not in a
raw block. -/
theorem Carving.opened_of_raw {encoding : Encoding} {context : Context} {bytes : Bytes}
    {step : Step} (carving : Carving encoding context bytes step) (inBlock : step.context = .raw) :
    context = .markup ∧ Bytes.tagOpener <+: bytes := by
  induction carving with
  | tag clean =>
    rw [List.append_assoc]
    exact ⟨rfl, List.prefix_append _ _⟩
  | openTag unclosed => exact ⟨rfl, List.prefix_append _ _⟩
  | endRaw ends carving inductionHypothesis =>
    -- The tag that ends a block leads with `endraw`, and so does not open another one.
    have taken := next?_of_tagOpener encoding (tagOpener_prefix_of_endsRaw ends)
    cases Option.some.inj (taken.symm.trans carving.next?_eq)
    obtain ⟨-, leads⟩ := Bool.and_eq_true_iff.mp ends
    exact absurd inBlock (by simp [Context.behindTag_of_endraw leads])
  | _ => exact absurd inBlock (by simp)

namespace Scan

variable {template : Template} {carved : List Piece} {start closer offset : Nat}

/-- Behind a tag with a closer that leads with `raw`, a scan stands in a raw block. -/
theorem ComesTo.rawTag (comes : ComesTo template carved .markup start)
    (opened : Bytes.tagOpener <+: template.bytes.drop start)
    (leads : Keyword.raw.leads template.encoding (template.bytes.drop (start + 2)) = true)
    (first : IsLeast (template.closersFrom (start + 2)) closer) :
    ComesTo template (carved ++ [.whole .tag (template.bytes.slice start (closer + 2))]) .raw
      (closer + 2) := by
  have tag := comes.tag opened (Template.ofTag_of_isLeast first)
  have behind := first.1.1
  have inside := first.1.2.length_le
  have length : (template.bytes.slice start (closer + 2)).length = closer + 2 - start := by
    simp only [List.length_cons, List.length_nil, List.length_drop] at inside
    rw [Bytes.slice, List.length_take, List.length_drop]
    omega
  rwa [Piece.whole, length, Context.behindTag, if_pos leads, Nat.add_sub_cancel' (by omega)] at tag

/-- A scan that stands in a raw block has just carved off a tag that leads with `raw`, in front of
which it stood between markers. -/
theorem ComesTo.exists_rawTag (comes : ComesTo template carved .raw offset) :
    ∃ before opening start, carved = before ++ [opening] ∧
      ComesTo template before .markup start ∧
      Bytes.tagOpener <+: template.bytes.drop start ∧
      Keyword.raw.leads template.encoding (template.bytes.drop (start + 2)) = true ∧
      template.TagAt start opening ∧ offset = start + opening.region.length := by
  generalize inBlock : Context.raw = context at comes
  cases comes with
  | start => exact absurd inBlock (by simp)
  | @further before context start step comes taken passes =>
    obtain ⟨rfl, opened⟩ := (next?_eq_some_iff.mp taken).opened_of_raw inBlock.symm
    rw [next?_of_tagOpener _ opened] at taken
    cases taken
    have leads : Keyword.raw.leads template.encoding (template.bytes.drop (start + 2)) = true := by
      rw [List.drop_drop] at inBlock
      unfold Context.behindTag at inBlock
      split at inBlock
      · assumption
      · exact absurd inBlock (by simp)
    exact ⟨before, _, start, rfl, comes, opened, leads, (Template.tagAt_iff opened).mpr rfl, rfl⟩

/-- The extent of raw blocks. The tokens of an accepted template are those of the pieces of its
scan. Wherever a scan stands between markers in front of a tag with a closer that leads with `raw`,
the content of the block begins behind the first closer and runs up to the first tag from there on
that leads with `endraw`. It is one token unless it is empty; then comes the tag that ends the
block, with or without a closer, and behind it the scan goes on between markers. If no tag ends the
block, the content is one token, possibly empty, and the last. A scan is nowhere in a raw block but
behind a tag that leads with `raw` and in front of which it stood between markers.

Proof: from a place between markers take the step of the opening tag, then that of the content if
there is any, and then that of the tag that ends the block; each is found by a leftmost search,
stated in offsets of the template. Conversely look at the last step before a place in a raw block:
no step but that of a tag leads there. -/
theorem raw_blocks_extend_to_endraw (template : Template) :
    (∀ settings stream, settings.forLiquidTag = false →
      TokenStream.ofTemplate settings template = .ok stream →
        stream.pending = (ofTemplate template).pieces.map Piece.token) ∧
    (∀ carved start closer, ComesTo template carved .markup start →
      Bytes.tagOpener <+: template.bytes.drop start →
      Keyword.raw.leads template.encoding (template.bytes.drop (start + 2)) = true →
      IsLeast (template.closersFrom (start + 2)) closer →
        let content := closer + 2
        let opening := Piece.whole .tag (template.bytes.slice start content)
        (∀ stop, IsLeast (template.rawEndsFrom content) stop →
          ∃ closing, template.TagAt stop closing ∧
            let block := opening ::
              (if content < stop then [.whole .raw (template.bytes.slice content stop)] else []) ++
                [closing]
            let after := stop + closing.region.length
            ComesTo template (carved ++ block) .markup after ∧
            ofTemplate template =
              (resume template (checkedBehind (carved ++ block)) .markup
                (template.bytes.drop after)).behind (carved ++ block)) ∧
        (template.rawEndsFrom content = ∅ →
          ofTemplate template =
            { pieces := carved ++ [opening, .whole .openRaw (template.bytes.drop content)]
              invalid? := none })) ∧
    (∀ carved offset, ComesTo template carved .raw offset →
      ∃ before opening start, carved = before ++ [opening] ∧
        ComesTo template before .markup start ∧
        Bytes.tagOpener <+: template.bytes.drop start ∧
        Keyword.raw.leads template.encoding (template.bytes.drop (start + 2)) = true ∧
        template.TagAt start opening ∧ offset = start + opening.region.length) := by
  refine ⟨?_, ?_, fun _ _ comes => comes.exists_rawTag⟩
  · intro settings stream markup accepted
    obtain ⟨samePieces, tokens⟩ := TokenStream.pending_of_accepted markup accepted
    rw [samePieces, tokens]
  · intro carved start closer comes opened leads first content opening
    have inBlock := comes.rawTag opened leads first
    constructor
    · intro stop ends
      have closes := (Template.tagAt_iff (tagOpener_prefix_of_endsRaw ends.1.2)).mpr rfl
      refine ⟨_, closes, ?_⟩
      intro block after
      have behind : ComesTo template (carved ++ block) .markup after := by
        simpa [block] using inBlock.rawContent ends rfl
      exact ⟨behind, behind.ofTemplate_eq⟩
    · intro nowhere
      rw [inBlock.openRaw nowhere, List.append_assoc]
      rfl

/-- In `{%raw%}"{{%}{%x{%endraw%}z` the content runs from the quote up to the tag that ends the
block, and behind that tag the scan stands between markers. -/
theorem raw_block_extends_over_markers :
    let opening : Bytes := [0x7b, 0x25, 0x72, 0x61, 0x77, 0x25, 0x7d]
    let content : Bytes := [0x22, 0x7b, 0x7b, 0x25, 0x7d, 0x7b, 0x25, 0x78]
    let closing : Bytes := [0x7b, 0x25, 0x65, 0x6e, 0x64, 0x72, 0x61, 0x77, 0x25, 0x7d]
    let template := Template.utf8 (opening ++ content ++ closing ++ [0x7a])
    Bytes.tagOpener <+: template.bytes.drop 0 ∧
    Keyword.raw.leads template.encoding (template.bytes.drop 2) = true ∧
    IsLeast (template.closersFrom 2) 5 ∧ IsLeast (template.rawEndsFrom 7) 15 ∧
    ComesTo template [.whole .tag opening, .whole .raw content, .whole .tag closing] .markup
      25 := by
  intro opening content closing template
  have opened : Bytes.tagOpener <+: template.bytes.drop 0 := ⟨_, rfl⟩
  have leads : Keyword.raw.leads template.encoding (template.bytes.drop 2) = true := by
    decide +kernel
  have first : IsLeast (template.closersFrom 2) (2 + 3) :=
    Template.isLeast_closersFrom_iff.mpr (by decide +kernel)
  have ends : IsLeast (template.rawEndsFrom 7) (7 + 8) :=
    Template.isLeast_rawEndsFrom_iff.mpr (by decide +kernel)
  obtain ⟨-, blocks, -⟩ := raw_blocks_extend_to_endraw template
  obtain ⟨ended, -⟩ := blocks [] 0 5 .start opened leads first
  obtain ⟨closingTag, isTag, comes, -⟩ := ended 15 ends
  obtain rfl := (Template.tagAt_iff ⟨_, rfl⟩).mp isTag
  exact ⟨opened, leads, first, ends, comes⟩

end Scan

end TemplateTokens
