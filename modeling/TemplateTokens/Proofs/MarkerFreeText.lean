import TemplateTokens.Proofs.RawBlocks
import TemplateTokens.Proofs.Waypoints

/-!
# Text between markers

Text is carved off wherever a scan stands between markers and no opener stands in front of it, and
it runs up to the first opener, or up to the end of the template if there is none. A piece of text
is therefore a run of bytes without an opener that cannot be made longer, and an output or a tag
comes behind it.

The places where a scan stands are those of `Scan.ComesTo`, and openers are sought in the template
and not in what is left of it, so every offset below is an offset in the source. Braces that open
nothing are text like any other byte. Only accepted templates have tokens; about the pieces of a
scan that is stopped by a complaint nothing more is said here.
-/

namespace TemplateTokens

/-- The offsets from `start` on at which an opener stands. -/
def Template.openersFrom (template : Template) (start : Nat) : Set Nat :=
  {offset | start ≤ offset ∧ Opens (template.bytes.drop offset)}

/-- The bytes from `start` up to `stop` are a run without an opener: it is not empty, and the first
opener from `start` on stands at `stop`, or there is none and the template ends at `stop`. -/
structure Template.PlainRun (template : Template) (start stop : Nat) : Prop where
  /-- The run is not empty. -/
  nonempty : start < stop
  /-- The run ends with the first opener, or with the template. -/
  ends : IsLeast (template.openersFrom start) stop ∨
    template.openersFrom start = ∅ ∧ stop = template.length

/-- Text is carved off as a whole, up to the first opener, or up to the end if there is none. -/
theorem Carving.cut_of_text {encoding : Encoding} {context : Context} {bytes : Bytes} {step : Step}
    (carving : Carving encoding context bytes step) (isText : step.piece.cause = .text) :
    ∃ front rest, bytes = front ++ rest ∧ step = ⟨.whole .text front, .markup⟩ ∧ front ≠ [] ∧
      (∀ offset < front.length, ¬ Opens (bytes.drop offset)) ∧ (rest = [] ∨ Opens rest) := by
  induction carving with
  | @text front rest nonempty plain stops => exact ⟨front, rest, rfl, rfl, nonempty, plain, stops⟩
  | endRaw ends carving inductionHypothesis =>
    obtain ⟨-, -, plain⟩ := carving.eq_of_text isText
    exact absurd (.inr (tagOpener_prefix_of_endsRaw ends)) plain
  | _ => exact absurd isText (by simp [Piece.whole])

/-- A run of bytes up to the first opener, or up to the end if there is none, is a run of the
template that these bytes are in. -/
theorem Template.plainRun_of_cut {template : Template} {start : Nat} {front rest : Bytes}
    (cut : template.bytes.drop start = front ++ rest) (nonempty : front ≠ [])
    (plain : ∀ offset < front.length, ¬ Opens ((template.bytes.drop start).drop offset))
    (stops : rest = [] ∨ Opens rest) : template.PlainRun start (start + front.length) := by
  have positive := List.length_pos_iff.mpr nonempty
  have behind := Bytes.drop_of_cut cut
  have notEarlier {offset : Nat} (opens : offset ∈ template.openersFrom start) :
      start + front.length ≤ offset := by
    obtain ⟨distance, rfl⟩ := Nat.exists_eq_add_of_le opens.1
    apply Nat.le_of_not_lt
    intro before
    apply plain distance (by omega)
    rw [List.drop_drop]
    exact opens.2
  refine ⟨by omega, ?_⟩
  rcases stops with rfl | opened
  · have length := congrArg List.length cut
    simp only [List.length_drop, List.length_append, List.length_nil] at length
    have atEnd : start + front.length = template.length := by
      rw [Template.length]
      omega
    refine .inr ⟨Set.eq_empty_iff_forall_notMem.mpr ?_, atEnd⟩
    intro offset opens
    have beyond : template.length ≤ offset := Nat.le_trans (Nat.le_of_eq atEnd.symm) (notEarlier opens)
    exact absurd opens.2 (by simp [List.drop_of_length_le beyond, Opens])
  · exact .inl ⟨⟨Nat.le_add_right _ _, by rwa [behind]⟩, fun _ => notEarlier⟩

/-- No text is cut off as an output. -/
theorem Piece.ofOutput_cause_ne_text (bytes : Bytes) : (ofOutput bytes).cause ≠ .text := by
  unfold ofOutput
  split
  · simp [whole]
  · exact ofTag_cause_ne_text _ _ (by simp) (by simp)
  · simp

/-- Where an opener stands between markers, an output or a tag is carved off. -/
theorem Step.ofMarkup_of_opens (encoding : Encoding) {bytes : Bytes} (opened : Opens bytes) :
    (ofMarkup encoding bytes).piece.cause ≠ .text ∧
    (Bytes.outputOpener <+: bytes ∧ (ofMarkup encoding bytes).piece = .ofOutput bytes ∨
      Bytes.tagOpener <+: bytes ∧
        (ofMarkup encoding bytes).piece = .ofTag .tag .openTag bytes 2) := by
  rcases opened with ⟨body, rfl⟩ | ⟨body, rfl⟩
  · rw [ofMarkup_outputOpener]
    exact ⟨Piece.ofOutput_cause_ne_text _, .inl ⟨List.prefix_append _ _, rfl⟩⟩
  · rw [ofMarkup_tagOpener]
    exact ⟨Piece.ofTag_cause_ne_text _ _ (by simp) (by simp), .inr ⟨List.prefix_append _ _, rfl⟩⟩

namespace TokenStream

/-- Text tokens are the longest runs without an opener. In an accepted template, wherever a scan
stands between markers in front of a byte and no opener, text is carved off. Each piece of text, of
all those that are carved off, is such a run: it is not empty, it ends in front of the first opener
or with the template, and its token is just these bytes, has the kind of text and no opener in it.
Behind it the scan stands between markers. With the template nothing more comes; in front of an
opener an output or a tag comes next, and no other text.

Proof: take the step in front of each piece of text. Its carving says that no opener stands before
the end of the piece and that one stands there, or nothing does; the next step begins there, between
markers, and is that of the opener. -/
theorem text_tokens_are_plain_runs {settings : Settings} {template : Template}
    {stream : TokenStream} (markup : settings.forLiquidTag = false)
    (accepted : ofTemplate settings template = .ok stream) :
    let carved := (Scan.ofTemplate template).pieces
    stream.pending = carved.map Piece.token ∧
    (∀ before start, Scan.ComesTo template before .markup start → start < template.length →
      ¬ Opens (template.bytes.drop start) →
        ∃ piece after, carved = before ++ piece :: after ∧ piece.cause = .text) ∧
    ∀ before piece after, carved = before ++ piece :: after → piece.cause = .text →
      let start := Piece.extent before
      let stop := start + piece.token.length
      template.PlainRun start stop ∧
      piece.token.bytes = template.bytes.slice start stop ∧
      piece.token.kind = .literal ∧
      ¬ Bytes.outputOpener <:+: piece.token.bytes ∧ ¬ Bytes.tagOpener <:+: piece.token.bytes ∧
      Scan.ComesTo template (before ++ [piece]) .markup stop ∧
      (stop = template.length → after = []) ∧
      (stop < template.length → ∃ next later, after = next :: later ∧ next.cause ≠ .text ∧
        (Bytes.outputOpener <+: template.bytes.drop stop ∧
            next = .ofOutput (template.bytes.drop stop) ∨
          Bytes.tagOpener <+: template.bytes.drop stop ∧
            next = .ofTag .tag .openTag (template.bytes.drop stop) 2)) := by
  intro carved
  obtain ⟨samePieces, tokens⟩ := pending_of_accepted markup accepted
  have sameCarved : carved = template.uncheckedPieces := samePieces
  refine ⟨by rw [tokens, sameCarved], ?_, ?_⟩
  · intro before start comes inside plain
    obtain ⟨later, cut⟩ := comes.exists_next inside
    rw [Step.ofMarkup_of_not_opens _ plain] at cut
    exact ⟨_, later, sameCarved.trans cut, Piece.ofText_cause _⟩
  · intro before piece after cut isText start stop
    obtain ⟨context, comes⟩ := Scan.exists_comesTo cut
    obtain ⟨next, taken, further⟩ := comes.exists_further cut
    obtain ⟨front, rest, remaining, same, nonempty, plain, stops⟩ :=
      (next?_eq_some_iff.mp taken).cut_of_text isText
    cases same
    obtain ⟨noOutput, noTag, -⟩ := (plain_iff stops).mp (remaining ▸ plain)
    have notOpened : ¬ Opens front := by
      rintro (opened | opened)
      · exact noOutput opened.isInfix
      · exact noTag opened.isInfix
    have slice : front = template.bytes.slice start stop := by
      rw [Bytes.slice, Nat.add_sub_cancel_left, remaining]
      exact List.take_left.symm
    refine ⟨Template.plainRun_of_cut remaining nonempty plain stops, slice,
      Token.kind_eq_literal_iff.mpr notOpened, noOutput, noTag, further, ?_, ?_⟩
    · intro atEnd
      have complete := further.ofTemplate_eq_of_end (Nat.le_of_eq atEnd.symm)
      have nothing := cut.symm.trans (congrArg Scan.pieces complete)
      simpa using nothing
    · intro inside
      have opened : Opens (template.bytes.drop stop) := by
        have behind : template.bytes.drop stop = rest := Bytes.drop_of_cut remaining
        have left : rest ≠ [] := by
          rw [← behind, ne_eq, List.drop_eq_nil_iff]
          exact Nat.not_le_of_lt inside
        exact behind.symm ▸ stops.resolve_left left
      obtain ⟨later, goesOn⟩ := further.exists_next inside
      rw [← sameCarved, cut, List.append_assoc, List.append_cancel_left_eq] at goesOn
      cases goesOn
      exact ⟨_, later, rfl, Step.ofMarkup_of_opens template.encoding opened⟩

/-- In `a{ {}{{x}}` the braces in front of the output open nothing, and are text together with what
is around them. -/
theorem text_token_with_lone_braces :
    let text : Bytes := [0x61, 0x7b, 0x20, 0x7b, 0x7d]
    let output : Bytes := [0x7b, 0x7b, 0x78, 0x7d, 0x7d]
    let template := Template.utf8 (text ++ output)
    ofTemplate {} template = .ok (ofTokens {} [⟨text⟩, ⟨output⟩]) ∧
    (Scan.ofTemplate template).pieces = [] ++ .whole .text text :: [.whole .output output] ∧
    template.PlainRun 0 5 ∧ (⟨text⟩ : Token).kind = .literal := by
  intro text output template
  have accepted : ofTemplate {} template = .ok (ofTokens {} [⟨text⟩, ⟨output⟩]) := by
    decide +kernel
  have cut : (Scan.ofTemplate template).pieces =
      [] ++ .whole .text text :: [.whole .output output] := by
    decide +kernel
  obtain ⟨-, -, runs⟩ := text_tokens_are_plain_runs rfl accepted
  obtain ⟨run, -, isLiteral, -⟩ := runs [] (.whole .text text) _ cut rfl
  exact ⟨accepted, cut, run, isLiteral⟩

end TokenStream

end TemplateTokens
