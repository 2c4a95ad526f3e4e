import TemplateTokens.Scan
import TemplateTokens.Proofs.Lookahead
import TemplateTokens.Proofs.Output
import TemplateTokens.Proofs.Search

/-!
# What a step of a scan can do

A step carves a piece off the front of the bytes that remain. `Carving` lists the ways in which it
can, each as a cut of those bytes into a region and a rest, with the condition under which it is
made and the token that comes of it. The step function makes exactly these cuts
(`next?_eq_some_iff`), and a scan without a check of the encoding is a course of them (`Course`).
Every fact about whole scans is proved by cases on a carving and by induction on a course.

The conditions speak of the region where the region alone decides: the keyword of a tag with a
closer and the ending of an output that has one are settled by the bytes up to there.
-/

namespace TemplateTokens

/-- An opener stands at the front. -/
def Opens (bytes : Bytes) : Prop := Bytes.outputOpener <+: bytes ∨ Bytes.tagOpener <+: bytes

/-- Whether an opener stands at the front can be computed. -/
instance (bytes : Bytes) : Decidable (Opens bytes) :=
  inferInstanceAs (Decidable (Bytes.outputOpener <+: bytes ∨ Bytes.tagOpener <+: bytes))

/-- The search for the end of text looks for openers. The two bytes that may follow the brace in the
search are the second bytes of the two openers. -/
theorem beginsPair_iff_opens {bytes : Bytes} :
    Needle.beginsPair Bytes.openBrace [Bytes.openBrace, Bytes.percent] bytes = true ↔
      Opens bytes := by
  match bytes with
  | [] => simp [Needle.beginsPair, Opens]
  | [_] => simp [Needle.beginsPair, Opens]
  | first :: next :: _ =>
    simp only [Needle.beginsPair, Opens, Bool.and_eq_true, beq_iff_eq, List.contains_cons,
      List.contains_nil, Bool.or_false, Bool.or_eq_true, List.cons_prefix_cons, List.nil_prefix,
      and_true]
    rw [← and_or_left, eq_comm, @eq_comm _ next, @eq_comm _ next]

/-- A marker of two bytes begins nowhere in front of a byte exactly if it is not inside what stands
there and the last byte of that does not make one with the byte behind. -/
theorem forall_not_prefix_drop_iff {first next follow : UInt8} (front rest : Bytes) :
    (∀ offset < front.length, ¬ [first, next] <+: (front ++ follow :: rest).drop offset) ↔
      ¬ [first, next] <:+: front ∧ ¬ (front.getLast? = some first ∧ follow = next) := by
  induction front with
  | nil => simp
  | cons byte front inductionHypothesis =>
    have apart : (∀ offset < (byte :: front).length,
        ¬ [first, next] <+: (byte :: front ++ follow :: rest).drop offset) ↔
          ¬ [first, next] <+: byte :: (front ++ follow :: rest) ∧
          ∀ offset < front.length, ¬ [first, next] <+: (front ++ follow :: rest).drop offset := by
      constructor
      · intro nowhere
        constructor
        · exact nowhere 0 (by simp)
        · intro offset before
          exact nowhere (offset + 1) (by simpa using before)
      · rintro ⟨notFirst, notLater⟩ offset before
        cases offset with
        | zero => exact notFirst
        | succ offset => exact notLater offset (by simpa using before)
    rw [apart, inductionHypothesis, List.infix_cons_iff]
    cases front with
    | nil => simp [@eq_comm _ first byte, @eq_comm _ next follow]
    | cons second front => simp [and_assoc]

/-- A marker of two different bytes stands nowhere in front of its own first byte exactly if it is
not inside what stands there. -/
theorem forall_not_prefix_drop_iff_of_ne {first next : UInt8} (different : first ≠ next)
    (front rest : Bytes) :
    (∀ offset < front.length, ¬ [first, next] <+: (front ++ first :: rest).drop offset) ↔
      ¬ [first, next] <:+: front := by
  rw [forall_not_prefix_drop_iff]
  simp [different]

/-- A string stands nowhere in another exactly if it begins at no offset. A search tells of offsets
and the grammar of parts of a string, and this leads from one to the other. -/
theorem forall_not_prefix_drop_iff_not_infix {sought bytes : Bytes} (nonempty : sought ≠ []) :
    (∀ offset < bytes.length, ¬ sought <+: bytes.drop offset) ↔ ¬ sought <:+: bytes := by
  constructor
  · rintro nowhere ⟨front, back, rfl⟩
    have inside : front.length < (front ++ sought ++ back).length := by
      have positive := List.length_pos_iff.mpr nonempty
      simp only [List.length_append]
      omega
    apply nowhere front.length inside
    rw [List.append_assoc, List.drop_left]
    exact List.prefix_append sought back
  · intro nowhere offset inside begins
    exact nowhere (begins.isInfix.trans (List.drop_suffix offset bytes).isInfix)

/-- Text up to an opener, or up to the end, in the terms of the grammar. The last byte of the text
matters because an opener may lie across the end of the text, with a brace on either side. -/
theorem plain_iff {front rest : Bytes} (stops : rest = [] ∨ Opens rest) :
    (∀ offset < front.length, ¬ Opens ((front ++ rest).drop offset)) ↔
      ¬ Bytes.outputOpener <:+: front ∧ ¬ Bytes.tagOpener <:+: front ∧
      (rest = [] ∨ front.getLast? ≠ some Bytes.openBrace) := by
  have apart : (∀ offset < front.length, ¬ Opens ((front ++ rest).drop offset)) ↔
      (∀ offset < front.length, ¬ Bytes.outputOpener <+: (front ++ rest).drop offset) ∧
      ∀ offset < front.length, ¬ Bytes.tagOpener <+: (front ++ rest).drop offset := by
    simp only [Opens, not_or]
    exact forall₂_and
  have brace : rest = [] ∨ ∃ tail, rest = Bytes.openBrace :: tail := by
    rcases stops with atEnd | ⟨tail, rfl⟩ | ⟨tail, rfl⟩
    · exact .inl atEnd
    · exact .inr ⟨_, rfl⟩
    · exact .inr ⟨_, rfl⟩
  rw [apart]
  rcases brace with rfl | ⟨tail, rfl⟩
  · rw [List.append_nil, forall_not_prefix_drop_iff_not_infix (by simp),
      forall_not_prefix_drop_iff_not_infix (by simp)]
    simp
  · have noTag : ¬ Bytes.openBrace = Bytes.percent := by decide
    rw [forall_not_prefix_drop_iff, forall_not_prefix_drop_iff]
    simp only [and_true, noTag, and_false, not_false_eq_true, List.cons_ne_nil, false_or]
    rw [and_right_comm, and_assoc]

/-- The closer of a tag is found behind the bytes that do not contain one. The body may end with a
percent sign, since what follows it is another one and not a brace. -/
theorem find?_tagCloser {body : Bytes} (rest : Bytes) (clean : ¬ Bytes.tagCloser <:+: body) :
    (Needle.literal Bytes.tagCloser).find? (body ++ Bytes.tagCloser ++ rest) =
      some ⟨body.length, 2⟩ := by
  refine Needle.find?_literal_eq_some_iff.mpr ⟨body, rest, rfl, rfl, ?_⟩
  have nowhere :=
    (forall_not_prefix_drop_iff_of_ne (by decide) body (Bytes.closeBrace :: rest)).mpr clean
  simpa using nowhere

/-- Bytes have no closer of a tag in them, or are cut by their first one. The cases of a tag are
split along this, so that the offset a search returns does not come up. -/
theorem tagCloser_cut (bytes : Bytes) :
    ¬ Bytes.tagCloser <:+: bytes ∨
      ∃ body rest, bytes = body ++ Bytes.tagCloser ++ rest ∧ ¬ Bytes.tagCloser <:+: body := by
  cases search : (Needle.literal Bytes.tagCloser).find? bytes with
  | none => exact .inl (Needle.find?_literal_eq_none_iff.mp search)
  | some hit =>
    obtain ⟨body, rest, rfl, -, notEarlier⟩ := Needle.find?_literal_eq_some_iff.mp search
    refine .inr ⟨body, rest, rfl, ?_⟩
    apply (forall_not_prefix_drop_iff_of_ne (by decide) body (Bytes.closeBrace :: rest)).mp
    simpa using notEarlier

namespace Piece

/-- A tag with a closer takes up the bytes up to its end, and its token as many of them as lie
behind the bytes passed beforehand, and two more. -/
theorem ofTag_of_closed (closed unclosed : Cause) {front body : Bytes} {passed : Nat} (rest : Bytes)
    (length : front.length = passed) (opened : 2 ≤ passed) (clean : ¬ Bytes.tagCloser <:+: body) :
    ofTag closed unclosed (front ++ (body ++ Bytes.tagCloser) ++ rest) passed =
      { cause := closed
        region := front ++ (body ++ Bytes.tagCloser)
        token := ⟨(front ++ (body ++ Bytes.tagCloser)).take (body.length + 4)⟩ } := by
  have whole : (front ++ (body ++ Bytes.tagCloser)).length = passed + (body.length + 2) := by
    simp [length]
  have behind : (front ++ (body ++ Bytes.tagCloser) ++ rest).drop passed =
      body ++ Bytes.tagCloser ++ rest := by
    rw [List.append_assoc, List.drop_left' length]
  have token : (front ++ (body ++ Bytes.tagCloser) ++ rest).take (body.length + 2 + 2) =
      (front ++ (body ++ Bytes.tagCloser)).take (body.length + 4) :=
    List.take_append_of_le_length (by omega)
  rw [ofTag, behind, find?_tagCloser rest clean]
  simp only [Hit.stop, token]
  rw [List.take_left' whole]

/-- A tag without a closer takes up the bytes passed beforehand. These are the two bytes of its
opener or, if it overtook an output, all from the opener of that output on. -/
theorem ofTag_of_unclosed (closed unclosed : Cause) {front rest : Bytes} {passed : Nat}
    (length : front.length = passed) (missing : ¬ Bytes.tagCloser <:+: rest) :
    ofTag closed unclosed (front ++ rest) passed =
      { cause := unclosed, region := front, token := ⟨Bytes.tagOpener⟩ } := by
  rw [ofTag, List.drop_left' length, Needle.find?_literal_eq_none_iff.mpr missing]
  simp only [List.take_left' length]

/-- Text runs up to the first opener. The end of the bytes counts as an opener here, since text runs
to the end if none comes. -/
theorem ofText_eq {front rest : Bytes}
    (plain : ∀ offset < front.length, ¬ Opens ((front ++ rest).drop offset))
    (stops : rest = [] ∨ Opens rest) : ofText (front ++ rest) = whole .text front := by
  have misses : ∀ offset < front.length,
      Needle.beginsPair Bytes.openBrace [Bytes.openBrace, Bytes.percent]
        ((front ++ rest).drop offset) = false := by
    intro offset before
    exact Bool.eq_false_iff.mpr (mt beginsPair_iff_opens.mp (plain offset before))
  rw [ofText, Needle.find?]
  rcases stops with rfl | opened
  · have nowhere : firstSuffix? (Needle.beginsPair Bytes.openBrace
        [Bytes.openBrace, Bytes.percent]) (front ++ []) = none := by
      apply firstSuffix?_eq_none_iff.mpr
      intro offset bounded
      rcases Nat.lt_or_ge offset front.length with before | atEnd
      · exact misses offset before
      · rw [List.append_nil, List.drop_of_length_le atEnd]
        rfl
    rw [nowhere, List.append_nil]
    rfl
  · have here : firstSuffix? (Needle.beginsPair Bytes.openBrace
        [Bytes.openBrace, Bytes.percent]) (front ++ rest) = some front.length := by
      refine firstSuffix?_eq_some_iff.mpr ⟨by simp, ?_, misses⟩
      rw [List.drop_left]
      exact beginsPair_iff_opens.mpr opened
    rw [here]
    simp

/-- How an output is cut depends on how what is behind its opener ends. The lengths that the ending
tells do not count the opener, which is where the two comes from. -/
theorem ofOutput_outputOpener (body : Bytes) :
    ofOutput (Bytes.outputOpener ++ body) =
      match Output.ending body with
      | .closed length => whole .output ((Bytes.outputOpener ++ body).take (length + 2))
      | .overtaken length =>
        ofTag (.overtaken length) (.overtakenOpen length) (Bytes.outputOpener ++ body) (length + 2)
      | .missing =>
        { cause := .openOutput
          region := Bytes.outputOpener ++ body
          token := ⟨Bytes.outputOpener⟩ } :=
  rfl

/-- An output with a closer is cut behind it. -/
theorem ofOutput_of_closed {body : Bytes} (rest : Bytes)
    (complete : Output.Body Bytes.outputCloser body) :
    ofOutput (Bytes.outputOpener ++ (body ++ Bytes.outputCloser) ++ rest) =
      whole .output (Bytes.outputOpener ++ (body ++ Bytes.outputCloser)) := by
  have length : (Bytes.outputOpener ++ (body ++ Bytes.outputCloser)).length =
      body.length + 2 + 2 := by
    simp
  rw [List.append_assoc, ofOutput_outputOpener, complete.ending_closed rest]
  dsimp only
  rw [← List.append_assoc, List.take_left' length]

/-- An output that is overtaken is cut as a tag that is opened behind the bytes passed. -/
theorem ofOutput_of_overtaken {body : Bytes} (rest : Bytes)
    (complete : Output.Body Bytes.tagOpener body) :
    ofOutput (Bytes.outputOpener ++ (body ++ Bytes.tagOpener) ++ rest) =
      ofTag (.overtaken (body.length + 2)) (.overtakenOpen (body.length + 2))
        (Bytes.outputOpener ++ (body ++ Bytes.tagOpener) ++ rest) (body.length + 4) := by
  rw [List.append_assoc, ofOutput_outputOpener, complete.ending_overtaken rest]

/-- An output that does not end is cut nowhere. -/
theorem ofOutput_of_endless {body : Bytes} (endless : Output.Endless body) :
    ofOutput (Bytes.outputOpener ++ body) =
      { cause := .openOutput
        region := Bytes.outputOpener ++ body
        token := ⟨Bytes.outputOpener⟩ } := by
  rw [ofOutput_outputOpener, Output.ending_eq_missing_iff.mpr endless]

end Piece

/-- Where the scan stands behind a tag, of which everything behind the opener is given. -/
def Context.behindTag (encoding : Encoding) (body : Bytes) : Context :=
  if Keyword.raw.leads encoding body then .raw else .markup

/-- A tag with a closer opens a raw block or does not, whatever follows it. The word test looks at
the character behind the keyword, and with a closer in the bytes that character is in front of it or
its first byte. -/
theorem Context.behindTag_append (encoding : Encoding) (body rest : Bytes) :
    behindTag encoding (body ++ Bytes.tagCloser ++ rest) =
      behindTag encoding (body ++ Bytes.tagCloser) := by
  rw [behindTag, behindTag, Keyword.leads_append encoding rest (by decide) (by simp)]

/-- The ways in which a step can carve a piece off the front of the bytes that remain. -/
inductive Carving (encoding : Encoding) : Context → Bytes → Step → Prop where
  /-- Text runs up to the first opener, or up to the end if there is none. -/
  | text {front rest : Bytes} (nonempty : front ≠ [])
      (plain : ∀ offset < front.length, ¬ Opens ((front ++ rest).drop offset))
      (stops : rest = [] ∨ Opens rest) :
      Carving encoding .markup (front ++ rest) ⟨.whole .text front, .markup⟩
  /-- A tag runs up to its first closer. -/
  | tag {body rest : Bytes} (clean : ¬ Bytes.tagCloser <:+: body) :
      Carving encoding .markup (Bytes.tagOpener ++ (body ++ Bytes.tagCloser) ++ rest)
        ⟨.whole .tag (Bytes.tagOpener ++ (body ++ Bytes.tagCloser)),
          .behindTag encoding (body ++ Bytes.tagCloser)⟩
  /-- A tag without a closer is its bare opener. -/
  | openTag {rest : Bytes} (unclosed : ¬ Bytes.tagCloser <:+: rest) :
      Carving encoding .markup (Bytes.tagOpener ++ rest)
        ⟨.whole .openTag Bytes.tagOpener, .behindTag encoding rest⟩
  /-- An output runs up to its first closer outside a string. -/
  | output {body rest : Bytes} (complete : Output.Body Bytes.outputCloser body) :
      Carving encoding .markup (Bytes.outputOpener ++ (body ++ Bytes.outputCloser) ++ rest)
        ⟨.whole .output (Bytes.outputOpener ++ (body ++ Bytes.outputCloser)), .markup⟩
  /-- An output overtaken by a tag with a closer runs up to that closer. Its token is the front of
  this, as long as the tag is. -/
  | overtaken {body inner rest : Bytes} (complete : Output.Body Bytes.tagOpener body)
      (clean : ¬ Bytes.tagCloser <:+: inner) :
      Carving encoding .markup
        (Bytes.outputOpener ++ (body ++ Bytes.tagOpener) ++ (inner ++ Bytes.tagCloser) ++ rest)
        ⟨{ cause := .overtaken (body.length + 2)
           region := Bytes.outputOpener ++ (body ++ Bytes.tagOpener) ++ (inner ++ Bytes.tagCloser)
           token := ⟨(Bytes.outputOpener ++ (body ++ Bytes.tagOpener) ++
             (inner ++ Bytes.tagCloser)).take (inner.length + 4)⟩ }, .markup⟩
  /-- An output overtaken by a tag without a closer runs up to the end of the tag opener, which is
  its token. -/
  | overtakenOpen {body rest : Bytes} (complete : Output.Body Bytes.tagOpener body)
      (unclosed : ¬ Bytes.tagCloser <:+: rest) :
      Carving encoding .markup (Bytes.outputOpener ++ (body ++ Bytes.tagOpener) ++ rest)
        ⟨{ cause := .overtakenOpen (body.length + 2)
           region := Bytes.outputOpener ++ (body ++ Bytes.tagOpener)
           token := ⟨Bytes.tagOpener⟩ }, .markup⟩
  /-- An output that does not end takes up all that is left, and its token is its bare opener. -/
  | openOutput {rest : Bytes} (endless : Output.Endless rest) :
      Carving encoding .markup (Bytes.outputOpener ++ rest)
        ⟨{ cause := .openOutput
           region := Bytes.outputOpener ++ rest
           token := ⟨Bytes.outputOpener⟩ }, .markup⟩
  /-- A raw block that nothing ends takes up all that is left. -/
  | openRaw {content : Bytes}
      (endless : ∀ offset ≤ content.length, endsRaw encoding (content.drop offset) = false) :
      Carving encoding .raw content ⟨.whole .openRaw content, .markup⟩
  /-- The content of a raw block runs up to the first tag that ends it. -/
  | raw {content rest : Bytes} (nonempty : content ≠ [])
      (inside : ∀ offset < content.length, endsRaw encoding ((content ++ rest).drop offset) = false)
      (ends : endsRaw encoding rest = true) :
      Carving encoding .raw (content ++ rest) ⟨.whole .raw content, .markup⟩
  /-- Where a raw block ends, the tag that ends it is carved off as between markers. -/
  | endRaw {bytes : Bytes} {step : Step} (ends : endsRaw encoding bytes = true)
      (carving : Carving encoding .markup bytes step) : Carving encoding .raw bytes step

namespace Step

/-- Where a tag is opened, a tag is carved off. -/
theorem ofMarkup_tagOpener (encoding : Encoding) (body : Bytes) :
    ofMarkup encoding (Bytes.tagOpener ++ body) =
      ⟨.ofTag .tag .openTag (Bytes.tagOpener ++ body) 2, .behindTag encoding body⟩ := by
  simp [ofMarkup, Context.behindTag]

/-- Where an output is opened, an output is carved off. -/
theorem ofMarkup_outputOpener (encoding : Encoding) (body : Bytes) :
    ofMarkup encoding (Bytes.outputOpener ++ body) =
      ⟨.ofOutput (Bytes.outputOpener ++ body), .markup⟩ := by
  simp [ofMarkup, show ¬ Bytes.percent = Bytes.openBrace by decide]

/-- Where nothing is opened, text is carved off. This is the only case in which a piece of text is
carved off. -/
theorem ofMarkup_of_not_opens (encoding : Encoding) {bytes : Bytes} (plain : ¬ Opens bytes) :
    ofMarkup encoding bytes = ⟨.ofText bytes, .markup⟩ := by
  rw [Opens, not_or] at plain
  simp [ofMarkup, plain.1, plain.2]

end Step

/-- Between markers a scan goes on as long as bytes remain. Whether the template is faulty plays no
part in it: the step function does not check anything. -/
theorem next?_markup (encoding : Encoding) {bytes : Bytes} (remaining : bytes ≠ []) :
    next? encoding .markup bytes = some (.ofMarkup encoding bytes) := by
  match bytes, remaining with
  | byte :: rest, _ => rfl

/-- The step function makes every cut that a step can make. Each rule says which of the branches is
taken, so the proof has one case for each rule. -/
theorem Carving.next?_eq {encoding : Encoding} {context : Context} {bytes : Bytes} {step : Step}
    (carving : Carving encoding context bytes step) : next? encoding context bytes = some step := by
  induction carving with
  | text nonempty plain stops =>
    have start := List.length_pos_iff.mpr nonempty
    rw [next?_markup encoding (by simp [nonempty]),
      Step.ofMarkup_of_not_opens encoding (by simpa using plain 0 start),
      Piece.ofText_eq plain stops]
  | @tag body rest clean =>
    have length : Bytes.tagOpener.length = 2 := rfl
    have asTag := Piece.ofTag_of_closed .tag .openTag rest length (Nat.le_refl 2) clean
    rw [List.append_assoc] at asTag ⊢
    rw [next?_markup encoding (by simp), Step.ofMarkup_tagOpener, Context.behindTag_append, asTag,
      List.take_of_length_le (by simp)]
    rfl
  | openTag unclosed =>
    have length : Bytes.tagOpener.length = 2 := rfl
    rw [next?_markup encoding (by simp), Step.ofMarkup_tagOpener,
      Piece.ofTag_of_unclosed .tag .openTag length unclosed]
    rfl
  | output complete =>
    rw [next?_markup encoding (by simp), ← Piece.ofOutput_of_closed _ complete, List.append_assoc,
      Step.ofMarkup_outputOpener]
  | @overtaken body inner rest complete clean =>
    have length : (Bytes.outputOpener ++ (body ++ Bytes.tagOpener)).length = body.length + 4 := by
      simp
    have asTag := Piece.ofTag_of_closed (.overtaken (body.length + 2))
      (.overtakenOpen (body.length + 2)) rest length (by omega) clean
    rw [← asTag, List.append_assoc, ← Piece.ofOutput_of_overtaken _ complete,
      next?_markup encoding (by simp), List.append_assoc, Step.ofMarkup_outputOpener]
  | @overtakenOpen body rest complete unclosed =>
    have length : (Bytes.outputOpener ++ (body ++ Bytes.tagOpener)).length = body.length + 4 := by
      simp
    have asTag := Piece.ofTag_of_unclosed (.overtaken (body.length + 2))
      (.overtakenOpen (body.length + 2)) length unclosed
    rw [← asTag, ← Piece.ofOutput_of_overtaken _ complete, next?_markup encoding (by simp),
      List.append_assoc, Step.ofMarkup_outputOpener]
  | openOutput endless =>
    rw [next?_markup encoding (by simp), Step.ofMarkup_outputOpener,
      Piece.ofOutput_of_endless endless]
  | openRaw endless =>
    rw [next?, Step.ofRaw, Piece.rawLength?_eq, firstSuffix?_eq_none_iff.mpr endless]
  | @raw content rest nonempty inside ends =>
    have found : firstSuffix? (endsRaw encoding) (content ++ rest) = some content.length := by
      refine firstSuffix?_eq_some_iff.mpr ⟨by simp, ?_, inside⟩
      rw [List.drop_left, ends]
    match content, nonempty with
    | byte :: content, _ =>
      rw [next?, Step.ofRaw, Piece.rawLength?_eq, found]
      simp
  | @endRaw bytes step ends carving inductionHypothesis =>
    have found : firstSuffix? (endsRaw encoding) bytes = some 0 := by
      refine firstSuffix?_eq_some_iff.mpr ⟨Nat.zero_le _, ends, ?_⟩
      intro earlier impossible
      exact absurd impossible (by omega)
    have remaining : bytes ≠ [] := by
      rintro rfl
      exact absurd ends (by simp [endsRaw])
    rw [next?_markup encoding remaining] at inductionHypothesis
    rw [next?, Step.ofRaw, Piece.rawLength?_eq, found]
    exact inductionHypothesis

/-- Text in front of an opener is cut off at the first one. It is cut at the first byte that ends
it, and not empty because nothing is opened where it begins. -/
theorem text_cut {bytes : Bytes} (remaining : bytes ≠ []) (plain : ¬ Opens bytes) :
    ∃ front rest, bytes = front ++ rest ∧ front ≠ [] ∧
      (∀ offset < front.length, ¬ Opens ((front ++ rest).drop offset)) ∧
      (rest = [] ∨ Opens rest) := by
  have opens_of {bytes : Bytes} :
      Needle.beginsPair Bytes.openBrace [Bytes.openBrace, Bytes.percent] bytes = false ↔
        ¬ Opens bytes := by
    rw [← beginsPair_iff_opens, Bool.not_eq_true]
  cases search : firstSuffix?
      (Needle.beginsPair Bytes.openBrace [Bytes.openBrace, Bytes.percent]) bytes with
  | none =>
    have nowhere := firstSuffix?_eq_none_iff.mp search
    refine ⟨bytes, [], (List.append_nil bytes).symm, remaining, ?_, .inl rfl⟩
    intro offset before
    rw [List.append_nil]
    exact opens_of.mp (nowhere offset (Nat.le_of_lt before))
  | some offset =>
    obtain ⟨bounded, opened, notEarlier⟩ := firstSuffix?_eq_some_iff.mp search
    have length : (bytes.take offset).length = offset := List.length_take_of_le bounded
    refine ⟨bytes.take offset, bytes.drop offset, (List.take_append_drop offset bytes).symm, ?_, ?_,
      .inr (beginsPair_iff_opens.mp opened)⟩
    · rintro empty
      rw [empty, List.length_nil] at length
      subst length
      exact plain (beginsPair_iff_opens.mp opened)
    · intro earlier before
      rw [length] at before
      rw [List.take_append_drop]
      exact opens_of.mp (notEarlier earlier before)

/-- Between markers, and with bytes left, some cut can be made. Which rule applies is found by
asking what is opened and what closes it, in the order in which the step function asks. -/
theorem exists_markup_carving (encoding : Encoding) {bytes : Bytes} (remaining : bytes ≠ []) :
    ∃ step, Carving encoding .markup bytes step := by
  by_cases tagOpens : Bytes.tagOpener <+: bytes
  · obtain ⟨after, rfl⟩ := tagOpens
    rcases tagCloser_cut after with unclosed | ⟨body, rest, rfl, clean⟩
    · exact ⟨_, .openTag unclosed⟩
    · rw [← List.append_assoc]
      exact ⟨_, .tag clean⟩
  by_cases outputOpens : Bytes.outputOpener <+: bytes
  · obtain ⟨after, rfl⟩ := outputOpens
    cases ends : Output.ending after with
    | closed length =>
      obtain ⟨body, rest, rfl, complete⟩ := Output.exists_body_of_closed ends
      rw [← List.append_assoc]
      exact ⟨_, .output complete⟩
    | overtaken length =>
      obtain ⟨body, rest, rfl, complete⟩ := Output.exists_body_of_overtaken ends
      rw [← List.append_assoc]
      rcases tagCloser_cut rest with unclosed | ⟨inner, rest, rfl, clean⟩
      · exact ⟨_, .overtakenOpen complete unclosed⟩
      · rw [← List.append_assoc]
        exact ⟨_, .overtaken complete clean⟩
    | missing => exact ⟨_, .openOutput (Output.ending_eq_missing_iff.mp ends)⟩
  have plain : ¬ Opens bytes := by
    rintro (opened | opened)
    · exact outputOpens opened
    · exact tagOpens opened
  obtain ⟨front, rest, rfl, nonempty, clean, stops⟩ := text_cut remaining plain
  exact ⟨_, .text nonempty clean stops⟩

/-- Inside a raw block some cut can be made, even if nothing is left. If nothing is left the block
ends the template, and its content is the empty token of the rule for blocks without an end. -/
theorem exists_raw_carving (encoding : Encoding) (bytes : Bytes) :
    ∃ step, Carving encoding .raw bytes step := by
  cases search : firstSuffix? (endsRaw encoding) bytes with
  | none => exact ⟨_, .openRaw (firstSuffix?_eq_none_iff.mp search)⟩
  | some offset =>
    obtain ⟨bounded, ends, notEarlier⟩ := firstSuffix?_eq_some_iff.mp search
    by_cases atOnce : offset = 0
    · subst atOnce
      have remaining : bytes ≠ [] := by
        rintro rfl
        exact absurd ends (by simp [endsRaw])
      obtain ⟨step, carving⟩ := exists_markup_carving encoding remaining
      exact ⟨step, .endRaw ends carving⟩
    · have length : (bytes.take offset).length = offset := List.length_take_of_le bounded
      have nonempty : bytes.take offset ≠ [] := by
        rintro empty
        rw [empty, List.length_nil] at length
        exact atOnce length.symm
      have cut := List.take_append_drop offset bytes
      rw [← cut]
      refine ⟨_, .raw nonempty ?_ ends⟩
      rw [length, cut]
      exact notEarlier

/-- The step function makes exactly the cuts that a step can make. A step may from here on be taken
for one of the rules, without opening the function that takes it. -/
theorem next?_eq_some_iff {encoding : Encoding} {context : Context} {bytes : Bytes} {step : Step} :
    next? encoding context bytes = some step ↔ Carving encoding context bytes step := by
  constructor
  · intro taken
    have possible : ∃ other, Carving encoding context bytes other := by
      match context, bytes with
      | .markup, [] => exact absurd taken (by simp [next?])
      | .markup, byte :: rest => exact exists_markup_carving encoding (by simp)
      | .raw, bytes => exact exists_raw_carving encoding bytes
    obtain ⟨other, carving⟩ := possible
    rw [carving.next?_eq, Option.some.injEq] at taken
    exact taken ▸ carving
  · exact Carving.next?_eq

/-- A piece of text is marked as such. -/
theorem Piece.ofText_cause (bytes : Bytes) : (Piece.ofText bytes).cause = .text := by
  unfold Piece.ofText
  split <;> rfl

/-- Text is carved off between markers only, and only where nothing is opened. The check of a
template is tied to pieces of text, so this is what says where a template can be refused. -/
theorem Carving.eq_of_text {encoding : Encoding} {context : Context} {bytes : Bytes} {step : Step}
    (carving : Carving encoding context bytes step) (isText : step.piece.cause = .text) :
    context = .markup ∧ bytes ≠ [] ∧ ¬Opens bytes := by
  induction carving with
  | text nonempty plain stops =>
    have start := List.length_pos_iff.mpr nonempty
    exact ⟨rfl, by simp [nonempty], by simpa using plain 0 start⟩
  | endRaw ends carving inductionHypothesis =>
    obtain ⟨-, -, plain⟩ := inductionHypothesis isText
    exact absurd (.inr (tagOpener_prefix_of_endsRaw ends)) plain
  | _ => exact absurd isText (by simp [Piece.whole])

/-- A region is the front of the bytes from which it is carved. Even where the token is shorter than
the region nothing in front of the region is left behind. -/
theorem Carving.exists_rest {encoding : Encoding} {context : Context} {bytes : Bytes} {step : Step}
    (carving : Carving encoding context bytes step) :
    ∃ rest, bytes = step.piece.region ++ rest := by
  induction carving with
  | openOutput | openRaw => exact ⟨[], (List.append_nil _).symm⟩
  | endRaw _ _ inductionHypothesis => exact inductionHypothesis
  | _ => exact ⟨_, rfl⟩

/-- A course of carvings that uses up the bytes, with the pieces carved. It ends between markers. -/
inductive Course (encoding : Encoding) : Context → Bytes → List Piece → Prop where
  /-- Nothing is left. -/
  | done : Course encoding .markup [] []
  /-- A piece is carved off, and the course goes on behind its region. -/
  | step {context : Context} {rest : Bytes} {step : Step} {later : List Piece}
      (carving : Carving encoding context (step.piece.region ++ rest) step)
      (tail : Course encoding step.context rest later) :
      Course encoding context (step.piece.region ++ rest) (step.piece :: later)

/-- A piece in front of a course, with its region given beside the bytes. -/
theorem Course.carve {encoding : Encoding} {context after : Context} {bytes rest : Bytes}
    {piece : Piece} {later : List Piece} (carving : Carving encoding context bytes ⟨piece, after⟩)
    (cut : bytes = piece.region ++ rest) (tail : Course encoding after rest later) :
    Course encoding context bytes (piece :: later) := by
  subst cut
  exact @Course.step encoding context rest ⟨piece, after⟩ later carving tail

/-- A scan is complete where nothing is left between markers. -/
theorem pieces_nil (encoding : Encoding) : pieces encoding .markup [] = [] := by
  rw [pieces]
  rfl

/-- A scan carves one piece off and goes on behind its region. This is the equation of the scan with
its bytes given as a front and a rest, as the rules of carving have them. -/
theorem Carving.pieces_eq {encoding : Encoding} {context : Context} {rest : Bytes} {step : Step}
    (carving : Carving encoding context (step.piece.region ++ rest) step) :
    pieces encoding context (step.piece.region ++ rest) =
      step.piece :: pieces encoding step.context rest := by
  conv => lhs; rw [pieces]
  split
  · next complete => exact absurd (carving.next?_eq.symm.trans complete) (by simp)
  · next other taken =>
    cases Option.some.inj (carving.next?_eq.symm.trans taken)
    rw [List.drop_left]

/-- A scan without a check is a course of carvings. The induction follows the recursion of the scan,
and every step is turned into the rule that allows it. -/
theorem course_pieces (encoding : Encoding) (context : Context) (bytes : Bytes) :
    Course encoding context bytes (pieces encoding context bytes) := by
  induction context, bytes using pieces.induct encoding with
  | case1 context bytes complete =>
    match context, bytes, complete with
    | .markup, [], _ =>
      rw [pieces_nil]
      exact .done
  | case2 context bytes step taken inductionHypothesis =>
    have carving := next?_eq_some_iff.mp taken
    obtain ⟨rest, rfl⟩ := carving.exists_rest
    rw [List.drop_left] at inductionHypothesis
    rw [carving.pieces_eq]
    exact .step carving inductionHypothesis

/-- There is no other course than that of the scan. So a course may be built by hand, from the
source or from another course, and is then known to be what the scan does. -/
theorem Course.pieces_eq {encoding : Encoding} {context : Context} {bytes : Bytes}
    {carved : List Piece} (course : Course encoding context bytes carved) :
    pieces encoding context bytes = carved := by
  induction course with
  | done => exact pieces_nil encoding
  | step carving tail inductionHypothesis => rw [carving.pieces_eq, inductionHypothesis]

/-- Whether a piece takes up all that is left of a template. -/
def Cause.takesAll : Cause → Bool
  | .openOutput | .openRaw => true
  | _ => false

/-- Behind an output that does not end, and behind a raw block that nothing ends, nothing is
left. -/
theorem Carving.rest_eq_nil {encoding : Encoding} {context : Context} {bytes rest : Bytes}
    {step : Step} (carving : Carving encoding context bytes step)
    (cut : bytes = step.piece.region ++ rest) (takesAll : step.piece.cause.takesAll = true) :
    step.context = .markup ∧ rest = [] := by
  induction carving with
  | openOutput | openRaw => exact ⟨rfl, List.self_eq_append_right.mp cut⟩
  | endRaw _ _ inductionHypothesis => exact inductionHypothesis cut takesAll
  | _ => exact absurd takesAll (by simp [Piece.whole, Cause.takesAll])

/-- A piece that takes up all that is left is the last one. Behind an output that does not end, or a
raw block that nothing ends, the scan stands between markers with no bytes left. -/
theorem Course.eq_nil_of_takesAll {encoding : Encoding} {context : Context} {bytes : Bytes}
    {before after : List Piece} {piece : Piece}
    (course : Course encoding context bytes (before ++ piece :: after))
    (takesAll : piece.cause.takesAll = true) : after = [] := by
  induction before generalizing context bytes with
  | nil =>
    cases course with
    | step carving tail =>
      obtain ⟨markup, atEnd⟩ := carving.rest_eq_nil rfl takesAll
      rw [markup, atEnd] at tail
      exact tail.pieces_eq.symm.trans (pieces_nil encoding)
  | cons first before inductionHypothesis =>
    cases course with
    | step carving tail => exact inductionHypothesis tail

/-- The pieces of a template, carved without any check of its encoding. -/
def Template.uncheckedPieces (template : Template) : List Piece :=
  pieces template.encoding .markup template.bytes

/-- The regions of the pieces, one behind the other, are the bytes scanned. This is said of regions
and not of tokens, which may leave bytes out. -/
theorem Course.regions_flatten {encoding : Encoding} {context : Context} {bytes : Bytes}
    {carved : List Piece} (course : Course encoding context bytes carved) :
    carved.flatMap Piece.region = bytes := by
  induction course with
  | done => rfl
  | step carving tail inductionHypothesis => rw [List.flatMap_cons, inductionHypothesis]

/-- The number of bytes that pieces take up. -/
def Piece.extent (pieces : List Piece) : Nat := (pieces.flatMap region).length

/-- The pieces of a course take up the bytes scanned. -/
theorem Course.extent_eq {encoding : Encoding} {context : Context} {bytes : Bytes}
    {carved : List Piece} (course : Course encoding context bytes carved) :
    Piece.extent carved = bytes.length := by
  rw [Piece.extent, course.regions_flatten]

/-- A course comes to each of its pieces behind the regions of those before it, carves it off and
goes on with those after it. -/
theorem Course.exists_cut {encoding : Encoding} {context : Context} {bytes : Bytes}
    {before after : List Piece} {piece : Piece}
    (course : Course encoding context bytes (before ++ piece :: after)) :
    ∃ front rest within next, bytes = front ++ (piece.region ++ rest) ∧
      front.length = Piece.extent before ∧
      Carving encoding within (piece.region ++ rest) ⟨piece, next⟩ ∧
      Course encoding next rest after := by
  induction before generalizing context bytes with
  | nil =>
    cases course with
    | step carving tail => exact ⟨[], _, _, _, rfl, rfl, carving, tail⟩
  | cons first before inductionHypothesis =>
    cases course with
    | step carving tail =>
      obtain ⟨front, rest, within, next, rfl, length, later, behind⟩ := inductionHypothesis tail
      refine ⟨_ ++ front, rest, within, next, (List.append_assoc _ _ _).symm, ?_, later, behind⟩
      simp [length, Piece.extent]

end TemplateTokens
