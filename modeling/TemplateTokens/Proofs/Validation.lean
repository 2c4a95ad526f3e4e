import TemplateTokens.TokenStream
import TemplateTokens.Proofs.Carving

/-!
# When the encoding is checked, and what comes of it

A scan checks the declared encoding of the whole template before its first piece of text and at no
other time. It is compared here with the scan that checks nothing. The two agree up to the first
text; there the checked scan stops with a complaint if the template is faulty, and otherwise goes on
as the other does (`Course.resume_eq`). A template therefore fails exactly if it is faulty and has
text, and the fault reported is the first one of the whole template, wherever that lies.
-/

namespace TemplateTokens

namespace Encoding

/-- A byte string is sound in an encoding. -/
def Sound (encoding : Encoding) (bytes : Bytes) : Prop := encoding.firstFault? bytes = none

/-- The first fault of a byte string is at this offset: what stands in front of it is sound, and
nothing longer at the front of the string is. -/
def FirstFaultAt (encoding : Encoding) (bytes : Bytes) (offset : Nat) : Prop :=
  offset < bytes.length ∧ encoding.Sound (bytes.take offset) ∧
  ∀ longer, offset < longer → longer ≤ bytes.length → ¬ encoding.Sound (bytes.take longer)

/-- There is only one first fault. It is the length of the longest sound front, and of two the later
would be a longer one. -/
theorem FirstFaultAt.unique {encoding : Encoding} {bytes : Bytes} {offset other : Nat}
    (fault : encoding.FirstFaultAt bytes offset) (otherFault : encoding.FirstFaultAt bytes other) :
    offset = other := by
  obtain ⟨inside, sound, longest⟩ := fault
  obtain ⟨otherInside, otherSound, otherLongest⟩ := otherFault
  rcases Nat.lt_trichotomy offset other with before | same | behind
  · exact absurd otherSound (longest other before (Nat.le_of_lt otherInside))
  · exact same
  · exact absurd sound (otherLongest offset behind (Nat.le_of_lt inside))

/-- The first fault is where the check of the encoding reports it. The check looks at the bytes in
order, and the right side does not say how. -/
theorem firstFault?_eq_some_iff {encoding : Encoding} {bytes : Bytes} {offset : Nat} :
    encoding.firstFault? bytes = some offset ↔ encoding.FirstFaultAt bytes offset := by
  have reported {offset : Nat} (found : encoding.firstFault? bytes = some offset) :
      encoding.FirstFaultAt bytes offset := by
    cases encoding with
    | utf8 => exact Utf8.firstIllFormed?_eq_some found
    | ascii =>
      simp only [firstFault?, List.findIdx?_eq_some_iff_getElem] at found
      obtain ⟨inside, high, notEarlier⟩ := found
      refine ⟨inside, ?_, ?_⟩
      · simp only [Sound, firstFault?, List.findIdx?_eq_none_iff]
        intro byte member
        obtain ⟨place, before, rfl⟩ := List.mem_iff_getElem.mp member
        rw [List.length_take] at before
        simpa using notEarlier place (by omega)
      · intro longer behind longerInside
        simp only [Sound, firstFault?, List.findIdx?_eq_none_iff]
        intro low
        have member : bytes[offset] ∈ bytes.take longer :=
          List.mem_take_iff_getElem.mpr ⟨offset, by omega, rfl⟩
        simp [low _ member] at high
    | binary => simp [firstFault?] at found
  constructor
  · exact reported
  · intro fault
    cases found : encoding.firstFault? bytes with
    | none =>
      have whole := fault.2.2 bytes.length fault.1 (Nat.le_refl _)
      rw [List.take_length] at whole
      exact absurd found whole
    | some other => rw [fault.unique (reported found)]

/-- A complaint names the declared encoding and the first fault. The offset is counted from the
first byte of the string that is checked. -/
theorem check_eq_some_iff {encoding : Encoding} {bytes : Bytes} {invalid : InvalidBytes} :
    encoding.check bytes = some invalid ↔
      invalid.encoding = encoding ∧ encoding.FirstFaultAt bytes invalid.offset := by
  rw [check, Option.map_eq_some_iff, ← firstFault?_eq_some_iff]
  constructor
  · rintro ⟨offset, found, rfl⟩
    exact ⟨rfl, found⟩
  · rintro ⟨rfl, found⟩
    exact ⟨invalid.offset, found, rfl⟩

/-- There is no complaint exactly about a sound byte string. -/
theorem check_eq_none_iff {encoding : Encoding} {bytes : Bytes} :
    encoding.check bytes = none ↔ encoding.Sound bytes := by
  rw [check, Option.map_eq_none_iff, Sound]

end Encoding

namespace Scan

/-- What a scan of the given pieces leaves behind if the check of the encoding comes out as given: a
complaint stops it in front of the first text. -/
def validated (fault? : Option InvalidBytes) (carved : List Piece) : Scan :=
  match fault? with
  | none => { pieces := carved, invalid? := none }
  | some invalid =>
    if ∃ piece ∈ carved, piece.cause = .text then
      { pieces := carved.takeWhile (·.cause ≠ .text), invalid? := some invalid }
    else { pieces := carved, invalid? := none }

/-- A piece that is not text is passed whatever comes of the check. -/
theorem validated_cons_of_ne_text (fault? : Option InvalidBytes) {piece : Piece}
    (later : List Piece) (noText : piece.cause ≠ .text) :
    validated fault? (piece :: later) = (validated fault? later).prepend piece := by
  cases fault? with
  | none => rfl
  | some invalid =>
    have sameText : (∃ other ∈ piece :: later, other.cause = .text) ↔
        ∃ other ∈ later, other.cause = .text := by
      simp [noText]
    by_cases hasText : ∃ other ∈ later, other.cause = .text
    · rw [validated, validated, if_pos (sameText.mpr hasText), if_pos hasText]
      simp [prepend, noText]
    · rw [validated, validated, if_neg (mt sameText.mp hasText), if_neg hasText]
      rfl

/-- One step of a scan with a check. Only a piece of text can stop it, and only if the check has not
been passed before. -/
theorem resume_eq_of_carving (template : Template) (checked : Bool) {context : Context}
    {rest : Bytes} {step : Step}
    (carving : Carving template.encoding context (step.piece.region ++ rest) step) :
    resume template checked context (step.piece.region ++ rest) =
      if step.piece.cause = .text && !checked then
        match template.check with
        | some invalid => { pieces := [], invalid? := some invalid }
        | none => (resume template true step.context rest).prepend step.piece
      else (resume template checked step.context rest).prepend step.piece := by
  conv => lhs; rw [resume]
  split
  · next complete => exact absurd (carving.next?_eq.symm.trans complete) (by simp)
  · next other taken =>
    cases Option.some.inj (carving.next?_eq.symm.trans taken)
    cases template.check with
    | none => simp only [List.drop_left]
    | some invalid => simp only [List.drop_left]

end Scan

/-- A scan with a check does with the pieces of the scan without one what the outcome of the check
asks for. Once the template has been checked it is sound. -/
theorem Course.resume_eq {template : Template} {context : Context} {bytes : Bytes}
    {carved : List Piece} (course : Course template.encoding context bytes carved)
    (checked : Bool) :
    Scan.resume template checked context bytes =
      Scan.validated (if checked then none else template.check) carved := by
  induction course generalizing checked with
  | done =>
    rw [Scan.resume]
    cases checked <;> cases template.check <;> simp [next?, Scan.validated]
  | @step context rest step later carving tail inductionHypothesis =>
    rw [Scan.resume_eq_of_carving template checked carving]
    by_cases isText : step.piece.cause = .text
    · cases checked with
      | true => simp [inductionHypothesis true, Scan.validated, Scan.prepend]
      | false =>
        cases outcome : template.check with
        | none => simp [isText, inductionHypothesis true, Scan.validated, Scan.prepend]
        | some invalid => simp [isText, Scan.validated]
    · rw [Scan.validated_cons_of_ne_text _ later isText, inductionHypothesis checked]
      simp [isText]

/-- A scan of a template is its scan without a check, cut short by the complaint if there is one. -/
theorem Scan.ofTemplate_eq (template : Template) :
    ofTemplate template = validated template.check template.uncheckedPieces :=
  (course_pieces template.encoding .markup template.bytes).resume_eq false

/-- A scan of a template complains exactly about a faulty template with text. The fault may lie
anywhere in the template, also in bytes that belong to no text. -/
theorem Scan.ofTemplate_invalid?_eq_some_iff {template : Template} {invalid : InvalidBytes} :
    (ofTemplate template).invalid? = some invalid ↔
      (∃ piece ∈ template.uncheckedPieces, piece.cause = .text) ∧
      template.check = some invalid := by
  rw [ofTemplate_eq]
  cases outcome : template.check with
  | none => simp [validated]
  | some other =>
    simp only [validated]
    split
    · next hasText => simp [hasText]
    · next noText => simp [noText]

/-- A scan of a template passes a sound template and one without text. -/
theorem Scan.ofTemplate_invalid?_eq_none_iff {template : Template} :
    (ofTemplate template).invalid? = none ↔
      (∀ piece ∈ template.uncheckedPieces, piece.cause ≠ .text) ∨
        template.encoding.Sound template.bytes := by
  rw [ofTemplate_eq, ← Encoding.check_eq_none_iff]
  change _ ↔ _ ∨ template.check = none
  cases outcome : template.check with
  | none => simp [validated]
  | some invalid =>
    simp only [validated, reduceCtorEq, or_false]
    split
    · next hasText => simpa using hasText
    · next noText => simpa using noText

/-- A scan that does not complain has all the pieces of the scan without a check. -/
theorem Scan.ofTemplate_pieces {template : Template}
    (valid : (ofTemplate template).invalid? = none) :
    (ofTemplate template).pieces = template.uncheckedPieces := by
  rw [ofTemplate_eq] at valid ⊢
  cases outcome : template.check with
  | none => rfl
  | some invalid =>
    rw [outcome] at valid
    simp only [validated] at valid ⊢
    split at valid
    · exact absurd valid (by simp)
    · next noText => rw [if_neg noText]

/-- A scan that complains has the pieces in front of the first text. They are all cut off before the
check is made, and are the same whatever it finds. -/
theorem Scan.ofTemplate_pieces_of_invalid {template : Template} {invalid : InvalidBytes}
    (faulty : (ofTemplate template).invalid? = some invalid) :
    (ofTemplate template).pieces = template.uncheckedPieces.takeWhile (·.cause ≠ .text) := by
  obtain ⟨hasText, complaint⟩ := ofTemplate_invalid?_eq_some_iff.mp faulty
  rw [ofTemplate_eq, complaint]
  simp only [validated, if_pos hasText]

/-- A scan has the first pieces of the scan without a check, and unless it complains all of them. -/
theorem Scan.exists_dropped (template : Template) :
    ∃ dropped, template.uncheckedPieces = (ofTemplate template).pieces ++ dropped ∧
      (dropped = [] → (ofTemplate template).invalid? = none) := by
  cases complaint : (ofTemplate template).invalid? with
  | none => exact ⟨[], by rw [ofTemplate_pieces complaint, List.append_nil], fun _ => rfl⟩
  | some invalid =>
    refine ⟨template.uncheckedPieces.dropWhile (·.cause ≠ .text), ?_, ?_⟩
    · rw [ofTemplate_pieces_of_invalid complaint, List.takeWhile_append_dropWhile]
    · intro nothing
      obtain ⟨⟨piece, member, isText⟩, -⟩ := ofTemplate_invalid?_eq_some_iff.mp complaint
      exact absurd isText (by simpa using List.dropWhile_eq_nil_iff.mp nothing piece member)

namespace TokenStream

/-- The body of a `liquid` tag is cut at its lines whatever its bytes. -/
theorem ofTemplate_of_liquidTag {settings : Settings} (template : Template)
    (liquid : settings.forLiquidTag = true) :
    ofTemplate settings template = .ok (ofTokens settings (template.bytes.lines.map Token.mk)) := by
  simp [ofTemplate, report, liquid]

/-- A template is cut at its markers by a scan, whose complaint is passed on. -/
theorem ofTemplate_of_markup {settings : Settings} (template : Template)
    (markup : settings.forLiquidTag = false) :
    ofTemplate settings template =
      match (Scan.ofTemplate template).invalid? with
      | some invalid => .error invalid
      | none => .ok (ofTokens settings (template.uncheckedPieces.map Piece.token)) := by
  simp only [ofTemplate, report, markup, Bool.false_eq_true, if_false]
  cases valid : (Scan.ofTemplate template).invalid? with
  | none => rw [Scan.ofTemplate_pieces valid]
  | some invalid => rfl

/-- A complaint comes of a faulty template with text that is cut at its markers, and of no other. -/
theorem ofTemplate_eq_error_iff {settings : Settings} {template : Template}
    {invalid : InvalidBytes} :
    ofTemplate settings template = .error invalid ↔
      settings.forLiquidTag = false ∧
      (∃ piece ∈ template.uncheckedPieces, piece.cause = .text) ∧
      template.check = some invalid := by
  cases mode : settings.forLiquidTag with
  | true => simp [ofTemplate_of_liquidTag template mode]
  | false =>
    rw [ofTemplate_of_markup template mode, ← Scan.ofTemplate_invalid?_eq_some_iff]
    cases (Scan.ofTemplate template).invalid? <;> simp

/-- A template that is cut at its markers is accepted with the tokens of the scan that checks
nothing if it has no text or is sound, and in no other case. -/
theorem ofTemplate_eq_ok_iff {settings : Settings} {template : Template} {stream : TokenStream}
    (markup : settings.forLiquidTag = false) :
    ofTemplate settings template = .ok stream ↔
      ((∀ piece ∈ template.uncheckedPieces, piece.cause ≠ .text) ∨
          template.encoding.Sound template.bytes) ∧
        stream = ofTokens settings (template.uncheckedPieces.map Piece.token) := by
  rw [ofTemplate_of_markup template markup, ← Scan.ofTemplate_invalid?_eq_none_iff]
  cases (Scan.ofTemplate template).invalid? <;> simp [eq_comm]

/-- An accepted template has all the pieces of the scan that checks nothing, and their tokens. The
check leaves no mark on a scan that passes it. -/
theorem pending_of_accepted {settings : Settings} {template : Template} {stream : TokenStream}
    (markup : settings.forLiquidTag = false)
    (accepted : ofTemplate settings template = .ok stream) :
    (Scan.ofTemplate template).pieces = template.uncheckedPieces ∧
    stream.pending = template.uncheckedPieces.map Piece.token := by
  obtain ⟨valid, rfl⟩ := (ofTemplate_eq_ok_iff markup).mp accepted
  exact ⟨Scan.ofTemplate_pieces (Scan.ofTemplate_invalid?_eq_none_iff.mpr valid), rfl⟩

/-- The report on an accepted template that is cut at its markers tells of all the pieces of the
scan that checks nothing. -/
theorem report_eq_of_accepted {settings : Settings} {template : Template} {stream : TokenStream}
    (markup : settings.forLiquidTag = false)
    (accepted : ofTemplate settings template = .ok stream) :
    report settings template =
      { outcome := .ok (ofTokens settings (template.uncheckedPieces.map Piece.token))
        log := .opened template.length false ::
          LogEntry.ofPieces 0 template.uncheckedPieces ++
            [.finished template.uncheckedPieces.length] } := by
  have valid := Scan.ofTemplate_invalid?_eq_none_iff.mpr ((ofTemplate_eq_ok_iff markup).mp accepted).1
  simp only [report, markup, Bool.false_eq_true, if_false, valid, Scan.ofTemplate_pieces valid,
    List.length_map]

/-- A sound template is never refused. -/
theorem exists_ofTemplate_of_sound (settings : Settings) {template : Template}
    (sound : template.encoding.Sound template.bytes) :
    ∃ stream, ofTemplate settings template = .ok stream := by
  cases mode : settings.forLiquidTag with
  | true => exact ⟨_, ofTemplate_of_liquidTag template mode⟩
  | false => exact ⟨_, (ofTemplate_eq_ok_iff mode).mpr ⟨.inr sound, rfl⟩⟩

end TokenStream

end TemplateTokens
