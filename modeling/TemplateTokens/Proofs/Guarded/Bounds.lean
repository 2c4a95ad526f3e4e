import TemplateTokens.Proofs.Guarded.Turns

/-!
# Every offset stays in bounds

The cursor of a machine is never behind the end of the template, and never in front of what belongs
to its phase: behind the opener of a tag or of an output it has passed two bytes at least since the
token started. A turn of a machine in such a state is not stopped by a trap, and it leads to such a
state again or to the end of the scan.

The invariant is stated by phase (`Phase.leastPosition`) and proved turn by turn, and a run of turns
keeps it by induction. Only the bound on the length of the template is assumed. What the turns make
is no part of it: a machine that made other tokens with the same moves would keep the invariant as
well.
-/

namespace TemplateTokens

/-- The least position that a cursor can have in a phase. -/
def Phase.leastPosition : Phase → Nat
  | .markup => 0
  | .tag start _ => start + 2
  | .output start _ => start + 2
  | .raw start => start

/-- The offsets of a machine are in order and inside the template. -/
structure Machine.InBounds (template : Template) (machine : Machine) : Prop where
  /-- The machine scans the template. -/
  same : machine.cursor.template = template
  /-- The cursor is behind all that belongs to the phase. -/
  ordered : machine.phase.leastPosition ≤ machine.cursor.position
  /-- The cursor is not behind the end. -/
  inside : machine.cursor.position ≤ template.length

/-- What a turn leads to is in bounds, unless the scan is over. -/
def Progress.InBounds (template : Template) : Progress → Prop
  | .running machine => machine.InBounds template
  | .halted _ => True

/-- The region of a tag is taken from the front of the bytes that remain. -/
theorem Piece.ofTag_region_length_le (closed unclosed : Cause) (bytes : Bytes) (passed : Nat) :
    (Piece.ofTag closed unclosed bytes passed).region.length ≤ bytes.length := by
  unfold Piece.ofTag
  split
  · exact List.length_take_le' _ _
  · exact List.length_take_le' _ _

/-- The region of text is taken from the front of the bytes that remain. -/
theorem Piece.ofText_region_length_le (bytes : Bytes) :
    (Piece.ofText bytes).region.length ≤ bytes.length := by
  unfold Piece.ofText
  split
  · exact List.length_take_le' _ _
  · exact Nat.le_refl _

namespace Machine

/-- A machine is in bounds in front of the first byte. -/
theorem inBounds_atStart (template : Template) : (atStart template).InBounds template where
  same := rfl
  ordered := Nat.zero_le _
  inside := Nat.zero_le _

/-- A machine is in bounds where it is placed in bounds. A turn inside a piece ends with such a
placement. -/
theorem inBounds_placed {template : Template} {machine : Machine} {position : Nat} {phase : Phase}
    (same : machine.cursor.template = template) (ordered : phase.leastPosition ≤ position)
    (inside : position ≤ template.length) : (machine.placed position phase).InBounds template where
  same := same
  ordered := ordered
  inside := inside

/-- A machine is in bounds behind a piece of its template. The next piece starts where this one
ends, in whatever context the scan stands there. -/
theorem inBounds_behind {template : Template} {machine : Machine} {start : Nat} {piece : Piece}
    {context : Context} (same : machine.cursor.template = template)
    (inside : start + piece.region.length ≤ template.length) :
    (machine.behind start piece context).InBounds template where
  same := same
  ordered := by
    cases context with
    | markup => exact Nat.zero_le _
    | raw => exact Nat.le_refl _
  inside := inside

/-- A piece taken from what remains of a template from `start` on ends inside the template. Regions
are known by their lengths and positions are sums, so every turn needs this once. -/
theorem reach_le {template : Template} {start : Nat} {region : Bytes}
    (inside : start ≤ template.length) (within : region.length ≤ (template.bytes.drop start).length) :
    start + region.length ≤ template.length := by
  rw [template.length_drop] at within
  omega

section Turns

variable {machine : Machine} (small : machine.cursor.template.length < 2 ^ 63)
  (inside : machine.cursor.position ≤ machine.cursor.template.length)
include small inside

/-- Scanning text stays in bounds. -/
theorem exists_turnText :
    ∃ progress, machine.turnText = .ok progress ∧
      progress.InBounds machine.cursor.template := by
  have cutting (sound : machine.checked = true ∨ machine.cursor.template.check = none) :
      ∃ progress, machine.turnText = .ok progress ∧
        progress.InBounds machine.cursor.template := by
    have reach := reach_le inside (Piece.ofText_region_length_le machine.cursor.rest)
    exact ⟨_, turnText_of_sound small inside sound,
      inBounds_behind rfl reach⟩
  by_cases checked : machine.checked = true
  · exact cutting (.inl checked)
  cases complaint : machine.cursor.template.check with
  | none => exact cutting (.inr complaint)
  | some invalid =>
    exact ⟨_, turnText_of_fault small (Bool.eq_false_iff.mpr checked) complaint, trivial⟩

/-- A turn between markers stays in bounds. Nothing is assumed of the bytes, which are split by what
is opened where the cursor stands. -/
theorem exists_turnMarkup (markup : machine.phase = .markup) :
    ∃ progress, machine.turnMarkup = .ok progress ∧
      progress.InBounds machine.cursor.template := by
  by_cases complete : machine.cursor.rest = []
  · exact ⟨_, turnMarkup_of_end complete, trivial⟩
  by_cases opens : Opens machine.cursor.rest
  · rcases opens with ⟨body, opens⟩ | ⟨body, opens⟩
    · refine ⟨_, turnMarkup_of_outputOpener small opens.symm, ?_⟩
      exact inBounds_placed rfl (Nat.le_refl _) (Cursor.position_add_le inside opens.symm)
    · refine ⟨_, turnMarkup_of_tagOpener small opens.symm, ?_⟩
      exact inBounds_placed rfl (Nat.le_refl _) (Cursor.position_add_le inside opens.symm)
  · rw [turnMarkup_of_not_opens small markup complete opens]
    exact exists_turnText small inside

/-- A turn in an output stays in bounds. The assumption is what the least position of its phase
says. -/
theorem exists_turnOutput {start : Nat} (quoting : Output.Quoting)
    (opened : start + 2 ≤ machine.cursor.position) :
    ∃ next, machine.turnOutput start quoting = .ok next ∧
      next.InBounds machine.cursor.template := by
  have length := machine.cursor.length_rest
  cases search : (Needle.anyOf Output.stops).find? machine.cursor.rest with
  | none =>
    refine ⟨_, turnOutput_of_missing small inside quoting opened search, ?_⟩
    exact inBounds_behind rfl (reach_le (by omega) (Nat.le_refl _))
  | some hit =>
    obtain ⟨front, stop, after, cut, rfl, member, -⟩ := Needle.find?_anyOf_eq_some search
    rw [cut] at search
    rw [cut, List.length_append, List.length_cons] at length
    refine ⟨_, turnOutput_of_found small inside quoting opened cut member search, ?_⟩
    split
    · exact inBounds_behind rfl (reach_le (by omega) (List.length_take_le' _ _))
    split
    · next overtakes =>
      obtain ⟨tail, rfl⟩ := List.head?_eq_some_iff.mp overtakes.2.2
      rw [List.length_cons] at length
      have ordered : start + 2 ≤ machine.cursor.position + front.length + 2 := by omega
      have reach : machine.cursor.position + front.length + 2 ≤ machine.cursor.template.length := by
        omega
      exact inBounds_placed rfl ordered reach
    · apply inBounds_placed rfl
      · change start + 2 ≤ _
        omega
      · exact Nat.min_le_right _ _

/-- A turn in a raw block stays in bounds. -/
theorem exists_turnRaw {start : Nat} (started : start ≤ machine.cursor.position) :
    ∃ next, machine.turnRaw start = .ok next ∧ next.InBounds machine.cursor.template := by
  cases search : (Needle.literal Bytes.tagOpener).find? machine.cursor.rest with
  | none =>
    refine ⟨_, turnRaw_of_missing small inside started search, ?_⟩
    exact inBounds_behind rfl (reach_le (by omega) (Nat.le_refl _))
  | some hit =>
    obtain ⟨front, body, cut, rfl, -⟩ := Needle.find?_literal_eq_some_iff.mp search
    refine ⟨_, turnRaw_of_found small inside cut search, ?_⟩
    have reach := Cursor.position_add_le inside cut
    rw [List.length_append, ← Nat.add_assoc] at reach
    by_cases ends : Keyword.endraw.leads machine.cursor.template.encoding body = true
    · rw [if_pos ends, pastContent]
      split <;> exact inBounds_placed rfl (Nat.le_refl _) reach
    · rw [if_neg ends]
      have ordered : start ≤ machine.cursor.position + front.length + 2 := by omega
      exact inBounds_placed rfl ordered reach

end Turns

/-- A turn in bounds is not stopped and stays in bounds. That it is not stopped and that it stays in
bounds are shown together, because each operation of a turn is in bounds only behind the ones before
it. -/
theorem InBounds.exists_turn {template : Template} {machine : Machine}
    (small : template.length < 2 ^ 63) (inBounds : machine.InBounds template) :
    ∃ progress, machine.turn = .ok progress ∧ progress.InBounds template := by
  obtain ⟨rfl, ordered, inside⟩ := inBounds
  cases phase : machine.phase with
  | markup =>
    rw [turn_of_markup phase]
    exact exists_turnMarkup small inside phase
  | tag start opensRaw =>
    rw [phase] at ordered
    change start + 2 ≤ _ at ordered
    refine ⟨_, turn_of_tag phase (turnTag_eq small inside opensRaw ordered), ?_⟩
    exact inBounds_behind rfl (reach_le (by omega) (Piece.ofTag_region_length_le _ _ _ _))
  | output start quoting =>
    rw [phase] at ordered
    obtain ⟨next, turned, later⟩ := exists_turnOutput small inside quoting ordered
    exact ⟨_, turn_of_output phase turned, later⟩
  | raw start =>
    rw [phase] at ordered
    change start ≤ _ at ordered
    obtain ⟨next, turned, later⟩ := exists_turnRaw small inside ordered
    exact ⟨_, turn_of_raw phase turned, later⟩

/-- Every machine that is reached is in bounds. The induction is on the turns taken so far. -/
theorem Reached.inBounds {template : Template} {machine : Machine} (small : template.length < 2 ^ 63)
    (reached : machine.Reached template) : machine.InBounds template := by
  induction reached with
  | atStart => exact inBounds_atStart template
  | turn reached taken inductionHypothesis =>
    obtain ⟨progress, possible, later⟩ := inductionHypothesis.exists_turn small
    obtain rfl := Except.ok.inj (taken.symm.trans possible)
    exact later

end Machine

end TemplateTokens
