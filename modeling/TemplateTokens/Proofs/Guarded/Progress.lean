import TemplateTokens.Proofs.Guarded.Advances
import TemplateTokens.Proofs.Guarded.Runs

/-!
# The loops of a scan come to an end

The first turn of an iteration passes a byte and the others lose none, so an iteration passes a byte
whatever it does on the way. The main loop therefore goes round no more often than the template has
bytes. Turns come to an end as well: each of them uses up some of a budget of three for each byte.

A byte passed is worth three turns, because no phase is more than two turns away from the place
between markers where the next piece begins (`turnsLeft`). Neither the bound on the main loop nor
that on the turns asks for a template that fits in machine words.
-/

namespace TemplateTokens

namespace Machine

variable {template : Template} {machine head next : Machine}

/-- A turn does not move back. A turn may step back over a marker, but never over more than it has
passed itself. -/
theorem turn_advances (inside : machine.cursor.position ≤ machine.cursor.template.length)
    (taken : machine.turn = .ok (.running next)) : machine.cursor.Advances 0 next.cursor := by
  rcases turn_onward inside taken with advances | ⟨advances, -⟩
  · exact advances.of_le (Nat.zero_le 1)
  · exact advances

/-- Every machine that is reached scans the template, with its cursor inside. -/
theorem Reached.advances (reached : machine.Reached template) :
    (Cursor.atStart template).Advances 0 machine.cursor := by
  induction reached with
  | atStart => exact .refl (Nat.zero_le _)
  | turn reached taken inductionHypothesis =>
    exact inductionHypothesis.trans
      (turn_advances (inductionHypothesis.same ▸ inductionHypothesis.inside) taken)

/-- The turns of an iteration pass a byte.

Proof: by induction on the turns. The first passes a byte, and no other moves back behind it. -/
theorem Lap.advances {loop : Loop} (lap : Lap loop head next)
    (inside : head.cursor.position ≤ head.cursor.template.length) :
    head.cursor.Advances 1 next.cursor := by
  induction lap with
  | begin heads taken => exact heads.advances inside taken
  | further lap goesOn taken inductionHypothesis =>
    exact inductionHypothesis.trans
      (turn_advances (inductionHypothesis.same ▸ inductionHypothesis.inside) taken)

/-- As many bytes are passed as iterations of the main loop, at least. -/
theorem Passed.advances {count : Nat} (passed : Passed template count machine) :
    (Cursor.atStart template).Advances count machine.cursor := by
  induction passed with
  | atStart => exact .refl (Nat.zero_le _)
  | iteration passed iterates inductionHypothesis =>
    exact inductionHypothesis.trans
      (iterates.lap.advances (inductionHypothesis.same ▸ inductionHypothesis.inside))

/-- Behind an iteration of the main loop the machine stands between markers. -/
theorem Passed.phase {count : Nat} (passed : Passed template count machine) :
    machine.phase = .markup := by
  cases passed with
  | atStart => rfl
  | iteration passed iterates => simpa [Loop.goesOn] using iterates.complete

/-- A budget of turns: three for each byte that is left, and some for the phase. -/
def turnsLeft (machine : Machine) : Nat :=
  3 * (machine.cursor.template.length - machine.cursor.position) + machine.phase.depth

/-- No phase is further from the next piece than a tag. -/
theorem depth_le (phase : Phase) : phase.depth ≤ 2 := by
  cases phase <;> simp [Phase.depth]

/-- Every turn uses up some of the budget. The budget has three turns for each byte left, so a turn
that passes a byte may raise the depth by as much as it likes; any other lowers it. -/
theorem turnsLeft_lt (inside : machine.cursor.position ≤ machine.cursor.template.length)
    (taken : machine.turn = .ok (.running next)) : next.turnsLeft < machine.turnsLeft := by
  have shallow := depth_le next.phase
  unfold turnsLeft
  rcases turn_onward inside taken with ⟨same, onward, within⟩ | ⟨⟨same, onward, within⟩, closer⟩
  · rw [same]
    omega
  · rw [same]
    omega

/-- Turn after turn, the machine stops taking turns before the budget is used up. The run is any
sequence of machines, and nothing is asked of it behind the last turn. -/
theorem exists_last_turn {run : Nat → Machine} (start : run 0 = .atStart template) :
    ∃ count ≤ 3 * template.length, (run count).turn ≠ .ok (.running (run (count + 1))) := by
  by_contra never
  simp only [not_exists, not_and, not_not] at never
  have spent : ∀ count ≤ 3 * template.length + 1,
      (run count).Reached template ∧ (run count).turnsLeft + count ≤ 3 * template.length := by
    intro count
    induction count with
    | zero =>
      intro _
      rw [start]
      exact ⟨.atStart, Nat.le_refl _⟩
    | succ count inductionHypothesis =>
      intro within
      obtain ⟨reached, left⟩ := inductionHypothesis (by omega)
      have taken := never count (by omega)
      obtain ⟨same, -, inside⟩ := reached.advances
      have less := turnsLeft_lt (same ▸ inside) taken
      exact ⟨reached.turn taken, by omega⟩
  obtain ⟨-, left⟩ := spent (3 * template.length + 1) (Nat.le_refl _)
  omega

/-- Every turn belongs to an iteration of the main loop. -/
theorem Amid.turn {count : Nat} (amid : machine.Amid template count)
    (taken : machine.turn = .ok (.running next)) : ∃ further, next.Amid template further := by
  have onward {head : Machine} (passed : Passed template count head) (lap : Lap .main head next) :
      ∃ further, next.Amid template further := by
    cases goesOn : Loop.main.goesOn next.phase with
    | true => exact ⟨count, .within passed lap goesOn⟩
    | false => exact ⟨count + 1, .between (.iteration passed ⟨lap, goesOn⟩)⟩
  cases amid with
  | within passed lap goesOn => exact onward passed (.further lap goesOn taken)
  | between passed =>
    have remaining : machine.cursor.atEnd = false := by
      rw [Bool.eq_false_iff]
      intro atEnd
      rw [turn_of_markup passed.phase, turnMarkup, if_pos atEnd] at taken
      cases taken
    exact onward passed (.begin (.main passed.phase remaining) taken)

/-- Every machine that is reached is in or between iterations of the main loop. -/
theorem Reached.exists_amid (reached : machine.Reached template) :
    ∃ count, machine.Amid template count := by
  induction reached with
  | atStart => exact ⟨0, .between .atStart⟩
  | turn reached taken inductionHypothesis =>
    obtain ⟨count, amid⟩ := inductionHypothesis
    exact amid.turn taken

/-- As many bytes are passed as iterations of the main loop, even in the middle of one. -/
theorem Amid.le_length {count : Nat} (amid : machine.Amid template count) :
    count ≤ template.length := by
  have within {head : Machine} (passed : Passed template count head) : count ≤ template.length := by
    obtain ⟨-, onward, inside⟩ := passed.advances
    simp only [Cursor.atStart] at onward inside
    omega
  cases amid with
  | between passed => exact within passed
  | within passed lap goesOn => exact within passed

/-- The scan ends between markers. All other phases are inside of a piece, and each of them ends in
one. -/
theorem phase_of_halted {verdict : Verdict} (halted : machine.turn = .ok (.halted verdict)) :
    machine.phase = .markup := by
  have goesOn (turned : Guarded Machine) : Progress.running <$> turned ≠ .ok (.halted verdict) := by
    cases turned <;> simp
  unfold turn at halted
  cases phase : machine.phase with
  | markup => rfl
  | tag | output | raw =>
    simp only [phase] at halted
    exact absurd halted (goesOn _)

/-- With a complaint the scan ends in front of the last byte. -/
theorem not_atEnd_of_error {verdict : Verdict} {invalid : InvalidBytes}
    (halted : machine.turn = .ok (.halted verdict)) (refused : verdict.outcome = .error invalid) :
    machine.cursor.atEnd = false := by
  rw [Bool.eq_false_iff]
  intro atEnd
  rw [turn_of_markup (phase_of_halted halted), turnMarkup, if_pos atEnd] at halted
  cases halted
  cases refused

/-- A machine that halts in or between iterations of the main loop does so between two of them. -/
theorem Halts.exists_passed {verdict : Verdict} {count : Nat} (halts : machine.Halts verdict)
    (amid : machine.Amid template count) :
    ∃ total last, Passed template total last ∧ last.turn = .ok (.halted verdict) := by
  induction halts generalizing count with
  | now halted =>
    cases amid with
    | between passed => exact ⟨count, _, passed, halted⟩
    | within passed lap goesOn =>
      rw [phase_of_halted halted] at goesOn
      exact absurd goesOn (by simp [Loop.goesOn])
  | later taken halts inductionHypothesis =>
    obtain ⟨further, amidNext⟩ := amid.turn taken
    exact inductionHypothesis amidNext

end Machine

end TemplateTokens
