import Mathlib.Algebra.Ring.Nat
import TemplateTokens.Cursor

/-!
# Traps

Offsets live in machine words of 64 bits. A guarded computation looks at every sum and difference of
offsets before it takes it, and at both ends of every span before it cuts it out, and stops at the
first one that is not sound. What stopped it is a trap. Nothing is cut back silently: a span that
ends behind the last byte is a trap, too.

A trap is not an error of the template. The computations of this library have no offsets to go
wrong; the guarded ones stand beside them so that it can be proved that nothing would go wrong in
words of that width. The lemmas below say when a guarded sum, difference, cut or sequence of them is
not stopped, and what comes of it.
-/

namespace TemplateTokens

/-- What stops a guarded computation. -/
inductive Trap where
  /-- A sum does not fit in a machine word. -/
  | overflow (left right : Nat)
  /-- A difference is below zero. -/
  | underflow (value less : Nat)
  /-- An index is behind the end of the bytes indexed. -/
  | outside (index length : Nat)
  /-- A span starts after it ends. -/
  | breach (breach : Breach)
  /-- The bytes stepped back over are not those just passed. -/
  | astray (position count : Nat)
  /-- A token ends past the cursor, although the cursor is past the closer of the token. -/
  | ahead (stop position : Nat)
deriving DecidableEq

/-- A computation that a trap may stop. -/
abbrev Guarded := Except Trap

namespace Guarded

/-- The sum of two offsets. -/
def sum (left right : Nat) : Guarded Nat :=
  if left + right < 2 ^ 64 then .ok (left + right) else .error (.overflow left right)

/-- The difference of two offsets. -/
def difference (value less : Nat) : Guarded Nat :=
  if less ≤ value then .ok (value - less) else .error (.underflow value less)

/-- The bytes from an index on. -/
def behind (bytes : Bytes) (start : Nat) : Guarded Bytes :=
  if start ≤ bytes.length then .ok (bytes.drop start) else .error (.outside start bytes.length)

/-- The bytes in front of an index. -/
def front (bytes : Bytes) (stop : Nat) : Guarded Bytes :=
  if stop ≤ bytes.length then .ok (bytes.take stop) else .error (.outside stop bytes.length)

variable {α β : Type}

/-- What is returned was stopped by nothing. -/
@[simp] theorem pure_eq (value : α) : (pure value : Guarded α) = .ok value := rfl

/-- A computation that was not stopped goes on. -/
@[simp] theorem ok_bind (value : α) (next : α → Guarded β) :
    (Except.ok value >>= next : Guarded β) = next value := rfl

/-- A result that was reached is mapped. -/
@[simp] theorem map_ok (wrap : α → β) (value : α) :
    (wrap <$> (Except.ok value : Guarded α)) = .ok (wrap value) := rfl

/-- A sequence gives a result exactly if its parts do, one after the other. This is how a turn that
is known not to be stopped is taken apart, one operation at a time, without opening any of them. -/
theorem bind_eq_ok_iff {first : Guarded α} {next : α → Guarded β} {result : β} :
    (first >>= next) = .ok result ↔ ∃ value, first = .ok value ∧ next value = .ok result := by
  cases first with
  | error trap => exact ⟨nofun, nofun⟩
  | ok value => simp

theorem sum_eq_ok_iff {left right total : Nat} :
    sum left right = .ok total ↔ left + right < 2 ^ 64 ∧ left + right = total := by
  rw [sum]
  split
  · next fits => exact ⟨fun same => ⟨fits, Except.ok.inj same⟩, fun same => congrArg _ same.2⟩
  · next tooLarge => exact ⟨nofun, fun fits => absurd fits.1 tooLarge⟩

theorem behind_eq_ok_iff {bytes rest : Bytes} {start : Nat} :
    behind bytes start = .ok rest ↔ start ≤ bytes.length ∧ bytes.drop start = rest := by
  by_cases inside : start ≤ bytes.length <;> simp [behind, inside]

theorem sum_eq {left right : Nat} (fits : left + right < 2 ^ 64) :
    sum left right = .ok (left + right) := if_pos fits

theorem difference_eq {value less : Nat} (least : less ≤ value) :
    difference value less = .ok (value - less) := if_pos least

theorem behind_eq {bytes : Bytes} {start : Nat} (inside : start ≤ bytes.length) :
    behind bytes start = .ok (bytes.drop start) := if_pos inside

theorem front_eq {bytes : Bytes} {stop : Nat} (inside : stop ≤ bytes.length) :
    front bytes stop = .ok (bytes.take stop) := if_pos inside

end Guarded

end TemplateTokens
