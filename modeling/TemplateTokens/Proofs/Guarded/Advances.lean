import TemplateTokens.Guarded.Loops
import TemplateTokens.Proofs.Guarded.Turns
import TemplateTokens.Proofs.Leftmost

/-!
# Every turn takes a machine on

A cursor that a turn moves stays inside the template and does not come to stand in front of where it
was, even where it is given back the place that it had, or steps back over what it has just passed.
Either it has passed a byte, or the turn has taken the machine closer to the place between markers
where the next piece begins. Nothing is asked of the length of the template: what is said here holds
of every turn that no trap has stopped.
-/

namespace TemplateTokens

/-- A cursor has moved on by a number of bytes at least, and not past the end of its template. -/
structure Cursor.Advances (least : Nat) (cursor later : Cursor) : Prop where
  /-- The template is the same. -/
  same : later.template = cursor.template
  /-- As many bytes are passed. -/
  onward : cursor.position + least ≤ later.position
  /-- The cursor is not behind the end. -/
  inside : later.position ≤ cursor.template.length

namespace Cursor

variable {cursor between later : Cursor}

/-- A cursor that stands still has moved on by nothing. -/
theorem Advances.refl (inside : cursor.position ≤ cursor.template.length) :
    cursor.Advances 0 cursor :=
  ⟨rfl, Nat.le_refl _, inside⟩

/-- Moves add up. An iteration is made of several turns, of which the first passes a byte and the
others do not go back. -/
theorem Advances.trans {first second : Nat} (here : cursor.Advances first between)
    (there : between.Advances second later) : cursor.Advances (first + second) later where
  same := there.same.trans here.same
  onward := by
    have before := here.onward
    have behind := there.onward
    omega
  inside := here.same ▸ there.inside

/-- A cursor that has moved on by some bytes has moved on by fewer. -/
theorem Advances.of_le {least fewer : Nat} (advances : cursor.Advances least later)
    (less : fewer ≤ least) : cursor.Advances fewer later where
  same := advances.same
  onward := by
    have behind := advances.onward
    omega
  inside := advances.inside

/-- A further move, which may be cut short at the end, does not lose what is passed. -/
theorem Advances.moveTo {least target : Nat} (advances : cursor.Advances least later)
    (forward : later.position ≤ target) : cursor.Advances least (later.moveTo target) where
  same := advances.same
  onward := Nat.le_trans advances.onward
    (Nat.le_min.mpr ⟨forward, advances.same ▸ advances.inside⟩)
  inside := advances.same ▸ Nat.min_le_right _ _

/-- A move inside the template depends on nothing but the template. -/
theorem moveTo_of_same {position : Nat} (same : later.template = cursor.template)
    (inside : position ≤ cursor.template.length) :
    later.moveTo position = { cursor with position } := by
  cases later
  cases same
  exact moveTo_of_le inside

/-- Where an opener stands the cursor is at a brace, with a percent sign or a brace behind it. -/
theorem peek?_of_opens (opens : Opens cursor.rest) :
    cursor.peek? = some Bytes.openBrace ∧
    (peek? { cursor with position := cursor.position + 1 } = some Bytes.percent ∨
      peek? { cursor with position := cursor.position + 1 } = some Bytes.openBrace) := by
  simp only [peek?_eq_head?]
  rcases opens with ⟨body, cut⟩ | ⟨body, cut⟩
  · rw [rest_of_cut 1 [Bytes.openBrace] (Bytes.openBrace :: body) cut.symm rfl, ← cut]
    exact ⟨rfl, .inr rfl⟩
  · rw [rest_of_cut 1 [Bytes.openBrace] (Bytes.percent :: body) cut.symm rfl, ← cut]
    exact ⟨rfl, .inl rfl⟩

/-- The move to the end passes a byte unless the cursor is there. -/
theorem finish_advances (remaining : cursor.atEnd = false) : cursor.Advances 1 cursor.finish where
  same := rfl
  onward := Nat.lt_of_not_le (of_decide_eq_false remaining)
  inside := Nat.le_refl _

end Cursor

namespace Guarded

variable {cursor later : Cursor}

/-- A search forward that is not stopped moves as the one without guards does. That it was not
stopped is all that has to be known of it. -/
theorem skipPast_of_ok {needle : Needle} {result : Option Nat × Cursor}
    (done : skipPast cursor needle = .ok result) : cursor.skipPast needle = result := by
  obtain ⟨remaining, cut, done⟩ := bind_eq_ok_iff.mp done
  obtain ⟨-, rfl⟩ := behind_eq_ok_iff.mp cut
  obtain ⟨found, searched, done⟩ := bind_eq_ok_iff.mp done
  rw [Cursor.skipPast, Cursor.rest, find?_of_ok searched]
  cases found with
  | none => exact Except.ok.inj done
  | some hit =>
    obtain ⟨passed, added, done⟩ := bind_eq_ok_iff.mp done
    obtain ⟨position, reached, done⟩ := bind_eq_ok_iff.mp done
    obtain ⟨-, rfl⟩ := sum_eq_ok_iff.mp added
    obtain ⟨-, rfl⟩ := sum_eq_ok_iff.mp reached
    exact Except.ok.inj done

/-- Behind a match the cursor has passed it. A needle has a width of its own that every match of it
has. -/
theorem skipPast_advances {needle : Needle} {passed : Nat}
    (inside : cursor.position ≤ cursor.template.length)
    (done : skipPast cursor needle = .ok (some passed, later)) :
    cursor.Advances needle.width later := by
  have moved := skipPast_of_ok done
  have length := cursor.length_rest
  rw [Cursor.skipPast] at moved
  cases search : needle.find? cursor.rest with
  | none => simp [search] at moved
  | some hit =>
    have within := Needle.find?_stop_le search
    obtain ⟨-, width⟩ := Needle.find?_eq_some_iff.mp search
    rw [search] at moved
    cases moved
    simp only [Hit.stop] at within
    exact ⟨rfl, by simp only [Hit.stop]; omega, by simp only [Hit.stop]; omega⟩

/-- Without a match the cursor is at the end, and the needle is nowhere in front of it. -/
theorem skipPast_finishes {needle : Needle} (done : skipPast cursor needle = .ok (none, later)) :
    needle.find? cursor.rest = none ∧ later = cursor.finish := by
  have moved := skipPast_of_ok done
  rw [Cursor.skipPast] at moved
  cases search : needle.find? cursor.rest with
  | none =>
    rw [search] at moved
    exact ⟨rfl, (congrArg Prod.snd moved).symm⟩
  | some hit => simp [search] at moved

/-- Where bytes are left one is passed when it is read. The guard on the next position is passed,
and so the position is the plain sum. -/
theorem read_of_ok {byte? : Option UInt8} (before : cursor.position < cursor.template.length)
    (done : read cursor = .ok (byte?, later)) :
    later = { cursor with position := cursor.position + 1 } ∧ cursor.Advances 1 later := by
  have here : cursor.peek? = some _ := List.getElem?_eq_getElem before
  rw [read, here] at done
  obtain ⟨position, moved, done⟩ := bind_eq_ok_iff.mp done
  obtain ⟨-, rfl⟩ := sum_eq_ok_iff.mp moved
  obtain rfl := congrArg Prod.snd (Except.ok.inj done)
  exact ⟨rfl, rfl, Nat.le_refl _, before⟩

/-- A byte that is seen next is passed when it is read. -/
theorem read_advances {byte : UInt8} {byte? : Option UInt8} (here : cursor.peek? = some byte)
    (done : read cursor = .ok (byte?, later)) : cursor.Advances 1 later :=
  (read_of_ok (Cursor.read_of_peek? here).1 done).2

/-- A step back goes over bytes that may have been passed. The place it leads to is known from where
the cursor was, and the bytes in between are named so that what stands there is known as well. -/
theorem stepBack_of_ok {count position : Nat} {passed : List Bytes}
    (done : stepBack cursor count passed = .ok position) :
    position + count = cursor.position ∧
    cursor.template.bytes.slice position cursor.position ∈ passed := by
  obtain ⟨behind, below, done⟩ := bind_eq_ok_iff.mp done
  rw [difference] at below
  split at below
  · next least =>
    cases below
    split at done
    · next member =>
      cases done
      exact ⟨Nat.sub_add_cancel least, member⟩
    · cases done
  · cases below

/-- Where bytes are left the move past the next stop byte, or to the end, passes one at least. The
step back on the way is no longer than the match in front of it. -/
theorem skipToStop_advances {stops : Bytes} {stop? : Option UInt8}
    (inside : cursor.position ≤ cursor.template.length) (remaining : cursor.atEnd = false)
    (done : skipToStop cursor stops = .ok (stop?, later)) : cursor.Advances 1 later := by
  obtain ⟨⟨passed?, reached⟩, passes, done⟩ := bind_eq_ok_iff.mp done
  cases passed? with
  | none =>
    obtain ⟨-, rfl⟩ := skipPast_finishes passes
    simp only [Option.isNone_none, if_true] at done
    cases done
    exact Cursor.finish_advances remaining
  | some passed =>
    have advances := skipPast_advances inside passes
    simp only [Option.isNone_some, Bool.false_eq_true, if_false] at done
    obtain ⟨position, stepped, done⟩ := bind_eq_ok_iff.mp done
    obtain ⟨back, -⟩ := stepBack_of_ok stepped
    obtain ⟨same, onward, within⟩ := advances
    rw [Cursor.moveTo_of_same same (by omega)] at done
    obtain ⟨rfl, -⟩ := read_of_ok (by simp only; omega) done
    exact ⟨rfl, by simpa [Needle.width, ← back] using onward, by simpa only [back] using within⟩

end Guarded

/-- How far a phase is from the place between markers where the next piece begins. -/
def Phase.depth : Phase → Nat
  | .markup => 0
  | .output _ _ => 1
  | .raw _ => 1
  | .tag _ _ => 2

namespace Machine

/-- A turn that the scan goes on behind has made the machine that it goes on with. -/
theorem eq_ok_of_running {turned : Guarded Machine} {next : Machine}
    (done : Progress.running <$> turned = .ok (.running next)) : turned = .ok next := by
  cases turned with
  | error trap => cases done
  | ok made =>
    cases done
    rfl

variable {machine next : Machine}
  (inside : machine.cursor.position ≤ machine.cursor.template.length)
include inside

/-- Behind the opener of a tag the cursor passes the closer, or is given back its place. -/
theorem turnTag_advances {start : Nat} {opensRaw : Bool}
    (done : machine.turnTag start opensRaw = .ok next) :
    machine.cursor.Advances 0 next.cursor ∧ next.phase.depth < 2 := by
  obtain ⟨⟨passed?, later⟩, passes, done⟩ := Guarded.bind_eq_ok_iff.mp done
  have shallow (position : Nat) :
      (if opensRaw then Phase.raw position else .markup).depth < 2 := by
    cases opensRaw <;> simp [Phase.depth]
  cases passed? with
  | none =>
    obtain ⟨-, rfl⟩ := Guarded.skipPast_finishes passes
    have back : machine.cursor.finish.moveTo machine.cursor.position = machine.cursor :=
      Cursor.moveTo_of_same rfl inside
    simp only [back] at done
    cases done
    exact ⟨.refl inside, shallow _⟩
  | some passed =>
    have advances := Guarded.skipPast_advances inside passes
    obtain ⟨width, -, done⟩ := Guarded.bind_eq_ok_iff.mp done
    obtain ⟨stop, -, done⟩ := Guarded.bind_eq_ok_iff.mp done
    split at done
    · cases done
    obtain ⟨bytes, -, done⟩ := Guarded.bind_eq_ok_iff.mp done
    cases done
    exact ⟨advances.of_le (Nat.zero_le _), shallow _⟩

/-- Text passes a byte at least where no opener stands. The step back goes over an opener. -/
theorem cutText_advances (remaining : machine.cursor.atEnd = false)
    (plain : ¬Opens machine.cursor.rest) (done : machine.cutText = .ok next) :
    machine.cursor.Advances 1 next.cursor := by
  obtain ⟨⟨passed?, later⟩, passes, done⟩ := Guarded.bind_eq_ok_iff.mp done
  cases passed? with
  | none =>
    obtain ⟨-, rfl⟩ := Guarded.skipPast_finishes passes
    obtain ⟨bytes, -, done⟩ := Guarded.bind_eq_ok_iff.mp done
    cases done
    exact Cursor.finish_advances remaining
  | some passed =>
    obtain ⟨same, onward, within⟩ := Guarded.skipPast_advances inside passes
    simp only [Needle.width] at onward
    obtain ⟨stop, stepped, done⟩ := Guarded.bind_eq_ok_iff.mp done
    obtain ⟨back, opener⟩ := Guarded.stepBack_of_ok stepped
    obtain ⟨bytes, -, done⟩ := Guarded.bind_eq_ok_iff.mp done
    cases done
    have elsewhere : machine.cursor.position ≠ stop := by
      rintro rfl
      have begins : later.template.bytes.slice machine.cursor.position later.position <+:
          machine.cursor.rest := by
        rw [same]
        exact List.take_prefix _ _
      simp only [List.mem_cons, List.not_mem_nil, or_false] at opener
      rcases opener with isOpener | isOpener
      · exact plain (.inl (isOpener ▸ begins))
      · exact plain (.inr (isOpener ▸ begins))
    change machine.cursor.Advances 1 (later.moveTo stop)
    rw [Cursor.moveTo_of_same same (by omega)]
    exact ⟨rfl, by simp only; omega, by simp only; omega⟩

/-- Scanning text passes a byte at least where no opener stands. The search for an opener goes past
what it finds and is taken back by the two bytes of it, which leads behind the place where it
began. -/
theorem turnText_advances (remaining : machine.cursor.atEnd = false)
    (plain : ¬Opens machine.cursor.rest) (done : machine.turnText = .ok (.running next)) :
    machine.cursor.Advances 1 next.cursor := by
  obtain ⟨complaint?, -, done⟩ := Guarded.bind_eq_ok_iff.mp done
  cases complaint? with
  | some invalid => cases done
  | none =>
    have cut := eq_ok_of_running done
    exact @cutText_advances { machine with checked := true } next inside remaining plain cut

/-- Between markers every turn but the last passes a byte at least. It reads an opener, which has
two bytes, or scans text. -/
theorem turnMarkup_advances (remaining : machine.cursor.atEnd = false)
    (done : machine.turnMarkup = .ok (.running next)) : machine.cursor.Advances 1 next.cursor := by
  rw [turnMarkup, if_neg (Bool.eq_false_iff.mp remaining)] at done
  by_cases brace : machine.cursor.peek? = some Bytes.openBrace
  · rw [if_pos brace] at done
    obtain ⟨⟨byte?, opened⟩, passed, done⟩ := Guarded.bind_eq_ok_iff.mp done
    obtain ⟨rfl, advances⟩ := Guarded.read_of_ok (Cursor.read_of_peek? brace).1 passed
    dsimp only at done
    split at done
    · next percent =>
      obtain ⟨⟨next?, behind⟩, passedToo, done⟩ := Guarded.bind_eq_ok_iff.mp done
      obtain ⟨opensRaw, -, done⟩ := Guarded.bind_eq_ok_iff.mp done
      obtain ⟨start, -, done⟩ := Guarded.bind_eq_ok_iff.mp done
      cases done
      exact (advances.trans (Guarded.read_advances percent passedToo)).of_le (by decide)
    split at done
    · next another =>
      obtain ⟨⟨next?, behind⟩, passedToo, done⟩ := Guarded.bind_eq_ok_iff.mp done
      obtain ⟨start, -, done⟩ := Guarded.bind_eq_ok_iff.mp done
      cases done
      exact (advances.trans (Guarded.read_advances another passedToo)).of_le (by decide)
    · next noTag noOutput =>
      -- The brace is given back, so the text is sought from where the turn began.
      obtain ⟨start, stepped, done⟩ := Guarded.bind_eq_ok_iff.mp done
      obtain ⟨back, -⟩ := Guarded.stepBack_of_ok stepped
      obtain rfl : start = machine.cursor.position := by simpa using back
      have plain : ¬Opens machine.cursor.rest := by
        intro opens
        exact (Cursor.peek?_of_opens opens).2.elim noTag noOutput
      have given : Cursor.moveTo { machine.cursor with position := machine.cursor.position + 1 }
          machine.cursor.position = machine.cursor := Cursor.moveTo_of_same rfl inside
      rw [given] at done
      exact @turnText_advances (machine.enter machine.cursor .markup) next inside remaining plain
        done
  · rw [if_neg brace] at done
    have plain : ¬Opens machine.cursor.rest := fun opens => brace (Cursor.peek?_of_opens opens).1
    exact turnText_advances inside remaining plain done

/-- In an output a turn passes a byte at least, or no byte is left and the output is given up. -/
theorem turnOutput_advances {start : Nat} {quoting : Output.Quoting}
    (done : machine.turnOutput start quoting = .ok next) :
    machine.cursor.Advances 1 next.cursor ∨
      machine.cursor.atEnd = true ∧ next.cursor = machine.cursor ∧ next.phase = .markup := by
  rw [turnOutput] at done
  by_cases atEnd : machine.cursor.atEnd = true
  · rw [if_pos atEnd] at done
    cases done
    exact .inr ⟨atEnd, rfl, rfl⟩
  left
  rw [if_neg atEnd] at done
  obtain ⟨⟨stop?, later⟩, skipped, done⟩ := Guarded.bind_eq_ok_iff.mp done
  have advances := Guarded.skipToStop_advances inside (Bool.eq_false_iff.mpr atEnd) skipped
  cases stop? with
  | none =>
    cases done
    exact advances
  | some stop =>
    dsimp only at done
    split at done
    · next closes =>
      obtain ⟨⟨byte?, behind⟩, passed, done⟩ := Guarded.bind_eq_ok_iff.mp done
      obtain ⟨bytes, -, done⟩ := Guarded.bind_eq_ok_iff.mp done
      cases done
      exact (advances.trans (Guarded.read_advances closes.2.2 passed)).of_le (by decide)
    split at done
    · next overtakes =>
      obtain ⟨⟨byte?, behind⟩, passed, done⟩ := Guarded.bind_eq_ok_iff.mp done
      cases done
      exact (advances.trans (Guarded.read_advances overtakes.2.2 passed)).of_le (by decide)
    split at done
    · obtain ⟨position, moved, done⟩ := Guarded.bind_eq_ok_iff.mp done
      obtain ⟨-, rfl⟩ := Guarded.sum_eq_ok_iff.mp moved
      cases done
      exact advances.moveTo (Nat.le_succ _)
    · cases done
      exact advances

/-- In a raw block a turn passes a tag opener, or none is left and the block takes up the rest. -/
theorem turnRaw_advances {start : Nat} (done : machine.turnRaw start = .ok next) :
    machine.cursor.Advances 1 next.cursor ∨
      ¬Bytes.tagOpener <:+: machine.cursor.rest ∧ next.cursor = machine.cursor.finish ∧
        next.phase = .markup := by
  obtain ⟨⟨passed?, later⟩, passes, done⟩ := Guarded.bind_eq_ok_iff.mp done
  cases passed? with
  | none =>
    obtain ⟨missing, rfl⟩ := Guarded.skipPast_finishes passes
    obtain ⟨bytes, -, done⟩ := Guarded.bind_eq_ok_iff.mp done
    cases done
    exact .inr ⟨Needle.find?_literal_eq_none_iff.mp missing, rfl, rfl⟩
  | some passed =>
    have advances : machine.cursor.Advances 1 later :=
      (Guarded.skipPast_advances inside passes).of_le (by decide)
    left
    obtain ⟨ends, -, done⟩ := Guarded.bind_eq_ok_iff.mp done
    split at done
    · obtain ⟨tagStart, -, done⟩ := Guarded.bind_eq_ok_iff.mp done
      split at done
      · obtain ⟨bytes, -, done⟩ := Guarded.bind_eq_ok_iff.mp done
        cases done
        exact advances
      · cases done
        exact advances
    · cases done
      exact advances

/-- A turn passes a byte, or takes the machine closer to where the next piece begins without moving
back. -/
theorem turn_onward (done : machine.turn = .ok (.running next)) :
    machine.cursor.Advances 1 next.cursor ∨
      machine.cursor.Advances 0 next.cursor ∧ next.phase.depth < machine.phase.depth := by
  unfold turn at done
  cases phase : machine.phase with
  | markup =>
    simp only [phase] at done
    left
    apply turnMarkup_advances inside _ done
    rw [Bool.eq_false_iff]
    intro atEnd
    rw [turnMarkup, if_pos atEnd] at done
    cases done
  | tag start opensRaw =>
    simp only [phase] at done
    exact .inr (turnTag_advances inside (eq_ok_of_running done))
  | output start quoting =>
    simp only [phase] at done
    refine (turnOutput_advances inside (eq_ok_of_running done)).imp_right ?_
    rintro ⟨-, same, markup⟩
    rw [same, markup]
    exact ⟨.refl inside, Nat.zero_lt_one⟩
  | raw start =>
    simp only [phase] at done
    refine (turnRaw_advances inside (eq_ok_of_running done)).imp_right ?_
    rintro ⟨-, atEnd, markup⟩
    rw [atEnd, markup]
    exact ⟨⟨rfl, inside, Nat.le_refl _⟩, Nat.zero_lt_one⟩

/-- The first turn of an iteration passes a byte. There is one case for each of the three loops, and
in each the turn reads or searches forward before anything is taken back. -/
theorem Heads.advances {loop : Loop} (heads : machine.Heads loop)
    (done : machine.turn = .ok (.running next)) : machine.cursor.Advances 1 next.cursor := by
  unfold turn at done
  cases heads with
  | main phase remaining =>
    simp only [phase] at done
    exact turnMarkup_advances inside remaining done
  | output phase remaining =>
    simp only [phase] at done
    refine (turnOutput_advances inside (eq_ok_of_running done)).resolve_right ?_
    rintro ⟨atEnd, -, -⟩
    exact absurd (remaining.symm.trans atEnd) (by simp)
  | raw phase remaining =>
    simp only [phase] at done
    refine (turnRaw_advances inside (eq_ok_of_running done)).resolve_right ?_
    rintro ⟨missing, -, -⟩
    exact missing remaining

end Machine

end TemplateTokens
