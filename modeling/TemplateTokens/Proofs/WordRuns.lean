import Mathlib.Data.List.Pairwise
import TemplateTokens.Encoding.WordRuns

/-!
# The runs of word characters are the maximal ones

The runs of an encoding are put together in one pass over the code points in ascending order, the
highest run being lengthened or a new one begun. That a run is maximal is said here without the
pass: every code point in it is a word character, and neither neighbour is
(`CodePointRun.IsMaximal`).

The invariant of the pass is weaker than that and easier to keep (`CodePointRun.Cover`): the runs
hold just the code points passed, and between two of them there is a gap. Runs with a gap between
them cannot be lengthened, and two maximal runs with a code point in common are one, so a cover
consists of exactly the maximal runs. The bounds of the range are respected on both sides. Which
code points are word characters is a question about characters and not about runs, and is not asked
again here.
-/

namespace TemplateTokens

namespace CodePointRun

/-- A code point lies in a run. -/
def Holds (run : CodePointRun) (codePoint : Nat) : Prop :=
  run.first ≤ codePoint ∧ codePoint ≤ run.last

/-- A run is not empty, holds members only, and its neighbours are no members. -/
structure IsMaximal (member : Nat → Prop) (run : CodePointRun) : Prop where
  /-- The run is not empty. -/
  ordered : run.first ≤ run.last
  /-- All code points of the run are members. -/
  inside : ∀ codePoint, run.Holds codePoint → member codePoint
  /-- The run cannot be lengthened downwards. -/
  bottom : ∀ before, before + 1 = run.first → ¬ member before
  /-- The run cannot be lengthened upwards. -/
  top : ¬ member (run.last + 1)

/-- Runs listed from the highest down hold just the given code points, with a gap between any
two. -/
structure Cover (runs : List CodePointRun) (codePoints : List Nat) : Prop where
  /-- No run is empty. -/
  ordered : ∀ run ∈ runs, run.first ≤ run.last
  /-- Between two runs there is a gap. -/
  apart : runs.Pairwise fun upper lower => lower.last + 1 < upper.first
  /-- A code point is given exactly if some run holds it. -/
  mem_iff : ∀ codePoint, codePoint ∈ codePoints ↔ ∃ run ∈ runs, run.Holds codePoint

/-- Without code points there are no runs. -/
theorem Cover.empty : Cover [] [] := ⟨by simp, .nil, by simp⟩

/-- A code point above all others is taken into the runs. It lengthens the highest run if it is the
neighbour of its last code point; otherwise there is a gap, since that code point is below it. -/
theorem Cover.extend {runs : List CodePointRun} {codePoints : List Nat} {codePoint : Nat}
    (cover : Cover runs codePoints) (above : ∀ other ∈ codePoints, other < codePoint) :
    Cover (extend runs codePoint) (codePoints ++ [codePoint]) := by
  cases runs with
  | nil =>
    have nothing : codePoints = [] := by
      simpa [List.eq_nil_iff_forall_not_mem] using cover.mem_iff
    subst nothing
    constructor
    · simp [CodePointRun.extend]
    · exact List.pairwise_singleton _ _
    · intro other
      simp only [CodePointRun.extend, Holds, List.nil_append, List.mem_singleton, exists_eq_left]
      omega
  | cons run lower =>
    have ordered := cover.ordered run List.mem_cons_self
    have orderedBelow : ∀ other ∈ lower, other.first ≤ other.last :=
      fun other member => cover.ordered other (List.mem_cons_of_mem run member)
    obtain ⟨gaps, apart⟩ := List.pairwise_cons.mp cover.apart
    by_cases adjacent : run.last + 1 = codePoint
    · rw [CodePointRun.extend, if_pos adjacent]
      refine ⟨List.forall_mem_cons.mpr ⟨?_, orderedBelow⟩, List.pairwise_cons.mpr ⟨gaps, apart⟩, ?_⟩
      · change run.first ≤ codePoint
        omega
      · intro other
        rw [List.mem_append, cover.mem_iff, List.mem_singleton]
        simp only [List.mem_cons, exists_eq_or_imp, Holds]
        rw [or_right_comm]
        exact or_congr_left (by omega)
    · have below : run.last < codePoint :=
        above run.last <|
          (cover.mem_iff run.last).mpr ⟨run, List.mem_cons_self, ordered, Nat.le_refl _⟩
      rw [CodePointRun.extend, if_neg adjacent]
      refine ⟨List.forall_mem_cons.mpr ⟨Nat.le_refl codePoint, cover.ordered⟩,
        List.pairwise_cons.mpr ⟨?_, cover.apart⟩, ?_⟩
      · refine List.forall_mem_cons.mpr ⟨?_, fun other member => ?_⟩
        · change run.last + 1 < codePoint
          omega
        · have gap := gaps other member
          change other.last + 1 < codePoint
          omega
      · intro other
        rw [List.mem_append, cover.mem_iff, List.mem_singleton]
        simp only [List.mem_cons, exists_eq_or_imp, Holds]
        rw [or_comm]
        exact or_congr_left (by omega)

/-- Code points in ascending order are taken into the runs one after the other. Each is above all
those before it, which is what taking one more asks for. -/
theorem Cover.foldl {runs : List CodePointRun} {passed codePoints : List Nat}
    (cover : Cover runs passed) (ascending : (passed ++ codePoints).Pairwise (· < ·)) :
    Cover (codePoints.foldl CodePointRun.extend runs) (passed ++ codePoints) := by
  induction codePoints generalizing runs passed with
  | nil =>
    rw [List.append_nil]
    exact cover
  | cons codePoint codePoints inductionHypothesis =>
    have above : ∀ other ∈ passed, other < codePoint := fun other member =>
      (List.pairwise_append.mp ascending).2.2 other member codePoint List.mem_cons_self
    rw [List.append_cons] at ascending ⊢
    exact inductionHypothesis (cover.extend above) ascending

/-- A maximal run goes as far, on both sides, as any run of members with which it has a code point
in common. -/
theorem IsMaximal.covers {member : Nat → Prop} {run other : CodePointRun} {codePoint : Nat}
    (maximal : IsMaximal member run) (inside : ∀ place, other.Holds place → member place)
    (held : run.Holds codePoint) (otherHeld : other.Holds codePoint) :
    run.first ≤ other.first ∧ other.last ≤ run.last := by
  obtain ⟨above, below⟩ := held
  obtain ⟨otherAbove, otherBelow⟩ := otherHeld
  constructor
  · apply Nat.le_of_not_lt
    intro starts
    refine maximal.bottom (run.first - 1) (by omega) (inside _ ⟨?_, ?_⟩) <;> omega
  · apply Nat.le_of_not_lt
    intro goesOn
    refine maximal.top (inside _ ⟨?_, ?_⟩) <;> omega

/-- Two maximal runs that hold a code point in common are the same. Each covers the other, and a run
is known by its two ends. -/
theorem IsMaximal.eq_of_holds {member : Nat → Prop} {run other : CodePointRun} {codePoint : Nat}
    (maximal : IsMaximal member run) (otherMaximal : IsMaximal member other)
    (held : run.Holds codePoint) (otherHeld : other.Holds codePoint) : run = other := by
  obtain ⟨bottom, top⟩ := maximal.covers otherMaximal.inside held otherHeld
  obtain ⟨otherBottom, otherTop⟩ := otherMaximal.covers maximal.inside otherHeld held
  cases run
  cases other
  rw [mk.injEq]
  exact ⟨Nat.le_antisymm bottom otherBottom, Nat.le_antisymm otherTop top⟩

/-- A run of a cover and another one have a gap between them, whichever is the higher. -/
theorem Cover.gap {runs : List CodePointRun} {codePoints : List Nat} (cover : Cover runs codePoints)
    {run other : CodePointRun} (isRun : run ∈ runs) (isOther : other ∈ runs)
    (different : run ≠ other) : run.last + 1 < other.first ∨ other.last + 1 < run.first := by
  let eitherWay (run other : CodePointRun) : Prop :=
    run.last + 1 < other.first ∨ other.last + 1 < run.first
  have symmetric : Std.Symm eitherWay := ⟨fun _ _ => Or.symm⟩
  have gaps : runs.Pairwise eitherWay := cover.apart.imp .inr
  exact gaps.forall isRun isOther different

/-- The runs of a cover are maximal. Their code points are among those given, and their neighbours
lie in the gaps. -/
theorem Cover.isMaximal {runs : List CodePointRun} {codePoints : List Nat}
    (cover : Cover runs codePoints) {run : CodePointRun} (isRun : run ∈ runs) :
    IsMaximal (· ∈ codePoints) run := by
  have ordered := cover.ordered run isRun
  -- A neighbour that is given lies in another run, from which there would have to be a gap.
  have neighbour {codePoint : Nat} (next : codePoint + 1 = run.first ∨ codePoint = run.last + 1) :
      codePoint ∉ codePoints := by
    intro given
    obtain ⟨other, isOther, above, below⟩ := (cover.mem_iff codePoint).mp given
    have different : run ≠ other := by
      rintro rfl
      omega
    have gap := cover.gap isRun isOther different
    omega
  exact {
    ordered
    inside := fun codePoint held => (cover.mem_iff codePoint).mpr ⟨run, isRun, held⟩
    bottom := fun before next => neighbour (.inl next)
    top := neighbour (.inr rfl) }

/-- A cover consists of exactly the maximal runs of the code points given. A maximal run has a first
code point, which some run of the cover holds; the two are then the same. -/
theorem Cover.mem_iff_isMaximal {runs : List CodePointRun} {codePoints : List Nat}
    (cover : Cover runs codePoints) {run : CodePointRun} :
    run ∈ runs ↔ IsMaximal (· ∈ codePoints) run := by
  constructor
  · exact cover.isMaximal
  · intro maximal
    have held : run.Holds run.first := ⟨Nat.le_refl _, maximal.ordered⟩
    obtain ⟨other, isOther, otherHeld⟩ := (cover.mem_iff run.first).mp (maximal.inside _ held)
    rw [maximal.eq_of_holds (cover.isMaximal isOther) held otherHeld]
    exact isOther

end CodePointRun

namespace Encoding

/-- Word characters are scalar values, so none lies above the last code point. -/
theorem le_of_isWordCodePoint {encoding : Encoding} {codePoint : Nat}
    (isWord : encoding.isWordCodePoint codePoint = true) : codePoint ≤ 0x10ffff := by
  rw [isWordCodePoint, Bool.and_eq_true, decide_eq_true_iff] at isWord
  have valid := isWord.1
  simp only [Nat.isValidChar] at valid
  omega

/-- The runs that an encoding lists are the maximal runs of its word characters from one code point
up to another, and they come in ascending order with a gap between any two. No bound on the code
points asked for is assumed: there are no word characters above the last code point.

Proof: the pass over the word characters of the range keeps a cover of those passed, because each is
above all before it; the runs of a cover are exactly the maximal ones, and reversing them puts the
lowest first. -/
theorem wordRuns_maximal (encoding : Encoding) (low high : Nat) :
    (∀ run, run ∈ encoding.wordRuns low high ↔
      CodePointRun.IsMaximal (fun codePoint => low ≤ codePoint ∧ codePoint ≤ high ∧
        encoding.isWordCodePoint codePoint = true) run) ∧
    (encoding.wordRuns low high).Pairwise fun lower upper => lower.last + 1 < upper.first := by
  let codePoints := (List.range' low (min high 0x10ffff + 1 - low)).filter encoding.isWordCodePoint
  have ascending : codePoints.Pairwise (· < ·) := List.Pairwise.filter _ List.pairwise_lt_range'
  have cover := CodePointRun.Cover.empty.foldl (by simpa using ascending)
  have given : (· ∈ [] ++ codePoints) = fun codePoint => low ≤ codePoint ∧ codePoint ≤ high ∧
      encoding.isWordCodePoint codePoint = true := by
    funext codePoint
    simp only [List.nil_append, codePoints, List.mem_filter, List.mem_range'_1, eq_iff_iff]
    constructor
    · rintro ⟨inside, isWord⟩
      exact ⟨inside.1, by omega, isWord⟩
    · rintro ⟨above, below, isWord⟩
      have bounded := le_of_isWordCodePoint isWord
      exact ⟨⟨above, by omega⟩, isWord⟩
  constructor
  · intro run
    rw [wordRuns, List.mem_reverse, cover.mem_iff_isMaximal, given]
  · rw [wordRuns, List.pairwise_reverse]
    exact cover.apart

end Encoding

end TemplateTokens
