import Mathlib.Data.List.TakeWhile
import TemplateTokens.Lines

/-!
# Where the lines of a `liquid` tag lie

The lines of a body, each but the last with its line end, lie one behind the other, and behind the
last of them come only line ends. No line has a line end in it, so as many line ends stand in front
of a line as there are lines before it.

The cut is the splitting of a list at an element. Two facts about that are needed: no part has the
element in it, and the parts joined are the list again. What is added is the drop of the empty lines
at the end and the place of each line in the body, which is where a line number is compared with the
source. That no other list of lines would do is left to `Proofs.BlankLines`.
-/

namespace TemplateTokens

/-- Byte strings each followed by a line end. -/
def withLineEnds (lines : List Bytes) : Bytes := lines.flatMap (· ++ [Bytes.newline])

/-- Strings joined by line ends: those in front of one of them are each followed by a line end. -/
theorem intercalate_eq (before after : List Bytes) (line : Bytes) :
    [Bytes.newline].intercalate (before ++ line :: after) =
      withLineEnds before ++ (line ++ after.flatMap (Bytes.newline :: ·)) := by
  induction before with
  | nil =>
    induction after generalizing line with
    | nil => simp [withLineEnds]
    | cons next after inductionHypothesis =>
      rw [List.nil_append, List.intercalate_cons_cons, ← List.nil_append (next :: after),
        inductionHypothesis next]
      simp [withLineEnds]
  | cons first before inductionHypothesis =>
    obtain ⟨second, rest, cut⟩ : ∃ second rest, before ++ line :: after = second :: rest :=
      List.exists_cons_of_ne_nil (by simp)
    rw [List.cons_append, cut, List.intercalate_cons_cons, ← cut, inductionHypothesis]
    simp [withLineEnds]

/-- A line has no line end in it. -/
theorem newline_not_mem_of_mem_splitOn {bytes line : Bytes}
    (member : line ∈ bytes.splitOn Bytes.newline) : Bytes.newline ∉ line := by
  induction bytes generalizing line with
  | nil =>
    rw [List.splitOn_nil, List.mem_singleton] at member
    simp [member]
  | cons byte rest inductionHypothesis =>
    rw [List.splitOn_cons_eq_if_modifyHead] at member
    split at member
    · rcases List.mem_cons.mp member with rfl | later
      · exact List.not_mem_nil
      · exact inductionHypothesis later
    · next other =>
      obtain ⟨first, lines, cut⟩ :=
        List.exists_cons_of_ne_nil (List.splitOn_ne_nil Bytes.newline rest)
      rw [cut, List.modifyHead_cons] at member
      rw [cut] at inductionHypothesis
      rcases List.mem_cons.mp member with rfl | later
      · have noEnd : Bytes.newline ≠ byte := by
          rintro rfl
          exact other (beq_self_eq_true _)
        simp [noEnd, inductionHypothesis List.mem_cons_self]
      · exact inductionHypothesis (List.mem_cons_of_mem first later)

namespace Bytes

/-- What is dropped at the end of a body are empty lines. How many they are is not fixed by the
lines that are kept, so their number is part of what is found. -/
theorem exists_splitOn_eq (bytes : Bytes) :
    ∃ count, bytes.splitOn newline = bytes.lines ++ List.replicate count [] := by
  have whole := (bytes.splitOn newline).reverse.takeWhile_append_dropWhile (p := List.isEmpty)
  refine ⟨((bytes.splitOn newline).reverse.takeWhile List.isEmpty).length, ?_⟩
  have empty : (bytes.splitOn newline).reverse.takeWhile List.isEmpty =
      List.replicate ((bytes.splitOn newline).reverse.takeWhile List.isEmpty).length [] := by
    refine List.eq_replicate_iff.mpr ⟨rfl, ?_⟩
    intro line member
    exact List.isEmpty_iff.mp (List.mem_takeWhile_imp member)
  rw [empty] at whole
  have reversed := congrArg List.reverse whole
  rw [List.reverse_append, List.reverse_reverse, List.reverse_replicate] at reversed
  exact reversed.symm

/-- A line has no line end in it. -/
theorem newline_not_mem_of_mem_lines {bytes line : Bytes} (member : line ∈ bytes.lines) :
    newline ∉ line := by
  obtain ⟨count, split⟩ := bytes.exists_splitOn_eq
  exact newline_not_mem_of_mem_splitOn (split ▸ List.mem_append_left _ member)

/-- A line stands behind those before it and their line ends, and in front of a line end or at the
end of the body. -/
theorem lines_cut {bytes line : Bytes} {before after : List Bytes}
    (cut : bytes.lines = before ++ line :: after) :
    ∃ rest, bytes = withLineEnds before ++ (line ++ rest) ∧
      (rest = [] ∨ ∃ later, rest = newline :: later) := by
  obtain ⟨count, split⟩ := bytes.exists_splitOn_eq
  have joined : [newline].intercalate (bytes.splitOn newline) = bytes :=
    List.intercalate_splitOn newline
  rw [split, cut, List.append_assoc, List.cons_append, intercalate_eq] at joined
  refine ⟨_, joined.symm, ?_⟩
  cases after ++ List.replicate count [] with
  | nil => exact .inl rfl
  | cons next later => exact .inr ⟨_, rfl⟩

/-- The line ends in lines that each have one at their end and none inside. -/
theorem newlineCount_withLineEnds {lines : List Bytes} (clean : ∀ line ∈ lines, newline ∉ line) :
    newlineCount (withLineEnds lines) = lines.length := by
  induction lines with
  | nil => rfl
  | cons line lines inductionHypothesis =>
    obtain ⟨first, later⟩ := List.forall_mem_cons.mp clean
    have none : newlineCount line = 0 := List.count_eq_zero.mpr first
    rw [withLineEnds, List.flatMap_cons, newlineCount_append, newlineCount_append, none,
      ← withLineEnds, inductionHypothesis later, List.length_cons]
    simp [newlineCount, Nat.add_comm]

end Bytes

end TemplateTokens
