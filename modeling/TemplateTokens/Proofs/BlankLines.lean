import TemplateTokens.Proofs.Lines
import TemplateTokens.TokenStream

/-!
# Lines and their join

Cutting a body into lines is undone by joining the lines again, but for the line ends at the end of
the body. `Bytes.HasLines` says so without mentioning how the lines are found, and no two lists of
lines satisfy it for the same body (`Bytes.lines_eq_iff`). Blank lines therefore survive in front of
a line with something on it, and a list of lines that ends with such a line is recovered from its
join.

Two lists of lines for one body would be two ways to write the same bytes; they are told apart by
the splitting at newlines, which has one result. The mode is the only assumption: the bytes may be
of any encoding and faulty in it, and may contain markers, which mean nothing in a `liquid` tag.
-/

namespace TemplateTokens

/-- Joining empty lines behind others adds one line end for each of them. There has to be a line in
front of them, for the first line of all has no line end before it. -/
theorem intercalate_append_replicate {lines : List Bytes} (nonempty : lines ≠ []) (count : Nat) :
    [Bytes.newline].intercalate (lines ++ List.replicate count []) =
      [Bytes.newline].intercalate lines ++ List.replicate count Bytes.newline := by
  obtain ⟨before, line, cut⟩ := (List.eq_nil_or_concat lines).resolve_left nonempty
  have ends : (List.replicate count ([] : Bytes)).flatMap (Bytes.newline :: ·) =
      List.replicate count Bytes.newline := by
    induction count with
    | zero => rfl
    | succ count inductionHypothesis => simp [List.replicate_succ, inductionHypothesis]
  rw [cut, List.concat_eq_append, List.append_assoc, List.singleton_append, intercalate_eq,
    intercalate_eq, ends]
  simp

/-- Empty lines alone are joined by one line end less than there are lines. -/
theorem intercalate_replicate (count : Nat) :
    [Bytes.newline].intercalate (List.replicate (count + 1) []) =
      List.replicate count Bytes.newline := by
  have joined := intercalate_append_replicate (List.cons_ne_nil ([] : Bytes) []) count
  simpa [List.replicate_succ] using joined

/-- Only the empty lines at the end are dropped. How many they are makes no difference, and empty
lines further in front stay. -/
theorem dropEmptyEnd_append_replicate {lines : List Bytes} (last : lines.getLast? ≠ some [])
    (count : Nat) : dropEmptyEnd (lines ++ List.replicate count []) = lines := by
  have kept : lines.reverse.dropWhile List.isEmpty = lines.reverse := by
    cases reversed : lines.reverse with
    | nil => rfl
    | cons line before =>
      have isLast : lines.getLast? = some line := by rw [← List.head?_reverse, reversed]; rfl
      have filled : line.isEmpty = false := by
        rw [List.isEmpty_eq_false_iff]
        rintro rfl
        exact last isLast
      exact List.dropWhile_cons_of_neg (by simp [filled])
  have dropped : (List.replicate count ([] : Bytes)).dropWhile List.isEmpty = [] := by
    simp
  rw [dropEmptyEnd, List.reverse_append, List.reverse_replicate,
    List.dropWhile_append, dropped]
  simp [kept]

namespace Bytes

/-- Byte strings are the lines of a body: none of them has a line end in it, the last of them is not
empty, and joined by line ends they are the body up to some line ends at its end. -/
structure HasLines (bytes : Bytes) (lines : List Bytes) : Prop where
  /-- A line has no line end in it. -/
  newline_not_mem : ∀ line ∈ lines, newline ∉ line
  /-- There is something on the last line. -/
  last : lines.getLast? ≠ some []
  /-- The body is the join of the lines with line ends behind. -/
  joined : ∃ count, bytes = [newline].intercalate lines ++ List.replicate count newline

/-- Cutting the join of lines at its line ends gives the lines and, behind them, empty ones. -/
theorem HasLines.exists_splitOn {bytes : Bytes} {lines : List Bytes} (has : bytes.HasLines lines) :
    ∃ count, bytes.splitOn newline = lines ++ List.replicate count [] := by
  obtain ⟨count, rfl⟩ := has.joined
  by_cases nonempty : lines = []
  · subst nonempty
    refine ⟨count + 1, ?_⟩
    have joined : [newline].intercalate [] ++ List.replicate count newline =
        [newline].intercalate (List.replicate (count + 1) []) := (intercalate_replicate count).symm
    rw [joined, List.nil_append]
    exact List.splitOn_intercalate newline (by simp) (by simp)
  · refine ⟨count, ?_⟩
    have clean : ∀ line ∈ lines ++ List.replicate count [], newline ∉ line := by
      intro line member
      rcases List.mem_append.mp member with inside | behind
      · exact has.newline_not_mem line inside
      · simp [List.eq_of_mem_replicate behind]
    rw [← intercalate_append_replicate nonempty]
    exact List.splitOn_intercalate newline clean (by simp [nonempty])

/-- No other lines join to a body than those it is cut into. The line ends behind the last line are
told apart from those between lines because the last line that is kept is not empty. -/
theorem HasLines.lines_eq {bytes : Bytes} {lines : List Bytes} (has : bytes.HasLines lines) :
    bytes.lines = lines := by
  obtain ⟨count, split⟩ := has.exists_splitOn
  rw [Bytes.lines, split, dropEmptyEnd_append_replicate has.last]

/-- There is something on the last line that is kept. This is said of the option, so that it also
covers a body of which no line is kept. -/
theorem getLast?_lines_ne (bytes : Bytes) : bytes.lines.getLast? ≠ some [] := by
  intro blank
  rw [Bytes.lines, dropEmptyEnd, List.getLast?_reverse] at blank
  have filled := List.head?_dropWhile_not List.isEmpty (bytes.splitOn newline).reverse
  rw [blank] at filled
  exact absurd filled (by simp)

/-- The lines that a body is cut into join to it. Together with the uniqueness of such lines this
makes the relation a description of the function. -/
theorem hasLines_lines (bytes : Bytes) : bytes.HasLines bytes.lines where
  newline_not_mem _ member := newline_not_mem_of_mem_lines member
  last := bytes.getLast?_lines_ne
  joined := by
    obtain ⟨count, split⟩ := bytes.exists_splitOn_eq
    have joined : [newline].intercalate (bytes.splitOn newline) = bytes :=
      List.intercalate_splitOn newline
    by_cases nonempty : bytes.lines = []
    · -- the body is cut into one empty line more than it has line ends
      cases count with
      | zero => exact absurd (split.trans (by simp [nonempty])) (List.splitOn_ne_nil _ _)
      | succ count =>
        refine ⟨count, ?_⟩
        rw [split, nonempty, List.nil_append, intercalate_replicate] at joined
        rw [nonempty, joined]
        rfl
    · refine ⟨count, ?_⟩
      rw [← intercalate_append_replicate nonempty, ← split, joined]

/-- The lines of a body are the only ones that join to it. So the lines can be read off the body
without looking at how it is split and what is dropped at its end. -/
theorem lines_eq_iff {bytes : Bytes} {lines : List Bytes} :
    bytes.lines = lines ↔ bytes.HasLines lines := by
  constructor
  · rintro rfl
    exact bytes.hasLines_lines
  · exact HasLines.lines_eq

end Bytes

namespace TokenStream

/-- The body of a `liquid` tag, whatever its bytes, gives tokens that are its lines and no other
lines than those that join to it. They are what the cuts at all line ends leave, without the empty
lines at the end. Lines without line ends, the last of which is not empty, are recovered from their
join.

Proof: the lines cut off satisfy the description, and any lines that satisfy it are those cut off,
because joining them and their trailing newlines restores the body and the splitting of a list at an
element has one result. The third part is the second, applied to the join. -/
theorem lines_of_liquidTag {settings : Settings} (liquid : settings.forLiquidTag = true)
    (template : Template) :
    ∃ stream, ofTemplate settings template = .ok stream ∧
      (∀ lines : List Bytes,
        stream.pending = lines.map Token.mk ↔ template.bytes.HasLines lines) ∧
      (∃ count, template.bytes.splitOn Bytes.newline =
        stream.pending.map Token.bytes ++ List.replicate count []) ∧
      ∀ lines : List Bytes, (∀ line ∈ lines, Bytes.newline ∉ line) →
        lines.getLast? ≠ some [] →
          ofTemplate settings { template with bytes := [Bytes.newline].intercalate lines } =
            .ok (ofTokens settings (lines.map Token.mk)) := by
  have cut (template : Template) : ofTemplate settings template =
      .ok (ofTokens settings (template.bytes.lines.map Token.mk)) := by
    rw [ofTemplate, report, if_pos liquid]
  have mkInjective (first second : Bytes) (same : Token.mk first = Token.mk second) :
      first = second := congrArg Token.bytes same
  refine ⟨_, cut template, ?_, ?_, ?_⟩
  · intro lines
    rw [← Bytes.lines_eq_iff]
    exact List.map_inj_right mkInjective
  · have bare : (template.bytes.lines.map Token.mk).map Token.bytes = template.bytes.lines := by
      simp [Function.comp_def]
    rw [ofTokens, bare]
    exact template.bytes.exists_splitOn_eq
  · intro lines clean last
    have has : Bytes.HasLines ([Bytes.newline].intercalate lines) lines :=
      ⟨clean, last, 0, (List.append_nil _).symm⟩
    rw [cut, has.lines_eq]

/-- A body with `a` on its third line, `b` on its fifth and a line end behind that and one more has
five lines, three of them blank. -/
theorem lines_of_liquidTag_between_blank_lines :
    let settings : Settings := { forLiquidTag := true }
    let template := Template.utf8 [0x0a, 0x0a, 0x61, 0x0a, 0x0a, 0x62, 0x0a, 0x0a]
    let lines : List Bytes := [[], [], [0x61], [], [0x62]]
    settings.forLiquidTag = true ∧ template.bytes.HasLines lines ∧
    ∃ stream, ofTemplate settings template = .ok stream ∧
      stream.pending = lines.map Token.mk := by
  intro settings template lines
  have has : template.bytes.HasLines lines := ⟨by decide, by decide, 2, by decide⟩
  obtain ⟨stream, accepted, onlyLines, -, -⟩ :=
    @lines_of_liquidTag settings rfl template
  exact ⟨rfl, has, stream, accepted, (onlyLines lines).mpr has⟩

end TokenStream

end TemplateTokens
