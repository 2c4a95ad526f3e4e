import TemplateTokens.Keyword
import TemplateTokens.Proofs.Utf8

/-!
# How far a tag body is looked at

The test for a keyword looks past the keyword, because the word has to end there, and in UTF-8 it
may read several bytes to find out. It never looks past a percent sign: a percent sign is no dash,
no space and no part of a keyword, and as an ASCII byte it ends any character in front of it. A tag
with a closer is therefore tested on its own body alone.

The body of a tag with a closer has a percent sign in it, so the lemmas below ask for no more than
that one occurs, be it the one of the closer or another. A tag without a closer has none to stop the
test, which then looks at whatever follows its opener as if that were the body.
-/

namespace TemplateTokens

/-- With an ASCII byte among the given ones, no later byte decides whether a word character begins
them. -/
theorem Encoding.startsWithWord_append (encoding : Encoding) {front : Bytes} (more : Bytes)
    (ascii : ∃ byte ∈ front, byte < 0x80) :
    encoding.startsWithWord (front ++ more) = encoding.startsWithWord front := by
  cases front with
  | nil => simp at ascii
  | cons lead rest =>
    simp only [List.cons_append, startsWithWord]
    cases leadAscii : Bytes.isAscii lead with
    | true => rfl
    | false =>
      have later : ∃ byte ∈ rest, byte < 0x80 := by
        obtain ⟨byte, member, low⟩ := ascii
        rcases List.mem_cons.mp member with rfl | member
        · simp [Bytes.isAscii, low] at leadAscii
        · exact ⟨byte, member, low⟩
      rw [Utf8.leading_append_of_ascii lead more later]

namespace Keyword

/-- The dash and the spaces in front of a keyword are no percent signs, so one that is in the body
stays in what follows them, and bytes behind it do not lengthen the margin. -/
theorem marginLength_append {body : Bytes} (more : Bytes) (closes : Bytes.percent ∈ body) :
    marginLength (body ++ more) = marginLength body ∧
    Bytes.percent ∈ body.drop (marginLength body) := by
  have afterSpaces (bytes : Bytes) (closes : Bytes.percent ∈ bytes) :
      ((bytes ++ more).takeWhile Bytes.isSpace).length = (bytes.takeWhile Bytes.isSpace).length ∧
      Bytes.percent ∈ bytes.drop (bytes.takeWhile Bytes.isSpace).length := by
    induction bytes with
    | nil => simp at closes
    | cons byte rest inductionHypothesis =>
      simp only [List.cons_append, List.takeWhile_cons]
      cases space : Bytes.isSpace byte with
      | false => simpa using closes
      | true =>
        have later : Bytes.percent ∈ rest := by
          rcases List.mem_cons.mp closes with rfl | later
          · exact absurd space (by decide)
          · exact later
        simpa using inductionHypothesis later
  match body, closes with
  | first :: rest, closes =>
    by_cases dashed : first = Bytes.dash
    · have later : Bytes.percent ∈ rest := by
        rcases List.mem_cons.mp closes with rfl | later
        · exact absurd dashed (by decide)
        · exact later
      obtain ⟨length, member⟩ := afterSpaces rest later
      refine ⟨by simp [marginLength, dashed, length], ?_⟩
      simpa [marginLength, dashed, Nat.add_comm 1] using member
    · obtain ⟨length, member⟩ := afterSpaces (first :: rest) closes
      rw [List.cons_append] at length
      exact ⟨by simp [marginLength, dashed, length], by simpa [marginLength, dashed] using member⟩

/-- A name without a percent sign ends in front of any percent sign, so bytes behind one neither
make it fit nor keep it from fitting. -/
theorem isPrefix_append_iff {name bytes : Bytes} (more : Bytes) (clean : Bytes.percent ∉ name)
    (closes : Bytes.percent ∈ bytes) :
    (name <+: bytes ++ more ↔ name <+: bytes) ∧
    (name <+: bytes → Bytes.percent ∈ bytes.drop name.length) := by
  induction name generalizing bytes with
  | nil => simpa using closes
  | cons first name inductionHypothesis =>
    match bytes, closes with
    | byte :: rest, closes =>
      simp only [List.cons_append, List.cons_prefix_cons, List.length_cons, List.drop_succ_cons]
      by_cases same : first = byte
      · have later : Bytes.percent ∈ rest := by
          rcases List.mem_cons.mp closes with rfl | later
          · exact absurd List.mem_cons_self (same ▸ clean)
          · exact later
        have fits := inductionHypothesis (fun member => clean (by simp [member])) later
        simpa [same] using fits
      · simp [same]

/-- A body leads with a keyword exactly if, behind the margin, the keyword stands as a whole
word. -/
theorem leads_iff {keyword : Keyword} {encoding : Encoding} {body : Bytes} :
    keyword.leads encoding body = true ↔
      keyword.name <+: body.drop (marginLength body) ∧
      encoding.startsWithWord
        ((body.drop (marginLength body)).drop keyword.name.length) = false := by
  rw [List.drop_drop, ← List.isPrefixOf_iff_prefix]
  simp only [leads, leadLength?]
  split <;> simp_all

/-- A keyword without a percent sign leads a body with one no matter what follows the body. -/
theorem leads_append {keyword : Keyword} (encoding : Encoding) {body : Bytes} (more : Bytes)
    (clean : Bytes.percent ∉ keyword.name) (closes : Bytes.percent ∈ body) :
    keyword.leads encoding (body ++ more) = keyword.leads encoding body := by
  obtain ⟨margin, afterMargin⟩ := marginLength_append more closes
  obtain ⟨sameName, afterName⟩ := isPrefix_append_iff more clean afterMargin
  have inside : marginLength body ≤ body.length := by
    apply Nat.le_of_not_lt
    intro beyond
    rw [List.drop_of_length_le (by omega)] at afterMargin
    exact absurd afterMargin List.not_mem_nil
  rw [Bool.eq_iff_iff, leads_iff, leads_iff, margin, List.drop_append_of_le_length inside, sameName]
  apply and_congr_right
  intro named
  rw [List.drop_append_of_le_length named.length_le,
    encoding.startsWithWord_append more ⟨Bytes.percent, afterName named, by decide⟩]

end Keyword

end TemplateTokens
