import TemplateTokens.Keyword
import TemplateTokens.Proofs.WordCharacters

/-!
# What it means to lead with a keyword

The test for a keyword takes a dash and then all the spaces that follow, and gives none of them
back. `Keyword.Reading` says what it is to find: some way to cut the body into a dash or none,
spaces, the keyword and a rest that does not continue the word. For a keyword that begins neither
with a dash nor with a space there is one such way at most, and the test finds it.
-/

namespace TemplateTokens.Keyword

/-- A keyword that cannot be mistaken for what may stand in front of it: it is not empty and begins
neither with a dash nor with a space. -/
def StandsClear (keyword : Keyword) : Prop :=
  ∃ first later, keyword.name = first :: later ∧ first ≠ Bytes.dash ∧ Bytes.isSpace first = false

/-- A way to read a body as one that leads with a keyword. -/
@[ext]
structure Reading (keyword : Keyword) (encoding : Encoding) (body : Bytes) where
  /-- One dash, or nothing. -/
  dash : Bytes
  /-- Any number of spaces. -/
  spaces : Bytes
  /-- What stands behind the keyword. -/
  rest : Bytes
  /-- There is one dash at most. -/
  isDash : dash = [] ∨ dash = [Bytes.dash]
  /-- Only spaces stand between the dash and the keyword. -/
  areSpaces : ∀ byte ∈ spaces, Bytes.isSpace byte = true
  /-- The word ends with the keyword. -/
  ends : ¬ encoding.BeginsWord rest
  /-- The parts are the body. -/
  cut : body = dash ++ (spaces ++ (keyword.name ++ rest))

/-- The number of bytes up to the end of the keyword. -/
def Reading.length {keyword : Keyword} {encoding : Encoding} {body : Bytes}
    (reading : keyword.Reading encoding body) : Nat :=
  reading.dash.length + reading.spaces.length + keyword.name.length

/-- Nothing in front of `raw` can be mistaken for it. Its first letter is neither a space nor a
dash, and that is all it takes. -/
theorem raw_standsClear : raw.StandsClear := ⟨_, _, rfl, by decide, by decide⟩

/-- Nothing in front of `endraw` can be mistaken for it. -/
theorem endraw_standsClear : endraw.StandsClear := ⟨_, _, rfl, by decide, by decide⟩

variable {keyword : Keyword} {encoding : Encoding} {body : Bytes}

namespace Reading

/-- Spaces in front of the keyword are all the spaces there are. Without the condition on the
keyword a part of it could be read as a space. -/
theorem takeWhile_isSpace (reading : keyword.Reading encoding body) (clear : keyword.StandsClear) :
    (reading.spaces ++ (keyword.name ++ reading.rest)).takeWhile Bytes.isSpace =
      reading.spaces := by
  obtain ⟨first, later, name, -, noSpace⟩ := clear
  have stops : (keyword.name ++ reading.rest).takeWhile Bytes.isSpace = [] := by
    rw [name, List.cons_append]
    exact List.takeWhile_cons_of_neg (by simp [noSpace])
  rw [List.takeWhile_append_of_pos reading.areSpaces, stops, List.append_nil]

/-- No dash stands behind the place of the dash. -/
theorem head?_ne_dash (reading : keyword.Reading encoding body) (clear : keyword.StandsClear) :
    (reading.spaces ++ (keyword.name ++ reading.rest)).head? ≠ some Bytes.dash := by
  obtain ⟨first, later, name, noDash, -⟩ := clear
  cases cut : reading.spaces with
  | nil => simpa [name] using noDash
  | cons space spaces =>
    have isSpace := reading.areSpaces space (by simp [cut])
    rintro same
    rw [List.cons_append, List.head?_cons, Option.some.injEq] at same
    subst same
    exact absurd isSpace (by decide)

/-- The dash is read exactly where the body begins with one. -/
theorem dash_eq (reading : keyword.Reading encoding body) (clear : keyword.StandsClear) :
    reading.dash = if body.head? = some Bytes.dash then [Bytes.dash] else [] := by
  have behind := reading.head?_ne_dash clear
  have first := congrArg List.head? reading.cut
  rw [first]
  rcases reading.isDash with none | one
  · rw [none, List.nil_append, if_neg behind]
  · rw [one, List.singleton_append, List.head?_cons, if_pos rfl]

/-- Behind the dash stand the spaces and the keyword. -/
theorem drop_dash (reading : keyword.Reading encoding body) :
    body.drop reading.dash.length = reading.spaces ++ (keyword.name ++ reading.rest) :=
  (congrArg (List.drop reading.dash.length) reading.cut).trans List.drop_left

/-- The spaces are all that stand behind the dash. -/
theorem spaces_eq (reading : keyword.Reading encoding body) (clear : keyword.StandsClear) :
    reading.spaces = (body.drop reading.dash.length).takeWhile Bytes.isSpace := by
  rw [reading.drop_dash, reading.takeWhile_isSpace clear]

/-- What is passed over in front of the keyword is the dash and the spaces of any reading. -/
theorem marginLength_eq (reading : keyword.Reading encoding body) (clear : keyword.StandsClear) :
    marginLength body = reading.dash.length + reading.spaces.length := by
  have dashLength : (if body.head? = some Bytes.dash then 1 else 0) = reading.dash.length := by
    rw [reading.dash_eq clear]
    split <;> rfl
  rw [marginLength, dashLength, ← reading.spaces_eq clear]

/-- A body is read in one way only. Dash, spaces and name are determined one after the other, and
then so is the rest. -/
theorem unique (clear : keyword.StandsClear) (first second : keyword.Reading encoding body) :
    first = second := by
  have dash : first.dash = second.dash := (first.dash_eq clear).trans (second.dash_eq clear).symm
  have spaces : first.spaces = second.spaces := by
    rw [first.spaces_eq clear, second.spaces_eq clear, dash]
  have rest : first.rest = second.rest := by
    have same := first.cut.symm.trans second.cut
    rw [dash, spaces] at same
    simpa using same
  exact Reading.ext dash spaces rest

/-- The test finds any reading. The test takes as much as it can of everything optional, and this
says that it never takes too much. -/
theorem leadLength?_eq (reading : keyword.Reading encoding body) (clear : keyword.StandsClear) :
    keyword.leadLength? encoding body = some reading.length := by
  have margin := reading.marginLength_eq clear
  have named : body.drop (marginLength body) = keyword.name ++ reading.rest := by
    rw [margin, ← List.drop_drop, reading.drop_dash, List.drop_left]
  have following : body.drop (marginLength body + keyword.name.length) = reading.rest := by
    rw [← List.drop_drop, named, List.drop_left]
  have ends : encoding.startsWithWord reading.rest = false :=
    Bool.eq_false_iff.mpr (mt Encoding.startsWithWord_iff.mp reading.ends)
  have begins : keyword.name.isPrefixOf (keyword.name ++ reading.rest) = true :=
    List.isPrefixOf_iff_prefix.mpr (List.prefix_append _ _)
  simp only [leadLength?, named, following, ends, begins, Bool.not_false, Bool.and_self, if_true]
  rw [margin, length]

end Reading

/-- What is passed over in front of a keyword is a dash or nothing and then spaces. -/
theorem exists_margin (body : Bytes) :
    ∃ dash spaces, (dash = [] ∨ dash = [Bytes.dash]) ∧
      (∀ byte ∈ spaces, Bytes.isSpace byte = true) ∧
      marginLength body = dash.length + spaces.length ∧
      body = dash ++ (spaces ++ body.drop (marginLength body)) := by
  have spaced (bytes : Bytes) : bytes = bytes.takeWhile Bytes.isSpace ++
      bytes.drop (bytes.takeWhile Bytes.isSpace).length :=
    (List.prefix_iff_eq_append.mp (List.takeWhile_prefix _)).symm
  have areSpaces (bytes : Bytes) (byte : UInt8) (member : byte ∈ bytes.takeWhile Bytes.isSpace) :
      Bytes.isSpace byte = true := List.mem_takeWhile_imp member
  by_cases dashed : body.head? = some Bytes.dash
  · obtain ⟨tail, rfl⟩ := List.head?_eq_some_iff.mp dashed
    have margin : marginLength (Bytes.dash :: tail) =
        (tail.takeWhile Bytes.isSpace).length + 1 := by
      simp [marginLength, Nat.add_comm]
    refine ⟨[Bytes.dash], tail.takeWhile Bytes.isSpace, .inr rfl, areSpaces tail, ?_, ?_⟩
    · rw [margin, Nat.add_comm]
      rfl
    · rw [margin, List.drop_succ_cons, ← spaced]
      rfl
  · have margin : marginLength body = (body.takeWhile Bytes.isSpace).length := by
      simp [marginLength, dashed]
    refine ⟨[], body.takeWhile Bytes.isSpace, .inl rfl, areSpaces body, ?_, ?_⟩
    · rw [margin, List.length_nil, Nat.zero_add]
    · rw [margin, List.nil_append, ← spaced]

/-- What the test finds can be read. Together with the converse this makes the greedy test and the
reading the same thing. -/
theorem exists_reading {length : Nat} (found : keyword.leadLength? encoding body = some length) :
    ∃ reading : keyword.Reading encoding body, reading.length = length := by
  obtain ⟨dash, spaces, isDash, areSpaces, margin, cut⟩ := exists_margin body
  rw [leadLength?] at found
  split at found
  · next fits =>
    obtain ⟨named, ends⟩ := Bool.and_eq_true_iff.mp fits
    obtain ⟨rest, follows⟩ := List.isPrefixOf_iff_prefix.mp named
    have behind : body.drop (marginLength body + keyword.name.length) = rest := by
      rw [← List.drop_drop, ← follows, List.drop_left]
    rw [behind, Bool.not_eq_true'] at ends
    have noWord : ¬ encoding.BeginsWord rest := by
      rw [← Encoding.startsWithWord_iff, ends]
      exact Bool.false_ne_true
    rw [← follows] at cut
    refine ⟨⟨dash, spaces, rest, isDash, areSpaces, noWord, cut⟩, ?_⟩
    rw [Reading.length, ← margin]
    exact Option.some.inj found
  · exact absurd found (by simp)

/-- The greedy test for a keyword that stands clear of what may be in front of it finds every
reading of the body, in every encoding: it answers with a number of bytes exactly if the body can be
read up to there, the body can be read in one way at most, and the keyword leads the body exactly if
it can be read at all.

Proof: the greedy margin is a dash, if there is one, and all the spaces behind it. A reading with a
shorter margin would have the keyword begin with a dash or a space, which the condition on the
keyword excludes, so all readings are the greedy one. -/
theorem leadLength?_eq_some_iff_reading (clear : keyword.StandsClear) (encoding : Encoding)
    (body : Bytes) :
    (∀ length, keyword.leadLength? encoding body = some length ↔
      ∃ reading : keyword.Reading encoding body, reading.length = length) ∧
    (∀ first second : keyword.Reading encoding body, first = second) ∧
    (keyword.leads encoding body = true ↔ Nonempty (keyword.Reading encoding body)) := by
  have found (length : Nat) : keyword.leadLength? encoding body = some length ↔
      ∃ reading : keyword.Reading encoding body, reading.length = length := by
    constructor
    · exact exists_reading
    · rintro ⟨reading, rfl⟩
      exact reading.leadLength?_eq clear
  refine ⟨found, Reading.unique clear, ?_⟩
  rw [leads, Option.isSome_iff_exists]
  constructor
  · rintro ⟨length, known⟩
    obtain ⟨reading, -⟩ := (found length).mp known
    exact ⟨reading⟩
  · rintro ⟨reading⟩
    exact ⟨_, (found _).mpr ⟨reading, rfl⟩⟩

/-- No reading of a body as one that leads with `raw` or `endraw` is missed. A dash, a vertical tab
and `raw` with the two bytes of `é` behind it can be read as ASCII, where the word ends with `raw`,
and not as UTF-8. Cut off between the two bytes, it can be read as UTF-8, too. -/
theorem reading_of_raw_in_front_of_accent :
    let body : Bytes := [0x2d, 0x0b, 0x72, 0x61, 0x77, 0xc3, 0xa9]
    (raw.StandsClear ∧ ∀ encoding body,
      raw.leads encoding body = true ↔ Nonempty (raw.Reading encoding body)) ∧
    (endraw.StandsClear ∧ ∀ encoding body,
      endraw.leads encoding body = true ↔ Nonempty (endraw.Reading encoding body)) ∧
    (∃ reading : raw.Reading .ascii body, reading.length = 5) ∧
    ¬ Nonempty (raw.Reading .utf8 body) ∧
    ∃ reading : raw.Reading .utf8 (body.take 6), reading.length = 5 := by
  intro body
  refine ⟨⟨raw_standsClear, ?_⟩, ⟨endraw_standsClear, ?_⟩, ?_, ?_, ?_⟩
  · intro encoding body
    exact (leadLength?_eq_some_iff_reading raw_standsClear encoding body).2.2
  · intro encoding body
    exact (leadLength?_eq_some_iff_reading endraw_standsClear encoding body).2.2
  · exact ((leadLength?_eq_some_iff_reading raw_standsClear .ascii body).1 5).mp (by decide)
  · rw [← (leadLength?_eq_some_iff_reading raw_standsClear .utf8 body).2.2]
    decide +kernel
  · exact ((leadLength?_eq_some_iff_reading raw_standsClear .utf8 (body.take 6)).1 5).mp (by decide)

end TemplateTokens.Keyword
