import TemplateTokens.Grammar
import TemplateTokens.Proofs.Search

/-!
# Walking through an output byte by byte

The scanner jumps from stop byte to stop byte. Here the same output is walked through one byte at a
time, with the quoting and a shield as the only memory: a backslash inside a string raises the
shield, and a shielded byte is passed whatever it is. The jumps lose nothing, since a byte that is
no stop byte changes neither the quoting nor the shield (`endingFrom_eq_walkFrom`). Facts about
outputs are proved of the walk, by induction on the bytes.
-/

namespace TemplateTokens.Output

/-- How an output ends, given the quoting in front of the bytes, whether a backslash shields the
next byte, and the number of bytes of the body already passed. -/
def walkFrom (quoting : Quoting) (shielded : Bool) (passed : Nat) : Bytes → Ending
  | [] => .missing
  | byte :: rest =>
    if shielded then walkFrom quoting false (passed + 1) rest
    else if quoting = .outside ∧ byte = Bytes.closeBrace ∧ rest.head? = some Bytes.closeBrace then
      .closed (passed + 2)
    else if quoting = .outside ∧ byte = Bytes.openBrace ∧ rest.head? = some Bytes.percent then
      .overtaken (passed + 2)
    else if quoting ≠ .outside ∧ byte = Bytes.backslash then walkFrom quoting true (passed + 1) rest
    else walkFrom (quoting.after byte) false (passed + 1) rest

/-- One step of the walk at a byte that is not shielded. The markers are looked for before the byte
is taken for a mark, and only outside of strings. -/
theorem walkFrom_cons (quoting : Quoting) (passed : Nat) (byte : UInt8) (rest : Bytes) :
    walkFrom quoting false passed (byte :: rest) =
      if quoting = .outside ∧ byte = Bytes.closeBrace ∧ rest.head? = some Bytes.closeBrace then
        .closed (passed + 2)
      else if quoting = .outside ∧ byte = Bytes.openBrace ∧ rest.head? = some Bytes.percent then
        .overtaken (passed + 2)
      else if quoting ≠ .outside ∧ byte = Bytes.backslash then
        walkFrom quoting true (passed + 1) rest
      else walkFrom (quoting.after byte) false (passed + 1) rest := by
  simp only [walkFrom, Bool.false_eq_true, if_false]

/-- A shielded byte is passed whatever it is, and the end of the template ends an output in any
case. -/
theorem walkFrom_shielded (quoting : Quoting) (passed : Nat) (bytes : Bytes) :
    walkFrom quoting true passed bytes = walkFrom quoting false (passed + 1) (bytes.drop 1) := by
  cases bytes <;> simp [walkFrom]

/-- A byte that is no stop byte is passed and changes nothing. -/
theorem walkFrom_cons_of_not_stop (quoting : Quoting) (passed : Nat) {byte : UInt8} (rest : Bytes)
    (noStop : byte ∉ stops) :
    walkFrom quoting false passed (byte :: rest) = walkFrom quoting false (passed + 1) rest := by
  simp only [stops, List.mem_cons, List.not_mem_nil, or_false, not_or] at noStop
  obtain ⟨noBackslash, noDouble, noSingle, noClose, noOpen⟩ := noStop
  simp [walkFrom, noBackslash, noClose, noOpen, Quoting.after, noDouble, noSingle]

/-- Bytes that are no stop bytes are passed together. The search that the program makes jumps over
them, while the walk goes byte by byte. -/
theorem walkFrom_append_of_not_stop (quoting : Quoting) (passed : Nat) {front : Bytes}
    (rest : Bytes) (noStop : ∀ byte ∈ front, byte ∉ stops) :
    walkFrom quoting false passed (front ++ rest) =
      walkFrom quoting false (passed + front.length) rest := by
  induction front generalizing passed with
  | nil => rfl
  | cons byte front inductionHypothesis =>
    obtain ⟨first, later⟩ := List.forall_mem_cons.mp noStop
    rw [List.cons_append, walkFrom_cons_of_not_stop quoting passed _ first,
      inductionHypothesis (passed + 1) later, List.length_cons, Nat.add_comm front.length,
      Nat.add_assoc]

/-- Without a stop byte an output does not end. -/
theorem endingFrom_of_missing (quoting : Quoting) (passed : Nat) {body : Bytes}
    (missing : (Needle.anyOf stops).find? body = none) :
    endingFrom quoting passed body = .missing := by
  rw [endingFrom, missing]

/-- A count that is too large makes no difference where no byte is left. -/
theorem endingFrom_min (quoting : Quoting) (start reached limit : Nat) {body : Bytes}
    (nothing : limit < reached → body = []) :
    endingFrom quoting (reached - start - 2) body =
      endingFrom quoting (min reached limit - start - 2) body := by
  by_cases within : reached ≤ limit
  · rw [Nat.min_eq_left within]
  · rw [nothing (Nat.lt_of_not_le within), endingFrom_of_missing _ _ rfl,
      endingFrom_of_missing _ _ rfl]

/-- What happens at the first stop byte. The program looks there at the byte behind the stop byte as
well, and passes it only in some of the cases. -/
theorem endingFrom_append (quoting : Quoting) (passed : Nat) {front : Bytes} {stop : UInt8}
    (after : Bytes)
    (found : (Needle.anyOf stops).find? (front ++ stop :: after) = some ⟨front.length, 1⟩) :
    endingFrom quoting passed (front ++ stop :: after) =
      if quoting = .outside ∧ stop = Bytes.closeBrace ∧ after.head? = some Bytes.closeBrace then
        .closed (passed + front.length + 2)
      else if quoting = .outside ∧ stop = Bytes.openBrace ∧ after.head? = some Bytes.percent then
        .overtaken (passed + front.length + 2)
      else
        let shielded := if quoting ≠ .outside ∧ stop = Bytes.backslash then 1 else 0
        endingFrom (quoting.after stop) (passed + front.length + 1 + shielded)
          (after.drop shielded) := by
  conv => lhs; rw [endingFrom, found]
  dsimp only
  split
  · next atEnd => simp at atEnd
  · next remaining =>
    rw [List.drop_left] at remaining
    cases remaining
    rfl

/-- Jumping from stop byte to stop byte and walking byte by byte find the same ending.

Proof: by induction on the number of bytes left. The bytes in front of the first stop byte are
passed alike. At a stop byte both take the same decision, and a backslash inside a string passes the
byte after it by a jump of two here and by the shield there. -/
theorem endingFrom_eq_walkFrom (quoting : Quoting) (passed : Nat) (body : Bytes) :
    endingFrom quoting passed body = walkFrom quoting false passed body := by
  induction length : body.length using Nat.strongRecOn generalizing quoting passed body with
  | ind size inductionHypothesis =>
    cases search : (Needle.anyOf stops).find? body with
    | none =>
      have noStop := Needle.find?_anyOf_eq_none_iff.mp search
      have walked := walkFrom_append_of_not_stop quoting passed [] noStop
      rw [List.append_nil] at walked
      rw [endingFrom_of_missing quoting passed search, walked, walkFrom]
    | some hit =>
      obtain ⟨front, stop, after, rfl, rfl, -, noStop⟩ := Needle.find?_anyOf_eq_some search
      rw [endingFrom_append quoting passed after search,
        walkFrom_append_of_not_stop quoting passed _ noStop, walkFrom_cons]
      have shorter (skipped : Nat) : (after.drop skipped).length < size := by
        rw [← length]
        simp only [List.length_drop, List.length_append, List.length_cons]
        omega
      split
      · rfl
      split
      · rfl
      split
      · next inString =>
        have same : quoting.after stop = quoting := by
          rw [inString.2]
          rfl
        simp only [same]
        rw [inductionHypothesis _ (shorter 1) _ _ _ rfl, walkFrom_shielded]
      · exact inductionHypothesis _ (shorter 0) _ _ _ rfl

/-- An output ends where a walk through its body ends. The search among stop bytes is gone from here
on, and the rest is about single bytes. -/
theorem ending_eq_walkFrom (body : Bytes) : ending body = walkFrom .outside false 0 body :=
  endingFrom_eq_walkFrom .outside 0 body

/-- An ending stands at its marker, which the number of bytes up to the ending includes. -/
def Ending.StandsIn (passed : Nat) (body : Bytes) : Ending → Prop
  | .closed length =>
    ∃ offset, length = passed + offset + 2 ∧ Bytes.outputCloser <+: body.drop offset
  | .overtaken length =>
    ∃ offset, length = passed + offset + 2 ∧ Bytes.tagOpener <+: body.drop offset
  | .missing => True

/-- One more byte in front of the body moves an ending along. -/
theorem Ending.StandsIn.cons {passed : Nat} {rest : Bytes} {ending : Ending} (byte : UInt8)
    (stands : ending.StandsIn (passed + 1) rest) : ending.StandsIn passed (byte :: rest) := by
  cases ending with
  | closed length =>
    obtain ⟨offset, rfl, marker⟩ := stands
    exact ⟨offset + 1, by omega, marker⟩
  | overtaken length =>
    obtain ⟨offset, rfl, marker⟩ := stands
    exact ⟨offset + 1, by omega, marker⟩
  | missing => trivial

/-- The walk ends at a marker or not at all. The offset it tells is that behind the marker, counted
from the body on. -/
theorem walkFrom_standsIn (quoting : Quoting) (shielded : Bool) (passed : Nat) (body : Bytes) :
    (walkFrom quoting shielded passed body).StandsIn passed body := by
  induction body generalizing quoting shielded passed with
  | nil => trivial
  | cons byte rest inductionHypothesis =>
    have later (quoting : Quoting) (shielded : Bool) :
        (walkFrom quoting shielded (passed + 1) rest).StandsIn passed (byte :: rest) :=
      (inductionHypothesis quoting shielded (passed + 1)).cons byte
    cases shielded with
    | true => exact later quoting false
    | false =>
      rw [walkFrom_cons]
      split
      · next closes =>
        obtain ⟨tail, rfl⟩ := List.head?_eq_some_iff.mp closes.2.2
        exact ⟨0, rfl, by simp [closes.2.1]⟩
      split
      · next overtakes =>
        obtain ⟨tail, rfl⟩ := List.head?_eq_some_iff.mp overtakes.2.2
        exact ⟨0, rfl, by simp [overtakes.2.1]⟩
      split
      · exact later quoting true
      · exact later (quoting.after byte) false

/-- Where a walk ends, bytes behind the body make no difference: what ended it was in the body. -/
theorem walkFrom_append (quoting : Quoting) (shielded : Bool) (passed : Nat) {body : Bytes}
    (more : Bytes) (ends : walkFrom quoting shielded passed body ≠ .missing) :
    walkFrom quoting shielded passed (body ++ more) = walkFrom quoting shielded passed body := by
  induction body generalizing quoting shielded passed with
  | nil => exact absurd rfl ends
  | cons byte rest inductionHypothesis =>
    cases shielded with
    | true => exact inductionHypothesis quoting false (passed + 1) ends
    | false =>
      cases rest with
      | nil => simp [walkFrom] at ends
      | cons next tail =>
        have sameHead : (next :: tail ++ more).head? = (next :: tail).head? := rfl
        rw [walkFrom_cons] at ends
        rw [List.cons_append, walkFrom_cons, walkFrom_cons, sameHead]
        split
        · rfl
        split
        · rfl
        next notClosed notOvertaken =>
          rw [if_neg notClosed, if_neg notOvertaken] at ends
          split
          · next shields =>
            rw [if_pos shields] at ends
            exact inductionHypothesis quoting true _ ends
          · next unshielded =>
            rw [if_neg unshielded] at ends
            exact inductionHypothesis (quoting.after byte) false _ ends

/-- An output that ends within a body ends there when more bytes follow. A walk that has ended has
not looked at the bytes behind its end. -/
theorem ending_append {body : Bytes} (more : Bytes) (ends : ending body ≠ .missing) :
    ending (body ++ more) = ending body := by
  rw [ending_eq_walkFrom] at ends
  rw [ending_eq_walkFrom, ending_eq_walkFrom, walkFrom_append _ _ _ more ends]

/-- An ending lies within the first `bound` bytes. -/
def Ending.LiesWithin (bound : Nat) : Ending → Prop
  | .closed length => length ≤ bound
  | .overtaken length => length ≤ bound
  | .missing => False

/-- A walk that ends takes two bytes at least. -/
theorem le_of_walkFrom_liesWithin {quoting : Quoting} {shielded : Bool} {passed bound : Nat}
    {body : Bytes} (within : (walkFrom quoting shielded passed body).LiesWithin bound) :
    passed + 2 ≤ bound := by
  have stands := walkFrom_standsIn quoting shielded passed body
  cases ends : walkFrom quoting shielded passed body with
  | closed length =>
    rw [ends] at within stands
    obtain ⟨offset, rfl, -⟩ := stands
    simp only [Ending.LiesWithin] at within
    omega
  | overtaken length =>
    rw [ends] at within stands
    obtain ⟨offset, rfl, -⟩ := stands
    simp only [Ending.LiesWithin] at within
    omega
  | missing =>
    rw [ends] at within
    exact within.elim

/-- Bytes behind the place where a walk ends can be taken away. It is the converse of going on with
more bytes, for endings that lie within the bytes kept. -/
theorem walkFrom_of_append (quoting : Quoting) (shielded : Bool) (passed : Nat) (body more : Bytes)
    (within :
      (walkFrom quoting shielded passed (body ++ more)).LiesWithin (passed + body.length)) :
    walkFrom quoting shielded passed body = walkFrom quoting shielded passed (body ++ more) := by
  induction body generalizing quoting shielded passed with
  | nil =>
    have impossible := le_of_walkFrom_liesWithin within
    simp only [List.length_nil] at impossible
    omega
  | cons byte rest inductionHypothesis =>
    have bound : passed + (byte :: rest).length = passed + 1 + rest.length := by
      simp only [List.length_cons]
      omega
    rw [bound] at within
    cases shielded with
    | true => exact inductionHypothesis quoting false (passed + 1) within
    | false =>
      cases rest with
      | nil =>
        have impossible := le_of_walkFrom_liesWithin within
        simp only [List.length_nil] at impossible
        omega
      | cons next tail =>
        have sameHead : (next :: tail ++ more).head? = (next :: tail).head? := rfl
        rw [List.cons_append, walkFrom_cons, sameHead] at within
        rw [List.cons_append, walkFrom_cons _ _ _ (next :: tail), walkFrom_cons _ _ _ (_ ++ more),
          sameHead]
        split
        · rfl
        split
        · rfl
        next notClosed notOvertaken =>
          rw [if_neg notClosed, if_neg notOvertaken] at within
          split
          · next shields =>
            rw [if_pos shields] at within
            exact inductionHypothesis quoting true _ within
          · next unshielded =>
            rw [if_neg unshielded] at within
            exact inductionHypothesis (quoting.after byte) false _ within

/-- An ending within the bytes up to `bound` is found as soon as these are there. -/
theorem ending_take {body : Bytes} {bound : Nat} (within : (ending body).LiesWithin bound)
    (inside : bound ≤ body.length) : ending (body.take bound) = ending body := by
  have length : 0 + (body.take bound).length = bound := by simp [inside]
  rw [ending_eq_walkFrom, ending_eq_walkFrom]
  rw [ending_eq_walkFrom] at within
  have shortened := walkFrom_of_append .outside false 0 (body.take bound) (body.drop bound)
  rw [List.take_append_drop, length] at shortened
  exact shortened within

/-- A marker of two bytes cuts the body, and an ending at the marker is found as soon as the marker
is there. -/
theorem ending_cut {first second : UInt8} {body : Bytes} {offset : Nat}
    (marker : [first, second] <+: body.drop offset)
    (within : (ending body).LiesWithin (offset + 2)) :
    ∃ front rest, body = front ++ [first, second] ++ rest ∧ offset = front.length ∧
      ending (front ++ [first, second]) = ending body := by
  obtain ⟨rest, remaining⟩ := marker
  have lengths := congrArg List.length remaining
  simp only [List.length_append, List.length_cons, List.length_nil, List.length_drop] at lengths
  have front : (body.take offset).length = offset := List.length_take_of_le (by omega)
  have upToEnd : body.take (offset + 2) = body.take offset ++ [first, second] := by
    rw [List.take_add, ← remaining]
    rfl
  refine ⟨body.take offset, rest, ?_, front.symm, ?_⟩
  · rw [List.append_assoc, remaining, List.take_append_drop]
  · rw [← upToEnd, ending_take within (by omega)]

/-- The number of bytes up to an ending. -/
def Ending.length? : Ending → Option Nat
  | .closed length => some length
  | .overtaken length => some length
  | .missing => none

/-- A string is delimited by the quote mark of its kind. -/
def Quoting.DelimitedBy (quoting : Quoting) (mark : UInt8) : Prop :=
  quoting = .double ∧ mark = Bytes.doubleQuote ∨ quoting = .single ∧ mark = Bytes.singleQuote

/-- An ending lies within the bytes up to it. -/
theorem Ending.liesWithin_of_length? {ending : Ending} {length : Nat}
    (ends : ending.length? = some length) : ending.LiesWithin length := by
  cases ending with
  | closed other => exact Nat.le_of_eq (Option.some.inj ends)
  | overtaken other => exact Nat.le_of_eq (Option.some.inj ends)
  | missing => exact absurd ends (by simp [length?])

/-- Every quote mark delimits one kind of string. -/
theorem Quoting.exists_delimitedBy {mark : UInt8}
    (isMark : mark = Bytes.doubleQuote ∨ mark = Bytes.singleQuote) :
    ∃ quoting : Quoting, quoting.DelimitedBy mark := by
  rcases isMark with rfl | rfl
  · exact ⟨.double, .inl ⟨rfl, rfl⟩⟩
  · exact ⟨.single, .inr ⟨rfl, rfl⟩⟩

section Delimited

variable {quoting : Quoting} {mark : UInt8} (delimited : quoting.DelimitedBy mark)
include delimited

/-- The mark opens a string of its kind and closes it; inside, no other byte changes the quoting. -/
theorem Quoting.DelimitedBy.after_eq :
    Quoting.outside.after mark = quoting ∧ quoting.after mark = .outside ∧
    ∀ byte, byte ≠ mark → quoting.after byte = quoting := by
  rcases delimited with ⟨rfl, rfl⟩ | ⟨rfl, rfl⟩
  · refine ⟨rfl, rfl, ?_⟩
    intro byte other
    rw [after, if_neg other]
    split <;> rfl
  · refine ⟨rfl, rfl, ?_⟩
    intro byte other
    rw [after, if_neg other]
    split <;> rfl

/-- A kind of string has only one mark. -/
theorem Quoting.DelimitedBy.unique {other : UInt8} (sameKind : quoting.DelimitedBy other) :
    mark = other := by
  rcases delimited with ⟨rfl, rfl⟩ | ⟨rfl, rfl⟩
  · simpa [DelimitedBy, eq_comm] using sameKind
  · simpa [DelimitedBy, eq_comm] using sameKind

/-- Inside a string the walk stops at no marker. -/
theorem Quoting.DelimitedBy.ne_outside : quoting ≠ .outside := by
  rcases delimited with ⟨rfl, -⟩ | ⟨rfl, -⟩ <;> decide

/-- A quote mark begins no marker and shields nothing. A mark can therefore be told from everything
else that the walk looks for. -/
theorem Quoting.DelimitedBy.mark_ne :
    mark ≠ Bytes.backslash ∧ mark ≠ Bytes.closeBrace ∧ mark ≠ Bytes.openBrace := by
  rcases delimited with ⟨-, rfl⟩ | ⟨-, rfl⟩ <;> decide

/-- One step of the walk inside a string. -/
theorem walkFrom_cons_inString (passed : Nat) (byte : UInt8) (rest : Bytes) :
    walkFrom quoting false passed (byte :: rest) =
      if byte = Bytes.backslash then walkFrom quoting true (passed + 1) rest
      else walkFrom (quoting.after byte) false (passed + 1) rest := by
  simp [walkFrom_cons, delimited.ne_outside]

/-- A string is walked through up to its mark, which ends it. Marks of the other kind, markers and
shielded bytes on the way are passed. -/
theorem Quoted.walkFrom_eq {quoted : Bytes} (closes : Quoted mark quoted) (passed : Nat)
    (rest : Bytes) :
    walkFrom quoting false passed (quoted ++ rest) =
      walkFrom .outside false (passed + quoted.length) rest := by
  obtain ⟨-, closed, unchanged⟩ := delimited.after_eq
  induction closes generalizing passed with
  | close =>
    rw [List.cons_append, walkFrom_cons_inString delimited, if_neg delimited.mark_ne.1, closed]
    rfl
  | @shielded byte quoted closes inductionHypothesis =>
    rw [List.cons_append, walkFrom_cons_inString delimited, if_pos rfl, walkFrom_shielded,
      List.cons_append, List.drop_one, List.tail_cons, inductionHypothesis (passed + 1 + 1)]
    simp only [List.length_cons]
    congr 1
    omega
  | @plain byte quoted noMark noBackslash closes inductionHypothesis =>
    rw [List.cons_append, walkFrom_cons_inString delimited, if_neg noBackslash,
      unchanged byte noMark, inductionHypothesis (passed + 1), List.length_cons]
    congr 1
    omega

end Delimited

/-- The body of an output is walked through up to the marker with which it ends. The induction is on
the body, and its strings are passed as wholes. -/
theorem Body.walkFrom_eq {follow body : Bytes} (complete : Body follow body) (passed : Nat) :
    walkFrom .outside false passed (body ++ follow) =
      walkFrom .outside false (passed + body.length) follow := by
  induction complete generalizing passed with
  | done => rfl
  | @string mark quoted rest isMark closes tail inductionHypothesis =>
    obtain ⟨quoting, delimited⟩ := Quoting.exists_delimitedBy isMark
    obtain ⟨opened, -, -⟩ := delimited.after_eq
    obtain ⟨-, noClose, noOpen⟩ := delimited.mark_ne
    have entered : walkFrom .outside false passed (mark :: (quoted ++ (rest ++ follow))) =
        walkFrom quoting false (passed + 1) (quoted ++ (rest ++ follow)) := by
      simp [walkFrom_cons, noClose, noOpen, opened]
    rw [List.cons_append, List.cons_append, List.append_assoc, entered,
      closes.walkFrom_eq delimited, inductionHypothesis, List.length_cons, List.length_append]
    congr 1
    omega
  | @plain byte rest noDouble noSingle noCloser noOpener tail inductionHypothesis =>
    have unchanged : Quoting.outside.after byte = .outside := by
      rw [Quoting.after, if_neg noDouble, if_neg noSingle]
    have passes : walkFrom .outside false passed (byte :: (rest ++ follow)) =
        walkFrom .outside false (passed + 1) (rest ++ follow) := by
      rw [walkFrom_cons, if_neg, if_neg, if_neg (by simp), unchanged]
      · rintro ⟨-, rfl, opens⟩
        obtain ⟨tail, cut⟩ := List.head?_eq_some_iff.mp opens
        exact noOpener (by simp [cut])
      · rintro ⟨-, rfl, closes⟩
        obtain ⟨tail, cut⟩ := List.head?_eq_some_iff.mp closes
        exact noCloser (by simp [cut])
    rw [List.cons_append, passes, inductionHypothesis, List.length_cons]
    congr 1
    omega

/-- What is left of the body of an output in front of the marker with which it ends: inside a
string, the rest of the string comes first. -/
def Remainder (follow : Bytes) (quoting : Quoting) (bytes : Bytes) : Prop :=
  (quoting = .outside ∧ Body follow bytes) ∨
    ∃ mark quoted rest, quoting.DelimitedBy mark ∧ bytes = quoted ++ rest ∧ Quoted mark quoted ∧
      Body follow rest

/-- Outside of strings a body is left. The walk that begins an output is outside of strings, so this
is the body of the output. -/
theorem Remainder.body {follow bytes : Bytes} (left : Remainder follow .outside bytes) :
    Body follow bytes := by
  rcases left with ⟨-, body⟩ | ⟨mark, -, -, delimited, -⟩
  · exact body
  · exact absurd rfl delimited.ne_outside

/-- A byte in front of what is left outside of strings. -/
theorem Remainder.cons_outside {follow rest : Bytes} {byte : UInt8}
    (noCloser : ¬ Bytes.outputCloser <+: byte :: (rest ++ follow))
    (noOpener : ¬ Bytes.tagOpener <+: byte :: (rest ++ follow))
    (left : Remainder follow (Quoting.outside.after byte) rest) :
    Remainder follow .outside (byte :: rest) := by
  refine .inl ⟨rfl, ?_⟩
  by_cases isMark : byte = Bytes.doubleQuote ∨ byte = Bytes.singleQuote
  · obtain ⟨quoting, delimited⟩ := Quoting.exists_delimitedBy isMark
    rw [delimited.after_eq.1] at left
    rcases left with ⟨rfl, -⟩ | ⟨mark, quoted, rest, sameKind, rfl, closes, body⟩
    · exact absurd rfl delimited.ne_outside
    · cases delimited.unique sameKind
      exact .string isMark closes body
  · rw [not_or] at isMark
    rw [Quoting.after, if_neg isMark.1, if_neg isMark.2] at left
    exact .plain isMark.1 isMark.2 noCloser noOpener left.body

/-- A byte in front of what is left inside a string. -/
theorem Remainder.cons_inString {follow rest : Bytes} {quoting : Quoting} {byte : UInt8}
    (inString : quoting ≠ .outside) (noBackslash : byte ≠ Bytes.backslash)
    (left : Remainder follow (quoting.after byte) rest) :
    Remainder follow quoting (byte :: rest) := by
  have isDelimited : ∃ mark, quoting.DelimitedBy mark := by
    cases quoting with
    | outside => exact absurd rfl inString
    | double => exact ⟨_, .inl ⟨rfl, rfl⟩⟩
    | single => exact ⟨_, .inr ⟨rfl, rfl⟩⟩
  obtain ⟨mark, delimited⟩ := isDelimited
  obtain ⟨-, closed, unchanged⟩ := delimited.after_eq
  by_cases isMark : byte = mark
  · subst isMark
    rw [closed] at left
    exact .inr ⟨byte, [byte], rest, delimited, rfl, .close, left.body⟩
  · rw [unchanged byte isMark] at left
    rcases left with ⟨outside, -⟩ | ⟨other, quoted, rest, sameKind, rfl, closes, body⟩
    · exact absurd outside inString
    · cases delimited.unique sameKind
      exact .inr ⟨mark, byte :: quoted, rest, delimited, rfl, .plain isMark noBackslash closes,
        body⟩

/-- A backslash and the byte that it shields in front of what is left inside a string. -/
theorem Remainder.cons_shielded {follow rest : Bytes} {quoting : Quoting} (byte : UInt8)
    (inString : quoting ≠ .outside) (left : Remainder follow quoting rest) :
    Remainder follow quoting (Bytes.backslash :: byte :: rest) := by
  rcases left with ⟨outside, -⟩ | ⟨mark, quoted, rest, delimited, rfl, closes, body⟩
  · exact absurd outside inString
  · exact .inr ⟨mark, Bytes.backslash :: byte :: quoted, rest, delimited, rfl, .shielded closes,
      body⟩

/-- A walk that ends with the first marker behind `front` has gone through a body.

Proof: by induction on `front`. Behind it the walk is outside of strings and nothing is shielded,
since it would otherwise pass at least one byte more. Every byte on the way belongs to a string,
opens one, or stands outside of strings and begins no marker. -/
theorem remainder_of_walkFrom {follow : Bytes} (quoting : Quoting) (shielded : Bool) (passed : Nat)
    (front : Bytes)
    (ends : (walkFrom quoting shielded passed (front ++ follow)).length? =
      some (passed + front.length + 2)) :
    if shielded then ∃ byte rest, front = byte :: rest ∧ Remainder follow quoting rest
    else Remainder follow quoting front := by
  induction front generalizing quoting shielded passed with
  | nil =>
    have atOnce := Ending.liesWithin_of_length? ends
    simp only [List.nil_append, List.length_nil, Nat.add_zero] at atOnce
    -- With another byte passed first there is no room for the two bytes of the marker.
    have notLater {quoting : Quoting} {shielded : Bool} {bytes : Bytes} :
        ¬ (walkFrom quoting shielded (passed + 1) bytes).LiesWithin (passed + 2) := by
      intro within
      have impossible := le_of_walkFrom_liesWithin within
      omega
    cases shielded with
    | true =>
      rw [walkFrom_shielded] at atOnce
      exact absurd atOnce notLater
    | false =>
      by_cases outside : quoting = .outside
      · exact .inl ⟨outside, .done⟩
      · cases follow with
        | nil => exact atOnce.elim
        | cons byte rest =>
          rw [walkFrom_cons, if_neg (by simp [outside]), if_neg (by simp [outside])] at atOnce
          split at atOnce
          · exact absurd atOnce notLater
          · exact absurd atOnce notLater
  | cons byte rest inductionHypothesis =>
    have bound : passed + (byte :: rest).length + 2 = passed + 1 + rest.length + 2 := by
      simp only [List.length_cons]
      omega
    rw [bound] at ends
    cases shielded with
    | true => exact ⟨byte, rest, rfl, inductionHypothesis quoting false (passed + 1) ends⟩
    | false =>
      have notHere : some (passed + 2) ≠ some (passed + 1 + rest.length + 2) := by
        intro impossible
        have equal := Option.some.inj impossible
        omega
      rw [List.cons_append, walkFrom_cons] at ends
      split at ends
      · exact absurd ends notHere
      split at ends
      · exact absurd ends notHere
      next notClosed notOvertaken =>
        split at ends
        · next shields =>
          obtain ⟨inString, rfl⟩ := shields
          obtain ⟨shieldedByte, rest, rfl, left⟩ :=
            inductionHypothesis quoting true (passed + 1) ends
          exact left.cons_shielded shieldedByte inString
        · next unshielded =>
          have left := inductionHypothesis (quoting.after byte) false (passed + 1) ends
          by_cases outside : quoting = .outside
          · subst outside
            refine Remainder.cons_outside ?_ ?_ left
            · rintro closes
              obtain ⟨rfl, tail, cut⟩ := List.cons_prefix_cons.mp closes
              exact notClosed ⟨rfl, rfl, by simp [← cut]⟩
            · rintro opens
              obtain ⟨rfl, tail, cut⟩ := List.cons_prefix_cons.mp opens
              exact notOvertaken ⟨rfl, rfl, by simp [← cut]⟩
          · refine Remainder.cons_inString outside ?_ left
            rintro rfl
            exact unshielded ⟨outside, rfl⟩

/-- An output ends with the closer behind its body, whatever follows. In particular a tag opener
behind the closer does not overtake it. -/
theorem Body.ending_closed {body : Bytes} (complete : Body Bytes.outputCloser body) (rest : Bytes) :
    ending (body ++ Bytes.outputCloser ++ rest) = .closed (body.length + 2) := by
  have ends : ending (body ++ Bytes.outputCloser) = .closed (body.length + 2) := by
    rw [ending_eq_walkFrom, complete.walkFrom_eq, Nat.zero_add]
    simp [walkFrom]
  rw [ending_append rest (by simp [ends]), ends]

/-- An output is overtaken by the tag opener behind its body, whatever follows. -/
theorem Body.ending_overtaken {body : Bytes} (complete : Body Bytes.tagOpener body) (rest : Bytes) :
    ending (body ++ Bytes.tagOpener ++ rest) = .overtaken (body.length + 2) := by
  have ends : ending (body ++ Bytes.tagOpener) = .overtaken (body.length + 2) := by
    rw [ending_eq_walkFrom, complete.walkFrom_eq, Nat.zero_add]
    simp [walkFrom, show ¬ Bytes.openBrace = Bytes.closeBrace by decide]
  rw [ending_append rest (by simp [ends]), ends]

/-- An output that ends at a marker has a body in front of the marker. The two markers are treated
alike, since a body ends with whatever the walk has stopped at. -/
theorem exists_body_of_marker {first second : UInt8} {bytes : Bytes} {offset : Nat}
    (marker : [first, second] <+: bytes.drop offset)
    (ends : (ending bytes).length? = some (offset + 2)) :
    ∃ body rest, bytes = body ++ [first, second] ++ rest ∧ offset = body.length ∧
      Body [first, second] body := by
  obtain ⟨body, rest, cut, rfl, found⟩ := ending_cut marker (Ending.liesWithin_of_length? ends)
  refine ⟨body, rest, cut, rfl, ?_⟩
  rw [ending_eq_walkFrom] at found
  apply Remainder.body
  apply remainder_of_walkFrom .outside false 0 body
  rw [found, ends, Nat.zero_add]

/-- An output that ends with a closer has a body in front of it. -/
theorem exists_body_of_closed {bytes : Bytes} {length : Nat}
    (ends : ending bytes = .closed length) :
    ∃ body rest, bytes = body ++ Bytes.outputCloser ++ rest ∧ Body Bytes.outputCloser body := by
  have stands := walkFrom_standsIn .outside false 0 bytes
  rw [← ending_eq_walkFrom, ends] at stands
  obtain ⟨offset, rfl, marker⟩ := stands
  rw [Nat.zero_add] at ends
  obtain ⟨body, rest, cut, -, complete⟩ := exists_body_of_marker marker (by rw [ends]; rfl)
  exact ⟨body, rest, cut, complete⟩

/-- An output that is overtaken has a body in front of the tag opener. -/
theorem exists_body_of_overtaken {bytes : Bytes} {length : Nat}
    (ends : ending bytes = .overtaken length) :
    ∃ body rest, bytes = body ++ Bytes.tagOpener ++ rest ∧ Body Bytes.tagOpener body := by
  have stands := walkFrom_standsIn .outside false 0 bytes
  rw [← ending_eq_walkFrom, ends] at stands
  obtain ⟨offset, rfl, marker⟩ := stands
  rw [Nat.zero_add] at ends
  obtain ⟨body, rest, cut, -, complete⟩ := exists_body_of_marker marker (by rw [ends]; rfl)
  exact ⟨body, rest, cut, complete⟩

/-- An output does not end: no body stands in front of a closer, and none in front of a tag
opener. -/
def Endless (bytes : Bytes) : Prop :=
  ∀ body rest, (bytes = body ++ Bytes.outputCloser ++ rest → ¬ Body Bytes.outputCloser body) ∧
    (bytes = body ++ Bytes.tagOpener ++ rest → ¬ Body Bytes.tagOpener body)

/-- The search for an ending fails exactly where there is none. The right side mentions no search:
it says of every front of the bytes that it is no body of an output. -/
theorem ending_eq_missing_iff {bytes : Bytes} : ending bytes = .missing ↔ Endless bytes := by
  constructor
  · intro missing body rest
    constructor
    · rintro rfl complete
      exact absurd (missing.symm.trans (complete.ending_closed rest)) (by simp)
    · rintro rfl complete
      exact absurd (missing.symm.trans (complete.ending_overtaken rest)) (by simp)
  · intro endless
    cases ends : ending bytes with
    | closed length =>
      obtain ⟨body, rest, cut, complete⟩ := exists_body_of_closed ends
      exact absurd complete ((endless body rest).1 cut)
    | overtaken length =>
      obtain ⟨body, rest, cut, complete⟩ := exists_body_of_overtaken ends
      exact absurd complete ((endless body rest).2 cut)
    | missing => rfl

end TemplateTokens.Output
