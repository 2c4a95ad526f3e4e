import Mathlib.Algebra.Ring.Nat
import TemplateTokens.TokenStream.Calls

/-!
# Consuming a token stream

However a stream is consumed, each call pops tokens off the front one at a time and moves the line
on by what was popped. `Consumed` says this of any number of calls at once: it holds of a single
shift, it holds again when more is popped, and every call is made of shifts. The line number stops
at the last representable line at every step, and it makes no difference if it is capped only once,
at the end.
-/

namespace TemplateTokens

namespace LineNumber

/-- Lines in two parts are passed as lines at once. Once the last line is reached both sides stay
there, which is why capped additions may be put together. -/
theorem advance_advance (line : LineNumber) (first second : Nat) :
    advance (advance line first) second = advance line (first + second) := by
  rw [← UInt32.toNat_inj, advance_toNat, advance_toNat, advance_toNat]
  omega

/-- Without lines to pass the line stays. -/
theorem advance_zero (line : LineNumber) : advance line 0 = line := by
  have bounded : line.toNat < UInt32.size := line.toNat_lt
  rw [← UInt32.toNat_inj, advance_toNat]
  omega

end LineNumber

/-- Lines are not counted exactly if no start is chosen and no count is asked for. A start that is
chosen switches the counting on by itself. -/
theorem Settings.initialLine?_eq_none_iff {settings : Settings} :
    settings.initialLine? = none ↔ settings.startLine? = none ∧ settings.countLines = false := by
  cases chosen : settings.startLine? <;> simp [initialLine?, chosen]

namespace TokenStream

/-- The number of lines by which tokens move the line on together. -/
def linesInAll (stream : TokenStream) (tokens : List Token) : Nat := (tokens.map stream.linesIn).sum

/-- In the body of a `liquid` tag every token is a line. Line ends in it, if there were any, would
not be counted. -/
theorem linesInAll_of_liquidTag {stream : TokenStream} (liquid : stream.forLiquidTag = true)
    (tokens : List Token) : stream.linesInAll tokens = tokens.length := by
  induction tokens with
  | nil => rfl
  | cons token tokens inductionHypothesis =>
    rw [linesInAll] at inductionHypothesis
    simp only [linesInAll, List.map_cons, List.sum_cons, inductionHypothesis, linesIn, liquid,
      if_true, List.length_cons]
    omega

/-- Tokens of a template move the line on by the line ends in them. The count does not depend on
where the tokens are cut, so it may be taken of all their bytes at once. -/
theorem linesInAll_of_markup {stream : TokenStream} (markup : stream.forLiquidTag = false)
    (tokens : List Token) :
    stream.linesInAll tokens = Bytes.newlineCount (tokens.flatMap Token.bytes) := by
  induction tokens with
  | nil => rfl
  | cons token tokens inductionHypothesis =>
    rw [linesInAll] at inductionHypothesis
    simp only [linesInAll, List.map_cons, List.sum_cons, inductionHypothesis, linesIn, markup,
      Bool.false_eq_true, if_false, List.flatMap_cons, Bytes.newlineCount_append]
    rfl

/-- What is left of a stream from which tokens have been popped: the tokens behind them, and the
line moved on by theirs. -/
structure Consumed (original : TokenStream) (popped : List Token) (later : TokenStream) : Prop where
  /-- Nothing is lost, repeated or reordered. -/
  pending : original.pending = popped ++ later.pending
  /-- The line is moved on by the popped tokens together. -/
  line : later.line? = original.line?.map (LineNumber.advance · (original.linesInAll popped))
  /-- What the tokens are does not change. -/
  mode : later.forLiquidTag = original.forLiquidTag

/-- An exhausted stream has nothing to shift. -/
theorem shift_of_exhausted {stream : TokenStream} (exhausted : stream.pending = []) :
    stream.shift = (none, stream) := by
  simp [shift, exhausted]

/-- A shift returns the first pending token. -/
theorem shift_fst_of_pending {stream : TokenStream} {token : Token} {pending : List Token}
    (remaining : stream.pending = token :: pending) : stream.shift.1 = some token := by
  simp [shift, remaining]

/-- An exhausted stream has nothing to drain. -/
theorem drain_of_exhausted {stream : TokenStream} (exhausted : stream.pending = []) :
    stream.drain = ([], stream) := by
  have read : stream.readAll = ([], stream) := by
    rw [readAll]
    split
    · rfl
    · next remaining => exact absurd (exhausted.symm.trans remaining) (by simp)
  rw [drain, read]
  rfl

/-- Draining a stream is a shift and then draining what is left. Draining is thus a number of
shifts, and what is known of one shift is known of it by induction. -/
theorem drain_of_pending {stream : TokenStream} {token : Token} {pending : List Token}
    (remaining : stream.pending = token :: pending) :
    stream.drain = (token :: stream.shift.2.drain.1, stream.shift.2.drain.2) := by
  have read : stream.readAll =
      (⟨token, stream.line?⟩ :: stream.shift.2.readAll.1, stream.shift.2.readAll.2) := by
    conv => lhs; rw [readAll]
    split
    · next exhausted => exact absurd (exhausted.symm.trans remaining) (by simp)
    · next other _ same =>
      cases same.symm.trans remaining
      rfl
  rw [drain, read]
  rfl

namespace Consumed

/-- Before anything is popped a stream is as it was. -/
theorem refl (stream : TokenStream) : Consumed stream [] stream where
  pending := rfl
  line := by
    cases stream.line? with
    | none => rfl
    | some line => simp [linesInAll, LineNumber.advance_zero]
  mode := rfl

/-- Popping goes on where it stopped. The lines add up because capped additions do, and the mode is
never changed. -/
theorem trans {original middle later : TokenStream} {front back : List Token}
    (first : Consumed original front middle) (second : Consumed middle back later) :
    Consumed original (front ++ back) later where
  pending := by rw [first.pending, second.pending, List.append_assoc]
  line := by
    have sameLines : middle.linesIn = original.linesIn := by
      funext token
      rw [linesIn, linesIn, first.mode]
    rw [second.line, first.line, linesInAll, linesInAll, linesInAll, sameLines, Option.map_map,
      List.map_append, List.sum_append]
    congr 1
    funext line
    exact LineNumber.advance_advance line _ _
  mode := second.mode.trans first.mode

/-- A shift pops the token it returns, or nothing. On an exhausted stream the list of popped tokens
is empty, and the stream is the same one. -/
theorem shift (stream : TokenStream) : Consumed stream stream.shift.1.toList stream.shift.2 := by
  cases remaining : stream.pending with
  | nil =>
    rw [shift_of_exhausted remaining]
    exact refl stream
  | cons token pending =>
    constructor
    · simp [TokenStream.shift, remaining]
    · simp [TokenStream.shift, remaining, linesInAll]
    · simp [TokenStream.shift, remaining]

/-- A call for a later token pops the tokens it steps over and then the one it returns. -/
theorem nth (stream : TokenStream) (count : Nat) :
    Consumed stream (stream.skipped count ++ (stream.nth count).1.toList)
      (stream.nth count).2 := by
  induction count generalizing stream with
  | zero => exact shift stream
  | succ count inductionHypothesis =>
    have first := shift stream
    rw [skipped, TokenStream.nth]
    generalize stream.shift = taken at first
    obtain ⟨token?, later⟩ := taken
    cases token? with
    | none => exact first
    | some token => exact first.trans (inductionHypothesis later)

/-- Draining a stream pops all its tokens. The induction is on the pending tokens, with one shift
for each of them. -/
theorem drain (stream : TokenStream) : Consumed stream stream.drain.1 stream.drain.2 := by
  induction stream using readAll.induct with
  | case1 stream exhausted =>
    rw [drain_of_exhausted exhausted]
    exact refl stream
  | case2 stream token pending remaining _ _ _ inductionHypothesis =>
    have first := shift stream
    rw [shift_fst_of_pending remaining] at first
    rw [drain_of_pending remaining]
    exact first.trans inductionHypothesis

/-- A call pops the tokens it returns and those it steps over. For a call that steps over tokens
these are more than it returns, and if the stream ends before they are all stepped over it returns
none. -/
theorem perform (call : Call) (stream : TokenStream) :
    Consumed stream (call.popped stream) (call.perform stream).2 := by
  cases call with
  | shift | next => exact shift stream
  | nth count => exact nth stream count
  | drain => exact drain stream

/-- Calls pop tokens one call after the other. Nothing is asked of the calls: they may come in any
order, and behind the last token as well. -/
theorem after (stream : TokenStream) (calls : List Call) :
    Consumed stream (stream.popped calls) (stream.after calls) := by
  induction calls generalizing stream with
  | nil => exact refl stream
  | cons call calls inductionHypothesis =>
    exact (perform call stream).trans (inductionHypothesis (call.perform stream).2)

end Consumed

/-- A call for the token behind `count` others returns that token, if there are enough. Otherwise
everything is popped, as the general case says of the tokens that it steps over. -/
theorem nth_fst (stream : TokenStream) (count : Nat) :
    (stream.nth count).1 = stream.pending[count]? := by
  induction count generalizing stream with
  | zero => cases remaining : stream.pending <;> simp [nth, shift, remaining]
  | succ count inductionHypothesis =>
    cases remaining : stream.pending with
    | nil => simp [nth, shift, remaining]
    | cons token pending => simp [nth, shift, remaining, inductionHypothesis]

/-- Draining a stream returns all pending tokens. -/
theorem drain_fst (stream : TokenStream) : stream.drain.1 = stream.pending := by
  induction stream using readAll.induct with
  | case1 stream exhausted => rw [drain_of_exhausted exhausted, exhausted]
  | case2 stream token pending remaining _ _ _ inductionHypothesis =>
    have left : stream.shift.2.pending = pending := by simp [shift, remaining]
    rw [drain_of_pending remaining, remaining, inductionHypothesis, left]

/-- A call returns what its kind asks for of the pending tokens. The answer does not depend on the
line or the mode. -/
theorem perform_fst (call : Call) (stream : TokenStream) :
    (call.perform stream).1 = call.answer stream.pending := by
  cases call with
  | shift | next =>
    cases remaining : stream.pending <;> simp [Call.perform, Call.answer, shift, remaining]
  | nth count => rw [Call.perform, Call.answer, nth_fst]
  | drain => rw [Call.perform, Call.answer, drain_fst]

/-- A call on an exhausted stream leaves it as it is. The line stays as well, since it is moved on
by tokens only. -/
theorem perform_snd_of_exhausted {stream : TokenStream} (exhausted : stream.pending = [])
    (call : Call) : (call.perform stream).2 = stream := by
  have same := shift_of_exhausted exhausted
  cases call with
  | shift | next => rw [Call.perform, same]
  | nth count => cases count <;> simp [Call.perform, nth, same]
  | drain => rw [Call.perform, drain_of_exhausted exhausted]

/-- The line behind calls, where the first line is given: the popped tokens move it on together, and
it stops at the last representable line. -/
theorem exists_line_after (stream : TokenStream) {first : LineNumber}
    (tracked : stream.line? = some first) (calls : List Call) :
    ∃ line, (stream.after calls).line? = some line ∧
      line.toNat =
        min (first.toNat + stream.linesInAll (stream.popped calls)) (UInt32.size - 1) := by
  refine ⟨_, ?_, LineNumber.advance_toNat first _⟩
  rw [(Consumed.after stream calls).line, tracked, Option.map_some]

/-- Every stream begins with all of some tokens, as `ofTokens` makes it, and is consumed by calls in
any order. Popped and pending tokens together are then the tokens it began with, the count of those
left is exact, and so are the bounds an iterator gives. A line is known exactly if lines are
counted, and it is the first line moved on by the popped tokens: by one each in the body of a
`liquid` tag and by the newline bytes in them otherwise, up to the last representable line. The next
call returns what its kind asks for of the pending tokens; once there are none it changes nothing.

Proof: a shift pops one token and moves the line on by its lines, capped. What holds behind two
numbers of shifts holds behind both together, since lines capped at every step are the lines capped
once; so it holds behind each kind of call, each being made of shifts, and by induction behind any
calls. -/
theorem consumption_exact (settings : Settings) (tokens : List Token) (calls : List Call) :
    let original := ofTokens settings tokens
    let popped := original.popped calls
    let later := original.after calls
    tokens = popped ++ later.pending ∧
    later.remaining = tokens.length - popped.length ∧
    later.sizeBounds = (tokens.length - popped.length, some (tokens.length - popped.length)) ∧
    later.forLiquidTag = settings.forLiquidTag ∧
    (later.line? = none ↔ settings.startLine? = none ∧ settings.countLines = false) ∧
    (∀ first, settings.initialLine? = some first →
      ∃ line, later.line? = some line ∧
        line.toNat =
          min (first.toNat + if settings.forLiquidTag then popped.length
              else (popped.flatMap Token.bytes).count Bytes.newline)
            (UInt32.size - 1)) ∧
    ∀ call : Call, (call.perform later).1 = call.answer (tokens.drop popped.length) ∧
      (popped.length = tokens.length → (call.perform later).2 = later) := by
  intro original popped later
  have consumed : Consumed original popped later := Consumed.after original calls
  have split : tokens = popped ++ later.pending := consumed.pending
  have left : later.remaining = tokens.length - popped.length := by
    rw [remaining, split, List.length_append]
    omega
  refine ⟨split, left, by rw [sizeBounds, left], consumed.mode, ?_, ?_, ?_⟩
  · rw [consumed.line, Option.map_eq_none_iff]
    exact Settings.initialLine?_eq_none_iff
  · intro first tracked
    obtain ⟨line, reached, number⟩ := exists_line_after original tracked calls
    refine ⟨line, reached, ?_⟩
    rw [number]
    cases mode : settings.forLiquidTag with
    | true => rw [linesInAll_of_liquidTag mode, if_pos rfl]
    | false => rw [linesInAll_of_markup mode, if_neg (by simp), Bytes.newlineCount]
  · intro call
    have pending : tokens.drop popped.length = later.pending := by rw [split, List.drop_left]
    rw [pending, perform_fst]
    refine ⟨rfl, fun allPopped => perform_snd_of_exhausted ?_ call⟩
    rw [← pending, allPopped, List.drop_length]

/-- Three tokens with one, no and three newlines, counted from two lines in front of the last
representable one. The first two are popped at once and pass one line; the third would pass three,
and the line stays at the last. As lines of a `liquid` tag the first two pass two lines. -/
theorem consumption_exact_at_last_line :
    let settings : Settings := { startLine? := some 4294967293 }
    let tokens : List Token := [⟨[0x0a]⟩, ⟨[0x61]⟩, ⟨[0x0a, 0x0a, 0x0a]⟩]
    let stream := ofTokens settings tokens
    (stream.after [.nth 1]).line? = some 4294967294 ∧
    (stream.after [.nth 1, .drain]).line? = some 4294967295 ∧
    Call.shift.perform (stream.after [.nth 1, .drain]) =
      (.one none, stream.after [.nth 1, .drain]) ∧
    ((ofTokens (settings.inLiquidTag true) tokens).after [.nth 1]).line? = some 4294967295 := by
  intro settings tokens stream
  have reached {settings : Settings} {calls : List Call} {line : LineNumber}
      (tracked : settings.initialLine? = some 4294967293)
      (number : line.toNat = min (4294967293 + if settings.forLiquidTag then
          ((ofTokens settings tokens).popped calls).length
        else (((ofTokens settings tokens).popped calls).flatMap Token.bytes).count Bytes.newline)
          (UInt32.size - 1)) :
      ((ofTokens settings tokens).after calls).line? = some line := by
    obtain ⟨-, -, -, -, -, lines, -⟩ := consumption_exact settings tokens calls
    obtain ⟨other, told, otherNumber⟩ := lines 4294967293 tracked
    rw [told, UInt32.toNat_inj.mp (otherNumber.trans number.symm)]
  obtain ⟨-, -, -, -, -, -, further⟩ := consumption_exact settings tokens [.nth 1, .drain]
  have allPopped : (stream.popped [.nth 1, .drain]).length = tokens.length := by decide +kernel
  obtain ⟨returned, unchanged⟩ := further .shift
  rw [allPopped, List.drop_length] at returned
  exact ⟨reached rfl (by decide), reached rfl (by decide +kernel),
    Prod.ext returned (unchanged allPopped), reached rfl (by decide)⟩

end TokenStream

end TemplateTokens
