import TemplateTokens.Proofs.Consumption
import TemplateTokens.TokenStream.Session

/-!
# Sessions consume a stream as calls do

A session answers requests about a token stream. Three of the requests are calls of the stream, two
keep a copy of it and go back to that copy, and the others only look at it. Going back gives tokens
out a second time, so the requests that were answered do not tell what was consumed; the calls do
that lie behind the stream as it stands. `History` keeps them in step with a session, those behind
its stream and those behind its copy.

One request does to the stream what the history says of it (`FollowsFrom.perform`), and so does any
number of them (`FollowsFrom.run`). What is known of calls in any order therefore holds of every
stream that a session shows (`session_consumes_exactly`): what it has popped and what it has left are
together the tokens it began with. The answers covered are those to calls and those that tell a
number of tokens, a line or the mode (`Answered`). What is told of the token taken last is not
covered, since calls keep no such token, and neither is the description of a stream.
-/

namespace TemplateTokens.TokenStream

/-- The call that a request makes of the stream, if it makes one. -/
def Request.call? : Request → Option Call
  | .shift => some .shift
  | .nth count => some (.nth count)
  | .drain => some .drain
  | _ => none

/-- The answer that tells what a call returned. -/
def Answer.ofReturned : Returned → Answer
  | .one token? => .taken token?
  | .all tokens => .drained tokens

/-- The calls behind the stream of a session, and those behind its copy. -/
structure History where
  /-- The calls behind the stream, in order. -/
  calls : List Call
  /-- The calls behind the copy, in order. -/
  saved : List Call
deriving DecidableEq

namespace History

/-- Nothing has been called yet. -/
def empty : History := { calls := [], saved := [] }

/-- What becomes of a history with one more request. A copy is kept with the calls behind it, going
back forgets the calls since, and any other request adds the call it makes. -/
def note (history : History) : Request → History
  | .save => { history with saved := history.calls }
  | .restore => { history with calls := history.saved }
  | request => { history with calls := history.calls ++ request.call?.toList }

/-- The history of a session after requests. -/
def of (requests : List Request) : History := requests.foldl note empty

/-- One more request is noted behind the others. -/
theorem of_concat (requests : List Request) (request : Request) :
    of (requests ++ [request]) = (of requests).note request := by
  rw [of, List.foldl_append]
  rfl

/-- A request that makes a call adds that call, and nothing else. -/
theorem note_of_call {request : Request} {call : Call} (made : request.call? = some call)
    (history : History) :
    history.note request = { history with calls := history.calls ++ [call] } := by
  cases request with
  | shift | nth | drain =>
    cases made
    rfl
  | _ => exact absurd made (by simp [Request.call?])

/-- Unless it goes back to the copy, a request adds the call that it makes, or nothing. -/
theorem calls_note {request : Request} (goesOn : request ≠ .restore) (history : History) :
    (history.note request).calls = history.calls ++ request.call?.toList := by
  cases request with
  | restore => exact absurd rfl goesOn
  | save => exact (List.append_nil history.calls).symm
  | _ => rfl

/-- As long as no request goes back to the copy, the calls are those that the requests make. -/
theorem calls_of_no_restore {requests : List Request} (goesOn : .restore ∉ requests) :
    (of requests).calls = requests.filterMap Request.call? := by
  have added (history : History) :
      (requests.foldl note history).calls =
        history.calls ++ requests.filterMap Request.call? := by
    induction requests generalizing history with
    | nil => exact (List.append_nil history.calls).symm
    | cons request requests inductionHypothesis =>
      rw [List.mem_cons, not_or] at goesOn
      rw [List.foldl_cons, inductionHypothesis goesOn.2, calls_note (Ne.symm goesOn.1),
        List.append_assoc]
      cases made : request.call? <;> simp [made]
  exact added empty

end History

/-- Calls in two parts are made one part after the other. -/
theorem after_append (stream : TokenStream) (front back : List Call) :
    stream.after (front ++ back) = (stream.after front).after back := by
  rw [after, after, after, List.foldl_append]

namespace Session

/-- A session stands where its history has brought it: its stream and its copy are the original
behind the calls that the history has for them. -/
structure FollowsFrom (original : TokenStream) (history : History) (session : Session) : Prop where
  /-- The stream is behind its calls. -/
  stream : session.stream = original.after history.calls
  /-- The copy is behind its calls. -/
  saved : session.saved = original.after history.saved

/-- A request that makes a call is answered with what the call returns, and leaves the stream behind
the call. -/
theorem perform_of_call {request : Request} {call : Call} (made : request.call? = some call)
    (session : Session) :
    (session.perform request).1 = .ofReturned (call.perform session.stream).1 ∧
    (session.perform request).2.stream = (call.perform session.stream).2 ∧
    (session.perform request).2.saved = session.saved := by
  cases request with
  | shift | nth | drain =>
    cases made
    exact ⟨rfl, rfl, rfl⟩
  | _ => exact absurd made (by simp [Request.call?])

variable {original : TokenStream} {history : History} {session : Session}

/-- A session that begins has nothing behind it. -/
theorem FollowsFrom.start (original : TokenStream) :
    FollowsFrom original .empty (.start original) := ⟨rfl, rfl⟩

/-- A request keeps a session in step with its history. -/
theorem FollowsFrom.perform (follows : FollowsFrom original history session) (request : Request) :
    FollowsFrom original (history.note request) (session.perform request).2 := by
  cases made : request.call? with
  | some call =>
    obtain ⟨-, stream, saved⟩ := perform_of_call made session
    rw [History.note_of_call made]
    refine ⟨?_, saved.trans follows.saved⟩
    rw [stream, follows.stream, after_append]
    rfl
  | none =>
    cases request with
    | shift | nth | drain => exact absurd made (by simp [Request.call?])
    | save => exact ⟨follows.stream, follows.stream⟩
    | restore => exact ⟨follows.saved, follows.saved⟩
    | _ =>
      refine ⟨follows.stream.trans ?_, follows.saved⟩
      rw [History.calls_note (by simp), made, Option.toList_none, List.append_nil]

/-- Requests keep a session in step with its history. -/
theorem FollowsFrom.run (requests : List Request) (follows : FollowsFrom original history session) :
    FollowsFrom original (requests.foldl History.note history) (session.run requests).2 := by
  induction requests generalizing history session with
  | nil => exact follows
  | cons request requests inductionHypothesis => exact inductionHypothesis (follows.perform request)

/-- A request is answered by the session as the requests before it have left it. -/
theorem run_getElem? (before after : List Request) (request : Request) (session : Session) :
    (session.run (before ++ request :: after)).1[before.length]? =
      some (((session.run before).2.perform request).1,
        ((session.run before).2.perform request).2.stream) := by
  induction before generalizing session with
  | nil => rfl
  | cons first before inductionHypothesis => exact inductionHypothesis (session.perform first).2

end Session

/-- What requests answer about a stream behind calls, told by the tokens and the line it began with
and by the tokens that those calls have popped. -/
structure Answered (original : TokenStream) (calls : List Call) (request : Request)
    (answer : Answer) : Prop where
  /-- A call returns what its kind asks for of the tokens not popped yet. -/
  call : ∀ call, request.call? = some call → answer =
    .ofReturned (call.answer (original.pending.drop (original.popped calls).length))
  /-- The number of tokens left is that of the tokens not popped yet. -/
  remaining : request = .remaining →
    answer = .number (original.remaining - (original.popped calls).length)
  /-- The bounds are that number. -/
  sizeBounds : request = .sizeBounds →
    answer = .bounds (original.remaining - (original.popped calls).length)
      (some (original.remaining - (original.popped calls).length))
  /-- The line is the first one moved on by the popped tokens. -/
  line : request = .line → answer =
    .line (original.line?.map
      (LineNumber.advance · (original.linesInAll (original.popped calls))))
  /-- What the tokens are is as at first. -/
  forLiquidTag : request = .forLiquidTag → answer = .truth original.forLiquidTag

/-- A session whose stream is behind calls answers by what these have popped. -/
theorem answered_perform {original : TokenStream} {calls : List Call} {session : Session}
    (stands : session.stream = original.after calls) (request : Request) :
    Answered original calls request (session.perform request).1 := by
  have consumed := Consumed.after original calls
  rw [← stands] at consumed
  have pending : original.pending.drop (original.popped calls).length = session.stream.pending := by
    rw [consumed.pending, List.drop_left]
  have left : session.stream.remaining =
      original.remaining - (original.popped calls).length := by
    rw [TokenStream.remaining, ← pending, List.length_drop, TokenStream.remaining]
  constructor
  · intro call made
    rw [(Session.perform_of_call made session).1, perform_fst, pending]
  · rintro rfl
    rw [← left]
    rfl
  · rintro rfl
    rw [← left]
    rfl
  · rintro rfl
    rw [← consumed.line]
    rfl
  · rintro rfl
    rw [← consumed.mode]
    rfl

/-- A session consumes its stream as the calls of its requests do. Every request is answered by the
tokens that are not popped yet, and shows the stream behind the calls made so far, those taken back
again not counted; what these have popped and what is left are together the tokens it began with.

Proof: each request keeps the stream and its copy in step with the calls behind them, so the session
in front of a request is known from the requests before; the answer then follows from what those
calls have popped, which is the law of calls in any order. -/
theorem session_consumes_exactly (original : TokenStream) (before after : List Request)
    (request : Request) :
    let calls := (History.of before).calls
    let laterCalls := (History.of (before ++ [request])).calls
    let later := original.after laterCalls
    ∃ answer,
      ((Session.start original).run (before ++ request :: after)).1[before.length]? =
        some (answer, later) ∧
      Answered original calls request answer ∧
      Consumed original (original.popped laterCalls) later := by
  intro calls laterCalls later
  have stands : Session.FollowsFrom original (.of before) ((Session.start original).run before).2 :=
    (Session.FollowsFrom.start original).run before
  have next := stands.perform request
  rw [← History.of_concat] at next
  refine ⟨_, ?_, answered_perform stands.stream request, Consumed.after original laterCalls⟩
  rw [Session.run_getElem?, next.stream]

end TemplateTokens.TokenStream
