import TemplateTokens.TokenStream

/-!
# Calls that consume a token stream

A stream is consumed in four ways: its next token is taken directly or as an iterator takes it, an
iterator steps over some tokens and takes the one behind them, or all that is left is taken. The
tokens a call pops are those that it returns and those that it steps over.

What a call returns is computed by `perform`, and what it should return is said by `answer` from the
tokens that are left. The tokens popped are listed apart from both, because a call that steps over
tokens pops more than it returns. A call on an exhausted stream is allowed, and any number of calls
may follow it.
-/

namespace TemplateTokens.TokenStream

/-- A call that consumes a token stream. -/
inductive Call where
  /-- Take the next token. -/
  | shift
  /-- Take the next token as an iterator. -/
  | next
  /-- Step over `count` tokens as an iterator and take the one behind them. -/
  | nth (count : Nat)
  /-- Take all tokens. -/
  | drain
deriving DecidableEq

/-- What a call returns. -/
inductive Returned where
  /-- A token, or nothing. -/
  | one (token? : Option Token)
  /-- A number of tokens. -/
  | all (tokens : List Token)
deriving DecidableEq

/-- The tokens that a call for the token behind `count` others steps over, up to the first attempt
that finds none. -/
def skipped (stream : TokenStream) : Nat → List Token
  | 0 => []
  | count + 1 =>
    match stream.shift with
    | (none, _) => []
    | (some token, later) => token :: later.skipped count

namespace Call

/-- What a call returns, and the stream behind it. -/
def perform (call : Call) (stream : TokenStream) : Returned × TokenStream :=
  match call with
  | shift | next => (.one stream.shift.1, stream.shift.2)
  | nth count => (.one (stream.nth count).1, (stream.nth count).2)
  | drain => (.all stream.drain.1, stream.drain.2)

/-- What a call is to return where these tokens are pending: the first of them, the one behind
`count` others, or all. -/
def answer (call : Call) (pending : List Token) : Returned :=
  match call with
  | shift | next => .one pending.head?
  | nth count => .one pending[count]?
  | drain => .all pending

/-- The tokens that a call pops, in order. -/
def popped (call : Call) (stream : TokenStream) : List Token :=
  match call with
  | shift | next => stream.shift.1.toList
  | nth count => stream.skipped count ++ (stream.nth count).1.toList
  | drain => stream.drain.1

end Call

/-- The stream behind a number of calls. -/
def after (stream : TokenStream) (calls : List Call) : TokenStream :=
  calls.foldl (fun stream call => (call.perform stream).2) stream

/-- The tokens that a number of calls pop, in order. -/
def popped (stream : TokenStream) : List Call → List Token
  | [] => []
  | call :: calls => call.popped stream ++ (call.perform stream).2.popped calls

end TemplateTokens.TokenStream
