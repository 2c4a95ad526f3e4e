import TemplateTokens.TokenStream

/-!
# Token stream sessions

A session drives one token stream through a list of requests and collects the answers. It remembers
the token taken last, and keeps one saved stream, at first the one it began with. Draining the
stream and going back to the saved one leave the remembered token alone.

Three requests take tokens; they are calls of the stream. Two keep a copy and go back to it. The
others look at the stream or at the token taken last and leave both as they are. Which calls lie
behind a session at any time, those that were taken back not counted, is told in
`Proofs.StreamSessions`.
-/

namespace TemplateTokens.TokenStream

/-- What can be asked of a token stream. -/
inductive Request where
  /-- Take the next token. -/
  | shift
  /-- Take some tokens away and then take the next. -/
  | nth (count : Nat)
  /-- Take all tokens. -/
  | drain
  /-- Show the token taken last. -/
  | last
  /-- Compare the token taken last with a byte string. -/
  | compareLast (bytes : Bytes)
  /-- Tell the line. -/
  | line
  /-- Tell whether the tokens are the lines of a `liquid` tag. -/
  | forLiquidTag
  /-- Tell the number of tokens left. -/
  | remaining
  /-- Tell the bounds on the number of tokens to come. -/
  | sizeBounds
  /-- Describe the stream. -/
  | description
  /-- Keep a copy of the stream. -/
  | save
  /-- Go back to the copy. -/
  | restore
deriving DecidableEq

/-- How a token compares with a byte string, as bytes and as text. -/
structure Comparison where
  /-- Whether the bytes are equal. -/
  sameBytes : Bool
  /-- Whether the token is the text that the bytes encode, if they encode one. -/
  sameText? : Option Bool
deriving DecidableEq

/-- Compares a token with a byte string. -/
def Comparison.of (token : Token) (bytes : Bytes) : Comparison where
  sameBytes := token.bytes == bytes
  sameText? := (Utf8.text? bytes).map token.isText

/-- What a token stream answers. -/
inductive Answer where
  /-- Nothing to tell. -/
  | done
  /-- The token taken, or the end. -/
  | taken (token? : Option Token)
  /-- All the tokens taken. -/
  | drained (tokens : List Token)
  /-- The token taken last, if there is one. -/
  | last (token? : Option Token)
  /-- A comparison with the token taken last, if there is one. -/
  | compared (comparison? : Option Comparison)
  /-- The line, if lines are counted. -/
  | line (line? : Option LineNumber)
  /-- A truth value. -/
  | truth (value : Bool)
  /-- A number of tokens. -/
  | number (value : Nat)
  /-- Bounds on a number of tokens. -/
  | bounds (least : Nat) (most? : Option Nat)
  /-- A description. -/
  | text (value : String)
deriving DecidableEq

/-- A token stream at work. -/
structure Session where
  /-- The stream. -/
  stream : TokenStream
  /-- The token taken last, if the last attempt found one. -/
  last? : Option Token
  /-- The copy of the stream to go back to. -/
  saved : TokenStream
deriving DecidableEq

namespace Session

/-- A session over a stream from which nothing has been taken. -/
def start (stream : TokenStream) : Session := { stream, last? := none, saved := stream }

/-- Answers one request. -/
def perform (session : Session) : Request → Answer × Session
  | .shift =>
    let (last?, stream) := session.stream.shift
    (.taken last?, { session with stream, last? })
  | .nth count =>
    let (last?, stream) := session.stream.nth count
    (.taken last?, { session with stream, last? })
  | .drain =>
    let (tokens, stream) := session.stream.drain
    (.drained tokens, { session with stream })
  | .last => (.last session.last?, session)
  | .compareLast bytes => (.compared (session.last?.map (Comparison.of · bytes)), session)
  | .line => (.line session.stream.line?, session)
  | .forLiquidTag => (.truth session.stream.forLiquidTag, session)
  | .remaining => (.number session.stream.remaining, session)
  | .sizeBounds => (.bounds session.stream.sizeBounds.1 session.stream.sizeBounds.2, session)
  | .description => (.text session.stream.description, session)
  | .save => (.done, { session with saved := session.stream })
  | .restore => (.done, { session with stream := session.saved })

/-- Answers requests in order. Each answer comes with the stream as it then stands. -/
def run (session : Session) : List Request → List (Answer × TokenStream) × Session
  | [] => ([], session)
  | request :: requests =>
    let (answer, next) := session.perform request
    let (answers, last) := next.run requests
    ((answer, next.stream) :: answers, last)

end Session

end TemplateTokens.TokenStream
