import TemplateTokens.Lines
import TemplateTokens.Log
import TemplateTokens.Scan
import TemplateTokens.Settings

/-!
# Token streams

A token stream holds the tokens of a template that have not been taken yet and, if lines are
counted, the line on which the next of them starts. Taking a token moves the line on by the line
ends in it, or by one in the body of a `liquid` tag, where each token is a line. An exhausted stream
stays as it is.

All tokens are cut before the first is taken, so a stream is made or refused as a whole; `report`
keeps the log of that work beside its outcome. A token does not tell where it stood. The line of a
token is known to the stream while that token is the next one, and not afterwards.
-/

namespace TemplateTokens

/-- The tokens that are left, and the line reached. -/
structure TokenStream where
  /-- The tokens not taken yet, next one first. -/
  pending : List Token
  /-- The line of the next token, if lines are counted. -/
  line? : Option LineNumber
  /-- Whether the tokens are the lines of a `liquid` tag. -/
  forLiquidTag : Bool
deriving DecidableEq

/-- A token with the line on which it starts, if lines are counted. -/
structure NumberedToken where
  /-- The token. -/
  token : Token
  /-- The line. -/
  line? : Option LineNumber
deriving DecidableEq

/-- The outcome of cutting a template into tokens, with the log of the work. -/
structure Report where
  /-- The tokens, or the complaint that stopped the work. -/
  outcome : Except InvalidBytes TokenStream
  /-- The log. -/
  log : List LogEntry

namespace TokenStream

/-- A stream over the given tokens. -/
def ofTokens (settings : Settings) (pending : List Token) : TokenStream :=
  { pending, line? := settings.initialLine?, forLiquidTag := settings.forLiquidTag }

/-- A stream without tokens. -/
def empty (settings : Settings) : TokenStream := ofTokens settings []

/-- Cuts a template into tokens, at its lines in the body of a `liquid` tag and at its markers
otherwise. -/
def report (settings : Settings) (template : Template) : Report :=
  let opened := LogEntry.opened template.length settings.forLiquidTag
  if settings.forLiquidTag then
    let tokens := template.bytes.lines.map Token.mk
    { outcome := .ok (ofTokens settings tokens), log := [opened, .finished tokens.length] }
  else
    let scan := Scan.ofTemplate template
    let fallbacks := LogEntry.ofPieces 0 scan.pieces
    match scan.invalid? with
    | some invalid => { outcome := .error invalid, log := opened :: fallbacks }
    | none =>
      let tokens := scan.pieces.map Piece.token
      { outcome := .ok (ofTokens settings tokens)
        log := opened :: fallbacks ++ [.finished tokens.length] }

/-- The token stream of a template. -/
def ofTemplate (settings : Settings) (template : Template) : Except InvalidBytes TokenStream :=
  (report settings template).outcome

/-- The number of tokens left. -/
def remaining (stream : TokenStream) : Nat := stream.pending.length

/-- A lower and an upper bound on the number of tokens still to come. -/
def sizeBounds (stream : TokenStream) : Nat × Option Nat :=
  (stream.remaining, some stream.remaining)

/-- The number of lines by which a token moves the line on. -/
def linesIn (stream : TokenStream) (token : Token) : Nat :=
  if stream.forLiquidTag then 1 else token.newlineCount

/-- Takes the next token, or nothing from an exhausted stream, which is left unchanged. -/
def shift (stream : TokenStream) : Option Token × TokenStream :=
  match stream.pending with
  | [] => (none, stream)
  | token :: pending =>
    let line? := stream.line?.map (LineNumber.advance · (stream.linesIn token))
    (some token, { stream with pending, line? })

/-- Takes `count` tokens away and then takes the next. Nothing more is taken once the stream is
exhausted. -/
def nth (stream : TokenStream) : Nat → Option Token × TokenStream
  | 0 => stream.shift
  | count + 1 =>
    match stream.shift with
    | (none, unchanged) => (none, unchanged)
    | (some _, later) => later.nth count

/-- Takes one token after the other until the stream is exhausted. -/
def readAll (stream : TokenStream) : List NumberedToken × TokenStream :=
  match _next : stream.pending with
  | [] => ([], stream)
  | token :: _ =>
    let (later, exhausted) := stream.shift.2.readAll
    ({ token, line? := stream.line? } :: later, exhausted)
termination_by stream.pending.length
decreasing_by simp [shift, _next]

/-- Takes all the tokens that are left. -/
def drain (stream : TokenStream) : List Token × TokenStream :=
  let (numbered, exhausted) := stream.readAll
  (numbered.map NumberedToken.token, exhausted)

/-- The stream on one line. -/
def description (stream : TokenStream) : String :=
  Record.text "Tokenizer"
    [("tokens", Record.list (stream.pending.map Token.description)),
      ("line_number", Record.optional (stream.line?.map toString)),
      ("for_liquid_tag", Record.truth stream.forLiquidTag)]

end TokenStream

end TemplateTokens
