import TemplateTokens.Guarded.Cursor
import TemplateTokens.TokenStream

/-!
# A guarded machine

The scan of a template as it moves a cursor to and fro. The machine takes turns: it looks for the
next opener or tells what is opened, scans to the closer of a tag, goes on to the next stop byte of
an output, or goes on to the next tag of a raw block. A turn is guarded throughout, so the machine
is stopped by the first offset that is not sound.

The other scan of this library (`Scan.ofTemplate`) carves pieces off a byte string and has no
offsets to go wrong.
-/

namespace TemplateTokens

/-- What a machine is at. -/
inductive Phase where
  /-- Between markers. -/
  | markup
  /-- Behind the opener of a tag whose token starts at `start`, with a body that leads with `raw` or
  does not. -/
  | tag (start : Nat) (opensRaw : Bool)
  /-- In an output that was opened at `start`, inside or outside of a string. -/
  | output (start : Nat) (quoting : Output.Quoting)
  /-- In the raw block whose content starts at `start`. -/
  | raw (start : Nat)
deriving DecidableEq

/-- A machine between two turns. -/
structure Machine where
  /-- The cursor. -/
  cursor : Cursor
  /-- What the machine is at. -/
  phase : Phase
  /-- Whether the template has passed the check of its encoding. -/
  checked : Bool
  /-- The tokens so far. -/
  tokens : List Token
  /-- The log so far. -/
  log : List LogEntry
deriving DecidableEq

/-- What a machine leaves behind. -/
structure Verdict where
  /-- The tokens, or the complaint that stopped the scan. -/
  outcome : Except InvalidBytes (List Token)
  /-- The log. -/
  log : List LogEntry

/-- What a turn leads to. -/
inductive Progress where
  /-- Another turn. -/
  | running (machine : Machine)
  /-- The end of the scan. -/
  | halted (verdict : Verdict)

namespace Machine

/-- A machine in front of the first byte. -/
def atStart (template : Template) : Machine :=
  { cursor := .atStart template, phase := .markup, checked := false, tokens := [], log := [] }

/-- Goes on at a cursor. -/
def enter (machine : Machine) (cursor : Cursor) (phase : Phase) : Machine :=
  { machine with cursor, phase }

/-- Adds a token. -/
def emit (machine : Machine) (bytes : Bytes) : Machine :=
  { machine with tokens := machine.tokens ++ [⟨bytes⟩] }

/-- Adds an entry to the log. -/
def note (machine : Machine) (fallback : Fallback) (start : Nat) : Machine :=
  { machine with log := machine.log ++ [.fellBack fallback start] }

/-- Scans to the closer of a tag. The token starts at `start` and is two bytes longer than what is
passed from the cursor on. It may end in front of the cursor, if it starts further in front of the
cursor than the opener does, but not past it. -/
def turnTag (machine : Machine) (start : Nat) (opensRaw : Bool) : Guarded Machine := do
  let behind (cursor : Cursor) : Phase := if opensRaw then .raw cursor.position else .markup
  let (passed?, later) ← Guarded.skipPast machine.cursor (.literal Bytes.tagCloser)
  match passed? with
  | some passed =>
    let stop ← Guarded.sum (← Guarded.sum start passed) 2
    if later.position < stop then .error (.ahead stop later.position)
    else
      let bytes ← Guarded.slice later start stop
      return (machine.emit bytes).enter later (behind later)
  | none =>
    let back := later.moveTo machine.cursor.position
    return ((machine.note .openTag start).emit Bytes.tagOpener).enter back (behind back)

/-- The complaint about the template as a whole, unless it has been checked already. -/
def validate (machine : Machine) : Guarded (Option InvalidBytes) :=
  if machine.checked then return none
  else Guarded.check machine.cursor 0 machine.cursor.template.length

/-- Cuts out the text up to the next opener, or up to the end. -/
def cutText (machine : Machine) : Guarded Machine := do
  let start := machine.cursor.position
  let (passed?, later) ←
    Guarded.skipPast machine.cursor (.pair Bytes.openBrace [Bytes.openBrace, Bytes.percent])
  match passed? with
  | none =>
    let bytes ← Guarded.sliceFrom later start
    return (machine.emit bytes).enter later .markup
  | some _ =>
    let stop ← Guarded.stepBack later 2 [Bytes.outputOpener, Bytes.tagOpener]
    let back := later.moveTo stop
    let bytes ← Guarded.slice back start stop
    return (machine.emit bytes).enter back .markup

/-- Scans text, which waits for the check of the template. -/
def turnText (machine : Machine) : Guarded Progress := do
  match ← machine.validate with
  | some invalid => return .halted { outcome := .error invalid, log := machine.log }
  | none => .running <$> { machine with checked := true }.cutText

/-- Tells what is opened at the cursor. -/
def turnMarkup (machine : Machine) : Guarded Progress := do
  if machine.cursor.atEnd then
    return .halted { outcome := .ok machine.tokens, log := machine.log }
  else if machine.cursor.peek? = some Bytes.openBrace then
    let (_, opened) ← Guarded.read machine.cursor
    if opened.peek? = some Bytes.percent then
      let (_, behind) ← Guarded.read opened
      let opensRaw ← Guarded.leadsWith behind .raw
      let start ← Guarded.stepBack behind 2 [Bytes.tagOpener]
      return .running (machine.enter behind (.tag start opensRaw))
    else if opened.peek? = some Bytes.openBrace then
      let (_, behind) ← Guarded.read opened
      let start ← Guarded.stepBack behind 2 [Bytes.outputOpener]
      return .running (machine.enter behind (.output start .outside))
    else
      let start ← Guarded.stepBack opened 1 [[Bytes.openBrace]]
      turnText (machine.enter (opened.moveTo start) .markup)
  else turnText machine

/-- Gives up on an output without a closer. -/
def abandonOutput (machine : Machine) (cursor : Cursor) (start : Nat) : Machine :=
  ((machine.note .openOutput start).emit Bytes.outputOpener).enter cursor .markup

/-- Goes on to the next stop byte of an output. -/
def turnOutput (machine : Machine) (start : Nat) (quoting : Output.Quoting) : Guarded Machine := do
  if machine.cursor.atEnd then return machine.abandonOutput machine.cursor start
  else
    let (stop?, later) ← Guarded.skipToStop machine.cursor Output.stops
    match stop? with
    | none => return machine.abandonOutput later start
    | some stop =>
      if quoting = .outside ∧ stop = Bytes.closeBrace ∧ later.peek? = some Bytes.closeBrace then
        let (_, behind) ← Guarded.read later
        let bytes ← Guarded.sliceFrom behind start
        return (machine.emit bytes).enter behind .markup
      else if quoting = .outside ∧ stop = Bytes.openBrace ∧ later.peek? = some Bytes.percent then
        let (_, behind) ← Guarded.read later
        return (machine.note .overtakenOutput start).enter behind (.tag start false)
      else if quoting ≠ .outside ∧ stop = Bytes.backslash then
        let position ← Guarded.sum later.position 1
        return machine.enter (later.moveTo position) (.output start quoting)
      else return machine.enter later (.output start (quoting.after stop))

/-- Goes on to the next tag of a raw block. -/
def turnRaw (machine : Machine) (start : Nat) : Guarded Machine := do
  let (passed?, later) ← Guarded.skipPast machine.cursor (.literal Bytes.tagOpener)
  match passed? with
  | none =>
    let bytes ← Guarded.sliceFrom later start
    return ((machine.note .openRaw start).emit bytes).enter later.finish .markup
  | some _ =>
    if ← Guarded.leadsWith later .endraw then
      let tagStart ← Guarded.stepBack later 2 [Bytes.tagOpener]
      if start < tagStart then
        let bytes ← Guarded.slice later start tagStart
        return (machine.emit bytes).enter later (.tag tagStart false)
      else return machine.enter later (.tag tagStart false)
    else return machine.enter later (.raw start)

/-- One turn. -/
def turn (machine : Machine) : Guarded Progress :=
  match machine.phase with
  | .markup => machine.turnMarkup
  | .tag start opensRaw => .running <$> machine.turnTag start opensRaw
  | .output start quoting => .running <$> machine.turnOutput start quoting
  | .raw start => .running <$> machine.turnRaw start

/-- The machines that come about while a template is scanned. -/
inductive Reached (template : Template) : Machine → Prop where
  /-- The scan begins. -/
  | atStart : Reached template (.atStart template)
  /-- A turn is taken. -/
  | turn {machine next : Machine} (reached : Reached template machine)
      (taken : machine.turn = .ok (.running next)) : Reached template next

end Machine

namespace TokenStream

/-- The report that follows from a verdict. -/
def reportOf (settings : Settings) (template : Template) (verdict : Verdict) : Report :=
  { outcome := verdict.outcome.map (ofTokens settings)
    log := .opened template.length settings.forLiquidTag ::
      verdict.log ++ (verdict.outcome.toOption.map (.finished ·.length)).toList }

/-- How the work on a template can come out if every offset is guarded. -/
inductive Constructs (settings : Settings) (template : Template) : Guarded Report → Prop where
  /-- The body of a `liquid` tag is cut at its line ends, which takes no offsets. -/
  | lines (mode : settings.forLiquidTag = true) :
      Constructs settings template (.ok (reportOf settings template
        { outcome := .ok (template.bytes.lines.map Token.mk), log := [] }))
  /-- The machine comes to an end. -/
  | halted {machine : Machine} {verdict : Verdict} (mode : settings.forLiquidTag = false)
      (reached : machine.Reached template) (halts : machine.turn = .ok (.halted verdict)) :
      Constructs settings template (.ok (reportOf settings template verdict))
  /-- The machine is stopped by a trap. -/
  | trapped {machine : Machine} {trap : Trap} (mode : settings.forLiquidTag = false)
      (reached : machine.Reached template) (stopped : machine.turn = .error trap) :
      Constructs settings template (.error trap)

end TokenStream

end TemplateTokens
