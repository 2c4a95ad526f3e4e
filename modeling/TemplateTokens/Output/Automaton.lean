import TemplateTokens.Cursor
import TemplateTokens.Log

/-!
# An automaton for outputs

What the scan of an output amounts to, one byte at a time. The automaton starts with a cursor behind
the opener, outside of strings. It reads a byte, looks at the one behind it and passes the byte,
passes both, closes the output or hands over to the scan of a tag. It knows nothing of stop bytes,
and its state and its cursor are all that it remembers.

The automaton makes its entries in the log itself, and asks neither for the ending of the output nor
for the cause of a piece. It is not the scan that the library uses: that the two leave the same
token, cursor and entries behind is shown in `Proofs.Automaton`, for every template and every
opener.
-/

namespace TemplateTokens.Output

/-- What the automaton does at a byte. -/
inductive Move where
  /-- It passes the byte and goes on in a state. -/
  | pass (quoting : Quoting)
  /-- It passes the byte and the one behind it, whatever that is, and stays in its state. -/
  | shield
  /-- It closes the output behind the next byte. -/
  | close
  /-- It hands over to the scan of a tag behind the next byte. -/
  | overtake
deriving DecidableEq, Repr

/-- The move of the automaton in each of its states. -/
def Quoting.move (quoting : Quoting) (byte : UInt8) (next? : Option UInt8) : Move :=
  match quoting with
  | outside =>
    if byte = Bytes.doubleQuote then .pass double
    else if byte = Bytes.singleQuote then .pass single
    else if byte = Bytes.closeBrace ∧ next? = some Bytes.closeBrace then .close
    else if byte = Bytes.openBrace ∧ next? = some Bytes.percent then .overtake
    else .pass outside
  | double =>
    if byte = Bytes.backslash then .shield
    else if byte = Bytes.doubleQuote then .pass outside
    else .pass double
  | single =>
    if byte = Bytes.backslash then .shield
    else if byte = Bytes.singleQuote then .pass outside
    else .pass single

/-- What the scan of an output leaves behind. -/
structure Scanned where
  /-- The token. -/
  token : Token
  /-- The cursor, behind what the scan has taken up. -/
  cursor : Cursor
  /-- The entries of the log. -/
  entries : List LogEntry
deriving DecidableEq

/-- Puts an entry in front of the others. -/
def Scanned.note (scanned : Scanned) (entry : LogEntry) : Scanned :=
  { scanned with entries := entry :: scanned.entries }

/-- Scans a tag from the cursor on. The token starts at `start` and is two bytes longer than what is
passed up to the end of the closer. Without a closer it is a bare opener, and the cursor stays. -/
def scanTag (start : Nat) (cursor : Cursor) : Scanned :=
  match cursor.skipPast (.literal Bytes.tagCloser) with
  | (some passed, later) =>
    { token := ⟨cursor.template.bytes.slice start (start + passed + 2)⟩
      cursor := later
      entries := [] }
  | (none, later) =>
    { token := ⟨Bytes.tagOpener⟩
      cursor := later.moveTo cursor.position
      entries := [.fellBack .openTag start] }

/-- Runs the automaton on the output that was opened at `start`, from the cursor on. -/
def automaton (start : Nat) (quoting : Quoting) (cursor : Cursor) : Scanned :=
  match _here : cursor.peek? with
  | none =>
    { token := ⟨Bytes.outputOpener⟩
      cursor := cursor.finish
      entries := [.fellBack .openOutput start] }
  | some byte =>
    let behind := cursor.read.2
    match quoting.move byte behind.peek? with
    | .pass quoting => automaton start quoting behind
    | .shield => automaton start quoting behind.read.2
    | .close =>
      let closed := behind.read.2
      { token := ⟨cursor.template.bytes.slice start closed.position⟩
        cursor := closed
        entries := [] }
    | .overtake => (scanTag start behind.read.2).note (.fellBack .overtakenOutput start)
termination_by cursor.template.length - cursor.position
decreasing_by
  · obtain ⟨inside, read⟩ := Cursor.read_of_peek? _here
    simp only [read]
    omega
  · obtain ⟨inside, read⟩ := Cursor.read_of_peek? _here
    obtain ⟨sameTemplate, onward⟩ := cursor.read.2.read_forward
    rw [sameTemplate]
    simp only [read] at onward ⊢
    omega

end TemplateTokens.Output
