import TemplateTokens.Needle

/-!
# Where an output ends

An output runs from its opener to the first closer that stands outside a string. Strings are
delimited by either kind of quote; inside one, the other kind is an ordinary byte and a backslash
shields the byte after it. Outside a string a backslash means nothing. A tag opener outside a string
overtakes the output: what began as an output is then taken for a tag.

The search jumps from one stop byte to the next, since no other byte can change anything.
-/

namespace TemplateTokens.Output

/-- Whether a position lies inside a string, and by which quote the string is delimited. -/
inductive Quoting where
  /-- Outside any string. -/
  | outside
  /-- Inside a string between double quotes. -/
  | double
  /-- Inside a string between single quotes. -/
  | single
deriving DecidableEq, Repr

namespace Quoting

/-- A quote mark opens a string of its kind, closes one of its kind, and is an ordinary byte inside
the other kind. -/
def toggle (quoting mark : Quoting) : Quoting :=
  if quoting = outside then mark
  else if quoting = mark then outside
  else quoting

/-- The quoting behind a byte. -/
def after (quoting : Quoting) (byte : UInt8) : Quoting :=
  if byte = Bytes.doubleQuote then quoting.toggle double
  else if byte = Bytes.singleQuote then quoting.toggle single
  else quoting

end Quoting

/-- How the body of an output ends. -/
inductive Ending where
  /-- With its closer, this many bytes into the body, closer included. -/
  | closed (length : Nat)
  /-- With a tag opener, this many bytes into the body, opener included. -/
  | overtaken (length : Nat)
  /-- Not before the end of the template. -/
  | missing
deriving DecidableEq, Repr

/-- The bytes at which something may change: the backslash, the quotes and the braces. -/
def stops : Bytes :=
  [Bytes.backslash, Bytes.doubleQuote, Bytes.singleQuote, Bytes.closeBrace, Bytes.openBrace]

/-- How an output ends, given the quoting in front of `body` and the number of bytes of the output
body already passed. -/
def endingFrom (quoting : Quoting) (passed : Nat) (body : Bytes) : Ending :=
  match (Needle.anyOf stops).find? body with
  | none => .missing
  | some hit =>
    match remaining : body.drop hit.offset with
    | [] => .missing
    | stop :: after =>
      let here := passed + hit.offset
      if quoting = .outside ∧ stop = Bytes.closeBrace ∧ after.head? = some Bytes.closeBrace then
        .closed (here + 2)
      else if quoting = .outside ∧ stop = Bytes.openBrace ∧ after.head? = some Bytes.percent then
        .overtaken (here + 2)
      else
        let shielded := if quoting ≠ .outside ∧ stop = Bytes.backslash then 1 else 0
        endingFrom (quoting.after stop) (here + 1 + shielded) (after.drop shielded)
termination_by body.length
decreasing_by
  have lengths := congrArg List.length remaining
  simp only [List.length_drop, List.length_cons] at lengths ⊢
  omega

/-- How an output with the given body ends. -/
def ending (body : Bytes) : Ending := endingFrom .outside 0 body

end TemplateTokens.Output
