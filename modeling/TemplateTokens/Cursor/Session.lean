import TemplateTokens.Cursor

/-!
# Cursor sessions

A session drives one cursor through a list of requests and collects the answers. A request that asks
for a span in breach of its order is answered with the breach, and the session goes on as if it had
not been made. A session keeps one saved cursor, at first the one it began with.

Reads, searches and moves change the position. Spans, checks and questions leave it alone, and so
does whatever is refused. Every answer is kept with the cursor as it stands behind the request, so
that a session can be followed step by step; no request ends it.
-/

namespace TemplateTokens.Cursor

/-- What can be asked of a cursor. -/
inductive Request where
  /-- Look at the next byte. -/
  | peek
  /-- Read the next byte. -/
  | read
  /-- Move past the leftmost match of a needle. -/
  | skipPast (needle : Needle)
  /-- Test for a leading keyword. -/
  | leadsWith (keyword : Keyword)
  /-- Tell the position. -/
  | position
  /-- Tell the length of the template. -/
  | templateLength
  /-- Tell whether every byte is passed. -/
  | atEnd
  /-- Show the bytes not passed yet. -/
  | rest
  /-- Move to a position. -/
  | moveTo (position : Nat)
  /-- Move to the end. -/
  | finish
  /-- Cut out a span. -/
  | slice (start stop : Nat)
  /-- Cut out the span from a position to the cursor. -/
  | sliceFrom (start : Nat)
  /-- Check a span against the declared encoding. -/
  | check (start stop : Nat)
  /-- Keep a copy of the cursor. -/
  | save
  /-- Go back to the copy. -/
  | restore
deriving DecidableEq

/-- What a cursor answers. -/
inductive Answer where
  /-- Nothing to tell. -/
  | done
  /-- A byte, or the end. -/
  | byte (value? : Option UInt8)
  /-- A number of bytes, or no match. -/
  | passed (length? : Option Nat)
  /-- A position or a length. -/
  | number (value : Nat)
  /-- A truth value. -/
  | truth (value : Bool)
  /-- A span of bytes. -/
  | span (bytes : Bytes)
  /-- The outcome of a check: a complaint, or nothing for a sound span. -/
  | checked (invalid? : Option InvalidBytes)
  /-- The request was in breach. -/
  | refused (breach : Breach)
deriving DecidableEq

/-- A cursor at work, with the copy it can go back to. -/
structure Session where
  /-- The cursor. -/
  cursor : Cursor
  /-- The copy. -/
  saved : Cursor
deriving DecidableEq

namespace Session

/-- A session at the start of a template. -/
def start (template : Template) : Session :=
  { cursor := .atStart template, saved := .atStart template }

/-- Answers one request. -/
def perform (session : Session) : Request → Answer × Session
  | .peek => (.byte session.cursor.peek?, session)
  | .read =>
    let (value?, cursor) := session.cursor.read
    (.byte value?, { session with cursor })
  | .skipPast needle =>
    let (length?, cursor) := session.cursor.skipPast needle
    (.passed length?, { session with cursor })
  | .leadsWith keyword => (.truth (session.cursor.leadsWith keyword), session)
  | .position => (.number session.cursor.position, session)
  | .templateLength => (.number session.cursor.template.length, session)
  | .atEnd => (.truth session.cursor.atEnd, session)
  | .rest => (.span session.cursor.rest, session)
  | .moveTo position => (.done, { session with cursor := session.cursor.moveTo position })
  | .finish => (.done, { session with cursor := session.cursor.finish })
  | .slice start stop => (ofSpan (session.cursor.slice start stop), session)
  | .sliceFrom start => (ofSpan (session.cursor.sliceFrom start), session)
  | .check start stop =>
    match session.cursor.check start stop with
    | .ok invalid? => (.checked invalid?, session)
    | .error breach => (.refused breach, session)
  | .save => (.done, { session with saved := session.cursor })
  | .restore => (.done, { session with cursor := session.saved })
where
  /-- A span, or the breach in asking for it. -/
  ofSpan : Except Breach Bytes → Answer
    | .ok bytes => .span bytes
    | .error breach => .refused breach

/-- Answers requests in order. Each answer comes with the cursor as it then stands. -/
def run (session : Session) : List Request → List (Answer × Cursor) × Session
  | [] => ([], session)
  | request :: requests =>
    let (answer, next) := session.perform request
    let (answers, last) := next.run requests
    ((answer, next.cursor) :: answers, last)

end Session

end TemplateTokens.Cursor
