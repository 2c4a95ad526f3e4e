import TemplateTokens.Cursor.Session
import TemplateTokens.Encoding.Verifier
import TemplateTokens.Needle.Finders

/-!
# Sessions with tools from outside

A cursor leaves two things to tools that may come from outside: the searches for bytes and strings,
of which the search for a needle is made, and the check of UTF-8. All other requests of a session
need no tools.

Tools may be any functions. `Tools.Reliable` asks that the finders be leftmost and that the verifier
agree with the definition of UTF-8, and asks nothing else of them. A session with reliable tools
gives the answers of one without tools; this is proved request by request in `Proofs.CursorSessions`
and not assumed.
-/

namespace TemplateTokens

/-- What a cursor leaves to others. -/
structure Tools where
  /-- The searches for bytes and strings. -/
  finders : Finders
  /-- The check of UTF-8. -/
  verifier : Verifier

/-- Tools that do what is asked of them. -/
structure Tools.Reliable (tools : Tools) : Prop where
  /-- The searches find the leftmost hit. -/
  leftmost : tools.finders.Leftmost
  /-- The check finds the first fault. -/
  agrees : tools.verifier.Agrees

namespace Cursor

/-- Moves just past the leftmost match of a needle, sought with finders, and tells how many bytes
were passed. Without a match the cursor moves to the end. -/
def skipPastBy (finders : Finders) (cursor : Cursor) (needle : Needle) : Option Nat × Cursor :=
  match finders.find? needle cursor.rest with
  | some hit => (some hit.stop, { cursor with position := cursor.position + hit.stop })
  | none => (none, cursor.finish)

namespace Session

variable (tools : Tools)

/-- Answers one request. Searches and checks are made with the tools. -/
def performWith (session : Session) : Request → Answer × Session
  | .skipPast needle =>
    let (length?, cursor) := session.cursor.skipPastBy tools.finders needle
    (.passed length?, { session with cursor })
  | .check start stop =>
    match session.cursor.checkBy tools.verifier start stop with
    | .ok invalid? => (.checked invalid?, session)
    | .error breach => (.refused breach, session)
  | request => session.perform request

/-- Answers requests in order. Each answer comes with the cursor as it then stands. -/
def runWith (session : Session) : List Request → List (Answer × Cursor) × Session
  | [] => ([], session)
  | request :: requests =>
    let (answer, next) := session.performWith tools request
    let (answers, last) := next.runWith requests
    ((answer, next.cursor) :: answers, last)

end Session

end Cursor

end TemplateTokens
