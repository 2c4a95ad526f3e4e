import TemplateTokens.Cursor.Tools
import TemplateTokens.Proofs.Leftmost
import TemplateTokens.Proofs.Soundness

/-!
# What a session does with its cursor

Whatever is asked of a session, and in whatever order, its cursor and the copy stand in the template
that the session began with (`Session.StandsIn`). One request keeps this
(`Session.StandsIn.perform`), so a list of requests does (`Session.StandsIn.run`). What each request
does there is said by `Session.Served`: one that is refused changes nothing, and of the others only
five move the cursor.

The tools of a session may come from outside; they are assumed to be reliable and are then exchanged
for those of the library before anything else is proved. A refusal is told by the span that was
asked for and not by the template: it is refused exactly if its start exceeds its end. Spans that
reach behind the last byte are served, and adjacent ones still join.
-/

namespace TemplateTokens

namespace Cursor

/-- A cursor belongs to a template and has not passed more than its bytes. -/
structure StandsIn (cursor : Cursor) (template : Template) : Prop where
  /-- The template of the cursor. -/
  template_eq : cursor.template = template
  /-- The position is not behind the last byte. -/
  position_le : cursor.position ≤ template.length

/-- No computation of an offset from where the cursor stands leaves the machine words. -/
structure Unstopped (cursor : Cursor) : Prop where
  /-- The bytes not passed yet are cut out. -/
  rest : Guarded.rest cursor = .ok cursor.rest
  /-- The next byte is read. -/
  read : Guarded.read cursor = .ok cursor.read
  /-- Every needle is searched. -/
  skipPast (needle : Needle) : Guarded.skipPast cursor needle = .ok (cursor.skipPast needle)
  /-- Every keyword is tested. -/
  leadsWith (keyword : Keyword) : Guarded.leadsWith cursor keyword = .ok (cursor.leadsWith keyword)
  /-- A complaint about a span is moved to where the span starts. -/
  check {start stop : Nat} {relative : InvalidBytes}
    (faulty : cursor.template.encoding.check (cursor.template.bytes.slice start stop) =
      some relative) :
    Guarded.sum start relative.offset = .ok (start + relative.offset)

/-- The cursor has passed every byte if none is left. -/
theorem atEnd_iff_rest_eq_nil {cursor : Cursor} : cursor.atEnd = true ↔ cursor.rest = [] := by
  rw [atEnd, decide_eq_true_eq, rest, List.drop_eq_nil_iff]
  rfl

/-- There is no next byte if none is left. -/
theorem rest_eq_nil_iff_peek? {cursor : Cursor} : cursor.rest = [] ↔ cursor.peek? = none := by
  rw [peek?_eq_head?, List.head?_eq_none_iff]

/-- Reading takes the first of the bytes not passed yet, if there is one. At the end both are
nothing, and the cursor stays where it is. -/
theorem read_takes_head (cursor : Cursor) :
    cursor.read.1 = cursor.rest.head? ∧ cursor.read.2.rest = cursor.rest.tail := by
  rw [← peek?_eq_head?]
  cases here : cursor.peek? with
  | none =>
    rw [read, here]
    simp [rest_eq_nil_iff_peek?.mpr here]
  | some byte =>
    obtain ⟨-, step⟩ := read_of_peek? here
    rw [step]
    exact ⟨rfl, List.tail_drop.symm⟩

/-- A span is refused exactly if it starts after it ends. Ends behind the template are cut short
instead, and the breach names the span as it was asked for. -/
theorem slice_eq_error_iff {cursor : Cursor} {start stop : Nat} {breach : Breach} :
    cursor.slice start stop = .error breach ↔
      (start, stop) = (breach.start, breach.stop) ∧ breach.stop < breach.start := by
  rw [slice]
  split
  · next ordered =>
    simp only [reduceCtorEq, false_iff]
    rintro ⟨same, reversed⟩
    obtain ⟨rfl, rfl⟩ := Prod.mk.inj same
    exact absurd ordered (Nat.not_le_of_lt reversed)
  · next reversed =>
    constructor
    · intro refused
      cases refused
      exact ⟨rfl, Nat.lt_of_not_le reversed⟩
    · rintro ⟨same, -⟩
      obtain ⟨rfl, rfl⟩ := Prod.mk.inj same
      rfl

/-- The check of a span is refused as the span is. The bytes of the span are cut out before they are
checked, so a fault in them is never the reason. -/
theorem check_eq_error_iff {cursor : Cursor} {start stop : Nat} {breach : Breach} :
    cursor.check start stop = .error breach ↔ cursor.slice start stop = .error breach := by
  rw [check]
  cases cursor.slice start stop <;> simp [Except.map]

/-- Adjacent spans are cut out and join to the span that covers both, wherever they end. Each of the
three is cut short by itself, and the parts still fit. -/
theorem slice_join (cursor : Cursor) {start middle stop : Nat} (startLeMiddle : start ≤ middle)
    (middleLeStop : middle ≤ stop) :
    ∃ left right, cursor.slice start middle = .ok left ∧ cursor.slice middle stop = .ok right ∧
      cursor.slice start stop = .ok (left ++ right) := by
  refine ⟨_, _, if_pos startLeMiddle, if_pos middleLeStop, ?_⟩
  have joined := cursor.template.bytes.slice_append_slice startLeMiddle middleLeStop
  rw [joined]
  exact if_pos (startLeMiddle.trans middleLeStop)

/-- A search either passes the leftmost match of the needle or, if it fits nowhere, moves to the
end. -/
theorem skipPast_cases (cursor : Cursor) (needle : Needle) :
    (∃ offset length, IsLeast (needle.placesIn cursor.rest) offset ∧
      needle.Matches (cursor.rest.drop offset) length ∧
      cursor.skipPast needle = (some (offset + length),
        { cursor with position := cursor.position + (offset + length) })) ∨
    needle.placesIn cursor.rest = ∅ ∧ cursor.skipPast needle = (none, cursor.finish) := by
  cases search : needle.find? cursor.rest with
  | none =>
    refine .inr ⟨Needle.find?_eq_none_iff.mp search, ?_⟩
    rw [skipPast, search]
  | some hit =>
    obtain ⟨least, width⟩ := Needle.find?_eq_some_iff.mp search
    obtain ⟨-, length, isMatch⟩ := least.1
    obtain ⟨fitting, -⟩ := Needle.matches_iff.mp isMatch
    refine .inl ⟨hit.offset, hit.length, least, Needle.matches_iff.mpr ⟨fitting, width⟩, ?_⟩
    rw [skipPast, search]
    rfl

namespace StandsIn

variable {cursor : Cursor} {template : Template}

/-- A cursor begins in its template. -/
theorem atStart (template : Template) : (Cursor.atStart template).StandsIn template :=
  ⟨rfl, Nat.zero_le _⟩

variable (standsIn : cursor.StandsIn template)
include standsIn

/-- A byte that is read is in the template. -/
theorem read : cursor.read.2.StandsIn template := by
  cases here : cursor.peek? with
  | none =>
    rw [Cursor.read, here]
    exact standsIn
  | some byte =>
    obtain ⟨inside, step⟩ := read_of_peek? here
    rw [step]
    rw [standsIn.template_eq] at inside
    exact ⟨standsIn.template_eq, inside⟩

/-- The end is in the template. -/
theorem finish : cursor.finish.StandsIn template := by
  obtain ⟨rfl, -⟩ := standsIn
  exact ⟨rfl, Nat.le_refl _⟩

/-- A move behind the last byte is cut short. This is the only move whose target is a number that is
asked for, and it is capped at the length. -/
theorem moveTo (position : Nat) : (cursor.moveTo position).StandsIn template := by
  obtain ⟨rfl, -⟩ := standsIn
  exact ⟨rfl, Nat.min_le_right _ _⟩

/-- A needle that is found ends in the template. Without a match the cursor stands at the end. -/
theorem skipPast (needle : Needle) : (cursor.skipPast needle).2.StandsIn template := by
  rw [Cursor.skipPast]
  cases search : needle.find? cursor.rest with
  | none => exact standsIn.finish
  | some hit =>
    obtain ⟨rfl, inside⟩ := standsIn
    have within := Needle.find?_stop_le search
    rw [cursor.length_rest] at within
    refine ⟨rfl, ?_⟩
    simp only
    omega

/-- In a template that is short enough for machine words the cursor is not stopped. The bound is
needed for the positions behind a match, which are sums of two offsets. -/
theorem unstopped (small : template.length < 2 ^ 63) : cursor.Unstopped := by
  obtain ⟨own, position⟩ := cursor
  obtain ⟨rfl, inside⟩ := standsIn
  refine ⟨Guarded.behind_eq inside, Guarded.read_eq small, Guarded.skipPast_eq small inside,
    Guarded.leadsWith_eq small inside, ?_⟩
  intro start stop relative faulty
  have within := Nat.lt_of_lt_of_le (offset_lt_of_check faulty) (Nat.min_le_right _ _)
  simp only at within small
  exact Guarded.sum_eq (by omega)

end StandsIn

/-- Whether a request may leave the cursor elsewhere. -/
def Request.movesCursor : Request → Bool
  | .read | .skipPast _ | .moveTo _ | .finish | .restore => true
  | _ => false

/-- The span that a request asks for, where the cursor stands at a position. -/
def Request.span? (position : Nat) : Request → Option (Nat × Nat)
  | .slice start stop | .check start stop => some (start, stop)
  | .sliceFrom start => some (start, position)
  | _ => none

namespace Session

/-- The cursor of a session and its copy stand in a template. -/
structure StandsIn (session : Session) (template : Template) : Prop where
  /-- The cursor stands there. -/
  cursor : session.cursor.StandsIn template
  /-- The copy stands there. -/
  saved : session.saved.StandsIn template

/-- What a request may do to a session, and what the answer to it tells. -/
structure Served (session : Session) (request : Request) (answer : Answer) (next : Session) :
    Prop where
  /-- A search ends just past the leftmost match and tells how many bytes were passed, or it ends
  at the end, and the needle fits nowhere. -/
  skipPast {needle : Needle} (asked : request = .skipPast needle) :
    (∃ offset length, IsLeast (needle.placesIn session.cursor.rest) offset ∧
      needle.Matches (session.cursor.rest.drop offset) length ∧
      answer = .passed (some (offset + length)) ∧
      next.cursor.position = session.cursor.position + (offset + length)) ∨
    needle.placesIn session.cursor.rest = ∅ ∧ answer = .passed none ∧
    next.cursor.position = session.cursor.template.length
  /-- A read takes the first of the bytes not passed yet. -/
  read (asked : request = .read) :
    answer = .byte session.cursor.rest.head? ∧ next.cursor.rest = session.cursor.rest.tail
  /-- After a move the bytes from the position on are left, if there are any. -/
  moveTo {position : Nat} (asked : request = .moveTo position) :
    next.cursor.rest = session.cursor.template.bytes.drop position
  /-- After a move to the end none are left. -/
  finish (asked : request = .finish) : next.cursor.rest = []
  /-- The session goes back to the copy. -/
  restore (asked : request = .restore) : next.cursor = session.saved
  /-- No other request moves the cursor. -/
  stays (stays : request.movesCursor = false) : next.cursor = session.cursor
  /-- A copy is made on request only. -/
  saved : next.saved = if request = .save then session.cursor else session.saved
  /-- A span is refused exactly if the start that is asked for exceeds the end. -/
  refused_iff (breach : Breach) : answer = .refused breach ↔
    request.span? session.cursor.position = some (breach.start, breach.stop) ∧
    breach.stop < breach.start
  /-- What is refused leaves the session as it was. -/
  unchanged {breach : Breach} (refused : answer = .refused breach) : next = session

/-- A session begins in its template. -/
theorem StandsIn.start (template : Template) : (Session.start template).StandsIn template :=
  ⟨.atStart template, .atStart template⟩

/-- A request that is not a move leaves the cursor where it is. -/
theorem perform_cursor_of_stays {request : Request} (session : Session)
    (stays : request.movesCursor = false) :
    (session.perform request).2.cursor = session.cursor := by
  cases request with
  | read | skipPast | moveTo | finish | restore => exact absurd stays (by simp [Request.movesCursor])
  | check start stop =>
    rw [perform]
    split <;> rfl
  | _ => rfl

/-- A request keeps the session in the template. The copy is part of the invariant, because going
back makes it the cursor again. -/
theorem StandsIn.perform {session : Session} {template : Template}
    (standsIn : session.StandsIn template) (request : Request) :
    (session.perform request).2.StandsIn template := by
  obtain ⟨cursor, saved⟩ := standsIn
  cases request with
  | read => exact ⟨cursor.read, saved⟩
  | skipPast needle => exact ⟨cursor.skipPast needle, saved⟩
  | moveTo position => exact ⟨cursor.moveTo position, saved⟩
  | finish => exact ⟨cursor.finish, saved⟩
  | save => exact ⟨cursor, cursor⟩
  | restore => exact ⟨saved, saved⟩
  | check start stop =>
    rw [Session.perform]
    split <;> exact ⟨cursor, saved⟩
  | _ => exact ⟨cursor, saved⟩

/-- A session that stands in a template does so after every request of a list. The state behind
every single request is covered too, not only the one at the end. -/
theorem StandsIn.run {template : Template} (requests : List Request) {session : Session}
    (standsIn : session.StandsIn template) :
    (session.run requests).2.StandsIn template ∧
    ∀ entry ∈ (session.run requests).1, entry.2.StandsIn template := by
  induction requests generalizing session with
  | nil => exact ⟨standsIn, nofun⟩
  | cons request requests inductionHypothesis =>
    have next := standsIn.perform request
    obtain ⟨last, entries⟩ := inductionHypothesis next
    exact ⟨last, List.forall_mem_cons.mpr ⟨next.cursor, entries⟩⟩

/-- The first request is answered, and then the others are. -/
theorem run_cons (session : Session) (request : Request) (requests : List Request) :
    session.run (request :: requests) =
      (((session.perform request).1, (session.perform request).2.cursor) ::
          ((session.perform request).2.run requests).1,
        ((session.perform request).2.run requests).2) := rfl

/-- Each request is answered once. -/
theorem length_run (requests : List Request) (session : Session) :
    (session.run requests).1.length = requests.length := by
  induction requests generalizing session with
  | nil => rfl
  | cons request requests inductionHypothesis =>
    rw [run_cons, List.length_cons, inductionHypothesis, List.length_cons]

/-- One more request is answered in the state that the others lead to. -/
theorem run_append_singleton (requests : List Request) (request : Request) (session : Session) :
    session.run (requests ++ [request]) =
      ((session.run requests).1 ++
          [(((session.run requests).2.perform request).1,
            ((session.run requests).2.perform request).2.cursor)],
        ((session.run requests).2.perform request).2) := by
  induction requests generalizing session with
  | nil => rfl
  | cons first requests inductionHypothesis =>
    simp only [List.cons_append, run_cons, inductionHypothesis]

/-- A session that asks for a span stays as it is. That holds whether the span is refused or not,
and whether the bytes in it are sound or not. -/
theorem perform_of_span? {request : Request} {session : Session} {span : Nat × Nat}
    (asked : request.span? session.cursor.position = some span) :
    (session.perform request).2 = session := by
  cases request with
  | slice | sliceFrom => rfl
  | check start stop =>
    rw [perform]
    split <;> rfl
  | _ => exact absurd asked (by simp [Request.span?])

/-- A span that is refused is answered with the breach. -/
theorem ofSpan_eq_refused_iff {outcome : Except Breach Bytes} {breach : Breach} :
    perform.ofSpan outcome = .refused breach ↔ outcome = .error breach := by
  cases outcome <;> simp [perform.ofSpan]

/-- A check that is refused is answered with the breach. -/
theorem perform_check_eq_refused_iff {session : Session} {start stop : Nat} {breach : Breach} :
    (session.perform (.check start stop)).1 = .refused breach ↔
      session.cursor.check start stop = .error breach := by
  rw [perform]
  cases session.cursor.check start stop <;> simp

/-- A request is refused exactly if it asks for a span that starts after it ends. No other request
can be refused, wherever the cursor stands. -/
theorem perform_eq_refused_iff {request : Request} {session : Session} {breach : Breach} :
    (session.perform request).1 = .refused breach ↔
      request.span? session.cursor.position = some (breach.start, breach.stop) ∧
      breach.stop < breach.start := by
  cases request with
  | slice start stop =>
    simp only [perform, ofSpan_eq_refused_iff, slice_eq_error_iff, Request.span?,
      Option.some.injEq]
  | sliceFrom start =>
    simp only [perform, ofSpan_eq_refused_iff, sliceFrom, slice_eq_error_iff, Request.span?,
      Option.some.injEq]
  | check start stop =>
    simp only [perform_check_eq_refused_iff, check_eq_error_iff, slice_eq_error_iff,
      Request.span?, Option.some.injEq]
  | _ => simp [perform, Request.span?]

/-- A request makes a copy only if it asks for one. Going back leaves the copy where it is, so one
can go back to it again. -/
theorem perform_saved (session : Session) (request : Request) :
    (session.perform request).2.saved =
      if request = .save then session.cursor else session.saved := by
  cases request with
  | save => rfl
  | check start stop =>
    rw [perform]
    split <;> rfl
  | _ => rfl

/-- Every request is served. There is one clause for each kind of request, and all of them hold in
every state. -/
theorem served_perform (session : Session) (request : Request) :
    session.Served request (session.perform request).1 (session.perform request).2 where
  skipPast := by
    rintro needle rfl
    rcases session.cursor.skipPast_cases needle with found | missing
    · obtain ⟨offset, length, least, isMatch, passed⟩ := found
      refine .inl ⟨offset, length, least, isMatch, ?_⟩
      rw [perform, passed]
      exact ⟨rfl, rfl⟩
    · obtain ⟨nowhere, passed⟩ := missing
      refine .inr ⟨nowhere, ?_⟩
      rw [perform, passed]
      exact ⟨rfl, rfl⟩
  read := by
    rintro rfl
    obtain ⟨value, rest⟩ := session.cursor.read_takes_head
    exact ⟨congrArg Answer.byte value, rest⟩
  moveTo := by
    rintro position rfl
    exact session.cursor.rest_moveTo position
  finish := by
    rintro rfl
    exact List.drop_length
  restore := by
    rintro rfl
    rfl
  stays := session.perform_cursor_of_stays
  saved := session.perform_saved request
  refused_iff _ := perform_eq_refused_iff
  unchanged refused := perform_of_span? (perform_eq_refused_iff.mp refused).1

end Session

end Cursor

open Cursor

namespace Tools.Reliable

open Session

variable {tools : Tools} (reliable : tools.Reliable)
include reliable

/-- A search with reliable tools is the search of this library. The tools come into play here and in
the check of a span. -/
theorem skipPastBy_eq (cursor : Cursor) (needle : Needle) :
    cursor.skipPastBy tools.finders needle = cursor.skipPast needle := by
  rw [skipPastBy, reliable.leftmost.find?_eq]
  rfl

/-- With reliable tools a request is answered as in this library. -/
theorem performWith_eq (session : Session) (request : Request) :
    session.performWith tools request = session.perform request := by
  cases request with
  | skipPast needle =>
    rw [performWith, reliable.skipPastBy_eq]
    rfl
  | check start stop =>
    rw [performWith, reliable.agrees.cursor_checkBy_eq]
    rfl
  | _ => rfl

/-- With reliable tools requests are answered as in this library. What is proved of sessions
therefore holds of those that search and check with the tools given. -/
theorem runWith_eq (requests : List Request) (session : Session) :
    session.runWith tools requests = session.run requests := by
  induction requests generalizing session with
  | nil => rfl
  | cons request requests inductionHypothesis =>
    simp only [runWith, run, reliable.performWith_eq, inductionHypothesis]

/-- With reliable tools, whatever has been asked of a session on a template: every cursor that it
has shown, its cursor and its copy stand in the template, the bytes from the position on are those
not passed yet, and there are none exactly if the cursor is at the end and exactly if there is no
next byte; no offset computed from there leaves the machine words, and adjacent spans join, also
behind the last byte. Whatever is asked next is served in that state: a search moves the cursor to
the end of the leftmost match or to the end, four other requests move it, and what is refused, which
are the spans that start after they end, changes nothing.

Proof: exchange the tools for the searches and the check of this library, request by request. One
request keeps the cursor and the copy in the template, so by induction any requests do, and all the
cursors shown on the way; the other facts hold of every cursor that stands in its template. -/
theorem session_stands_in_template (template : Template) (requests : List Request)
    {log : List (Answer × Cursor)} {session : Session}
    (ran : (Session.start template).runWith tools requests = (log, session)) :
    log.length = requests.length ∧
    (∀ cursor ∈ session.cursor :: session.saved :: log.map (·.2),
      cursor.StandsIn template ∧
      cursor.rest = template.bytes.drop cursor.position ∧
      (cursor.atEnd = true ↔ cursor.rest = []) ∧
      (cursor.rest = [] ↔ cursor.peek? = none) ∧
      (template.length < 2 ^ 63 → cursor.Unstopped) ∧
      ∀ start middle stop, start ≤ middle → middle ≤ stop →
        ∃ left right, cursor.slice start middle = .ok left ∧
          cursor.slice middle stop = .ok right ∧ cursor.slice start stop = .ok (left ++ right)) ∧
    ∀ request answer next, session.performWith tools request = (answer, next) →
      (Session.start template).runWith tools (requests ++ [request]) =
          (log ++ [(answer, next.cursor)], next) ∧
      session.Served request answer next := by
  simp only [reliable.runWith_eq, reliable.performWith_eq] at ran ⊢
  obtain ⟨standsIn, entries⟩ := StandsIn.run requests (.start template)
  have answered := length_run requests (Session.start template)
  have oneMore := fun request => run_append_singleton requests request (Session.start template)
  rw [ran] at standsIn entries answered oneMore
  refine ⟨answered, ?_, ?_⟩
  · intro cursor shown
    have inside : cursor.StandsIn template := by
      rcases List.mem_cons.mp shown with rfl | shown
      · exact standsIn.cursor
      rcases List.mem_cons.mp shown with rfl | shown
      · exact standsIn.saved
      obtain ⟨entry, member, rfl⟩ := List.mem_map.mp shown
      exact entries entry member
    refine ⟨inside, ?_, atEnd_iff_rest_eq_nil, rest_eq_nil_iff_peek?, inside.unstopped,
      fun _ _ _ => cursor.slice_join⟩
    rw [rest, inside.template_eq]
  · intro request answer next performed
    obtain ⟨rfl, rfl⟩ := Prod.ext_iff.mp performed
    exact ⟨oneMore request, session.served_perform request⟩

end Tools.Reliable

/-- A cursor is sent far behind the end of `a{{b`, and a span from there back to the third byte is
refused. Back at the start the cursor passes the opener, and an empty string is then found at
once. -/
theorem Tools.session_stands_in_template_after_refusal :
    let tools : Tools := { finders := .walking, verifier := Utf8.firstIllFormed? }
    let template : Template := .utf8 [0x61, 0x7b, 0x7b, 0x62]
    let opener : Needle := .pair Bytes.openBrace [Bytes.openBrace, Bytes.percent]
    let requests : List Request := [.moveTo (2 ^ 64 - 1), .slice (2 ^ 64 - 1) 3, .restore,
      .skipPast opener]
    let atEnd : Cursor := { template, position := 4 }
    let behind : Cursor := { template, position := 3 }
    let log : List (Answer × Cursor) := [(.done, atEnd),
      (.refused { start := 2 ^ 64 - 1, stop := 3 }, atEnd), (.done, .atStart template),
      (.passed (some 3), behind)]
    let session : Session := { cursor := behind, saved := .atStart template }
    let refused : Answer := .refused { start := 4, stop := 3 }
    tools.Reliable ∧ (Session.start template).runWith tools requests = (log, session) ∧
    session.cursor.StandsIn template ∧ session.cursor.Unstopped ∧
    ((Session.start template).runWith tools (requests ++ [.skipPast (.literal [])]) =
        (log ++ [(.passed (some 0), behind)], session) ∧
      session.Served (.skipPast (.literal [])) (.passed (some 0)) session) ∧
    (Session.start template).runWith tools (requests ++ [.sliceFrom 4]) =
        (log ++ [(refused, behind)], session) ∧
      session.Served (.sliceFrom 4) refused session := by
  intro tools template opener requests atEnd behind log session refused
  have reliable : tools.Reliable := ⟨Finders.leftmost_walking, fun _ => rfl⟩
  have ran : (Session.start template).runWith tools requests = (log, session) := by
    decide +kernel
  obtain ⟨-, cursors, further⟩ := reliable.session_stands_in_template template requests ran
  obtain ⟨inside, -, -, -, unstopped, -⟩ := cursors behind List.mem_cons_self
  refine ⟨reliable, ran, inside, unstopped (by decide), ?_, ?_⟩
  · exact further (.skipPast (.literal [])) (.passed (some 0)) session (by decide +kernel)
  · exact further (.sliceFrom 4) refused session (by decide +kernel)

end TemplateTokens
