import TemplateTokens.TokenStream
import TemplateTokens.Proofs.Carving

/-!
# The trace of a scan

The trace is the part of the log that tells of fallbacks. It follows from the pieces one by one, so
it is empty exactly if every piece has a closer or needs none, and the trace of pieces put together
is the trace of the one part and then that of the other, moved behind the first.

Entries are about fallbacks and about nothing else once the first and the last entry of a log are
taken away. A piece is known here by its cause only; which bytes lead to which cause is not asked.
The mode of a `liquid` tag has no pieces and an empty trace.
-/

namespace TemplateTokens

namespace LogEntry

/-- Whether an entry tells of a fallback. -/
def isFallback : LogEntry → Bool
  | fellBack _ _ => true
  | _ => false

/-- An entry as it reads when the bytes it is about begin `distance` bytes later. -/
def moved (distance : Nat) : LogEntry → LogEntry
  | fellBack fallback start => fellBack fallback (distance + start)
  | entry => entry

/-- Pieces cause no entries but for fallbacks. -/
theorem isFallback_of_mem_ofPieces {start : Nat} {pieces : List Piece} {entry : LogEntry}
    (member : entry ∈ ofPieces start pieces) : entry.isFallback = true := by
  induction pieces generalizing start with
  | nil => exact absurd member List.not_mem_nil
  | cons piece pieces inductionHypothesis =>
    rcases List.mem_append.mp member with own | later
    · obtain ⟨fallback, -, rfl⟩ := List.mem_map.mp own
      rfl
    · exact inductionHypothesis later

/-- Pieces cause no entries exactly if none of them fell back. The offset from which they are told
makes no difference to that. -/
theorem ofPieces_eq_nil_iff {start : Nat} {pieces : List Piece} :
    ofPieces start pieces = [] ↔ ∀ piece ∈ pieces, piece.cause.fallbacks = [] := by
  induction pieces generalizing start with
  | nil => simp [ofPieces]
  | cons piece pieces inductionHypothesis =>
    rw [ofPieces, List.append_eq_nil_iff, List.map_eq_nil_iff, inductionHypothesis,
      List.forall_mem_cons]

/-- The entries about pieces in two parts are those about the first part and, moved behind it, those
about the second. -/
theorem ofPieces_append (start : Nat) (front back : List Piece) :
    ofPieces start (front ++ back) =
      ofPieces start front ++ ofPieces (start + Piece.extent front) back := by
  induction front generalizing start with
  | nil => rfl
  | cons piece front inductionHypothesis =>
    have extent : Piece.extent (piece :: front) = piece.region.length + Piece.extent front := by
      rw [Piece.extent, List.flatMap_cons, List.length_append, Piece.extent]
    rw [List.cons_append, ofPieces, ofPieces, inductionHypothesis, extent, List.append_assoc,
      Nat.add_assoc]

end LogEntry

/-- The entries of the log that tell of fallbacks. -/
def Report.trace (report : Report) : List LogEntry := report.log.filter LogEntry.isFallback

/-- The trace of a template cut at its markers follows from its pieces. The pieces are those of the
scan with its check, so a run that fails has the entries in front of the first text. -/
theorem TokenStream.trace_report {settings : Settings} (template : Template)
    (markup : settings.forLiquidTag = false) :
    (report settings template).trace = LogEntry.ofPieces 0 (Scan.ofTemplate template).pieces := by
  have kept : (LogEntry.ofPieces 0 (Scan.ofTemplate template).pieces).filter LogEntry.isFallback =
      LogEntry.ofPieces 0 (Scan.ofTemplate template).pieces :=
    List.filter_eq_self.mpr fun entry => LogEntry.isFallback_of_mem_ofPieces
  simp only [report, markup, Bool.false_eq_true, if_false]
  cases (Scan.ofTemplate template).invalid? with
  | none => simp [Report.trace, LogEntry.isFallback, kept]
  | some invalid => simp [Report.trace, LogEntry.isFallback, kept]

end TemplateTokens
