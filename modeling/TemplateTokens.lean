import TemplateTokens.Cursor.Session
import TemplateTokens.Cursor.Tools
import TemplateTokens.Encoding.Verifier
import TemplateTokens.Encoding.WordRuns
import TemplateTokens.TokenStream.Session
import TemplateTokens.Proofs.Lookahead
import TemplateTokens.Proofs.Search
import TemplateTokens.Proofs.Output
import TemplateTokens.Proofs.Carving
import TemplateTokens.Proofs.Validation
import TemplateTokens.Proofs.Conservation
import TemplateTokens.Proofs.Trace
import TemplateTokens.Proofs.Grammar
import TemplateTokens.Proofs.Composition
import TemplateTokens.Proofs.Consumption
import TemplateTokens.Proofs.StreamSessions
import TemplateTokens.Proofs.LineNumbers
import TemplateTokens.Proofs.Boundaries
import TemplateTokens.Proofs.TextTokens
import TemplateTokens.Guarded.Search
import TemplateTokens.Guarded.Cursor
import TemplateTokens.Guarded.Machine
import TemplateTokens.Proofs.Guarded.Search
import TemplateTokens.Proofs.Guarded.Cursor
import TemplateTokens.Proofs.Guarded.Turns
import TemplateTokens.Proofs.Guarded.Bounds
import TemplateTokens.Proofs.Guarded.Runs
import TemplateTokens.Proofs.Encodings
import TemplateTokens.Proofs.Fallbacks
import TemplateTokens.Proofs.RawBlocks
import TemplateTokens.Proofs.Waypoints
import TemplateTokens.Proofs.FirstText
import TemplateTokens.Proofs.RawExtent
import TemplateTokens.Proofs.UnclosedTags
import TemplateTokens.Proofs.MarkerFreeText
import TemplateTokens.Output.Automaton
import TemplateTokens.Proofs.Automaton
import TemplateTokens.Proofs.BlankLines
import TemplateTokens.Proofs.Utf8.Decoded
import TemplateTokens.Proofs.Utf8.Characters
import TemplateTokens.Proofs.Utf8.Malformed
import TemplateTokens.Proofs.Utf8.Repair
import TemplateTokens.Proofs.TokenTexts
import TemplateTokens.Proofs.WordCharacters
import TemplateTokens.Proofs.WordRuns
import TemplateTokens.Proofs.WordStarts
import TemplateTokens.Proofs.Soundness
import TemplateTokens.Proofs.CursorSessions
import TemplateTokens.Needle.Finders
import TemplateTokens.Proofs.Keywords
import TemplateTokens.Proofs.Leftmost
import TemplateTokens.Guarded.Loops
import TemplateTokens.Proofs.Guarded.Advances
import TemplateTokens.Proofs.Guarded.Progress
import TemplateTokens.Proofs.Termination
