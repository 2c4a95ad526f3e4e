import TemplateTokens.LineNumber
import TemplateTokens.Text.Record

/-!
# Settings

What a caller may choose before a template is cut into tokens: whether lines are counted, where the
count begins, and whether the source is the body of a `liquid` tag, which is cut at line ends and
not at markers.

The choices do not depend on each other or on the template, and every combination of them is
allowed. A start that is chosen is used even if no count was asked for. Without either there is no
line number at all, which is told apart from a count that begins at some line.
-/

namespace TemplateTokens

/-- The choices of a caller. -/
structure Settings where
  /-- Whether lines are counted from the first. -/
  countLines : Bool := false
  /-- The line at which to begin counting, which also turns counting on. -/
  startLine? : Option LineNumber := none
  /-- Whether the source is the body of a `liquid` tag. -/
  forLiquidTag : Bool := false
deriving DecidableEq

namespace Settings

/-- Sets whether lines are counted from the first. -/
def countingLines (settings : Settings) (countLines : Bool) : Settings :=
  { settings with countLines }

/-- Sets the line at which to begin counting. -/
def startingAt (settings : Settings) (line : LineNumber) : Settings :=
  { settings with startLine? := some line }

/-- Sets whether the source is the body of a `liquid` tag. -/
def inLiquidTag (settings : Settings) (forLiquidTag : Bool) : Settings :=
  { settings with forLiquidTag }

/-- The line of the first token, or nothing if lines are not counted. A chosen start wins over the
plain wish to count. -/
def initialLine? (settings : Settings) : Option LineNumber :=
  settings.startLine?.or (if settings.countLines then some 1 else none)

/-- The settings on one line. -/
def description (settings : Settings) : String :=
  Record.text "TokenizerOptions"
    [("line_numbers", Record.truth settings.countLines),
      ("line_number", Record.optional (settings.startLine?.map toString)),
      ("for_liquid_tag", Record.truth settings.forLiquidTag)]

end Settings

end TemplateTokens
