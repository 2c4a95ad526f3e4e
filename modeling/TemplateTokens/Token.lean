import TemplateTokens.Text.Utf8
import TemplateTokens.Text.Escaped

/-!
# Tokens

A token is a byte string handed to the parser, which tells tags, outputs and text apart by the first
two bytes alone. A token has three views as text: its exact text, which exists only for
well-formed UTF-8; a text fit to be shown, in which ill-formed subparts are replaced; and its bytes
written out with escapes.

The kind is not stored but read off the bytes whenever it is asked for, and where in a template a
token was cut is not part of it. Two tokens with the same bytes are therefore the same token. No
view changes the bytes, and none of them can fail but the exact text.
-/

namespace TemplateTokens

/-- A token of a template. -/
structure Token where
  /-- The bytes of the token. -/
  bytes : Bytes
deriving DecidableEq

namespace Token

/-- What a token is to the parser. -/
inductive Kind where
  /-- Text to be written out as it stands. -/
  | literal
  /-- A tag. -/
  | tag
  /-- An output: a variable whose value takes its place. -/
  | output
deriving DecidableEq, Repr

/-- The name of a kind. -/
def Kind.name : Kind → String
  | literal => "literal"
  | tag => "tag"
  | output => "variable"

/-- The kind of a byte string, by its first two bytes. -/
def Kind.of (bytes : Bytes) : Kind :=
  if Bytes.outputOpener.isPrefixOf bytes then output
  else if Bytes.tagOpener.isPrefixOf bytes then tag
  else literal

/-- The kind of a token. -/
def kind (token : Token) : Kind := .of token.bytes

/-- The text of a token, if its bytes are well-formed UTF-8. -/
def text? (token : Token) : Option String := Utf8.text? token.bytes

/-- The text of a token with a replacement character for each ill-formed subpart. -/
def shown (token : Token) : String := Utf8.lossyText token.bytes

/-- The number of bytes. -/
def length (token : Token) : Nat := token.bytes.length

/-- Whether the token has no bytes. -/
def isEmpty (token : Token) : Bool := token.bytes.isEmpty

/-- The number of line ends in the token. -/
def newlineCount (token : Token) : Nat := token.bytes.newlineCount

/-- Whether the token consists of exactly the bytes of a text. -/
def isText (token : Token) (text : String) : Bool := token.bytes == Utf8.ofText text

/-- The token with its bytes escaped. -/
def description (token : Token) : String := "Token(" ++ Escaped.quoted token.bytes ++ ")"

end Token

end TemplateTokens
