/-!
# Records on one line

A value described as text: its name and then, between braces, its fields in order, each as a name
and a value. Optional values, truth values and lists of values have one form each wherever they
occur.

What a field holds is given as text and put in as it is: a caller that shows bytes escapes them
first. The forms are made to be read by people. No part of the library reads one back, and nothing
is claimed about which values could be told apart by their descriptions.
-/

namespace TemplateTokens.Record

/-- A named value with named fields. -/
def text (name : String) (fields : List (String × String)) : String :=
  let written := fields.map fun (field, value) => field ++ ": " ++ value
  name ++ " \x7b " ++ ", ".intercalate written ++ " \x7d"

/-- A value that may be missing. -/
def optional : Option String → String
  | some value => "Some(" ++ value ++ ")"
  | none => "None"

/-- A truth value. -/
def truth (value : Bool) : String := if value then "true" else "false"

/-- A list of values. -/
def list (values : List String) : String := "[" ++ ", ".intercalate values ++ "]"

end TemplateTokens.Record
