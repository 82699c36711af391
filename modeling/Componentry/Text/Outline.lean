import Componentry.Text.Quoted

/-!
# Outlines

The one-line written form of structured values: constructors with their arguments, records
with named fields, lists, sets and maps.  The parts of an outline are outlines already.
-/

namespace Componentry.Text.Outline

/-- Parts separated by a comma and a space. -/
def commas (parts : List String) : String := ", ".intercalate parts

/-- A truth value. -/
def bool (b : Bool) : String := if b then "true" else "false"

/-- A constructor with unnamed arguments. -/
def apply (head : String) (arguments : List String) : String :=
  head ++ "(" ++ commas arguments ++ ")"

/-- A record with named fields. -/
def record (head : String) (fields : List (String × String)) : String :=
  head ++ " \x7b " ++ commas (fields.map fun f => f.1 ++ ": " ++ f.2) ++ " \x7d"

/-- A list. -/
def list (items : List String) : String := "[" ++ commas items ++ "]"

/-- A set. -/
def set (items : List String) : String := "\x7b" ++ commas items ++ "\x7d"

/-- A map, from keys to values. -/
def map (entries : List (String × String)) : String :=
  set (entries.map fun e => e.1 ++ ": " ++ e.2)

/-- A list of texts. -/
def texts (items : List String) : String := list (items.map quote)

end Componentry.Text.Outline
