import Componentry.Text.Quoted

/-!
# JSON text

The shortest written form of JSON strings, lists and objects: no space between the parts, and
no character written by its number unless it is a control without a letter of its own.
-/

namespace Componentry.Json

/-- The written form of a character inside a string. -/
def escape (c : Char) : String :=
  match c with
  | '"' => "\\\""
  | '\\' => "\\\\"
  | '\x08' => "\\b"
  | '\x0c' => "\\f"
  | '\n' => "\\n"
  | '\r' => "\\r"
  | '\t' => "\\t"
  | c =>
    if c.toNat < 0x10 then "\\u000" ++ Text.hexDigits c.toNat
    else if c.toNat < 0x20 then "\\u00" ++ Text.hexDigits c.toNat
    else c.toString

/-- The written form of a string. -/
def writeString (s : String) : String := "\"" ++ String.join (s.toList.map escape) ++ "\""

/-- The written form of an array of written values. -/
def writeArray (items : List String) : String := "[" ++ ",".intercalate items ++ "]"

/-- The written form of an object with written values. -/
def writeObject (members : List (String × String)) : String :=
  "\x7b" ++ ",".intercalate (members.map fun m => writeString m.1 ++ ":" ++ m.2) ++ "\x7d"

end Componentry.Json
