import Componentry.Text.Concealed

/-!
# Quoted text

A quoted text stands between double quotes.  In it a double quote and a backslash follow a
backslash; the tab, the line feed, the carriage return and the null have letters of their
own; every other concealed character is written by its number.
-/

namespace Componentry.Text

/-- The digits of a number to the base sixteen, in small letters. -/
def hexDigits (n : Nat) : String := String.ofList (Nat.toDigits 16 n)

/-- The written form of a character inside quotes. -/
def quoteChar (c : Char) : String :=
  match c with
  | '"' => "\\\""
  | '\\' => "\\\\"
  | '\t' => "\\t"
  | '\n' => "\\n"
  | '\r' => "\\r"
  | '\x00' => "\\0"
  | c => if isConcealed c then "\\u\x7b" ++ hexDigits c.toNat ++ "\x7d" else c.toString

/-- The quoted form of a text. -/
def quote (s : String) : String := "\"" ++ String.join (s.toList.map quoteChar) ++ "\""

end Componentry.Text
