/-!
# JSON tokens

The words of a JSON text: punctuation, the three literals, numerals and strings.  `tokenize`
splits a text into its tokens, and fails where no token begins.  A string that holds half of
a surrogate pair is a token, but it names no text.
-/

namespace Componentry.Json

/-- A word of a JSON text. -/
inductive Token where
  /-- The literal `null`. -/
  | null
  /-- The literals `true` and `false`. -/
  | bool (b : Bool)
  /-- A numeral of digits only. -/
  | natural (n : Nat)
  /-- A numeral with a sign, a fraction or an exponent. -/
  | decimal
  /-- A string, with its text if it names one. -/
  | string (text : Option String)
  /-- An opening bracket. -/
  | openArray
  /-- A closing bracket. -/
  | closeArray
  /-- An opening brace. -/
  | openObject
  /-- A closing brace. -/
  | closeObject
  /-- A comma. -/
  | comma
  /-- A colon. -/
  | colon
deriving DecidableEq, Repr

/-- The characters that may stand between tokens. -/
def isSpace (c : Char) : Bool := c == ' ' || c == '\t' || c == '\n' || c == '\r'

/-- The number that decimal digits spell. -/
def naturalOfDigits (ds : List Char) : Nat :=
  ds.foldl (fun n d => 10 * n + (d.toNat - '0'.toNat)) 0

/-- The value of a digit to the base sixteen, in small or capital letters. -/
def hexValue? (c : Char) : Option Nat :=
  if c.isDigit then some (c.toNat - '0'.toNat)
  else if 'a' ≤ c ∧ c ≤ 'f' then some (c.toNat - 'a'.toNat + 10)
  else if 'A' ≤ c ∧ c ≤ 'F' then some (c.toNat - 'A'.toNat + 10)
  else none

/-- The number that four digits to the base sixteen spell. -/
def hexUnit? (a b c d : Char) : Option Nat := do
  let a ← hexValue? a
  let b ← hexValue? b
  let c ← hexValue? c
  let d ← hexValue? d
  return ((a * 16 + b) * 16 + c) * 16 + d

/-- A part of a string: a character, or a unit of sixteen bits that was written by its
number. -/
inductive Piece where
  /-- A character that stands for itself. -/
  | char (c : Char)
  /-- A unit of sixteen bits. -/
  | unit (u : Nat)

/-- The character that follows a backslash, if it has a letter of its own. -/
def escaped? : Char → Option Char
  | '"' => some '"'
  | '\\' => some '\\'
  | '/' => some '/'
  | 'b' => some '\x08'
  | 'f' => some '\x0c'
  | 'n' => some '\n'
  | 'r' => some '\r'
  | 't' => some '\t'
  | _ => none

/-- The pieces of a string up to its closing quote, and what stands behind it. -/
def pieces? : List Char → Option (List Piece × List Char)
  | '"' :: rest => some ([], rest)
  | '\\' :: 'u' :: a :: b :: c :: d :: rest => do
    let u ← hexUnit? a b c d
    let (ps, rest) ← pieces? rest
    return (.unit u :: ps, rest)
  | '\\' :: e :: rest => do
    let c ← escaped? e
    let (ps, rest) ← pieces? rest
    return (.char c :: ps, rest)
  | c :: rest => do
    if c.toNat < 0x20 || c == '\\' then none
    let (ps, rest) ← pieces? rest
    return (.char c :: ps, rest)
  | [] => none

/-- The text that pieces name: two units that form a surrogate pair are one character, and
half of a pair names nothing. -/
def textOfPieces : List Piece → Option (List Char)
  | [] => some []
  | .char c :: ps => (textOfPieces ps).map (c :: ·)
  | .unit u :: .unit v :: ps =>
    if 0xD800 ≤ u ∧ u < 0xDC00 then
      if 0xDC00 ≤ v ∧ v < 0xE000 then
        (textOfPieces ps).map (Char.ofNat (0x10000 + (u - 0xD800) * 0x400 + (v - 0xDC00)) :: ·)
      else none
    else if 0xDC00 ≤ u ∧ u < 0xE000 then none
    else (textOfPieces (.unit v :: ps)).map (Char.ofNat u :: ·)
  | .unit u :: ps =>
    if 0xD800 ≤ u ∧ u < 0xE000 then none
    else (textOfPieces ps).map (Char.ofNat u :: ·)

/-- The characters behind a run of one or more digits. -/
def skipDigits? (cs : List Char) : Option (List Char) :=
  match cs with
  | d :: rest => if d.isDigit then some (rest.dropWhile Char.isDigit) else none
  | [] => none

/-- The characters behind the fraction of a numeral, and whether there is one. -/
def skipFraction? : List Char → Option (Bool × List Char)
  | '.' :: rest => (skipDigits? rest).map (true, ·)
  | cs => some (false, cs)

/-- The characters behind the exponent of a numeral, and whether there is one. -/
def skipExponent? : List Char → Option (Bool × List Char)
  | e :: rest =>
    if e == 'e' || e == 'E' then
      match rest with
      | s :: digits =>
        (skipDigits? (if s == '+' || s == '-' then digits else rest)).map (true, ·)
      | [] => none
    else some (false, e :: rest)
  | [] => some (false, [])

/-- The numeral at the head of a text: digits without a leading zero, then a fraction and an
exponent. -/
def numeral? (negative : Bool) (cs : List Char) : Option (Token × List Char) := do
  let digits := cs.takeWhile Char.isDigit
  if digits.isEmpty || (digits.length > 1 && digits.head? == some '0') then none
  let (fraction, rest) ← skipFraction? (cs.dropWhile Char.isDigit)
  let (exponent, rest) ← skipExponent? rest
  let token :=
    if negative || fraction || exponent then .decimal else .natural (naturalOfDigits digits)
  return (token, rest)

/-- The token at the head of a text that does not begin with a space. -/
def token? : List Char → Option (Token × List Char)
  | '[' :: rest => some (.openArray, rest)
  | ']' :: rest => some (.closeArray, rest)
  | '\x7b' :: rest => some (.openObject, rest)
  | '\x7d' :: rest => some (.closeObject, rest)
  | ',' :: rest => some (.comma, rest)
  | ':' :: rest => some (.colon, rest)
  | 'n' :: 'u' :: 'l' :: 'l' :: rest => some (.null, rest)
  | 't' :: 'r' :: 'u' :: 'e' :: rest => some (.bool true, rest)
  | 'f' :: 'a' :: 'l' :: 's' :: 'e' :: rest => some (.bool false, rest)
  | '"' :: rest =>
    (pieces? rest).map fun p => (.string ((textOfPieces p.1).map String.ofList), p.2)
  | '-' :: rest => numeral? true rest
  | cs => numeral? false cs

/-- The tokens of a text of at most `bound` characters. -/
def tokensWithin : Nat → List Char → Option (List Token)
  | _, [] => some []
  | 0, _ :: _ => none
  | bound + 1, c :: cs =>
    if isSpace c then tokensWithin bound cs
    else do
      let (t, rest) ← token? (c :: cs)
      let ts ← tokensWithin bound rest
      return t :: ts

/-- The tokens of a text.  Every token has a character at least, so the length of the text
bounds their number. -/
def tokenize (s : String) : Option (List Token) := tokensWithin s.length s.toList

end Componentry.Json
