import Componentry.Json.Token

/-!
# JSON values

`Value.parse?` reads a text that holds one value and nothing behind it.  It works through
the tokens from left to right, with the arrays and objects that are still open on a stack,
so that values may be nested to any depth.  The members of an object keep their order, and
a key may occur twice.
-/

namespace Componentry.Json

/-- A JSON value. -/
inductive Value where
  /-- The literal `null`. -/
  | null
  /-- A truth value. -/
  | bool (b : Bool)
  /-- A number written with digits only. -/
  | natural (n : Nat)
  /-- Any other number. -/
  | decimal
  /-- A string, with its text if it names one. -/
  | string (text : Option String)
  /-- An array. -/
  | array (items : List Value)
  /-- An object. -/
  | object (members : List (Option String × Value))

/-- An array or an object that is not closed yet, its parts in reverse order. -/
inductive Open where
  /-- An array with its items so far. -/
  | array (items : List Value)
  /-- An object with its members so far, waiting for the next key. -/
  | object (members : List (Option String × Value))
  /-- An object with its members so far, waiting for the value of a key. -/
  | member (members : List (Option String × Value)) (key : Option String)

/-- What may come next in a text. -/
inductive Expectation where
  /-- A value. -/
  | value
  /-- A value, or the end of the array that was just opened. -/
  | valueOrClose
  /-- A key. -/
  | key
  /-- A key, or the end of the object that was just opened. -/
  | keyOrClose
  /-- A colon. -/
  | colon
  /-- A comma, or the end of the innermost array or object. -/
  | commaOrClose
  /-- The end of the text, which held this value. -/
  | ended (v : Value)

/-- A text that was read in part. -/
structure Reading where
  /-- What is open, the innermost in front. -/
  stack : List Open
  /-- What may come next. -/
  next : Expectation

namespace Reading

/-- Hands a complete value to what is open around it. -/
def deliver (v : Value) : List Open → Option Reading
  | [] => some ⟨[], .ended v⟩
  | .array items :: stack => some ⟨.array (v :: items) :: stack, .commaOrClose⟩
  | .member members key :: stack => some ⟨.object ((key, v) :: members) :: stack, .commaOrClose⟩
  | .object _ :: _ => none

/-- Begins a value with a token. -/
def begin (stack : List Open) : Token → Option Reading
  | .null => deliver .null stack
  | .bool b => deliver (.bool b) stack
  | .natural n => deliver (.natural n) stack
  | .decimal => deliver .decimal stack
  | .string text => deliver (.string text) stack
  | .openArray => some ⟨.array [] :: stack, .valueOrClose⟩
  | .openObject => some ⟨.object [] :: stack, .keyOrClose⟩
  | _ => none

/-- Reads a key of the innermost object. -/
def readKey (stack : List Open) (text : Option String) : Option Reading :=
  match stack with
  | .object members :: stack => some ⟨.member members text :: stack, .colon⟩
  | _ => none

/-- Closes the innermost array or object with a token. -/
def close (stack : List Open) (t : Token) : Option Reading :=
  match t, stack with
  | .closeArray, .array items :: stack => deliver (.array items.reverse) stack
  | .closeObject, .object members :: stack => deliver (.object members.reverse) stack
  | _, _ => none

/-- Reads one more token. -/
def step (r : Reading) (t : Token) : Option Reading :=
  match r.next, t with
  | .value, t => begin r.stack t
  | .valueOrClose, .closeArray => close r.stack .closeArray
  | .valueOrClose, t => begin r.stack t
  | .key, .string text => readKey r.stack text
  | .keyOrClose, .string text => readKey r.stack text
  | .keyOrClose, .closeObject => close r.stack .closeObject
  | .colon, .colon => some ⟨r.stack, .value⟩
  | .commaOrClose, .comma =>
    match r.stack with
    | .array _ :: _ => some ⟨r.stack, .value⟩
    | .object _ :: _ => some ⟨r.stack, .key⟩
    | _ => none
  | .commaOrClose, t => close r.stack t
  | _, _ => none

end Reading

/-- The value that a list of tokens spells. -/
def Value.ofTokens? (ts : List Token) : Option Value := do
  let r ← ts.foldlM Reading.step ⟨[], .value⟩
  match r.next with
  | .ended v => some v
  | _ => none

/-- The value that a text spells. -/
def Value.parse? (s : String) : Option Value := (tokenize s).bind Value.ofTokens?

end Componentry.Json
