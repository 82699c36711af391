import Componentry.Catalog
import Componentry.Settings
import Componentry.Text.Blank
import Componentry.Text.Capital

/-!
# Settings from the environment

Every setting can be given by an environment variable, whose name is that of the setting in
capitals, behind a heading and an underscore.  A variable that is absent, or whose bytes are
no text, leaves the default; a text that is no proper value is refused.
-/

namespace Componentry

/-- The value of an environment variable. -/
inductive Variable where
  /-- A text. -/
  | text (s : String)
  /-- Bytes, which need not be a text. -/
  | bytes (b : ByteArray)

/-- The text of a variable, if its bytes are one. -/
def Variable.text? : Variable → Option String
  | text s => some s
  | bytes b => String.fromUTF8? b

/-- The variables of an environment, by name. -/
abbrev Environment := Catalog Variable

namespace Settings

/-- The heading of the variables that are read unless another one is asked for. -/
def defaultHeading : String := "FERROUS_LIFECYCLE"

/-- The text of the variable for a setting. -/
def textOf? (env : Environment) (heading key : String) : Option String :=
  (env.get? (Text.capitalize heading ++ "_" ++ key)).bind Variable.text?

/-- The error about a text that is no value of a setting. -/
def invalid (key value : String) : Error :=
  .internal ("invalid value '" ++ value ++ "' for configuration key " ++ key)

/-- The truth value that a word spells, in letters of any case. -/
def readFlag? (value : String) : Option Bool :=
  let word := (Text.trim value).map Char.toLower
  if word ∈ ["1", "true", "yes", "on"] then some true
  else if word ∈ ["0", "false", "no", "off"] then some false
  else none

/-- The number that decimal digits spell, behind an optional plus sign. -/
def readNumber? (value : String) : Option Nat :=
  let cs := (Text.trim value).toList
  let digits := match cs with
    | '+' :: rest => rest
    | cs => cs
  if digits.isEmpty || digits.any (fun c => !c.isDigit) then none
  else
    let n := Json.naturalOfDigits digits
    if n < numberLimit then some n else none

/-- The pieces of a list between the places where `p` holds. -/
def splitList (p : Char → Bool) : List Char → List (List Char)
  | [] => [[]]
  | c :: cs =>
    if p c then [] :: splitList p cs
    else
      match splitList p cs with
      | piece :: pieces => (c :: piece) :: pieces
      | [] => [[c]]

/-- The names in a list with commas, without the empty ones. -/
def readNames (value : String) : List Name :=
  ((splitList (· == ',') value.toList).map fun cs => Text.trim (String.ofList cs)).filter
    fun n => !n.isEmpty

/-- Reads a value for a key, or refuses it. -/
def readWith {α : Type} (read? : String → Option α) (key value : String) : Except Error α :=
  match read? value with
  | some a => .ok a
  | none => .error (invalid key value)

/-- The settings that the variables under a heading ask for. -/
def ofEnvironment (env : Environment) (heading : String) : Except Error Settings := do
  let mut s := default
  if let some v := textOf? env heading "ALLOW_CIRCULAR_REFERENCES" then
    s := { s with
      allowCircularReferences := ← readWith readFlag? "ALLOW_CIRCULAR_REFERENCES" v }
  if let some v := textOf? env heading "MAX_CREATION_DEPTH" then
    s := { s with maxCreationDepth := ← readWith readNumber? "MAX_CREATION_DEPTH" v }
  if let some v := textOf? env heading "EXEMPT_NAMES" then
    s := { s with exemptNames := readNames v }
  if let some v := textOf? env heading "PREINSTANTIATE" then
    s := { s with preinstantiate := ← readWith readFlag? "PREINSTANTIATE" v }
  return s

/-- Where settings come from, before they are changed one by one. -/
inductive Source where
  /-- The default. -/
  | default
  /-- The variables of an environment under a heading. -/
  | environment (env : Environment) (heading : String)
  /-- A document. -/
  | document (text : String)

/-- The settings from a source. -/
def Source.read : Source → Except Error Settings
  | default => .ok Settings.default
  | environment env heading => ofEnvironment env heading
  | document text => ofDocument text

/-- The settings from a source after some changes. -/
def assemble (source : Source) (changes : List Change) : Except Error Settings :=
  source.read.map fun s => changes.foldl change s

end Settings

end Componentry
