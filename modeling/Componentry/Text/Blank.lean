/-!
# Blank characters

The blank characters are those with the White_Space property of the Unicode character
database; `trim` drops them from both ends of a text.
-/

namespace Componentry.Text

/-- The code points of blank characters, as ranges with both ends included. -/
def blankRanges : List (Nat × Nat) :=
  [(0x9, 0xD), (0x20, 0x20), (0x85, 0x85), (0xA0, 0xA0), (0x1680, 0x1680), (0x2000, 0x200A),
    (0x2028, 0x2029), (0x202F, 0x202F), (0x205F, 0x205F), (0x3000, 0x3000)]

/-- Tells whether a character is blank. -/
def isBlank (c : Char) : Bool :=
  blankRanges.any fun r => r.1 ≤ c.toNat && c.toNat ≤ r.2

/-- A text without the blank characters at its ends. -/
def trim (s : String) : String :=
  let cs := s.toList.dropWhile isBlank
  String.ofList (cs.reverse.dropWhile isBlank).reverse

end Componentry.Text
