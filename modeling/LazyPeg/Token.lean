import LazyPeg.Text.Quoted

/-!
# Tokens

The parsers of this library are generic in what they read.  `Token` collects what they need of a kind
of token besides equality: how it is shown, how it is ordered, what text and what number it stands
for, and whether tokens of this kind are characters, which decides if positions have lines.
-/
namespace LazyPeg

/-- A kind of token. -/
class Token (α : Type) where
  /-- How a token is shown in names and messages. -/
  quoted : α → String
  /-- The order that bounds on tokens refer to. -/
  precedes : α → α → Bool
  /-- The text that a token adds where tokens are joined to one text. -/
  text : α → String
  /-- The number that a token adds where tokens are summed. -/
  number : α → Int
  /-- How to read tokens as characters, for the kinds that are characters. -/
  chars? : Option (α → Char)

/-- The value of an ASCII digit; every other character counts as zero. -/
def Char.digitValue (c : Char) : Nat :=
  if c.isDigit then c.toNat - '0'.toNat else 0

/-- The digits of a decimal number, if there are any and nothing else. -/
def readDigits? (digits : List Char) : Option Nat :=
  if digits ≠ [] ∧ digits.all Char.isDigit then
    some (digits.foldl (fun n c => n * 10 + Char.digitValue c) 0)
  else none

/-- A signed 64-bit number in decimal, the sign optional. -/
def readInt64? (s : String) : Option Int :=
  let inRange (n : Int) : Option Int := if -0x8000000000000000 ≤ n ∧ n < 0x8000000000000000 then some n else none
  match s.toList with
  | '-' :: digits => (readDigits? digits).bind fun n => inRange (-n)
  | '+' :: digits => (readDigits? digits).bind fun n => inRange n
  | digits => (readDigits? digits).bind fun n => inRange n

/-- Characters are ordered by code point and stand for themselves; a digit counts as its value. -/
instance : Token Char where
  quoted := Text.quoteChar
  precedes c d := c < d
  text := Char.toString
  number c := Char.digitValue c
  chars? := some id

/-- Integers count as themselves. -/
instance : Token Int where
  quoted := toString
  precedes m n := m < n
  text := toString
  number := id
  chars? := none

/-- Words are ordered like their UTF-8 encodings, which is by code points; one that writes a number
counts as that number, any other as zero. -/
instance : Token String where
  quoted := Text.quoteString
  precedes s t := s < t
  text := id
  number s := (readInt64? s).getD 0
  chars? := none

end LazyPeg
