/-!
# UTF-8

A character is written as a group of one to four bytes.  The first byte announces the width of the
group and the others are continuation bytes, which carry six bits each.  A group stands for a
character only if it is the shortest group for its number and the number belongs to a character, so
every character has exactly one group.
-/
namespace LazyPeg.Utf8

/-- What stands for bytes that encode no character. -/
def replacement : Char := '\uFFFD'

/-- A byte that continues a group: its two high bits are `10`. -/
def isContinuation (b : UInt8) : Bool := b &&& 0xC0 == 0x80

/-- The width of the group that a first byte announces, if it can be a first byte. -/
def width? (first : UInt8) : Option Nat :=
  if first < 0x80 then some 1
  else if first < 0xC0 then none
  else if first < 0xE0 then some 2
  else if first < 0xF0 then some 3
  else if first < 0xF8 then some 4
  else none

/-- The character with number `n`, unless a shorter group could hold it. -/
def scalar? (least n : Nat) : Option Char :=
  if least ≤ n ∧ n.isValidChar then some (Char.ofNat n) else none

/-- The six bits of a continuation byte. -/
def payload (b : UInt8) : Nat := b.toNat - 0x80

/-- The character that a first byte of width two or more and its continuation bytes encode. -/
def decodeGroup? (first : UInt8) : List UInt8 → Option Char
  | [b] => scalar? 0x80 ((first.toNat - 0xC0) * 64 + payload b)
  | [b, c] => scalar? 0x800 ((first.toNat - 0xE0) * 4096 + payload b * 64 + payload c)
  | [b, c, d] =>
    scalar? 0x10000
      ((first.toNat - 0xF0) * 262144 + payload b * 4096 + payload c * 64 + payload d)
  | _ => none

/-- The bytes of a text. -/
def encode (text : List Char) : List UInt8 := text.flatMap String.utf8EncodeChar

end LazyPeg.Utf8
