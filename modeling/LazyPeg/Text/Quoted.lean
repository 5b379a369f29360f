import LazyPeg.Unicode.Hidden

/-!
# Quoted characters and strings

Names and messages show a character between single quotes and a string between double quotes.  What
could be misread is escaped, so the quoted form stays on one line and shows every character:

- the quote mark in use and the backslash stand behind a backslash;
- NUL, tab, line feed and carriage return have the short forms `\0`, `\t`, `\n` and `\r`;
- any other character without a visible form of its own is written `\u` with its number in
  hexadecimal between braces.
-/
namespace LazyPeg.Text

/-- The character has a visible form of its own.  Printable ASCII always has. -/
def isVisible (c : Char) : Bool :=
  if c.toNat < 0x7F then 0x20 ≤ c.toNat
  else !Unicode.hidden.contains c.toNat

/-- The number of a character as an escape. -/
def numberEscape (c : Char) : List Char :=
  '\\' :: 'u' :: '\x7b' :: Nat.toDigits 16 c.toNat ++ ['\x7d']

/-- How a character is written between two quote marks `mark`. -/
def escape (mark c : Char) : List Char :=
  if c = '\x00' then ['\\', '0']
  else if c = '\t' then ['\\', 't']
  else if c = '\r' then ['\\', 'r']
  else if c = '\n' then ['\\', 'n']
  else if c = '\\' ∨ c = mark then ['\\', c]
  else if isVisible c then [c]
  else numberEscape c

/-- A character between single quotes. -/
def quoteChar (c : Char) : String :=
  String.ofList ('\'' :: escape '\'' c ++ ['\''])

/-- A string between double quotes. -/
def quoteString (s : String) : String :=
  String.ofList ('"' :: s.toList.flatMap (escape '"') ++ ['"'])

/-- Items between brackets, with a comma and a blank between two of them. -/
def bracketed (items : List String) : String :=
  "[" ++ ", ".intercalate items ++ "]"

end LazyPeg.Text
