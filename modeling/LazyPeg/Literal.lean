/-!
# Literals

A literal is a constant that a description carries and that parsing hands through without looking
inside: what `result` and `constant` produce, and the tag of an observed parser.  Its text is written
without blanks.
-/
namespace LazyPeg

/-- A constant: an atom, or a list or record of constants.  A number is `mantissa · 10 ^ -places`. -/
inductive Literal where
  | null
  | bool (b : Bool)
  | number (mantissa : Int) (places : Nat)
  | text (s : String)
  | list (items : List Literal)
  | record (fields : List (String × Literal))
  deriving Repr, Inhabited

namespace Literal

/-! ## 1. Text -/

/-- Decimal digits with a point before the last `places`, padded so that a digit stands before it. -/
def decimal (mantissa : Int) (places : Nat) : String :=
  let digits := toString mantissa.natAbs
  let digits := String.ofList (List.replicate (places + 1 - digits.length) '0') ++ digits
  let whole := digits.take (digits.length - places)
  let sign := if mantissa < 0 then "-" else ""
  if places = 0 then sign ++ digits
  else sign ++ whole.toString ++ "." ++ (digits.drop (digits.length - places)).toString

/-- A number from 0 to 15 as a hexadecimal digit. -/
def hexDigit (n : Nat) : Char := (Nat.toDigits 16 n).headD '0'

/-- A character inside a quoted literal: the quote mark, the backslash and control characters are
escaped. -/
def escapeChar (c : Char) : List Char :=
  if c = '"' then ['\\', '"']
  else if c = '\\' then ['\\', '\\']
  else if c = '\n' then ['\\', 'n']
  else if c = '\r' then ['\\', 'r']
  else if c = '\t' then ['\\', 't']
  else if c = '\x08' then ['\\', 'b']
  else if c = '\x0c' then ['\\', 'f']
  else if c.toNat < 0x20 then
    ['\\', 'u', '0', '0', hexDigit (c.toNat / 16), hexDigit (c.toNat % 16)]
  else [c]

/-- A quoted text. -/
def quoted (s : String) : String :=
  String.ofList ('"' :: s.toList.flatMap escapeChar ++ ['"'])

mutual

/-- The text of a literal. -/
def render : Literal → String
  | null => "null"
  | bool b => if b then "true" else "false"
  | number mantissa places => decimal mantissa places
  | text s => quoted s
  | list items => "[" ++ ",".intercalate (renderAll items) ++ "]"
  | record fields => "\x7b" ++ ",".intercalate (renderFields fields) ++ "\x7d"

/-- The texts of several literals. -/
def renderAll : List Literal → List String
  | [] => []
  | item :: items => item.render :: renderAll items

/-- The texts of the fields of a record. -/
def renderFields : List (String × Literal) → List String
  | [] => []
  | (key, item) :: fields => (quoted key ++ ":" ++ item.render) :: renderFields fields

end

theorem renderAll_eq (items : List Literal) : renderAll items = items.map render := by
  induction items with
  | nil => rfl
  | cons item items ih => simp [renderAll, ih]

theorem renderFields_eq (fields : List (String × Literal)) :
    renderFields fields = fields.map fun field => quoted field.1 ++ ":" ++ field.2.render := by
  induction fields with
  | nil => rfl
  | cons field fields ih => simp [renderFields, ih]

/-! ## 2. Equality -/

mutual

/-- Whether two literals are the same. -/
def same : Literal → Literal → Bool
  | null, null => true
  | bool b, bool b' => b == b'
  | number m p, number m' p' => m == m' && p == p'
  | text s, text s' => s == s'
  | list xs, list ys => sameAll xs ys
  | record xs, record ys => sameFields xs ys
  | _, _ => false

/-- Whether two lists hold the same literals in the same order. -/
def sameAll : List Literal → List Literal → Bool
  | [], [] => true
  | x :: xs, y :: ys => same x y && sameAll xs ys
  | _, _ => false

/-- Whether two lists hold the same fields in the same order. -/
def sameFields : List (String × Literal) → List (String × Literal) → Bool
  | [], [] => true
  | (k, x) :: xs, (l, y) :: ys => k == l && same x y && sameFields xs ys
  | _, _ => false

end

mutual

theorem same_iff : (k l : Literal) → (same k l = true ↔ k = l)
  | null, l => by cases l <;> simp [same]
  | bool b, l => by cases l <;> simp [same]
  | number m p, l => by cases l <;> simp [same]
  | text s, l => by cases l <;> simp [same]
  | list xs, l => by cases l <;> simp [same, sameAll_iff]
  | record xs, l => by cases l <;> simp [same, sameFields_iff]

theorem sameAll_iff : (xs ys : List Literal) → (sameAll xs ys = true ↔ xs = ys)
  | [], ys => by cases ys <;> simp [sameAll]
  | x :: xs, ys => by cases ys <;> simp [sameAll, same_iff x, sameAll_iff xs]

theorem sameFields_iff : (xs ys : List (String × Literal)) → (sameFields xs ys = true ↔ xs = ys)
  | [], ys => by cases ys <;> simp [sameFields]
  | (k, x) :: xs, ys => by
    rcases ys with _ | ⟨⟨l, y⟩, ys⟩
    · simp [sameFields]
    · simp [sameFields, same_iff x, sameFields_iff xs]

end

instance : DecidableEq Literal := fun k l => decidable_of_iff (same k l = true) (same_iff k l)

end Literal

end LazyPeg
