/-!
# Sets of code points

A property of characters is a set of code points, and a set is held as its runs of consecutive
members.  The tables of this folder write each set as text; `RangeSet.ofCode` reads it back.

**The written form.**  A set is the sequence of its runs in increasing order, and a run is two
numbers: the gap since the end of the run before it, and how many further members follow the
first.  A number is written in base 26 with the letters as digits; its last digit is a capital,
the digits before it are small, so no separator is needed.
-/
namespace LazyPeg.Unicode

/-- A set of code points: runs `(first, last)` with both ends included. -/
structure RangeSet where
  runs : List (Nat × Nat)
  deriving Repr, Inhabited

namespace RangeSet

/-- Some run of the set holds `n`. -/
def contains (s : RangeSet) (n : Nat) : Bool :=
  s.runs.any fun run => run.1 ≤ n && n ≤ run.2

/-- The members of either set. -/
def union (s t : RangeSet) : RangeSet := ⟨s.runs ++ t.runs⟩

/-! ## Reading the written form -/

/-- One letter: a small one extends the number being read, a capital ends it.  The numbers read so
far stand in reverse. -/
def readLetter (state : Nat × List Nat) (c : Char) : Nat × List Nat :=
  if c.isUpper then (0, (state.1 * 26 + (c.toNat - 'A'.toNat)) :: state.2)
  else (state.1 * 26 + (c.toNat - 'a'.toNat), state.2)

/-- The numbers that a text writes. -/
def numbers (code : String) : List Nat :=
  (code.toList.foldl readLetter (0, [])).2.reverse

/-- The runs that gaps and lengths describe, the first gap counted from `start`. -/
def runsFrom (start : Nat) : List Nat → List (Nat × Nat)
  | gap :: further :: rest =>
    (start + gap, start + gap + further) :: runsFrom (start + gap + further + 1) rest
  | _ => []

/-- The set that a text writes. -/
def ofCode (code : String) : RangeSet := ⟨runsFrom 0 (numbers code)⟩

end RangeSet

/-- A family of properties: each with the spellings of its name, folded as `Unicode.foldName` folds
them, and its members in written form. -/
abbrev PropertyTable := List (List String × String)

/-- The set of the property that goes by a folded name, if the family has one. -/
def PropertyTable.find? (table : PropertyTable) (name : String) : Option RangeSet :=
  (List.find? (fun entry => entry.1.contains name) table).map fun entry => RangeSet.ofCode entry.2

end LazyPeg.Unicode
