import LazyPeg.Unicode.CaseFolding
import LazyPeg.Pattern.Syntax

/-!
# Sets of characters

What a class stands for is a set of characters, kept as the expression that the class writes: ranges,
unions, differences, complements, and closures under change of case.
-/
namespace LazyPeg.Pattern

/-- A set of characters. -/
inductive CharSet where
  /-- The characters of some ranges. -/
  | ranges (runs : Unicode.RangeSet)
  | union (s t : CharSet)
  | intersection (s t : CharSet)
  | difference (s t : CharSet)
  | symmetricDifference (s t : CharSet)
  | complement (s : CharSet)
  /-- The characters that differ from a member only in case. -/
  | anyCase (s : CharSet)
  /-- The characters that differ from a member only in the case of an ASCII letter. -/
  | anyAsciiCase (s : CharSet)
  deriving Inhabited

namespace CharSet

/-- The other case of an ASCII letter; every other code point is left alone. -/
def swapAsciiCase (n : Nat) : Nat :=
  if 'a'.toNat ≤ n ∧ n ≤ 'z'.toNat then n - 32
  else if 'A'.toNat ≤ n ∧ n ≤ 'Z'.toNat then n + 32
  else n

/-- Whether a code point is in a set. -/
def contains : CharSet → Nat → Bool
  | ranges runs, n => runs.contains n
  | union s t, n => s.contains n || t.contains n
  | intersection s t, n => s.contains n && t.contains n
  | difference s t, n => s.contains n && !t.contains n
  | symmetricDifference s t, n => s.contains n != t.contains n
  | complement s, n => !s.contains n
  | anyCase s, n => (Unicode.caseVariants n).any s.contains
  | anyAsciiCase s, n => s.contains n || s.contains (swapAsciiCase n)

/-- The set without members. -/
def none : CharSet := ranges ⟨[]⟩

/-- The set of all characters. -/
def all : CharSet := ranges ⟨[(0, 0x10FFFF)]⟩

/-- The set of the characters between two ends, both included. -/
def range (first last : Char) : CharSet := ranges ⟨[(first.toNat, last.toNat)]⟩

/-- The set of one character. -/
def single (c : Char) : CharSet := range c c

/-- The set that an operator makes of two. -/
def combine : SetOperator → CharSet → CharSet → CharSet
  | .intersection => intersection
  | .difference => difference
  | .symmetricDifference => symmetricDifference

/-- A set or its complement. -/
def negateIf (negated : Bool) (s : CharSet) : CharSet := if negated then complement s else s

@[simp] theorem contains_none (n : Nat) : none.contains n = false := rfl

theorem contains_range (first last : Char) (n : Nat) :
    (range first last).contains n = (first.toNat ≤ n && n ≤ last.toNat) := by
  simp [range, contains, Unicode.RangeSet.contains]

theorem contains_single (c d : Char) : (single c).contains d.toNat = (d == c) := by
  rw [Bool.eq_iff_iff]
  simp only [single, contains_range, Bool.and_eq_true, decide_eq_true_eq, beq_iff_eq,
    ← Char.toNat_inj]
  omega

@[simp] theorem contains_negateIf (negated : Bool) (s : CharSet) (n : Nat) :
    (negateIf negated s).contains n = (s.contains n != negated) := by
  cases negated <;> simp [negateIf, contains]

end CharSet

/-- The ranges of a named class of ASCII characters. -/
def AsciiClass.runs : AsciiClass → List (Char × Char)
  | alnum => [('0', '9'), ('A', 'Z'), ('a', 'z')]
  | alpha => [('A', 'Z'), ('a', 'z')]
  | ascii => [('\x00', '\x7f')]
  | blank => [('\t', '\t'), (' ', ' ')]
  | cntrl => [('\x00', '\x1f'), ('\x7f', '\x7f')]
  | digit => [('0', '9')]
  | graph => [('!', '~')]
  | lower => [('a', 'z')]
  | print => [(' ', '~')]
  | punct => [('!', '/'), (':', '@'), ('[', '\x60'), ('\x7b', '~')]
  | space => [('\t', '\r'), (' ', ' ')]
  | upper => [('A', 'Z')]
  | word => [('0', '9'), ('A', 'Z'), ('_', '_'), ('a', 'z')]
  | xdigit => [('0', '9'), ('A', 'F'), ('a', 'f')]

/-- The characters of a named class of ASCII characters. -/
def AsciiClass.set (c : AsciiClass) : CharSet :=
  .ranges ⟨c.runs.map fun run => (run.1.toNat, run.2.toNat)⟩

/-- The characters of a class with a short escape, in Unicode or in ASCII alone. -/
def ShortClass.set (unicode : Bool) : ShortClass → CharSet
  | digit => if unicode then .ranges Unicode.decimalDigits else AsciiClass.digit.set
  | blank => if unicode then .ranges Unicode.whiteSpace else AsciiClass.space.set
  | word => if unicode then .ranges Unicode.wordCharacters else AsciiClass.word.set

end LazyPeg.Pattern
