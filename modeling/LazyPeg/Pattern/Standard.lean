import LazyPeg.Pattern.Reader
import LazyPeg.Pattern.Meaning
import LazyPeg.Pattern.Engine
import LazyPeg.Description.Basic

/-!
# An engine

The engine that programs run with.  It knows the usual syntax of regular expressions: it reads a text as
`Ast.parse?` does, applies the flags, and searches a character by the span of the pattern.
-/
namespace LazyPeg.Pattern

/-- The meaning of the pattern that a text writes. -/
def read? (text : List Char) : Option Pattern :=
  (Ast.parse? text).bind fun a => (a.meaning? .initial).map (·.1)

/-- The pattern is found somewhere in the text that is one character. -/
def isFoundIn (p : Pattern) (c : Char) : Bool := (p.span c).any

/-- A character without a meaning of its own. -/
def escaped (c : Char) : List Char := if isMeta c then ['\\', c] else [c]

/-- The engine that programs run with. -/
def standard : Engine where
  new text := match read? text.toList with
    | some p => .ok ⟨p.isFoundIn⟩
    | none => .error "malformed pattern"
  escape text := String.ofList (text.toList.flatMap escaped)

theorem standard_new_eq_ok_iff {text : String} {regex : Regex} :
    standard.new text = .ok regex ↔ ∃ p, read? text.toList = some p ∧ regex = ⟨p.isFoundIn⟩ := by
  simp only [standard]
  cases read? text.toList <;> simp [eq_comm]

/-- The text of a pattern that only the given character matches. -/
def escapeChar (c : Char) : String := standard.escapeChar c

end LazyPeg.Pattern

/-- A token that, read as a character, matches a pattern of the engine that programs run with. -/
def LazyPeg.Description.matching {α : Type} (text : String) : Description α :=
  .pattern Pattern.standard text
