import LazyPeg.Parser.Derived

/-!
# Patterns for single characters

A parser can ask that a character match a pattern as a whole.  Which texts are patterns, and what they
match, is up to an `Engine`: it makes a search of a text, or refuses the text with a message.  To ask for a
match of the whole character, the text is put between marks for both ends; the character matches if the
resulting pattern is found in it.

A text that the engine refuses in this form is refused.  The message is then about the text itself, unless
the text alone is a pattern.
-/
namespace LazyPeg.Pattern

/-- A pattern that was read.  The texts that are searched for it are single characters. -/
structure Regex where
  isMatch : Char → Bool

/-- What reads patterns. -/
structure Engine where
  /-- The pattern that a text writes, or why it writes none. -/
  new : String → Except String Regex
  /-- The text of a pattern that matches a given text alone. -/
  escape : String → String

/-- Why a pattern was refused: the pattern is none, or only its anchored form is none. -/
inductive Refusal where
  | malformed
  | malformedAnchored
  deriving DecidableEq, Repr

/-- A refusal, with what the engine said. -/
structure Rejection where
  refusal : Refusal
  message : String
  deriving DecidableEq, Repr

/-- The text of a pattern between marks for both ends. -/
def anchored (text : String) : String := "^(?:" ++ text ++ ")$"

namespace Engine

/-- The text of a pattern that only the given character matches. -/
def escapeChar (engine : Engine) (c : Char) : String := engine.escape c.toString

/-- The anchored pattern that a text writes.  If there is none, the text alone is tried: a message about
it is better, since nothing was put around it. -/
def compile (engine : Engine) (text : String) : Except Rejection Regex :=
  match engine.new (anchored text) with
  | .ok regex => .ok regex
  | .error message =>
    match engine.new text with
    | .error message => .error ⟨.malformed, message⟩
    | .ok _ => .error ⟨.malformedAnchored, message⟩

end Engine

end LazyPeg.Pattern

namespace LazyPeg.Parser

/-- Match a token that, read as a character, matches a pattern as a whole. -/
def matching {α : Type} (engine : Pattern.Engine) (toChar : α → Char) (text : String) :
    Except Pattern.Rejection (Parser α) :=
  (engine.compile text).map fun regex =>
    satisfy ("/" ++ text ++ "/") fun t => regex.isMatch (toChar t)

end LazyPeg.Parser
