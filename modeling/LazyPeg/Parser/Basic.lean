import LazyPeg.Outcome
import LazyPeg.Source.Medium

/-!
# Parsers

A parser is a term: what to match and how matches are combined.  `Parser.Eval` says what a term does
with an input, `Parser.Derived` defines the usual combinators by the constructors of this module.

The choice between parsers is ordered and repetition is greedy, so a parser has one outcome at each
place and needs no separate step that guesses.  A parser may go back to a named rule of a grammar
(`rule`), which is how recursion enters.

Every parser has a name, which the messages of the parsers around it use.
-/
namespace LazyPeg

/-! ## 1. Repetitions -/

/-- More matches than any repetition can make: the bound of one without a bound. -/
def unlimited : Nat := 0xFFFFFFFFFFFFFFFF

/-- How often a parser is repeated. -/
inductive Repetition where
  /-- Any number of times. -/
  | any
  /-- At least once. -/
  | some
  /-- At least `least` and at most `most` times. -/
  | between (least most : Nat)
  /-- A given number of times. -/
  | exactly (count : Nat)
  deriving DecidableEq, Repr

namespace Repetition

/-- The fewest matches that are enough. -/
def least : Repetition → Nat
  | any => 0
  | some => 1
  | between least _ => least
  | exactly count => count

/-- The most matches that are tried for. -/
def most : Repetition → Nat
  | any => unlimited
  | some => unlimited
  | between _ most => most
  | exactly count => count

/-- The name of a repetition of what is named. -/
def nameOf (name : String) : Repetition → String
  | any => "many(" ++ name ++ ")"
  | some => "many1(" ++ name ++ ")"
  | between least most => "many(" ++ name ++ ", " ++ toString least ++ "..=" ++ toString most ++ ")"
  | exactly count => "repeat(" ++ name ++ ", " ++ toString count ++ ")"

end Repetition

/-! ## 2. Terms -/

/-- The number of a rule in a grammar. -/
abbrev RuleId := Nat

/-- How a jump ends: in a success, or in a failure with a message. -/
inductive Verdict where
  | success
  | failure (kind : FailureKind) (message : String)
  deriving DecidableEq, Repr

/-- A parser of sequences of tokens. -/
inductive Parser (α : Type) where
  /-- Match the end of the input. -/
  | endOfInput
  /-- Match one token that has a property. -/
  | satisfy (name : String) (accepts : α → Bool)
  /-- Match a run of given tokens. -/
  | token (items : List α)
  /-- Match nothing and give a value. -/
  | result (value : Value α)
  /-- Match never. -/
  | expected (message : String)
  /-- Match nothing and give the offset. -/
  | offset
  /-- Move on by `count` places, from the start of another sequence if one is given, and end there
  whatever tokens are passed. -/
  | jump (name : String) (origin : Option Position) (count : Nat) (verdict : Verdict)
  /-- Change the value of a match. -/
  | map (f : Value α → Value α) (p : Parser α)
  /-- Go by another name. -/
  | named (name : String) (p : Parser α)
  /-- Match several parsers in a row and give the values as a tuple.  `label` names the group. -/
  | group (label : String) (ps : List (Parser α))
  /-- Match the first parser that matches. -/
  | choice (ps : List (Parser α))
  /-- Match a parser repeatedly and give the values as a list. -/
  | many (style : Repetition) (p : Parser α)
  /-- Match a parser or nothing. -/
  | optional (p : Parser α)
  /-- Match a parser without moving on. -/
  | peek (p : Parser α)
  /-- Match where a parser does not match and a token stands, without moving on. -/
  | not (p : Parser α)
  /-- Match several parsers in a row and then what the continuation makes of their values.  If
  `noted`, asking the continuation is an event. -/
  | bind (noted : Bool) (ps : List (Parser α)) (continuation : List (Value α) → Parser α)
  /-- Match a parser; its outcome is an event. -/
  | observed (tag : Literal) (p : Parser α)
  /-- Match a parser; its outcome is an event with its name. -/
  | traced (p : Parser α)
  /-- Match a rule of the grammar. -/
  | rule (id : RuleId) (name : String)

/-! ## 3. Names -/

namespace Parser

variable {α : Type} [Token α]

mutual

/-- The name of a parser. -/
def name : Parser α → String
  | endOfInput => "EOS"
  | satisfy name _ => name
  | token items => Text.bracketed (items.map Token.quoted)
  | result _ => "result"
  | expected message => message
  | offset => "offset"
  | jump name _ _ _ => name
  | map _ p => p.name
  | named name _ => name
  | group label ps => label ++ "(" ++ ", ".intercalate (names ps) ++ ")"
  | choice ps => "or(" ++ ", ".intercalate (names ps) ++ ")"
  | many style p => style.nameOf p.name
  | optional p => "optional(" ++ p.name ++ ")"
  | peek p => "peek(" ++ p.name ++ ")"
  | not p => "not(" ++ p.name ++ ")"
  | bind _ ps _ => "bind(" ++ ", ".intercalate (names ps) ++ ")"
  | observed _ p => p.name
  | traced p => p.name
  | rule _ name => name

/-- The names of several parsers. -/
def names : List (Parser α) → List String
  | [] => []
  | p :: ps => p.name :: names ps

end

theorem names_eq (ps : List (Parser α)) : names ps = ps.map name := by
  induction ps with
  | nil => rfl
  | cons p ps ih => simp [names, ih]

end Parser

end LazyPeg
