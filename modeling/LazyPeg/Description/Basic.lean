import LazyPeg.Source.Medium
import LazyPeg.Pattern.Engine

/-!
# Descriptions of parsers

A `Description` is a parser written down.  It names the combinators, patterns and rules that a parser is
built from; `Description.build` makes the parser.  What a parser may compute is limited to the changes of
values in `Change` and the continuations in `Continuation`, and to what the engine of a pattern finds.
-/
namespace LazyPeg

/-! ## 1. Changes of values -/

/-- What a description may make of a value. -/
inductive Change where
  /-- Put a mark around the value. -/
  | wrap
  /-- How many items it has. -/
  | size
  /-- One more. -/
  | increment
  /-- The texts of the leaves joined. -/
  | concat
  /-- The numbers of the leaves added. -/
  | sum
  deriving DecidableEq, Repr

/-- What a change makes of a value. -/
def Change.apply {α : Type} [Token α] : Change → Value α → Value α
  | wrap, v => .wrapped v
  | size, v => .number v.size
  | increment, v => v.increment
  | concat, v => .text v.concat
  | sum, v => .number v.sum

/-! ## 2. Descriptions -/

/-- How a parser that stands before or behind another is combined with it. -/
inductive Pairing where
  | andThen | and | preceded | terminated | or | sepBy0 | sepBy1
  deriving DecidableEq, Repr

/-- What becomes of a rule once its body is described. -/
inductive Fate where
  /-- The rule is defined, and the description stands for it. -/
  | defined
  /-- The rule is never defined; the description stands for the body. -/
  | undefined
  /-- The rule is defined and given up; the description stands for a call of it. -/
  | givenUp
  deriving DecidableEq, Repr

mutual

/-- A parser as data. -/
inductive Description (α : Type) where
  | any
  | endOfInput
  | offset
  | eq (t : α)
  | neq (t : α)
  | oneOf (ts : List α)
  /-- A token between two bounds, both left out. -/
  | between (name : String) (after before : Option α)
  | token (ts : List α)
  /-- A token that, read as a character, matches a pattern of some engine. -/
  | pattern (engine : Pattern.Engine) (text : String)
  | expected (message : String)
  | result (l : Literal)
  /-- Move on by `count` places, from the start of a sequence of its own if there is one. -/
  | jump (name : String) (origin : Option (Input α)) (count : Nat) (verdict : Verdict)
  | constant (l : Literal) (of : Description α)
  | named (name : String) (of : Description α)
  | boxed (of : Description α)
  | change (f : Change) (of : Description α)
  | seq (of : List (Description α))
  | tuple (of : List (Description α))
  | choice (of : List (Description α))
  | pair (how : Pairing) (of other : Description α)
  | optional (of : Description α)
  | many (style : Repetition) (of : Description α)
  | peek (of : Description α)
  | not (of : Description α)
  | bind (noted : Bool) (of : List (Description α)) (continuation : Continuation α)
  | observed (tag : Literal) (of : Description α)
  | traced (of : Description α)
  /-- A rule that its body may call by name. -/
  | recursive (name : String) (fate : Fate) (body : Description α)
  /-- A call of the innermost rule of that name. -/
  | call (name : String)

/-- How a parser is chosen by the values of those before it.  `index` is the number of the value that
counts; its first token is the first among its leaves. -/
inductive Continuation (α : Type) where
  /-- The first token again, or with `negated` any other. -/
  | firstToken (negated : Bool) (index : Nat)
  /-- The run of all tokens again. -/
  | tokens (index : Nat)
  /-- A parser as often as the number of the first token says. -/
  | repeated (index : Nat) (of : Description α)
  /-- Nothing more: the values as a tuple. -/
  | values
  /-- Always the same parser. -/
  | always (of : Description α)
  /-- The parser that goes with the first token, or another one. -/
  | switch (index : Nat) (cases : List (α × Description α)) (otherwise : Description α)

end

end LazyPeg
