import LazyPeg.Source.Feed
import LazyPeg.Token

/-!
# Media

A sequence is read lazily from its feed and what was read is kept, so that any number of parsers can go
over the same place again while the feed is asked only once for it.  What it is kept in is a `Medium`.
Everything that parsers and sessions do with sequences they do by the operations of a medium, so they
work in any of them: in a `MemoChain` of nodes of which each one caches the next, and in a `Store`, which
keeps the tokens of a sequence in an array and names a place by its offset.

Looking at a place never changes anything.  Only `tail`, which moves one place on, asks the feed, and
only for a place that nobody has reached before.  A feed that has answered that there is no token is
never asked again: from there on the sequence has ended.
-/
namespace LazyPeg

/-- What a sequence is opened on: a feed, or nothing at all, which needs no reading. -/
inductive Input (α : Type) where
  | feed (f : Feed α)
  | empty

/-- A text as an input. -/
def Input.ofText (text : String) : Input Char := .feed (.items text.toList)

/-- The name of a place: an offset in the sequence with a number, or the only place of the sequence
without tokens. -/
inductive Position where
  | empty
  | mark (source offset : Nat)
  deriving DecidableEq, Repr, Inhabited

/-- How many tokens stand before a position. -/
def Position.offset : Position → Nat
  | .empty => 0
  | .mark _ offset => offset

/-- The place after the one with a name, in a sequence that goes on. -/
def Position.next : Position → Position
  | .empty => .empty
  | .mark source offset => .mark source (offset + 1)

/-! ## 1. Operations -/

/-- What keeps sequences of tokens.  `σ` are its states, and `π` its places.  Sequences over a feed are
numbered in the order in which they were opened. -/
class Medium (α : outParam Type) (σ : Type) (π : outParam Type) where
  /-- Open a sequence.  Its first token is read at once. -/
  start : σ → Input α → π × σ
  /-- Open a sequence for a parser, which knows its first place by a name. -/
  startNamed : σ → Input α → Position × σ
  /-- The place that a parser knows by a name. -/
  named : σ → Position → π
  /-- The token at a place; `none` at the end. -/
  head? : σ → π → Option α
  /-- How many tokens stand before a place. -/
  offset : σ → π → Nat
  /-- The place after a place.  The end is the place after itself. -/
  tail : σ → π → π × σ
  /-- Two places are the same, or both at an end. -/
  samePlace : σ → π → π → Bool
  /-- Hold on to a place. -/
  hold : σ → π → σ
  /-- Let go of a place that was held. -/
  drop : σ → π → σ
  /-- How many sequences over a feed were opened. -/
  opened : σ → Nat
  /-- An upper bound on the number of places of all sequences. -/
  places : σ → Nat
  /-- How often the feed of a sequence was asked. -/
  pulls : σ → Nat → Nat
  /-- The fault that the status of a sequence keeps, if it is read from a reader. -/
  status? : σ → Nat → Option (Option String)
  /-- Take the fault out of the status of a sequence. -/
  takeFault : σ → Nat → Option String × σ

namespace Medium

variable {α σ π : Type} [Medium α σ π]

/-- No token stands at a place. -/
def isEnd (m : σ) (p : π) : Bool := (head? m p).isNone

/-- How a place is shown. -/
def describe [Token α] (m : σ) (p : π) : String :=
  match head? m p with
  | some t => "Seq@" ++ toString (offset m p) ++ "(" ++ Token.quoted t ++ ", ..)"
  | none => "Seq@" ++ toString (offset m p) ++ "(EOS)"

/-! ## 2. Walks -/

/-- Move on by `n` places. -/
def skip : Nat → σ → π → π × σ
  | 0, m, p => (p, m)
  | n + 1, m, p =>
    let (p, m) := tail m p
    skip n m p

/-- Read at most `n` tokens from a place, after those read before, which stand in reverse. -/
def takeOnto : Nat → σ → π → List α → List α × σ
  | 0, m, _, taken => (taken.reverse, m)
  | n + 1, m, p, taken =>
    match head? m p with
    | none => (taken.reverse, m)
    | some t =>
      let (p, m) := tail m p
      takeOnto n m p (t :: taken)

/-- The first `n` tokens from a place, or all if there are fewer. -/
def take (n : Nat) (m : σ) (p : π) : List α × σ :=
  takeOnto n m p []

/-- Count the tokens from a place to the end, looking at no more than `limit` places. -/
def countUpTo : Nat → σ → π → Nat → Nat × σ
  | 0, m, _, counted => (counted, m)
  | limit + 1, m, p, counted =>
    if isEnd m p then (counted, m)
    else
      let (p, m) := tail m p
      countUpTo limit m p (counted + 1)

/-- How many tokens stand between a place and the end. -/
def count (m : σ) (p : π) : Nat × σ :=
  countUpTo (places m) m p 0

end Medium

end LazyPeg
