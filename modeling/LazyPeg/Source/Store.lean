import LazyPeg.Source.Medium

/-!
# The store

A store keeps what was read of every sequence in an array.  A `Position` is a place in a sequence by the
number of tokens before it; it stays valid for good, whatever is held or dropped.
-/
namespace LazyPeg

/-! ## 1. Sources -/

/-- A sequence as far as it was read: its feed, the tokens that the feed gave, whether it has ended,
and how often the feed was asked. -/
structure Source (α : Type) where
  feed : Feed α
  seen : Array α
  ended : Bool
  pulls : Nat

namespace Source

variable {α : Type}

/-- A sequence of which nothing was read. -/
def ofFeed (feed : Feed α) : Source α := ⟨feed, #[], false, 0⟩

/-- Ask the feed for one more token. -/
def pull : Source α → Source α
  | ⟨feed, seen, ended, pulls⟩ =>
    match feed.next with
    | (some t, feed) => ⟨feed, seen.push t, ended, pulls + 1⟩
    | (none, feed) => ⟨feed, seen, true, pulls + 1⟩

/-- Whether the place `offset` was reached: its token was read, or the sequence has ended. -/
def reached (s : Source α) (offset : Nat) : Bool := offset < s.seen.size || s.ended

/-- Read on to the place `offset`, the one after the last that was reached. -/
def force (s : Source α) (offset : Nat) : Source α :=
  if s.reached offset then s else s.pull

/-- An upper bound on the number of places of a sequence. -/
def places (s : Source α) : Nat := s.seen.size + s.feed.bound + 1

end Source

/-! ## 2. The store -/

/-- All sequences, numbered in the order in which they were opened. -/
structure Store (α : Type) where
  sources : Array (Source α)

namespace Store

variable {α : Type}

/-- The store without sequences. -/
def new : Store α := ⟨#[]⟩

/-- Open a sequence over a feed.  Its first token is read at once. -/
def add (st : Store α) (feed : Feed α) : Position × Store α :=
  (.mark st.sources.size 0, ⟨st.sources.push (Source.ofFeed feed).pull⟩)

/-- Open a sequence. -/
def start (st : Store α) : Input α → Position × Store α
  | .feed f => st.add f
  | .empty => (.empty, st)

/-- The token at a position; `none` at the end. -/
def head? (st : Store α) : Position → Option α
  | .empty => none
  | .mark source offset => (st.sources[source]?).bind fun s => s.seen[offset]?

/-- No token stands at a position. -/
def isEnd (st : Store α) (p : Position) : Bool := (st.head? p).isNone

/-- Change one sequence. -/
def update (st : Store α) (source : Nat) (f : Source α → Source α) : Store α :=
  ⟨st.sources.modify source f⟩

/-- The place after a position.  The end is the place after itself. -/
def tail (st : Store α) (p : Position) : Position × Store α :=
  match p with
  | .empty => (.empty, st)
  | .mark source offset =>
    if st.isEnd p then (p, st)
    else (.mark source (offset + 1), st.update source fun s => s.force (offset + 1))

/-- Two positions are the same place, or both at an end. -/
def samePlace (st : Store α) (p q : Position) : Bool :=
  p == q || (st.isEnd p && st.isEnd q)

/-- An upper bound on the number of places of all sequences. -/
def places (st : Store α) : Nat :=
  st.sources.foldl (fun n s => n + s.places) 1

/-! ## 3. What can be asked of a sequence -/

/-- How often the feed of a sequence was asked. -/
def pulls (st : Store α) (source : Nat) : Nat :=
  (st.sources[source]?.map (·.pulls)).getD 0

/-- The fault that the status of a sequence keeps, if it is read from a reader. -/
def status? (st : Store α) (source : Nat) : Option (Option String) :=
  (st.sources[source]?).bind fun s => s.feed.status?

/-- Take the fault out of the status of a sequence. -/
def takeFault (st : Store α) (source : Nat) : Option String × Store α :=
  ((st.status? source).join,
    st.update source fun s => { s with feed := s.feed.clearStatus })

/-- The store as a medium.  It keeps everything, so nothing is done where a place is held or dropped. -/
instance : Medium α (Store α) Position where
  start := start
  startNamed := start
  named _ p := p
  head? := head?
  offset _ := Position.offset
  tail := tail
  samePlace := samePlace
  hold st _ := st
  drop st _ := st
  opened st := st.sources.size
  places := places
  pulls := pulls
  status? := status?
  takeFault := takeFault

end Store

end LazyPeg
