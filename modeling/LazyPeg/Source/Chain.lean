import LazyPeg.Source.Store

/-!
# The chain of nodes

A chain keeps what was read in nodes, one for each place that was reached.  A node with a token caches
the node after it as soon as somebody moves on, so everybody who moves on from there comes to the same
node, and the feed is asked only by the first.  The node at the end has no feed to ask.

A node lives as long as somebody owns it: each handle on it counts, and so does the node before it once
it has cached it.  When the last handle on a node is let go of the node goes, and gives up the node
after it, and so on along the chain up to a node with another owner.

Whoever walks along a chain only borrows the nodes on the way.  Each of them is cached by the one before,
back to one with a handle, so they are not counted.
-/
namespace LazyPeg

/-- Where a node is.  No address is used twice. -/
abbrev Address := Nat

/-! ## 1. Nodes -/

/-- What stands at a place: a token, the node after it if it was made, and the number of the sequence;
or nothing at the end. -/
inductive NodeKind (α : Type) where
  | cons (head : α) (tail : Option Address) (source : Nat)
  | nil

/-- What stands where the feed of a sequence has given this answer. -/
def NodeKind.answered {α : Type} (source : Nat) : Option α → NodeKind α
  | some head => .cons head none source
  | none => .nil

/-- A place in a sequence: the number of tokens before it, and what stands there. -/
structure Node (α : Type) where
  offset : Nat
  kind : NodeKind α

/-- A node, the number of its owners, and the place it was made for.  Nothing depends on this place, it
is there to be read. -/
structure Slot (α : Type) where
  node : Node α
  owners : Nat
  place : Position

/-- The node that is cached. -/
def Slot.next? {α : Type} (slot : Slot α) : Option Address :=
  match slot.node.kind with
  | .cons _ tail _ => tail
  | .nil => none

/-- The token of a node. -/
def Slot.head? {α : Type} (slot : Slot α) : Option α :=
  match slot.node.kind with
  | .cons head _ _ => some head
  | .nil => none

/-- All nodes by their addresses; those that are gone have left an empty slot. -/
structure Heap (α : Type) where
  slots : Array (Option (Slot α))

namespace Heap

variable {α : Type}

/-- The heap without nodes. -/
def empty : Heap α := ⟨#[]⟩

/-- What is kept at an address. -/
def slot? (h : Heap α) (p : Address) : Option (Slot α) := (h.slots[p]?).join

/-- Keep something else at an address. -/
def put (h : Heap α) (p : Address) (slot : Option (Slot α)) : Heap α :=
  ⟨h.slots.setIfInBounds p slot⟩

/-- Make a node, which nobody owns. -/
def make (h : Heap α) (place : Position) (node : Node α) : Address × Heap α :=
  (h.slots.size, ⟨h.slots.push (some ⟨node, 0, place⟩)⟩)

/-- Hold on to a node. -/
def hold (h : Heap α) (p : Address) : Heap α :=
  match h.slot? p with
  | some slot => h.put p (some { slot with owners := slot.owners + 1 })
  | none => h

/-- Cache a node in the one before it.  A hold on the cached node is handed over with it. -/
def cache (h : Heap α) (p next : Address) : Heap α :=
  match h.slot? p with
  | some ⟨⟨offset, .cons head _ source⟩, owners, place⟩ =>
    h.put p (some ⟨⟨offset, .cons head (some next) source⟩, owners, place⟩)
  | _ => h

/-- Let go of a node.  Where this was its last owner it goes, and lets go of the node that it has
cached.  This takes no more steps than there are nodes. -/
def unlink : Nat → Heap α → Address → Heap α
  | 0, h, _ => h
  | steps + 1, h, p =>
    match h.slot? p with
    | none => h
    | some slot =>
      if slot.owners ≤ 1 then
        match slot.next? with
        | some next => unlink steps (h.put p none) next
        | none => h.put p none
      else h.put p (some { slot with owners := slot.owners - 1 })

/-- Let go of a node that was held. -/
def drop (h : Heap α) (p : Address) : Heap α := h.unlink h.slots.size p

/-- The token at a node; `none` at the end. -/
def head? (h : Heap α) (p : Address) : Option α := (h.slot? p).bind Slot.head?

/-- How many tokens stand before a node. -/
def offset (h : Heap α) (p : Address) : Nat := (h.slot? p).elim 0 fun slot => slot.node.offset

end Heap

/-! ## 2. Chains -/

/-- A feed that the nodes of a sequence share, how many tokens it has given, and how often it was
asked. -/
structure Spring (α : Type) where
  feed : Feed α
  given : Nat
  pulls : Nat

/-- Ask the feed for one more token. -/
def Spring.ask {α : Type} : Spring α → Spring α
  | ⟨feed, given, pulls⟩ =>
    match feed.next with
    | (some _, feed) => ⟨feed, given + 1, pulls + 1⟩
    | (none, feed) => ⟨feed, given, pulls + 1⟩

/-- The nodes of all sequences; the feeds, numbered in the order in which they came; and the nodes that
parsers know by names. -/
structure MemoChain (α : Type) where
  heap : Heap α
  springs : Array (Spring α)
  names : List (Position × Address)

namespace MemoChain

variable {α : Type}

/-- The chain without sequences. -/
def new : MemoChain α := ⟨.empty, #[], []⟩

/-- Ask a feed for the token at a place, and make the node of its answer. -/
def pull (c : MemoChain α) (source offset : Nat) : Address × MemoChain α :=
  let answer := (c.springs[source]?).bind fun s => s.feed.next.1
  let (p, heap) := c.heap.make (.mark source offset) ⟨offset, .answered source answer⟩
  (p, { c with heap, springs := c.springs.modify source Spring.ask })

/-- Open a sequence.  Its first token is read at once. -/
def start (c : MemoChain α) : Input α → Address × MemoChain α
  | .feed f => ({ c with springs := c.springs.push ⟨f, 0, 0⟩ } : MemoChain α).pull c.springs.size 0
  | .empty =>
    let (p, heap) := c.heap.make .empty ⟨0, .nil⟩
    (p, { c with heap })

/-- Open a sequence for a parser, which holds on to its first node. -/
def startNamed (c : MemoChain α) (input : Input α) : Position × MemoChain α :=
  let name := match input with
    | .feed _ => .mark c.springs.size 0
    | .empty => .empty
  let (p, c) := c.start input
  (name, { c with heap := c.heap.hold p, names := (name, p) :: c.names })

/-- The node that a parser knows by a name. -/
def named (c : MemoChain α) (name : Position) : Address := (c.names.lookup name).getD 0

/-- The node after a node.  It is made when it is asked for the first time, and cached.  The end is the
node after itself. -/
def tail (c : MemoChain α) (p : Address) : Address × MemoChain α :=
  match c.heap.slot? p with
  | some ⟨⟨_, .cons _ (some next) _⟩, _, _⟩ => (next, c)
  | some ⟨⟨offset, .cons _ none source⟩, _, _⟩ =>
    let (next, c) := c.pull source (offset + 1)
    (next, { c with heap := (c.heap.hold next).cache p next })
  | _ => (p, c)

/-- Two addresses are the same, or the nodes are both at an end. -/
def samePlace (c : MemoChain α) (p q : Address) : Bool :=
  p == q || ((c.heap.head? p).isNone && (c.heap.head? q).isNone)

/-! ## 3. What can be asked of a sequence -/

/-- An upper bound on the number of places of all sequences. -/
def places (c : MemoChain α) : Nat :=
  c.springs.foldl (fun n s => n + (s.given + s.feed.bound + 1)) 1

/-- How often the feed of a sequence was asked. -/
def pulls (c : MemoChain α) (source : Nat) : Nat := (c.springs[source]?.map (·.pulls)).getD 0

/-- The fault that the status of a sequence keeps, if it is read from a reader. -/
def status? (c : MemoChain α) (source : Nat) : Option (Option String) :=
  (c.springs[source]?).bind fun s => s.feed.status?

/-- Take the fault out of the status of a sequence. -/
def takeFault (c : MemoChain α) (source : Nat) : Option String × MemoChain α :=
  ((c.status? source).join,
    { c with springs := c.springs.modify source fun s => { s with feed := s.feed.clearStatus } })

/-- The chain as a medium. -/
instance : Medium α (MemoChain α) Address where
  start := start
  startNamed := startNamed
  named := named
  head? c := c.heap.head?
  offset c := c.heap.offset
  tail := tail
  samePlace := samePlace
  hold c p := { c with heap := c.heap.hold p }
  drop c p := { c with heap := c.heap.drop p }
  opened c := c.springs.size
  places := places
  pulls := pulls
  status? := status?
  takeFault := takeFault

end MemoChain

end LazyPeg
