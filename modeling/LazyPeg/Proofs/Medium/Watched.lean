import Mathlib.Data.Multiset.MapFold
import LazyPeg.Proofs.Medium.Sessions
import LazyPeg.Proofs.Store.History

/-!
# Where a medium is moved to

`Watched` is a medium that does what another one does and keeps a list of the places moved to: the first
place of every sequence that is opened, and whatever `tail` leads to.  Its places know their names, the
number of the sequence and the offset, also after what they stood for is gone.

So what a step moves to is computed from the step (`Session.moves`).  Where a medium goes together with a
store, the store has come about by opening the feeds and moving to the places of the list
(`Medium.Mirror.watched`).
-/
namespace LazyPeg

/-! ## 1. The list of places -/

/-- A place and its name. -/
structure Tracked (π : Type) where
  place : π
  name : Position

/-- A medium with a list of the places moved to, the last one first. -/
structure Watched (σ : Type) where
  inner : σ
  moves : List Position

namespace Watched

variable {α σ π : Type} [Medium α σ π]

/-- The name of the first place of a sequence that is opened next. -/
def firstName (m : σ) : Input α → Position
  | .feed _ => .mark (Medium.opened m) 0
  | .empty => .empty

/-- The list after a sequence was opened. -/
def opening (w : Watched σ) : Input α → List Position
  | .feed _ => .mark (Medium.opened w.inner) 0 :: w.moves
  | .empty => w.moves

/-- The name of the place after a place. -/
def nextName (m : σ) (p : Tracked π) : Position :=
  if Medium.isEnd m p.place then p.name else p.name.next

instance : Medium α (Watched σ) (Tracked π) where
  start w input :=
    (⟨(Medium.start w.inner input).1, firstName w.inner input⟩,
      ⟨(Medium.start w.inner input).2, w.opening input⟩)
  startNamed w input :=
    ((Medium.startNamed w.inner input).1, ⟨(Medium.startNamed w.inner input).2, w.opening input⟩)
  named w name := ⟨Medium.named w.inner name, name⟩
  head? w p := Medium.head? w.inner p.place
  offset w p := Medium.offset w.inner p.place
  tail w p :=
    (⟨(Medium.tail w.inner p.place).1, nextName w.inner p⟩,
      ⟨(Medium.tail w.inner p.place).2, nextName w.inner p :: w.moves⟩)
  samePlace w p q := Medium.samePlace w.inner p.place q.place
  hold w p := ⟨Medium.hold w.inner p.place, w.moves⟩
  drop w p := ⟨Medium.drop w.inner p.place, w.moves⟩
  opened w := Medium.opened w.inner
  places w := Medium.places w.inner
  pulls w := Medium.pulls w.inner
  status? w := Medium.status? w.inner
  takeFault w source := ((Medium.takeFault w.inner source).1, ⟨(Medium.takeFault w.inner source).2, w.moves⟩)

end Watched

/-! ## 2. What a step moves to -/

namespace Session

variable {α : Type} [Token α] [DecidableEq α]

/-- The session with an empty list of places.  In a store a place is its name. -/
def watched (s : Session α) : Session α (Watched (Store α)) (Tracked Position) where
  workshop := ⟨⟨s.store, []⟩, s.workshop.grammar⟩
  parsers := s.parsers
  positions := s.positions.map (Option.map fun p => ⟨p, p⟩)
  sources := s.sources
  results := s.results.map (Outcome.mapPlace fun p => ⟨p, p⟩)

/-- The places that a step moves to, the last one first. -/
def moves (s : Session α) (x : Step α) : List Position := (s.watched.step x).2.store.moves

end Session

/-! ## 3. The list tells how a store came about -/

namespace Store

variable {α : Type} {st : Store α} {p : Position}

/-- In a sequence that goes on, the place after a position is the next one. -/
theorem fst_tail (st : Store α) (p : Position) :
    (st.tail p).1 = if st.isEnd p then p else p.next := by
  cases p with
  | empty => rfl
  | mark source offset =>
    rw [tail]
    split <;> rfl

end Store

namespace Medium

/-- Every medium mirrors itself. -/
def Mirror.refl (α σ π : Type) [Medium α σ π] : Mirror α σ σ π π where
  States _ held m m' := m = m' ∧ ∀ x ∈ held, x.1 = x.2
  Places _ _ p p' := p = p'
  Names _ _ _ := True
  start := by
    rintro _ _ m _ ⟨rfl, hx⟩ input
    exact ⟨⟨rfl, hx⟩, ⟨id, id⟩, rfl⟩
  startNamed := by
    rintro _ _ m _ ⟨rfl, hx⟩ input
    exact ⟨⟨rfl, hx⟩, ⟨id, id⟩, rfl, trivial⟩
  named := by
    rintro _ _ _ _ _ ⟨rfl, _⟩ _
    rfl
  head? := by
    rintro _ _ _ _ _ _ ⟨rfl, _⟩ rfl
    rfl
  offset := by
    rintro _ _ _ _ _ _ ⟨rfl, _⟩ rfl
    rfl
  tail := by
    rintro _ _ _ _ _ _ ⟨rfl, hx⟩ rfl
    exact ⟨⟨rfl, hx⟩, ⟨id, id⟩, rfl⟩
  samePlace := by
    rintro _ _ _ _ _ _ _ _ ⟨rfl, _⟩ rfl rfl
    rfl
  held := fun h hx => h.2 _ hx
  hold := by
    rintro _ _ _ _ p _ ⟨rfl, hx⟩ rfl
    exact ⟨⟨rfl, Multiset.forall_mem_cons.2 ⟨rfl, hx⟩⟩, ⟨id, id⟩⟩
  drop := by
    rintro _ _ _ _ p p' ⟨rfl, hx⟩
    obtain ⟨same, rest⟩ := Multiset.forall_mem_cons.1 hx
    obtain rfl : p = p' := same
    exact ⟨⟨rfl, rest⟩, id⟩
  opened := fun h => congrArg Medium.opened h.1
  places := fun h => congrArg Medium.places h.1
  pulls := fun h source => congrArg (Medium.pulls · source) h.1
  status? := fun h source => congrArg (Medium.status? · source) h.1
  takeFault := by
    rintro _ _ _ _ ⟨rfl, hx⟩ _
    exact ⟨⟨rfl, hx⟩, ⟨id, id⟩, rfl⟩

variable {α σ π : Type} [Medium α σ π]

/-- A medium that goes together with a store does so with a list of the places moved to: the store has
come about from `base` in this way.  Every place is known by its name. -/
def Mirror.watched (M : Mirror α σ (Store α) π Position) (base : Store α) :
    Mirror α (Watched σ) (Store α) (Tracked π) Position where
  States feeds held w st :=
    M.States feeds (held.map fun x => (x.1.place, x.2)) w.inner st ∧ base.Goes feeds w.moves st ∧
      ∀ x ∈ held, x.1.name = x.2 ∧ st.Reached x.2
  Places w st p q := M.Places w.inner st p.place q ∧ p.name = q ∧ st.Reached q
  Names w st name := M.Names w.inner st name ∧ st.Reached name
  start := by
    rintro feeds held w st ⟨states, goes, hx⟩ input
    obtain ⟨states', on, there⟩ := M.start states input
    cases input with
    | empty =>
      have goes' : base.Goes (feeds ++ []) w.moves st := (List.append_nil feeds).symm ▸ goes
      exact ⟨⟨states', goes', hx⟩, ⟨fun h => ⟨on.places h.1, h.2⟩, fun h => ⟨on.names h.1, h.2⟩⟩,
        there, rfl, trivial⟩
    | feed f =>
      have name : Position.mark (Medium.opened w.inner) 0 = (st.add f).1 :=
        congrArg (Position.mark · 0) (M.opened states)
      have goes' : base.Goes (feeds ++ [f]) (.mark (Medium.opened w.inner) 0 :: w.moves) (st.add f).2 :=
        name ▸ goes.opened f
      exact ⟨⟨states', goes', fun x h => ⟨(hx x h).1, (hx x h).2.add f⟩⟩,
        ⟨fun h => ⟨on.places h.1, h.2.1, h.2.2.add f⟩, fun h => ⟨on.names h.1, h.2.add f⟩⟩,
        there, name, st.reached_add f⟩
  startNamed := by
    rintro feeds held w st ⟨states, goes, hx⟩ input
    obtain ⟨states', on, same, known⟩ := M.startNamed states input
    cases input with
    | empty =>
      have goes' : base.Goes (feeds ++ []) w.moves st := (List.append_nil feeds).symm ▸ goes
      exact ⟨⟨states', goes', hx⟩, ⟨fun h => ⟨on.places h.1, h.2⟩, fun h => ⟨on.names h.1, h.2⟩⟩,
        same, known, same ▸ trivial⟩
    | feed f =>
      have name : Position.mark (Medium.opened w.inner) 0 = (st.add f).1 :=
        congrArg (Position.mark · 0) (M.opened states)
      have goes' : base.Goes (feeds ++ [f]) (.mark (Medium.opened w.inner) 0 :: w.moves) (st.add f).2 :=
        name ▸ goes.opened f
      exact ⟨⟨states', goes', fun x h => ⟨(hx x h).1, (hx x h).2.add f⟩⟩,
        ⟨fun h => ⟨on.places h.1, h.2.1, h.2.2.add f⟩, fun h => ⟨on.names h.1, h.2.add f⟩⟩,
        same, known, same ▸ st.reached_add f⟩
  named := fun h hname => ⟨M.named h.1 hname.1, rfl, hname.2⟩
  head? := fun h hp => M.head? h.1 hp.1
  offset := fun h hp => M.offset h.1 hp.1
  tail := by
    rintro feeds held w st p q ⟨states, goes, hx⟩ ⟨hp, rfl, reached⟩
    obtain ⟨states', on, there⟩ := M.tail states hp
    have name : Watched.nextName w.inner p = (st.tail p.name).1 := by
      rw [Store.fst_tail, Watched.nextName, M.isEnd states hp]
      rfl
    have goes' : base.Goes feeds (Watched.nextName w.inner p :: w.moves) (st.tail p.name).2 :=
      name ▸ goes.moved reached
    exact ⟨⟨states', goes', fun x h => ⟨(hx x h).1, (hx x h).2.tail _⟩⟩,
      ⟨fun h => ⟨on.places h.1, h.2.1, h.2.2.tail _⟩, fun h => ⟨on.names h.1, h.2.tail _⟩⟩,
      there, name, Store.reached_tail reached⟩
  samePlace := fun h hp hq => M.samePlace h.1 hp.1 hq.1
  held := fun h hx => ⟨M.held h.1 (Multiset.mem_map_of_mem (fun x => (x.1.place, x.2)) hx), h.2.2 _ hx⟩
  hold := by
    rintro feeds held w st p q ⟨states, goes, hx⟩ ⟨hp, rfl, reached⟩
    obtain ⟨states', on⟩ := M.hold states hp
    refine ⟨⟨?_, goes, Multiset.forall_mem_cons.2 ⟨⟨rfl, reached⟩, hx⟩⟩,
      ⟨fun h => ⟨on.places h.1, h.2⟩, fun h => ⟨on.names h.1, h.2⟩⟩⟩
    rw [Multiset.map_cons]
    exact states'
  drop := by
    rintro feeds held w st p q ⟨states, goes, hx⟩
    rw [Multiset.map_cons] at states
    obtain ⟨states', known⟩ := M.drop states
    exact ⟨⟨states', goes, (Multiset.forall_mem_cons.1 hx).2⟩, fun h => ⟨known h.1, h.2⟩⟩
  opened := fun h => M.opened h.1
  places := fun h => M.places h.1
  pulls := fun h => M.pulls h.1
  status? := fun h => M.status? h.1
  takeFault := by
    rintro feeds held w st ⟨states, goes, hx⟩ source
    obtain ⟨states', on, same⟩ := M.takeFault states source
    exact ⟨⟨states', goes.cleared source, fun x h => ⟨(hx x h).1, (hx x h).2.takeFault source⟩⟩,
      ⟨fun h => ⟨on.places h.1, h.2.1, h.2.2.takeFault source⟩,
        fun h => ⟨on.names h.1, h.2.takeFault source⟩⟩, same⟩

end Medium

end LazyPeg
