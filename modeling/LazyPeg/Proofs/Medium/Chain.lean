import Mathlib.Data.Multiset.AddSub
import LazyPeg.Source.Chain
import LazyPeg.Proofs.Medium.Mirror
import LazyPeg.Proofs.Store.History

/-!
# A chain of nodes mirrors a store

A chain and a store keep the same sequences: a node that is there stands for the place it was made for.

* §1 is about the operations on a heap.
* §2 is the invariant of a heap (`Heap.Fits`): there is one node for each place, the node that it has
  cached is the one for the next place, and its owners are the handles on it and the nodes that have
  cached it.  So a node with a handle is there, and letting go of a handle takes away only what nobody
  else owns (`Fits.unlink`).
* §3 is what the store says of the place that is reached by one step.
* §4 is the invariant of a chain (`MemoChain.Follows`): a node that has cached nothing is the last that was
  reached in its sequence, so whoever asks the feed asks for the next place.
* §5 puts it together: **chains mirror stores** (`MemoChain.mirror`).
-/
namespace LazyPeg

/-! ## 1. Heaps -/

namespace Heap

variable {α : Type} {h : Heap α} {p q next : Address} {slot other : Slot α} {content : Option (Slot α)}
  {place : Position}

/-- The node at an address was made for a place. -/
def At (h : Heap α) (p : Address) (place : Position) : Prop :=
  ∃ slot, h.slot? p = some slot ∧ slot.place = place

/-- How many nodes have cached the node at an address. -/
def links (h : Heap α) (p : Address) : Nat :=
  h.slots.countP fun content => content.bind Slot.next? = some p

/-- How many handles there are on a node. -/
def holds (handles : Multiset (Address × Position)) (p : Address) : Nat := handles.countP (·.1 = p)

theorem holds_cons (p : Address) (place : Position) (handles : Multiset (Address × Position))
    (q : Address) : holds ((p, place) ::ₘ handles) q = holds handles q + if p = q then 1 else 0 :=
  Multiset.countP_cons ..

theorem getElem_of_slot? (hp : h.slot? p = some slot) :
    ∃ inside : p < h.slots.size, h.slots[p] = some slot :=
  Array.getElem?_eq_some_iff.1 (Option.join_eq_some_iff.1 hp)

theorem slot?_put (hp : h.slot? p = some slot) (content : Option (Slot α)) (q : Address) :
    (h.put p content).slot? q = if q = p then content else h.slot? q := by
  obtain ⟨inside, -⟩ := getElem_of_slot? hp
  simp only [put, slot?, Array.getElem?_setIfInBounds, inside, if_true, eq_comm (a := p)]
  split <;> rfl

theorem slot?_make (h : Heap α) (place : Position) (node : Node α) (q : Address) :
    (h.make place node).2.slot? q = if q = h.slots.size then some ⟨node, 0, place⟩ else h.slot? q := by
  simp only [make, slot?, Array.getElem?_push]
  split <;> rfl

theorem At.slot?_eq (hp : h.At p place) : ∃ slot, h.slot? p = some slot := hp.imp fun _ => And.left

/-- A node is there for one place. -/
theorem At.place_eq (hp : h.At p place) (hc : h.slot? p = some slot) : slot.place = place := by
  obtain ⟨_, hc', rfl⟩ := hp
  obtain rfl := Option.some.inj (hc.symm.trans hc')
  rfl

theorem At.lt_size (hp : h.At p place) : p < h.slots.size := by
  obtain ⟨_, hc, -⟩ := hp
  exact (getElem_of_slot? hc).1

/-- A node that is put in the place of another one changes the links by what the two have cached. -/
theorem links_put (hp : h.slot? p = some slot) (content : Option (Slot α)) (q : Address) :
    (h.put p content).links q + (if slot.next? = some q then 1 else 0) =
      h.links q + if content.bind Slot.next? = some q then 1 else 0 := by
  obtain ⟨inside, here⟩ := getElem_of_slot? hp
  have counted : slot.next? = some q → 0 < h.links q := fun hn =>
    Array.countP_pos_iff.2 ⟨_, Array.getElem_mem inside, by rw [here]; simpa using hn⟩
  simp only [links, put, Array.setIfInBounds_def, dif_pos inside, Array.countP_set inside, here,
    Option.bind_some, decide_eq_true_eq] at counted ⊢
  split
  next hn =>
    have := counted hn
    omega
  next => omega

theorem links_make (h : Heap α) (place : Position) {node : Node α}
    (hn : (⟨node, 0, place⟩ : Slot α).next? = none) (q : Address) :
    (h.make place node).2.links q = h.links q := by
  simp only [links, make, Array.countP_push, Option.bind_some, hn, reduceCtorEq, decide_false,
    Bool.false_eq_true, if_false, Nat.add_zero]

/-- A node that is cached has a link. -/
theorem links_pos (hp : h.slot? p = some slot) (hn : slot.next? = some next) : 0 < h.links next := by
  obtain ⟨inside, here⟩ := getElem_of_slot? hp
  exact Array.countP_pos_iff.2 ⟨_, Array.getElem_mem inside, by rw [here]; simpa using hn⟩

/-- What has a link is cached. -/
theorem exists_of_links_pos (hn : 0 < h.links next) :
    ∃ p slot, h.slot? p = some slot ∧ slot.next? = some next := by
  obtain ⟨content, hc, same⟩ := Array.countP_pos_iff.1 hn
  obtain ⟨slot, rfl, hn⟩ := Option.bind_eq_some_iff.1 (of_decide_eq_true same)
  obtain ⟨p, hp⟩ := Array.getElem?_of_mem hc
  exact ⟨p, slot, Option.join_eq_some_iff.2 hp, hn⟩

/-- To hold on to a node changes only how many owners it has. -/
theorem of_slot?_hold (hq : (h.hold p).slot? q = some slot) :
    ∃ slot', h.slot? q = some slot' ∧ slot'.node = slot.node ∧ slot'.place = slot.place := by
  rw [hold] at hq
  split at hq
  next held hp =>
    rw [slot?_put hp] at hq
    split at hq
    next here =>
      subst here
      obtain rfl := Option.some.inj hq
      exact ⟨held, hp, rfl, rfl⟩
    next => exact ⟨slot, hq, rfl, rfl⟩
  next => exact ⟨slot, hq, rfl, rfl⟩

theorem slot?_hold_of_ne (hq : q ≠ p) : (h.hold p).slot? q = h.slot? q := by
  rw [hold]
  split
  next hp => rw [slot?_put hp, if_neg hq]
  next => rfl

/-- Letting go of a node changes no node, it only takes nodes away. -/
theorem of_slot?_unlink (steps : Nat) (hq : (h.unlink steps p).slot? q = some slot) :
    ∃ slot', h.slot? q = some slot' ∧ slot'.node = slot.node ∧ slot'.place = slot.place := by
  induction steps generalizing h p with
  | zero => exact ⟨slot, hq, rfl, rfl⟩
  | succ steps ih =>
    rw [unlink] at hq
    cases hp : h.slot? p with
    | none =>
      rw [hp] at hq
      exact ⟨slot, hq, rfl, rfl⟩
    | some gone =>
      have taken {slot : Slot α} (hq : (h.put p none).slot? q = some slot) : h.slot? q = some slot := by
        rw [slot?_put hp] at hq
        split at hq
        · exact absurd hq nofun
        · exact hq
      simp only [hp] at hq
      split at hq
      · split at hq
        · obtain ⟨slot', hc, same⟩ := ih hq
          exact ⟨slot', taken hc, same⟩
        · exact ⟨slot, taken hq, rfl, rfl⟩
      · rw [slot?_put hp] at hq
        split at hq
        next here =>
          subst here
          obtain rfl := Option.some.inj hq
          exact ⟨gone, hp, rfl, rfl⟩
        next => exact ⟨slot, hq, rfl, rfl⟩

end Heap

/-! ## 2. The invariant of a heap -/

namespace Heap

variable {α : Type} {h h' : Heap α} {st st' : Store α} {handles handles' : Multiset (Address × Position)}
  {feeds : List (Feed α)} {forced : List Position}
  {p q next : Address} {slot slot' : Slot α} {place : Position}

/-- What holds of a node, by what the store says of its place. -/
structure Stands (h : Heap α) (st : Store α) (p : Address) (slot : Slot α) : Prop where
  reached : st.Reached slot.place
  offset : slot.node.offset = slot.place.offset
  head : slot.head? = st.head? slot.place
  source : ∀ head tail source, slot.node.kind = .cons head tail source →
    slot.place = .mark source slot.node.offset
  /-- Nodes are made in the order of their places. -/
  cached : ∀ next, slot.next? = some next → p < next ∧ h.At next slot.place.next

/-- Nodes, handles and store fit together. -/
structure Fits (h : Heap α) (st : Store α) (handles : Multiset (Address × Position)) : Prop where
  stands : ∀ {p slot}, h.slot? p = some slot → h.Stands st p slot
  /-- There is one node for each place, except in the sequences without tokens. -/
  unique : ∀ {p q place}, h.At p place → h.At q place → place ≠ .empty → p = q
  owners : ∀ {p slot}, h.slot? p = some slot → slot.owners = holds handles p + h.links p
  held : ∀ x ∈ handles, h.At x.1 x.2

theorem Stands.mono (hs : h.Stands st p slot) (goes : st.Goes feeds forced st')
    (on : ∀ {q place}, h.At q place → h'.At q place) : h'.Stands st' p slot where
  reached := goes.reached hs.reached
  offset := hs.offset
  head := hs.head.trans (goes.head?_eq hs.reached).symm
  source := hs.source
  cached next hn := (hs.cached next hn).imp_right on

theorem at_make (hq : h.At q place) (place' : Position) (node : Node α) :
    (h.make place' node).2.At q place := by
  have old := Nat.ne_of_lt hq.lt_size
  exact hq.imp fun _ hb => ⟨by rw [slot?_make, if_neg old, hb.1], hb.2⟩

/-- A new node for a place that has none, or for a sequence without tokens. -/
theorem Fits.make (f : h.Fits st handles) (goes : st.Goes feeds forced st') {node : Node α}
    (fresh : place ≠ .empty → ∀ q, ¬h.At q place)
    (stands : (h.make place node).2.Stands st' h.slots.size ⟨node, 0, place⟩)
    (hn : (⟨node, 0, place⟩ : Slot α).next? = none) : (h.make place node).2.Fits st' handles := by
  have slots {q : Address} {b : Slot α} (hq : (h.make place node).2.slot? q = some b) :
      (q = h.slots.size ∧ b = ⟨node, 0, place⟩) ∨ h.slot? q = some b := by
    rw [slot?_make] at hq
    split at hq
    next here => exact .inl ⟨here, (Option.some.inj hq).symm⟩
    next => exact .inr hq
  refine ⟨fun {q b} hq => ?_, fun {q r at_} hq hr filled => ?_, fun {q b} hq => ?_, fun x hx => ?_⟩
  · obtain ⟨rfl, rfl⟩ | hq := slots hq
    · exact stands
    · exact (f.stands hq).mono goes (at_make · place node)
  · obtain ⟨b, hb, here⟩ := hq
    obtain ⟨b', hb', same⟩ := hr
    obtain ⟨rfl, rfl⟩ | old := slots hb
    · obtain ⟨rfl, rfl⟩ | old' := slots hb'
      · rfl
      · obtain rfl : place = at_ := here
        exact absurd ⟨b', old', same⟩ (fresh filled r)
    · obtain ⟨rfl, rfl⟩ | old' := slots hb'
      · obtain rfl : place = at_ := same
        exact absurd ⟨b, old, here⟩ (fresh filled q)
      · exact f.unique ⟨b, old, here⟩ ⟨b', old', same⟩ filled
  · rw [links_make h place hn]
    obtain ⟨rfl, rfl⟩ | hq := slots hq
    · have unheld : holds handles h.slots.size = 0 := Multiset.countP_eq_zero.2 fun x hx here =>
        absurd (f.held x hx).lt_size (Nat.not_lt.2 (Nat.le_of_eq here.symm))
      have unlinked : h.links h.slots.size = 0 := by
        by_contra more
        obtain ⟨p, slot, hp, hn⟩ := exists_of_links_pos (Nat.pos_of_ne_zero more)
        exact Nat.lt_irrefl _ ((f.stands hp).cached _ hn).2.lt_size
      rw [unheld, unlinked]
    · exact f.owners hq
  · exact at_make (f.held x hx) place node

theorem at_put (hp : h.slot? p = some slot) (same : slot'.place = slot.place) (hq : h.At q place) :
    (h.put p (some slot')).At q place := by
  obtain ⟨other, hq, rfl⟩ := hq
  by_cases here : q = p
  · subst here
    obtain rfl := Option.some.inj (hp.symm.trans hq)
    exact ⟨slot', by rw [slot?_put hp, if_pos rfl], same⟩
  · exact ⟨other, by rw [slot?_put hp, if_neg here, hq], rfl⟩

theorem at_of_put (hp : h.slot? p = some slot) (same : slot'.place = slot.place)
    (hq : (h.put p (some slot')).At q place) : h.At q place := by
  obtain ⟨other, hq, rfl⟩ := hq
  rw [slot?_put hp] at hq
  split at hq
  next here =>
    subst here
    obtain rfl := Option.some.inj hq
    exact ⟨slot, hp, same.symm⟩
  next => exact ⟨other, hq, rfl⟩

/-- A node is replaced by one for the same place, and the handles change with it. -/
theorem Fits.put (f : h.Fits st handles) (hp : h.slot? p = some slot) (same : slot'.place = slot.place)
    (stands : h.Stands st p slot')
    (owners : slot'.owners = holds handles' p + (h.put p (some slot')).links p)
    (others : ∀ q ≠ p, holds handles' q + (h.put p (some slot')).links q =
      holds handles q + h.links q)
    (held : ∀ x ∈ handles', h.At x.1 x.2) : (h.put p (some slot')).Fits st handles' where
  stands {q b} hq := by
    rw [slot?_put hp] at hq
    split at hq
    next here =>
      subst here
      obtain rfl := Option.some.inj hq
      exact stands.mono .refl (at_put hp same)
    next => exact (f.stands hq).mono .refl (at_put hp same)
  unique hq hr := f.unique (at_of_put hp same hq) (at_of_put hp same hr)
  owners {q b} hq := by
    rw [slot?_put hp] at hq
    split at hq
    next here =>
      subst here
      obtain rfl := Option.some.inj hq
      exact owners
    next elsewhere => rw [f.owners hq, others q elsewhere]
  held x hx := at_put hp same (held x hx)

/-- Where only the owners of a node change, the handles on it change with them. -/
theorem Fits.recount (f : h.Fits st handles) (hp : h.slot? p = some slot) {owners : Nat}
    (here : owners = holds handles' p + h.links p)
    (others : ∀ q ≠ p, holds handles' q = holds handles q)
    (held : ∀ x ∈ handles', h.At x.1 x.2) :
    (h.put p (some { slot with owners })).Fits st handles' := by
  have links (q : Address) : (h.put p (some { slot with owners })).links q = h.links q :=
    Nat.add_right_cancel (links_put hp (some { slot with owners }) q)
  obtain ⟨reached, offset, head, source, cached⟩ := f.stands hp
  refine f.put hp rfl ⟨reached, offset, head, source, cached⟩ ?_ (fun q hq => ?_) held
  · rw [links, here]
  · rw [links, others q hq]

/-- A new hold is a handle. -/
theorem Fits.hold (f : h.Fits st handles) (hp : h.At p place) :
    (h.hold p).Fits st ((p, place) ::ₘ handles) ∧ ∀ {q r}, h.At q r → (h.hold p).At q r := by
  obtain ⟨slot, hc, rfl⟩ := hp
  simp only [Heap.hold, hc]
  refine ⟨f.recount hc ?_ (fun q hq => ?_) ?_, at_put hc rfl⟩
  · rw [holds_cons, if_pos rfl, f.owners hc, Nat.add_right_comm]
  · rw [holds_cons, if_neg hq.symm, Nat.add_zero]
  · exact Multiset.forall_mem_cons.2 ⟨⟨slot, hc, rfl⟩, f.held⟩

/-- A handle is handed over to the node before. -/
theorem Fits.cache {head : α} {source offset owners : Nat} {next : Address}
    (f : h.Fits st ((next, place.next) ::ₘ handles))
    (hp : h.slot? p = some ⟨⟨offset, .cons head none source⟩, owners, place⟩) (later : p < next) :
    (h.put p (some ⟨⟨offset, .cons head (some next) source⟩, owners, place⟩)).Fits st handles := by
  obtain ⟨there, held⟩ := Multiset.forall_mem_cons.1 f.held
  obtain ⟨reached, same, shows, origin, -⟩ := f.stands hp
  have links (q : Address) := links_put hp (some ⟨⟨offset, .cons head (some next) source⟩, owners, place⟩) q
  simp only [Slot.next?, Option.bind_some, reduceCtorEq, if_false, Nat.add_zero, Option.some.injEq] at links
  have count := f.owners hp
  refine f.put hp rfl ⟨reached, same, shows, fun _ _ _ hk => ?_, fun _ hn => ?_⟩ ?_ (fun q hq => ?_) held
  · obtain ⟨rfl, rfl, rfl⟩ := hk
    exact origin _ _ _ rfl
  · obtain rfl := Option.some.inj hn
    exact ⟨later, there⟩
  · rw [links, if_neg (Nat.ne_of_gt later)]
    rw [holds_cons, if_neg (Nat.ne_of_gt later)] at count
    exact count
  · rw [links, holds_cons]
    omega

/-- Where a node has other owners, letting go of a handle leaves it there. -/
theorem Fits.release (f : h.Fits st ((p, place) ::ₘ handles)) (hc : h.slot? p = some slot) :
    (h.put p (some { slot with owners := slot.owners - 1 })).Fits st handles := by
  refine f.recount hc ?_ (fun q hq => ?_) (Multiset.forall_mem_cons.1 f.held).2
  · rw [f.owners hc, holds_cons, if_pos rfl]
    omega
  · rw [holds_cons, if_neg hq.symm, Nat.add_zero]

/-- The handles after a node has gone: the node that it has cached is held in its place. -/
def inherit (slot : Slot α) (handles : Multiset (Address × Position)) : Multiset (Address × Position) :=
  match slot.next? with
  | some next => (next, slot.place.next) ::ₘ handles
  | none => handles

theorem holds_inherit (slot : Slot α) (handles : Multiset (Address × Position)) (q : Address) :
    holds (inherit slot handles) q = holds handles q + if slot.next? = some q then 1 else 0 := by
  unfold inherit
  cases slot.next? with
  | none => rfl
  | some next => simp only [holds_cons, Option.some.injEq]

/-- Where a node has no other owner it goes. -/
theorem Fits.free (f : h.Fits st ((p, place) ::ₘ handles)) (hc : h.slot? p = some slot)
    (last : slot.owners ≤ 1) : (h.put p none).Fits st (inherit slot handles) := by
  have count := f.owners hc
  rw [holds_cons, if_pos rfl] at count
  have kept {q : Address} {b : Slot α} (hq : (h.put p none).slot? q = some b) :
      q ≠ p ∧ h.slot? q = some b := by
    rw [slot?_put hc] at hq
    split at hq
    next => exact absurd hq nofun
    next elsewhere => exact ⟨elsewhere, hq⟩
  have stays {q : Address} {r : Position} (hq : q ≠ p) (hr : h.At q r) : (h.put p none).At q r := by
    obtain ⟨b, hb, rfl⟩ := hr
    exact ⟨b, by rw [slot?_put hc, if_neg hq, hb], rfl⟩
  have unlinked {q : Address} {b : Slot α} (hq : h.slot? q = some b) : b.next? ≠ some p := fun hn => by
    have := links_pos hq hn
    omega
  refine ⟨fun {q b} hq => ?_, fun {q r at_} hq hr => ?_, fun {q b} hq => ?_, fun x hx => ?_⟩
  · obtain ⟨reached, same, shows, origin, cached⟩ := f.stands (kept hq).2
    refine ⟨reached, same, shows, origin, fun next hn => (cached next hn).imp_right (stays ?_)⟩
    rintro rfl
    exact unlinked (kept hq).2 hn
  · have before {q : Address} (hq : (h.put p none).At q at_) : h.At q at_ :=
      hq.imp fun _ => And.imp_left fun hb => (kept hb).2
    exact f.unique (before hq) (before hr)
  · obtain ⟨elsewhere, hb⟩ := kept hq
    have links := links_put hc none q
    have owners := f.owners hb
    rw [holds_cons, if_neg elsewhere.symm] at owners
    rw [holds_inherit]
    simp only [Option.bind_none, reduceCtorEq, if_false] at links
    omega
  · have others {x : Address × Position} (hx : x ∈ handles) : (h.put p none).At x.1 x.2 := by
      refine stays ?_ ((Multiset.forall_mem_cons.1 f.held).2 x hx)
      rintro rfl
      have : 0 < holds handles x.1 := Multiset.countP_pos.2 ⟨x, hx, rfl⟩
      omega
    unfold inherit at hx
    split at hx
    next next hn =>
      rcases Multiset.mem_cons.1 hx with rfl | hx
      · obtain ⟨later, there⟩ := (f.stands hc).cached next hn
        exact stays (Nat.ne_of_gt later) there
      · exact others hx
    next => exact others hx

/-- **Letting go of a handle takes away what nobody else owns**, and everything else fits as before. -/
theorem Fits.unlink {steps : Nat} (f : h.Fits st ((p, place) ::ₘ handles))
    (enough : h.slots.size ≤ p + steps) : (h.unlink steps p).Fits st handles := by
  induction steps generalizing h p place with
  | zero =>
    have there := (Multiset.forall_mem_cons.1 f.held).1.lt_size
    exact absurd there (Nat.not_lt_of_le enough)
  | succ steps ih =>
    obtain ⟨slot, hc⟩ := (Multiset.forall_mem_cons.1 f.held).1.slot?_eq
    simp only [Heap.unlink, hc]
    split
    next last =>
      have freed := f.free hc last
      unfold inherit at freed
      split
      next next hn =>
        have later : p + 1 ≤ next := ((f.stands hc).cached next hn).1
        rw [hn] at freed
        refine ih freed ?_
        calc (h.put p none).slots.size = h.slots.size := Array.size_setIfInBounds
          _ ≤ p + 1 + steps := Nat.add_right_comm p 1 steps ▸ enough
          _ ≤ next + steps := Nat.add_le_add_right later steps
      next hn =>
        rw [hn] at freed
        exact freed
    next => exact f.release hc

theorem At.head?_eq (hp : h.At p place) (f : h.Fits st handles) : h.head? p = st.head? place := by
  obtain ⟨slot, hc, rfl⟩ := hp
  rw [Heap.head?, hc, Option.bind_some, (f.stands hc).head]

theorem At.offset_eq (hp : h.At p place) (f : h.Fits st handles) : h.offset p = place.offset := by
  obtain ⟨slot, hc, rfl⟩ := hp
  rw [Heap.offset, hc, Option.elim_some, (f.stands hc).offset]

theorem At.reached (hp : h.At p place) (f : h.Fits st handles) : st.Reached place := by
  obtain ⟨slot, hc, rfl⟩ := hp
  exact (f.stands hc).reached

/-- Two nodes are one exactly if their places are. -/
theorem Fits.beq_eq (f : h.Fits st handles) {r : Position} (hp : h.At p place) (hq : h.At q r) :
    (p == q || ((h.head? p).isNone && (h.head? q).isNone)) = st.samePlace place r := by
  rw [Store.samePlace, Store.isEnd, Store.isEnd, hp.head?_eq f, hq.head?_eq f]
  by_cases same : p = q
  · subst same
    obtain ⟨slot, hc, rfl⟩ := hp
    simp [hq.place_eq hc]
  · by_cases here : place = r
    · subst here
      obtain rfl : place = .empty := by
        by_contra filled
        exact same (f.unique hp hq filled)
      simp [Store.head?]
    · simp only [beq_eq_false_iff_ne.2 same, beq_eq_false_iff_ne.2 here]

end Heap

/-! ## 3. The next place of a store -/

namespace Source

variable {α : Type} {s : Source α} {o : Nat}

/-- What the chain keeps of a sequence outside its nodes. -/
def spring (s : Source α) : Spring α := ⟨s.feed, s.seen.size, s.pulls⟩

/-- The token that the feed gives stands at the next place. -/
theorem getElem?_seen_pull (going : s.ended = false) : s.pull.seen[s.seen.size]? = s.feed.next.1 := by
  obtain ⟨feed, seen, ended, pulls⟩ := s
  rcases hn : feed.next with ⟨_ | t, rest⟩ <;> simp [pull, hn]

theorem spring_pull (s : Source α) : s.pull.spring = s.spring.ask := by
  obtain ⟨feed, seen, ended, pulls⟩ := s
  rcases hn : feed.next with ⟨_ | t, rest⟩ <;> simp [pull, spring, Spring.ask, hn]

/-- To ask the feed reaches one more place. -/
theorem reached_of_reached_pull (going : s.ended = false) (ho : s.pull.reached o)
    (le : o ≤ s.pull.tokens.length) : s.reached o ∨ o = s.seen.size := by
  obtain ⟨feed, seen, ended, pulls⟩ := s
  obtain rfl : ended = false := going
  rcases hn : feed.next with ⟨_ | t, rest⟩
  · simp [pull, reached, tokens, hn] at ho le ⊢
    omega
  · simp [pull, reached, tokens, hn] at ho le ⊢
    omega

end Source

namespace Position

theorem mark_ne_empty (source offset : Nat) : Position.mark source offset ≠ .empty := by
  rintro ⟨⟩

theorem next_inj {p q : Position} (filled : p ≠ .empty) (h : p.next = q.next) : p = q := by
  cases p with
  | empty => exact absurd rfl filled
  | mark source offset =>
    cases q with
    | empty => exact absurd h nofun
    | mark n o =>
      obtain ⟨rfl, same⟩ := Position.mark.inj h
      rw [Nat.succ.inj same]

theorem next_ne_first (p : Position) (source : Nat) : p.next ≠ .mark source 0 := by
  cases p with
  | empty => exact nofun
  | mark n o => exact fun h => Nat.succ_ne_zero o (Position.mark.inj h).2

end Position

namespace Store

variable {α : Type} {st : Store α} {p q : Position}

theorem tail_of_end (last : st.head? p = none) : st.tail p = (p, st) := by
  cases p with
  | empty => rfl
  | mark source offset => rw [tail, isEnd, last]; rfl

theorem tail_of_head? {source offset : Nat} (more : (st.head? (.mark source offset)).isSome) :
    st.tail (.mark source offset) =
      (.mark source (offset + 1), st.update source fun s => s.force (offset + 1)) := by
  rw [tail, isEnd, Option.isNone_eq_false_iff.2 more, if_neg Bool.false_ne_true]

theorem source_lt_of_reached {source offset : Nat} (h : st.Reached (.mark source offset)) :
    source < st.sources.size := by
  obtain ⟨s, hs, -⟩ := h
  exact (Array.getElem?_eq_some_iff.1 hs).1

/-- A place with a token whose next place was not reached is the last one that was. -/
theorem exists_frontier {source offset : Nat} (more : (st.head? (.mark source offset)).isSome)
    (late : ¬ st.Reached (.mark source (offset + 1))) :
    ∃ s, st.sources[source]? = some s ∧ s.seen.size = offset + 1 ∧ s.ended = false := by
  obtain ⟨s, hs, t, ht⟩ : ∃ s, st.sources[source]? = some s ∧ ∃ t, s.seen[offset]? = some t := by
    obtain ⟨t, ht⟩ := Option.isSome_iff_exists.1 more
    obtain ⟨s, hs, ht⟩ := Option.bind_eq_some_iff.1 ht
    exact ⟨s, hs, t, ht⟩
  have inside : offset < s.seen.size := (Array.getElem?_eq_some_iff.1 ht).1
  have le : offset + 1 ≤ s.tokens.length := by
    rw [Source.tokens, List.length_append, Array.length_toList]
    omega
  have stuck : s.reached (offset + 1) = false := by
    by_contra reached
    exact late ⟨s, hs, by simpa using reached, le⟩
  simp only [Source.reached, Bool.or_eq_false_iff, decide_eq_false_iff_not] at stuck
  exact ⟨s, hs, by omega, stuck.2⟩

/-- Where the next place was reached, so was the place itself. -/
theorem reached_of_next {source offset : Nat} (h : st.Reached (.mark source (offset + 1))) :
    st.Reached (.mark source offset) := by
  obtain ⟨s, hs, reached, le⟩ := h
  exact ⟨s, hs, Source.reached_of_le reached (Nat.le_succ offset), Nat.le_of_succ_le le⟩

/-- Where the next place was reached, moving on asks no feed. -/
theorem tail_of_reached {source offset : Nat} (more : (st.head? (.mark source offset)).isSome)
    (next : st.Reached (.mark source (offset + 1))) :
    st.tail (.mark source offset) = (.mark source (offset + 1), st) := by
  obtain ⟨s, hs, reached, -⟩ := next
  rw [tail_of_head? more]
  refine congrArg _ ((update_congr fun s' hs' => ?_).trans (st.update_id source))
  obtain rfl := Option.some.inj (hs.symm.trans hs')
  exact Source.force_of_reached reached

/-- Where it was not, moving on asks the feed for the next token. -/
theorem tail_of_late {source offset : Nat} (more : (st.head? (.mark source offset)).isSome)
    (late : ¬ st.Reached (.mark source (offset + 1))) :
    st.tail (.mark source offset) = (.mark source (offset + 1), st.update source Source.pull) := by
  obtain ⟨s, hs, size, going⟩ := exists_frontier more late
  rw [tail_of_head? more]
  refine congrArg _ (update_congr fun s' hs' => ?_)
  obtain rfl := Option.some.inj (hs.symm.trans hs')
  simp [Source.force, Source.reached, size, going]

/-- Moving on reaches no place but the next. -/
theorem reached_of_reached_tail (hq : (st.tail p).2.Reached q) : st.Reached q ∨ q = (st.tail p).1 := by
  cases more : st.head? p with
  | none =>
    rw [tail_of_end more] at hq
    exact .inl hq
  | some t =>
    match p with
    | .empty => exact .inl hq
    | .mark source offset =>
      have more : (st.head? (.mark source offset)).isSome := Option.isSome_iff_exists.2 ⟨t, more⟩
      by_cases next : st.Reached (.mark source (offset + 1))
      · rw [tail_of_reached more next] at hq
        exact .inl hq
      · rw [tail_of_late more next] at hq ⊢
        obtain ⟨s, hs, size, going⟩ := exists_frontier more next
        match q, hq with
        | .empty, _ => exact .inl trivial
        | .mark n o, ⟨s', hs', reached, le⟩ =>
          rw [getElem?_update] at hs'
          split at hs'
          next same =>
            subst same
            rw [hs, Option.map_some] at hs'
            obtain rfl := Option.some.inj hs'
            obtain early | rfl := Source.reached_of_reached_pull going reached le
            · exact .inl ⟨s, hs, early, Source.tokens_pull going ▸ le⟩
            · exact .inr (congrArg _ size)
          next => exact .inl ⟨s', hs', reached, le⟩

theorem reached_of_reached_takeFault {source : Nat} (hq : (st.takeFault source).2.Reached q) :
    st.Reached q := by
  match q, hq with
  | .empty, _ => trivial
  | .mark n o, ⟨s, hs, reached, le⟩ =>
    simp only [Store.takeFault, getElem?_update] at hs
    split at hs
    next =>
      obtain ⟨s', hs', rfl⟩ := Option.map_eq_some_iff.1 hs
      exact ⟨s', hs', reached, Source.tokens_clearStatus s' ▸ le⟩
    next => exact ⟨s, hs, reached, le⟩

/-- Opening a sequence reaches no place but its first. -/
theorem reached_of_reached_add {feed : Feed α} (hq : (st.add feed).2.Reached q) :
    st.Reached q ∨ q = (st.add feed).1 := by
  match q, hq with
  | .empty, _ => exact .inl trivial
  | .mark source offset, ⟨s, hs, reached, le⟩ =>
    rw [getElem?_add] at hs
    split at hs
    next here =>
      obtain rfl := Option.some.inj hs
      obtain early | rfl := Source.reached_of_reached_pull rfl reached le
      · simp [Source.reached, Source.ofFeed] at early
      · exact .inr (congrArg (Position.mark · 0) here)
    next => exact .inl ⟨s, hs, reached, le⟩

end Store

/-! ## 4. The invariant of a chain -/

namespace MemoChain

variable {α : Type} {c : MemoChain α} {st : Store α} {handles : Multiset (Address × Position)}
  {p q : Address} {place : Position}

/-- Whoever asks the feed asks for a place that was not reached, or for one of these. -/
def Late (h : Heap α) (st : Store α) (pending : Set Position) : Prop :=
  ∀ p slot, h.slot? p = some slot → slot.head?.isSome → slot.next? = none →
    slot.place.next ∉ pending → ¬ st.Reached slot.place.next

/-- Only the owners of nodes have changed, or nodes have gone. -/
theorem Late.of_slots {h h' : Heap α} {pending : Set Position} (late : Late h st pending)
    (slots : ∀ {q b}, h'.slot? q = some b → ∃ a, h.slot? q = some a ∧ a.node = b.node ∧ a.place = b.place) :
    Late h' st pending := by
  rintro q ⟨node, owners, place⟩ hq more open_
  obtain ⟨⟨_, _, _⟩, before, rfl, rfl⟩ := slots hq
  have stuck := late q _ before
  exact stuck more open_

/-- A chain keeps what a store keeps, with these handles on its nodes. -/
structure Follows (c : MemoChain α) (st : Store α) (handles : Multiset (Address × Position)) : Prop where
  fits : c.heap.Fits st handles
  late : Late c.heap st ∅
  springs : c.springs = st.sources.map Source.spring

theorem map_spring_update {st : Store α} {source : Nat} {f : Source α → Source α} {g : Spring α → Spring α}
    (h : ∀ s, st.sources[source]? = some s → (f s).spring = g s.spring) :
    (st.update source f).sources.map Source.spring = (st.sources.map Source.spring).modify source g := by
  refine Array.ext_getElem? fun n => ?_
  simp only [Array.getElem?_map, Store.getElem?_update, Array.getElem?_modify]
  split
  next same =>
    subst same
    cases hs : st.sources[source]? with
    | none => rfl
    | some s => exact congrArg some (h s hs)
  next => rfl

/-- The feed is asked for a place that was not reached, and the node of its answer is made. -/
theorem pull_of_late {st' : Store α} {feeds : List (Feed α)} {forced : List Position} {source offset : Nat}
    (fits : c.heap.Fits st handles) (late : Late c.heap st ∅) (goes : st.Goes feeds forced st')
    (before : ¬ st.Reached (.mark source offset)) (reached : st'.Reached (.mark source offset))
    (only : ∀ q, st'.Reached q → st.Reached q ∨ q = .mark source offset)
    (answer : ((c.springs[source]?).bind fun s => s.feed.next.1) = st'.head? (.mark source offset)) :
    (c.pull source offset).2.heap.Fits st' handles ∧
      Late (c.pull source offset).2.heap st' {.mark source offset} ∧
      (∀ {q r}, c.heap.At q r → (c.pull source offset).2.heap.At q r) ∧
      (c.pull source offset).2.heap.At (c.pull source offset).1 (.mark source offset) := by
  have source_eq (answer : Option α) (head : α) (tail : Option Address) (n : Nat)
      (h : NodeKind.answered source answer = .cons head tail n) : source = n := by
    cases answer with
    | none => exact absurd h nofun
    | some t => exact (NodeKind.cons.inj h).2.2
  let slot (answer : Option α) : Slot α := ⟨⟨offset, .answered source answer⟩, 0, .mark source offset⟩
  have next (answer : Option α) : (slot answer).next? = none := by cases answer <;> rfl
  have head (answer : Option α) : (slot answer).head? = answer := by cases answer <;> rfl
  simp only [MemoChain.pull, answer]
  refine ⟨fits.make goes (fun _ q hq => before (hq.reached fits)) ⟨reached, rfl, head _, ?_, ?_⟩ (next _),
    fun q b hq more open_ hb there => ?_, fun hq => Heap.at_make hq _ _,
    ⟨_, (Heap.slot?_make ..).trans (if_pos rfl), rfl⟩⟩
  · intro _ _ n hk
    rw [source_eq _ _ _ n hk]
  · intro _ hn
    exact absurd ((next _).symm.trans hn) nofun
  · rw [Heap.slot?_make] at hq
    obtain old | same := only _ there
    · split at hq
      next =>
        obtain rfl := Option.some.inj hq
        exact before (Store.reached_of_next old)
      next => exact late q b hq more open_ id old
    · exact hb same

/-- A new sequence is opened in both. -/
theorem Follows.start (f : c.Follows st handles) (input : Input α) :
    (c.start input).2.Follows (st.start input).2 handles ∧
      (∀ {q r}, c.heap.At q r → (c.start input).2.heap.At q r) ∧
      (c.start input).2.heap.At (c.start input).1 (st.start input).1 := by
  cases input with
  | empty =>
    have made : (c.heap.make .empty ⟨0, .nil⟩).2.Fits st handles := by
      refine f.fits.make .refl (fun filled => absurd rfl filled) ⟨trivial, rfl, rfl, ?_, ?_⟩ rfl
      · rintro _ _ _ ⟨⟩
      · rintro _ ⟨⟩
    refine ⟨⟨made, fun q b hq more open_ => ?_, f.springs⟩, fun hq => Heap.at_make hq _ _,
      ⟨_, (Heap.slot?_make ..).trans (if_pos rfl), rfl⟩⟩
    rw [show (c.start .empty).2.heap = (c.heap.make .empty ⟨0, .nil⟩).2 from rfl, Heap.slot?_make] at hq
    split at hq
    next =>
      obtain rfl := Option.some.inj hq
      cases more
    next => exact f.late q b hq more open_
  | feed feed =>
    have size : c.springs.size = st.sources.size := by rw [f.springs, Array.size_map]
    have first : (st.add feed).2.sources[c.springs.size]? = some (Source.ofFeed feed).pull :=
      (st.getElem?_add feed _).trans (if_pos size)
    have answer : (((c.springs.push ⟨feed, 0, 0⟩)[c.springs.size]?).bind fun s => s.feed.next.1) =
        (st.add feed).2.head? (.mark c.springs.size 0) := by
      rw [Store.head?, first, Array.getElem?_push_size]
      exact (Source.getElem?_seen_pull (s := Source.ofFeed feed) rfl).symm
    have name : (st.add feed).1 = .mark c.springs.size 0 := congrArg (Position.mark · 0) size.symm
    obtain ⟨fits, late, on, there⟩ := pull_of_late (c := { c with springs := c.springs.push ⟨feed, 0, 0⟩ })
      f.fits f.late (Store.Goes.refl.opened feed)
      (fun there => Nat.not_lt_of_le (Nat.le_of_eq size.symm) (Store.source_lt_of_reached there))
      (name ▸ st.reached_add feed) (fun q hq => name ▸ Store.reached_of_reached_add hq) answer
    refine ⟨⟨fits, fun q b hq more open_ _ => late q b hq more open_ (b.place.next_ne_first _), ?_⟩, on,
      name ▸ there⟩
    change (c.springs.push ⟨feed, 0, 0⟩).modify c.springs.size Spring.ask =
      (st.sources.push (Source.ofFeed feed).pull).map Source.spring
    rw [Array.map_push, ← f.springs, Source.spring_pull]
    refine Array.ext_getElem? fun n => ?_
    simp only [Array.getElem?_modify, Array.getElem?_push]
    by_cases here : n = c.springs.size
    · rw [if_pos here, if_pos here.symm, if_pos here]
      rfl
    · rw [if_neg here, if_neg (Ne.symm here), if_neg here]

/-- Whoever moves on from a node that has cached nothing asks the feed, and the new node is cached. -/
theorem Follows.tail_late (f : c.Follows st handles) {offset owners source : Nat} {head : α}
    (hc : c.heap.slot? p = some ⟨⟨offset, .cons head none source⟩, owners, .mark source offset⟩) :
    (c.tail p).2.Follows (st.tail (.mark source offset)).2 handles ∧
      (∀ {q r}, c.heap.At q r → (c.tail p).2.heap.At q r) ∧
      (c.tail p).2.heap.At (c.tail p).1 (st.tail (.mark source offset)).1 := by
  obtain ⟨reached, -, shows, -, -⟩ := f.fits.stands hc
  have more : (st.head? (.mark source offset)).isSome := by rw [← shows]; rfl
  have next : ¬ st.Reached (.mark source (offset + 1)) := f.late p _ hc rfl rfl id
  have moved := Store.tail_of_late more next
  obtain ⟨s, hs, size, going⟩ := Store.exists_frontier more next
  have here : (st.update source Source.pull).sources[source]? = some s.pull := by
    rw [Store.getElem?_update, if_pos rfl, hs, Option.map_some]
  have answer : ((c.springs[source]?).bind fun s => s.feed.next.1) =
      (st.update source Source.pull).head? (.mark source (offset + 1)) := by
    rw [f.springs, Array.getElem?_map, hs, Store.head?, here, ← size]
    exact (Source.getElem?_seen_pull going).symm
  have goes : st.Goes _ _ (st.tail (.mark source offset)).2 := Store.Goes.refl.moved reached
  have there := Store.reached_tail reached
  have only (q : Position) : (st.tail (.mark source offset)).2.Reached q → _ :=
    Store.reached_of_reached_tail
  simp only [MemoChain.tail, hc, moved] at goes there only ⊢
  obtain ⟨fits, late, on, made⟩ := pull_of_late f.fits f.late goes next there only answer
  obtain ⟨held, on'⟩ := fits.hold made
  have old : p ≠ (c.pull source (offset + 1)).1 := Nat.ne_of_lt (Heap.At.lt_size ⟨_, hc, rfl⟩)
  have hc' : ((c.pull source (offset + 1)).2.heap.hold (c.pull source (offset + 1)).1).slot? p =
      some ⟨⟨offset, .cons head none source⟩, owners, .mark source offset⟩ := by
    rw [Heap.slot?_hold_of_ne old]
    exact (Heap.slot?_make ..).trans ((if_neg old).trans hc)
  simp only [Heap.cache, hc']
  refine ⟨⟨held.cache hc' (Heap.At.lt_size ⟨_, hc, rfl⟩), fun q b hq more' open_ _ => ?_, ?_⟩,
    fun hq => Heap.at_put hc' rfl (on' (on hq)), Heap.at_put hc' rfl (on' made)⟩
  · rw [Heap.slot?_put hc'] at hq
    split at hq
    next =>
      obtain rfl := Option.some.inj hq
      cases open_
    next elsewhere =>
      refine (late.of_slots Heap.of_slot?_hold) q b hq more' open_ fun same => elsewhere ?_
      have filled := Position.mark_ne_empty source offset
      have here : Position.mark source offset = b.place := Position.next_inj filled same.symm
      exact held.unique ⟨b, hq, here.symm⟩ ⟨_, hc', rfl⟩ filled
  · exact (congrArg (Array.modify · source Spring.ask) f.springs).trans
      (map_spring_update fun s _ => s.spring_pull).symm

/-- Whoever moves on from a node comes to the node of the next place. -/
theorem Follows.tail (f : c.Follows st handles) (hp : c.heap.At p place) :
    (c.tail p).2.Follows (st.tail place).2 handles ∧
      (∀ {q r}, c.heap.At q r → (c.tail p).2.heap.At q r) ∧
      (c.tail p).2.heap.At (c.tail p).1 (st.tail place).1 := by
  obtain ⟨⟨⟨offset, kind⟩, owners, place⟩, hc, rfl⟩ := hp
  obtain ⟨-, -, shows, origin, cached⟩ := f.fits.stands hc
  cases kind with
  | nil =>
    simp only [MemoChain.tail, hc, Store.tail_of_end shows.symm]
    exact ⟨f, id, _, hc, rfl⟩
  | cons head tail source =>
    obtain rfl : place = .mark source offset := origin _ _ _ rfl
    cases tail with
    | some next =>
      have more : (st.head? (.mark source offset)).isSome := by rw [← shows]; rfl
      have there := (cached next rfl).2
      simp only [MemoChain.tail, hc, Store.tail_of_reached more (there.reached f.fits)]
      exact ⟨f, id, there⟩
    | none => exact f.tail_late hc

/-- A handle is added in both. -/
theorem Follows.hold (f : c.Follows st handles) (hp : c.heap.At p place) :
    Follows { c with heap := c.heap.hold p } st ((p, place) ::ₘ handles) ∧
      ∀ {q r}, c.heap.At q r → (c.heap.hold p).At q r :=
  ⟨⟨(f.fits.hold hp).1, f.late.of_slots Heap.of_slot?_hold, f.springs⟩, (f.fits.hold hp).2⟩

/-- A handle is given up in both. -/
theorem Follows.drop (f : c.Follows st ((p, place) ::ₘ handles)) :
    Follows { c with heap := c.heap.drop p } st handles :=
  ⟨f.fits.unlink (Nat.le_add_left _ _), f.late.of_slots (Heap.of_slot?_unlink _), f.springs⟩

/-- A fault is taken out of both. -/
theorem Follows.takeFault (f : c.Follows st handles) (source : Nat) :
    (c.takeFault source).2.Follows (st.takeFault source).2 handles := by
  have goes : st.Goes [] [] (st.takeFault source).2 := Store.Goes.refl.cleared source
  refine ⟨⟨fun hq => (f.fits.stands hq).mono goes id, f.fits.unique, f.fits.owners, f.fits.held⟩,
    fun q b hq more open_ hb there => f.late q b hq more open_ hb (Store.reached_of_reached_takeFault there),
    ?_⟩
  exact (congrArg (Array.modify · source fun s => { s with feed := s.feed.clearStatus }) f.springs).trans
    (map_spring_update (f := fun s => { s with feed := s.feed.clearStatus }) fun _ _ => rfl).symm

theorem Follows.springs_getElem? (f : c.Follows st handles) (source : Nat) :
    c.springs[source]? = (st.sources[source]?).map Source.spring := by
  rw [f.springs, Array.getElem?_map]

theorem Follows.places_eq (f : c.Follows st handles) : c.places = st.places := by
  rw [MemoChain.places, f.springs, Array.foldl_map]
  rfl

theorem Follows.pulls_eq (f : c.Follows st handles) (source : Nat) : c.pulls source = st.pulls source := by
  rw [MemoChain.pulls, f.springs_getElem?, Option.map_map]
  rfl

theorem Follows.status?_eq (f : c.Follows st handles) (source : Nat) :
    c.status? source = st.status? source := by
  rw [MemoChain.status?, f.springs_getElem?, Option.bind_map]
  rfl

/-! ## 5. The mirror -/

/-- The handles of parsers, each on the place of its name. -/
def handed (c : MemoChain α) : Multiset (Address × Position) := (c.names.map Prod.swap : List _)

/-- **A chain of nodes does what a store does.**  A node goes with the place it was made for. -/
def mirror (α : Type) : Medium.Mirror α (MemoChain α) (Store α) Address Position where
  States feeds held c st := c.Follows st (held + c.handed)
  Places c _ p place := c.heap.At p place
  Names c _ name := ∃ p, (name, p) ∈ c.names
  start := by
    rintro feeds held c st f input
    obtain ⟨f', on, there⟩ := f.start input
    have names : (c.start input).2.names = c.names := by cases input <;> rfl
    refine ⟨?_, ⟨on, ?_⟩, there⟩
    · change Follows _ _ (held + handed (c.start input).2)
      rwa [handed, names]
    · exact fun ⟨p, hp⟩ => ⟨p, names.symm ▸ hp⟩
  startNamed := by
    rintro feeds held c st f input
    obtain ⟨f', on, there⟩ := f.start input
    obtain ⟨f'', on'⟩ := f'.hold there
    have names : (c.start input).2.names = c.names := by cases input <;> rfl
    have name : (c.startNamed input).1 = (st.start input).1 := by
      cases input with
      | empty => rfl
      | feed feed => exact congrArg (Position.mark · 0) (by rw [f.springs, Array.size_map])
    have handed : handed (c.startNamed input).2 = ((c.start input).1, (st.start input).1) ::ₘ c.handed := by
      rw [← name, MemoChain.handed, MemoChain.handed, ← names]
      rfl
    refine ⟨?_, ⟨fun hq => on' (on hq), ?_⟩, name, (c.start input).1, List.mem_cons_self⟩
    · change Follows _ _ (held + MemoChain.handed (c.startNamed input).2)
      rw [handed, Multiset.add_cons]
      exact ⟨f''.fits, f''.late, f''.springs⟩
    · exact fun ⟨q, hq⟩ => ⟨q, List.mem_cons_of_mem _ (names.symm ▸ hq)⟩
  named := by
    rintro feeds held c st name f ⟨p, hp⟩
    cases hn : c.names.lookup name with
    | none => exact absurd (List.lookup_eq_none_iff.1 hn _ hp) (by simp)
    | some q =>
      obtain ⟨before, behind, split, -⟩ := List.lookup_eq_some_iff.1 hn
      have there : (q, name) ∈ c.handed := Multiset.mem_coe.2 (List.mem_map.2
        ⟨(name, q), split ▸ List.mem_append_right _ List.mem_cons_self, rfl⟩)
      have at_ := f.fits.held _ (Multiset.mem_add.2 (.inr there))
      change c.heap.At (c.named name) name
      rwa [MemoChain.named, hn]
  head? := fun f hp => hp.head?_eq f.fits
  offset := fun f hp => hp.offset_eq f.fits
  tail := by
    rintro feeds held c st p place f hp
    obtain ⟨f', on, there⟩ := f.tail hp
    have names : (c.tail p).2.names = c.names := by
      unfold MemoChain.tail
      split <;> rfl
    refine ⟨?_, ⟨on, ?_⟩, there⟩
    · change Follows _ _ (held + handed (c.tail p).2)
      rwa [handed, names]
    · exact fun ⟨q, hq⟩ => ⟨q, names.symm ▸ hq⟩
  samePlace := fun f hp hq => f.fits.beq_eq hp hq
  held := fun f hx => f.fits.held _ (Multiset.mem_add.2 (.inl hx))
  hold := by
    rintro feeds held c st p place f hp
    obtain ⟨f', on⟩ := f.hold hp
    rw [← Multiset.cons_add] at f'
    exact ⟨f', on, id⟩
  drop := by
    rintro feeds held c st p place f
    rw [Multiset.cons_add] at f
    exact ⟨f.drop, id⟩
  opened := fun f => by
    change Array.size _ = Array.size _
    rw [f.springs, Array.size_map]
  places := fun f => f.places_eq
  pulls := fun f => f.pulls_eq
  status? := fun f => f.status?_eq
  takeFault := fun f source =>
    ⟨f.takeFault source, ⟨id, id⟩, congrArg Option.join (f.status?_eq source)⟩

/-- Both begin with nothing. -/
theorem follows_new : (new : MemoChain α).Follows Store.new (0 + (new : MemoChain α).handed) where
  fits :=
    { stands := fun hp => absurd (Heap.getElem_of_slot? hp).1 (Nat.not_lt_zero _)
      unique := fun hp => absurd hp.lt_size (Nat.not_lt_zero _)
      owners := fun hp => absurd (Heap.getElem_of_slot? hp).1 (Nat.not_lt_zero _)
      held := fun x hx => absurd hx (Multiset.notMem_zero x) }
  late _ _ hp := absurd (Heap.getElem_of_slot? hp).1 (Nat.not_lt_zero _)
  springs := Array.map_empty.symm

end MemoChain

end LazyPeg
