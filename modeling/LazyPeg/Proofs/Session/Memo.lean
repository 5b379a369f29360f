import LazyPeg.Proofs.Medium.Chain
import LazyPeg.Proofs.Session.Reaches

/-!
# What was read is kept

What holds of the sequences of a session in a chain of nodes, after any steps in any order
(`Session.Memoizes`): each feed was asked once for each place up to the farthest one that was moved to,
a position shows the token of its offset, there is one node for each place, two positions are the same
place exactly if they have to be, and to drop positions changes nothing for the others.  The session
keeps a list of the places moved to, and its positions know their names (`Watched`).

* §1 compares positions in a store.
* §2 is about dropping in a store, which lets go of nothing.  `Session.SameBut` relates two sessions
  that differ in some positions only, and every step that names none of them keeps them related and has
  one reply in both (`SameBut.step`).
* §3 says what memoizing is, and proves it of every session in a chain that does what a session in a
  store does (`Mirrors.memoizes`).
* §4 puts it together: **every session keeps what was read** (`Session.memoizes_after`), whether in
  nodes or in a store.
-/
namespace LazyPeg

/-! ## 1. The same place -/

namespace Store

variable {α : Type} {st : Store α} {p q : Position}

/-- Two positions in one sequence are the same place exactly if their offsets are equal, and two in
different sequences exactly if both are at the end. -/
theorem samePlace_iff_of_reached (hp : st.Reached p) (hq : st.Reached q) :
    st.samePlace p q ↔
      if p.moveTo 0 = q.moveTo 0 then p.offset = q.offset
      else p.offset = (st.sequence p).length ∧ q.offset = (st.sequence q).length := by
  split
  next same =>
    have shows := hq.shows.of_same same.symm
    have here := hp.shows
    rw [← sequence_moveTo st q 0, ← same, sequence_moveTo] at shows
    have iff := here.samePlace_iff shows
    rw [Position.moveTo_offset, ← Position.moveTo_moveTo p 0, same, Position.moveTo_moveTo,
      Position.moveTo_offset] at iff
    exact iff
  next differ =>
    have apart : p ≠ q := fun h => differ (congrArg (·.moveTo 0) h)
    simp only [samePlace, Bool.or_eq_true, beq_iff_eq, apart, false_or, Bool.and_eq_true, isEnd_iff hp,
      isEnd_iff hq]

end Store

namespace MemoChain

variable {α : Type}

/-- To be one node or two at an end is an equivalence. -/
theorem samePlace_equivalence (c : MemoChain α) : Equivalence fun p q => c.samePlace p q = true where
  refl p := by simp [samePlace]
  symm {p q} h := by
    simp only [samePlace, Bool.or_eq_true, beq_iff_eq, Bool.and_eq_true] at h ⊢
    exact h.imp Eq.symm And.symm
  trans {p q r} h h' := by
    simp only [samePlace, Bool.or_eq_true, beq_iff_eq, Bool.and_eq_true] at h h' ⊢
    rcases h with rfl | ⟨hp, hq⟩
    · exact h'
    · rcases h' with rfl | ⟨_, hr⟩
      · exact .inr ⟨hp, hq⟩
      · exact .inr ⟨hp, hr⟩

end MemoChain

/-! ## 2. Dropping -/

/-- The numbers of the positions that a step names. -/
def Step.places {α : Type} : Step α → List Nat
  | .tail place _ => [place]
  | .clone place => [place]
  | .head place => [place]
  | .offset place => [place]
  | .isEnd place => [place]
  | .describe place => [place]
  | .samePlace place other => [place, other]
  | .take place _ => [place]
  | .count place => [place]
  | .drop place => [place]
  | .parse place _ => [place]
  | .run place _ _ => [place]
  | _ => []

namespace Session

variable {α : Type} {dropped : List Nat} {s s' : Session α} {p : Position} {st : Store α}

/-- Two sessions that differ in some positions only. -/
structure SameBut (dropped : List Nat) (s s' : Session α) : Prop where
  workshop : s'.workshop = s.workshop
  parsers : s'.parsers = s.parsers
  sources : s'.sources = s.sources
  results : s'.results = s.results
  size : s'.positions.size = s.positions.size
  positions : ∀ place ∉ dropped, s'.position? place = s.position? place

theorem SameBut.refl (dropped : List Nat) (s : Session α) : SameBut dropped s s :=
  ⟨rfl, rfl, rfl, rfl, rfl, fun _ _ => rfl⟩

/-- The same reply, and sessions that differ in the same positions only. -/
def Alike (dropped : List Nat) (r r' : Reply α × Session α) : Prop :=
  r'.1 = r.1 ∧ SameBut dropped r.2 r'.2

theorem SameBut.withStore (h : SameBut dropped s s') (st : Store α) :
    SameBut dropped (s.withStore st) (s'.withStore st) where
  workshop := by simp only [Session.withStore, h.workshop]
  parsers := h.parsers
  sources := h.sources
  results := h.results
  size := h.size
  positions := h.positions

theorem SameBut.note (h : SameBut dropped s s') (p : Position) :
    SameBut dropped (s.note p).2 (s'.note p).2 where
  workshop := h.workshop
  parsers := h.parsers
  sources := h.sources
  results := h.results
  size := by simp only [Session.note, Array.size_push, h.size]
  positions place hplace := by rw [position?_note, position?_note, h.size, h.positions place hplace]

theorem SameBut.addSource (h : SameBut dropped s s') (number : Option Nat) :
    SameBut dropped { s with sources := s.sources.push number }
      { s' with sources := s'.sources.push number } where
  workshop := h.workshop
  parsers := h.parsers
  sources := congrArg (·.push number) h.sources
  results := h.results
  size := h.size
  positions := h.positions

theorem SameBut.addResult (h : SameBut dropped s s') (r : Result α) :
    SameBut dropped { s with results := s.results.push r }
      { s' with results := s'.results.push r } where
  workshop := h.workshop
  parsers := h.parsers
  sources := h.sources
  results := congrArg (·.push r) h.results
  size := h.size
  positions := h.positions

/-- A store keeps the place that is let go of. -/
theorem forget_eq (place : Nat) (s : Session α) :
    s.forget place = { s with positions := s.positions.setIfInBounds place none } := by
  cases h : s.position? place with
  | none => exact forget_of_none h
  | some p => exact forget_of_some h

/-- What is forgotten in both is gone in both. -/
theorem SameBut.forgetBoth (h : SameBut dropped s s') (place : Nat) :
    SameBut dropped (s.forget place) (s'.forget place) := by
  rw [forget_eq, forget_eq]
  refine ⟨h.workshop, h.parsers, h.sources, h.results, ?_, fun other hother => ?_⟩
  · simp only [Array.size_setIfInBounds, h.size]
  · have same := h.positions other hother
    simp only [position?] at same
    simp only [position?, Array.getElem?_setIfInBounds, h.size]
    split
    · rfl
    · exact same

/-- What is forgotten in one of them makes a difference there only. -/
theorem SameBut.forget (h : SameBut dropped s s') {place : Nat} (hplace : place ∈ dropped) :
    SameBut dropped s (s'.forget place) := by
  rw [forget_eq]
  refine ⟨h.workshop, h.parsers, h.sources, h.results, ?_, fun other hother => ?_⟩
  · exact (Array.size_setIfInBounds ..).trans h.size
  · rw [← h.positions other hother]
    have apart : place ≠ other := fun same => hother (same ▸ hplace)
    simp only [position?, Array.getElem?_setIfInBounds_ne apart]

theorem SameBut.atPlace (h : SameBut dropped s s') {place : Nat} (hplace : place ∉ dropped)
    {f : Position → Session α → Reply α × Session α} (hf : ∀ p, Alike dropped (f p s) (f p s')) :
    Alike dropped (s.atPlace place f) (s'.atPlace place f) := by
  unfold Session.atPlace
  rw [h.positions place hplace]
  split
  · exact hf _
  · exact ⟨rfl, h⟩

theorem SameBut.atSource (h : SameBut dropped s s') (source : Nat) (ifEmpty : Reply α)
    {f : Nat → Session α → Reply α × Session α} (hf : ∀ n, Alike dropped (f n s) (f n s')) :
    Alike dropped (s.atSource source ifEmpty f) (s'.atSource source ifEmpty f) := by
  unfold Session.atSource
  rw [h.sources]
  split
  · exact hf _
  · exact ⟨rfl, h⟩
  · exact ⟨rfl, h⟩

theorem SameBut.store_eq (h : SameBut dropped s s') : s'.store = s.store :=
  congrArg Workshop.store h.workshop

/-- A reply that reads only the store is the same. -/
theorem SameBut.look (h : SameBut dropped s s') (f : Store α → Reply α) :
    Alike dropped (f s.store, s) (f s'.store, s') :=
  ⟨by rw [h.store_eq], h⟩

theorem SameBut.lookAt (h : SameBut dropped s s') {place : Nat} (hplace : place ∉ dropped)
    (f : Store α → Position → Reply α) : Alike dropped (s.look place f) (s'.look place f) := by
  refine h.atPlace hplace fun p => ?_
  exact h.look fun st => f st p

theorem SameBut.onStore {β : Type} (h : SameBut dropped s s') (f : Store α → β × Store α) :
    (s'.onStore f).1 = (s.onStore f).1 ∧ SameBut dropped (s.onStore f).2 (s'.onStore f).2 := by
  rw [onStore_eq, onStore_eq, h.store_eq]
  exact ⟨rfl, h.withStore _⟩

/-- A position that is noted in both gets one number. -/
theorem SameBut.replyPlace (h : SameBut dropped s s') {q : Position} (same : q = p) :
    Alike dropped (.place (s.note p).1, (s.note p).2) (.place (s'.note q).1, (s'.note q).2) := by
  subst same
  exact ⟨congrArg Reply.place h.size, h.note q⟩

section Steps

variable [Token α] [DecidableEq α]

theorem SameBut.parse (h : SameBut dropped s s') (q : Parser α) (p : Position) :
    Alike dropped (s.parse q p) (s'.parse q p) := by
  simp only [Session.parse, perform_eq, h.workshop, h.store_eq]
  split
  next why _ => exact ⟨rfl, h.withStore _⟩
  next r _ =>
    refine ⟨?_, ((h.withStore _).note r.place).addResult r⟩
    simp only [Session.note, Session.withStore, h.size, h.results]

theorem SameBut.run (h : SameBut dropped s s') (q : Parser α) (filename : String) (p : Position) :
    Alike dropped (s.run q filename p) (s'.run q filename p) := by
  simp only [Session.run, perform_eq, h.workshop, h.store_eq]
  split
  next why _ => exact ⟨rfl, h.withStore _⟩
  next v _ => exact ⟨rfl, h.withStore _⟩
  next d _ => exact ⟨rfl, h.withStore _⟩

omit [Token α] [DecidableEq α] in
theorem SameBut.start (h : SameBut dropped s s') (input : Input α) :
    Alike dropped (s.start input) (s'.start input) := by
  simp only [Session.start, onStore_eq, h.store_eq, h.workshop]
  refine ⟨?_, ((h.withStore _).note _).addSource _⟩
  simp only [Session.note, Session.withStore, h.size, h.sources]

/-- **A step that does not name a dropped position does not miss it.** -/
theorem SameBut.step (h : SameBut dropped s s') {x : Step α} (hx : ∀ place ∈ x.places, place ∉ dropped) :
    Alike dropped (s.step x) (s'.step x) := by
  cases x with
  | start input => exact h.start input
  | tail place count =>
    refine h.atPlace (hx place List.mem_cons_self) fun p => ?_
    have moved := h.onStore fun st => Medium.skip count st p
    exact moved.2.replyPlace moved.1
  | clone place => exact h.atPlace (hx place List.mem_cons_self) fun p => h.replyPlace rfl
  | head place => exact h.lookAt (hx place List.mem_cons_self) _
  | offset place => exact h.lookAt (hx place List.mem_cons_self) _
  | isEnd place => exact h.lookAt (hx place List.mem_cons_self) _
  | describe place => exact h.lookAt (hx place List.mem_cons_self) _
  | samePlace place other =>
    refine h.atPlace (hx place List.mem_cons_self) fun p => ?_
    exact h.lookAt (hx other (List.mem_cons_of_mem _ List.mem_cons_self)) _
  | take place count =>
    refine h.atPlace (hx place List.mem_cons_self) fun p => ?_
    have taken := h.onStore fun st => Medium.take count st p
    exact ⟨congrArg Reply.tokens taken.1, taken.2⟩
  | count place =>
    refine h.atPlace (hx place List.mem_cons_self) fun p => ?_
    have counted := h.onStore fun st => Medium.count st p
    exact ⟨congrArg Reply.number counted.1, counted.2⟩
  | drop place =>
    refine ⟨?_, h.forgetBoth place⟩
    simp only [Session.step, h.positions place (hx place List.mem_cons_self)]
  | pulls source =>
    simp only [Session.step]
    refine h.atSource source _ fun n => ?_
    exact h.look fun st => .number (st.pulls n)
  | isOk source =>
    simp only [Session.step]
    refine h.atSource source _ fun n => ?_
    exact h.look fun st => .flag (st.status? n).join.isNone
  | takeFault source =>
    refine h.atSource source _ fun n => ?_
    have taken := h.onStore fun st => st.takeFault n
    exact ⟨congrArg Reply.fault taken.1, taken.2⟩
  | describeStatus source =>
    simp only [Session.step]
    refine h.atSource source _ fun n => ⟨?_, h⟩
    simp only [h.workshop]
  | parse place parser =>
    refine h.atPlace (hx place List.mem_cons_self) fun p => ?_
    rw [h.parsers]
    split
    · exact h.parse _ p
    · exact ⟨rfl, h⟩
  | run place parser filename =>
    refine h.atPlace (hx place List.mem_cons_self) fun p => ?_
    rw [h.parsers]
    split
    · exact h.run _ filename p
    · exact ⟨rfl, h⟩
  | sameResult result other =>
    simp only [Session.step, h.results, h.workshop]
    split <;> exact ⟨rfl, h⟩
  | describeResult result =>
    simp only [Session.step, h.results, h.workshop]
    split <;> exact ⟨rfl, h⟩
  | wrapResult result =>
    simp only [Session.step, h.results]
    split <;> exact ⟨rfl, h⟩

end Steps

end Session

/-! ## 3. Memoizing -/

namespace Session

variable {α : Type} [Token α] [DecidableEq α]

/-- What a session replies to some steps, one after the other. -/
def replies (s : Session α) : List (Step α) → List (Reply α)
  | [] => []
  | x :: xs => (s.step x).1 :: (s.step x).2.replies xs

variable {ds : List (Description α)} {s s' : Session α} {dropped : List Nat}

theorem SameBut.replies (h : SameBut dropped s s') {xs : List (Step α)}
    (hxs : ∀ x ∈ xs, ∀ place ∈ x.places, place ∉ dropped) : s'.replies xs = s.replies xs := by
  induction xs generalizing s s' with
  | nil => rfl
  | cons x xs ih =>
    obtain ⟨hx, hxs⟩ := List.forall_mem_cons.1 hxs
    obtain ⟨reply, rest⟩ := h.step hx
    rw [Session.replies, Session.replies, reply, ih rest hxs]

/-- A session in which positions were dropped differs in these. -/
theorem sameBut_after_drop (s : Session α) {places : List Nat} (h : places ⊆ dropped) :
    SameBut dropped s (s.after (places.map .drop)) := by
  have drops (s' : Session α) (hs : SameBut dropped s s') :
      SameBut dropped s (s'.after (places.map .drop)) := by
    induction places generalizing s' with
    | nil => exact hs
    | cons place places ih =>
      obtain ⟨hplace, hplaces⟩ := List.cons_subset.1 h
      exact ih hplaces _ (hs.forget hplace)
  exact drops s (.refl dropped s)

/-- Moving on from a position in a session. -/
theorem step_tail {place : Nat} {p : Position} {ts : List α} (hp : s.position? place = some p)
    (hts : s.store.Shows p ts p.offset) (n : Nat) :
    s.step (.tail place n) = (.place s.positions.size,
      ((s.withStore (s.store.forceTo p (min (p.offset + n) ts.length))).note
        (p.moveTo (min (p.offset + n) ts.length))).2) := by
  have skip := hts.skip n
  rw [Position.moveTo_offset] at skip
  rw [step_skip hp, skip]

/-- In a store a place has its offset for good, so the answers follow from the replies. -/
theorem answerAll_eq (s : Session α) (xs : List (Step α)) :
    s.answerAll xs = (s.replies xs).map (Reply.mapPlace Position.offset) := by
  induction xs generalizing s with
  | nil => rfl
  | cons x xs ih => rw [answerAll, replies, List.map_cons, ih]; rfl

/-- A session in a chain of nodes that keeps a list of the places moved to. -/
abbrev Linked (α : Type) := Session α (Watched (MemoChain α)) (Tracked Address)

/-- What holds of the sequences of a session in which these feeds were opened. -/
structure Memoizes (s : Linked α) (feeds : List (Feed α)) : Prop where
  /-- Every feed was asked once more than the largest offset says that was moved to in its sequence.
  That offset is at most the end, so no feed was asked again after it has answered that there is no
  token. -/
  pulls : ∀ (n : Nat) (feed : Feed α), feeds[n]? = some feed →
    ∃ far, (s.store.moves.filterMap (Position.offsetIn n)).max? = some far ∧
      far ≤ feed.tokens.length ∧ Medium.pulls s.store n = 1 + far
  /-- The session tells so of the sequences that it has opened. -/
  asked : ∀ source n, s.sources[source]? = some (some n) →
    n < feeds.length ∧ (s.step (.pulls source)).1 = .number (Medium.pulls s.store n)
  /-- The sequence without tokens has no feed to ask. -/
  asked_empty : ∀ source, s.sources[source]? = some none → (s.step (.pulls source)).1 = .number 0
  /-- A sequence starts before the first token of its input. -/
  start : ∀ input : Input α, ∃ p,
    (s.step (.start input)).1 = .started s.positions.size s.sources.size ∧
    (s.step (.start input)).2.position? s.positions.size = some p ∧
    p.name.offset = 0 ∧ p.name.tokensOf (feeds ++ input.feeds) = input.tokens
  /-- A position stands at a place for which its feed was asked, tells its offset, and shows the token of
  this place. -/
  head : ∀ place p, s.position? place = some p →
    p.name.offset ≤ (p.name.tokensOf feeds).length ∧
    (∀ n o, p.name.offsetIn n = some o → o < Medium.pulls s.store n) ∧
    (s.step (.offset place)).1 = .number p.name.offset ∧
    (s.step (.head place)).1 = .token (p.name.tokensOf feeds)[p.name.offset]?
  /-- Moving on by `n` places leads `n` offsets farther in the same sequence, but not beyond the end. -/
  tail : ∀ place n p, s.position? place = some p → ∃ q,
    (s.step (.tail place n)).1 = .place s.positions.size ∧
    (s.step (.tail place n)).2.position? s.positions.size = some q ∧
    q.name.moveTo 0 = p.name.moveTo 0 ∧
    q.name.offset = min (p.name.offset + n) (p.name.tokensOf feeds).length ∧
    ((s.step (.tail place n)).2.step (.head s.positions.size)).1 =
      .token (p.name.tokensOf feeds)[q.name.offset]?
  /-- The next tokens are those from the offset on. -/
  take : ∀ place n p, s.position? place = some p →
    (s.step (.take place n)).1 = .tokens (((p.name.tokensOf feeds).drop p.name.offset).take n)
  /-- As many tokens are left as stand from the offset on. -/
  count : ∀ place p, s.position? place = some p →
    (s.step (.count place)).1 = .number ((p.name.tokensOf feeds).length - p.name.offset)
  /-- There is one node for each place. -/
  node : ∀ place other p q, s.position? place = some p → s.position? other = some q →
    p.name ≠ .empty → (p.place = q.place ↔ p.name = q.name)
  /-- Positions in one sequence are the same place exactly if their offsets are equal, and positions in
  different ones exactly if both are at the end. -/
  same : ∀ place other p q, s.position? place = some p → s.position? other = some q →
    ∃ b, (s.step (.samePlace place other)).1 = .flag b ∧
      (b = true ↔ if p.name.moveTo 0 = q.name.moveTo 0 then p.name.offset = q.name.offset
        else p.name.offset = (p.name.tokensOf feeds).length ∧
          q.name.offset = (q.name.tokensOf feeds).length)
  /-- To be the same place is an equivalence. -/
  equivalence : Equivalence fun p q : Tracked Address => Medium.samePlace s.store p q = true
  /-- Where positions are dropped, every later step that does not name them has the same answer. -/
  drop : ∀ (dropped : List Nat) (xs : List (Step α)),
    (∀ x ∈ xs, ∀ place ∈ x.places, place ∉ dropped) →
    (s.after (dropped.map .drop)).answerAll xs = s.answerAll xs

/-- A session in a chain goes together with one in a store, which has come about by moving to the places
of the list. -/
abbrev linked (α : Type) : Medium.Mirror α (Watched (MemoChain α)) (Store α) (Tracked Address) Position :=
  (MemoChain.mirror α).watched Store.new

section Linked

variable {s : Linked α} {t : Session α} {feeds : List (Feed α)}

omit [Token α] [DecidableEq α] in
/-- A position of the one session is one of the other, at the place of its name. -/
theorem Mirrors.position?_name (h : Mirrors (linked α) feeds s t) {place : Nat} {p : Tracked Address}
    (hp : s.position? place = some p) :
    t.position? place = some p.name ∧ (linked α).Places s.store t.store p p.name := by
  obtain ⟨marks, outcomes, h⟩ := h
  obtain ⟨hs, ht⟩ := h.position? place
  rw [hs] at hp
  obtain ⟨x, hx, rfl⟩ := Option.map_eq_some_iff.1 hp
  have there := h.places_position hx
  rw [ht, hx, Option.map_some, there.2.1]
  exact ⟨rfl, there.2.1 ▸ there⟩

omit [Token α] [DecidableEq α] in
theorem Mirrors.states (h : Mirrors (linked α) feeds s t) :
    ∃ held, (linked α).States feeds held s.store t.store := by
  obtain ⟨marks, outcomes, h⟩ := h
  exact ⟨_, h.states⟩

omit [Token α] [DecidableEq α] in
theorem Mirrors.sources_eq (h : Mirrors (linked α) feeds s t) : s.sources = t.sources := by
  obtain ⟨marks, outcomes, h⟩ := h
  exact h.sources

omit [Token α] [DecidableEq α] in
/-- The store has come about by moving to the places of the list. -/
theorem Mirrors.goes (h : Mirrors (linked α) feeds s t) : Store.new.Goes feeds s.store.moves t.store := by
  obtain ⟨held, states⟩ := h.states
  exact states.2.1

omit [Token α] [DecidableEq α] in
theorem Mirrors.pulls_eq (h : Mirrors (linked α) feeds s t) (n : Nat) :
    Medium.pulls s.store n = t.store.pulls n := by
  obtain ⟨held, states⟩ := h.states
  exact (linked α).pulls states n

omit [Token α] [DecidableEq α] in
/-- The store shows at the name of a position the tokens of its feed. -/
theorem Mirrors.shows (h : Mirrors (linked α) feeds s t) {place : Nat} {p : Tracked Address}
    (hp : s.position? place = some p) :
    t.store.Shows p.name (p.name.tokensOf feeds) p.name.offset := by
  have shows := (h.position?_name hp).2.2.2.shows
  rwa [h.goes.tokens_eq] at shows

theorem Mirrors.step_head_eq (h : Mirrors (linked α) feeds s t) {place : Nat} {p : Tracked Address}
    (hp : s.position? place = some p) :
    (s.step (.head place)).1 = .token (p.name.tokensOf feeds)[p.name.offset]? := by
  obtain ⟨held, states⟩ := h.states
  rw [step_head hp, (linked α).head? states (h.position?_name hp).2]
  exact congrArg Reply.token (h.shows hp).head?_here

omit [Token α] [DecidableEq α] in
/-- A feed was asked once for each place up to the farthest one that was moved to. -/
theorem Mirrors.exists_farthest (h : Mirrors (linked α) feeds s t) {n : Nat} {feed : Feed α}
    (hfeed : feeds[n]? = some feed) :
    ∃ far, (s.store.moves.filterMap (Position.offsetIn n)).max? = some far ∧
      far ≤ feed.tokens.length ∧ Medium.pulls s.store n = 1 + far := by
  have counted : t.store.Counted := h.goes.counted Store.counted_new
  have inside : n < t.store.sources.size := by
    rw [h.goes.size_eq, Store.new, Array.size_empty, Nat.zero_add]
    exact (List.getElem?_eq_some_iff.1 hfeed).1
  obtain ⟨far, hfar, asked⟩ := h.goes.pulls_eq inside
  have le := counted.pulls_le n 0
  rw [h.goes.tokens_eq, Position.tokensOf, hfeed, Option.elim_some, asked] at le
  exact ⟨far, hfar, by omega, (h.pulls_eq n).trans asked⟩

/-- Moving on by `n` places leads to the place with an offset larger by `n`, or to the end. -/
theorem Mirrors.step_tail (h : Mirrors (linked α) feeds s t) {place : Nat} {p : Tracked Address}
    (hp : s.position? place = some p) (n : Nat) :
    ∃ q, (s.step (.tail place n)).1 = .place s.positions.size ∧
      (s.step (.tail place n)).2.position? s.positions.size = some q ∧
      q.name.moveTo 0 = p.name.moveTo 0 ∧
      q.name.offset = min (p.name.offset + n) (p.name.tokensOf feeds).length ∧
      ((s.step (.tail place n)).2.step (.head s.positions.size)).1 =
        .token (p.name.tokensOf feeds)[q.name.offset]? := by
  obtain ⟨held, states⟩ := h.states
  obtain ⟨-, there⟩ := h.position?_name hp
  obtain ⟨states', -, there'⟩ := (linked α).skip n states there
  have shows := h.shows hp
  have skip := shows.skip n
  rw [Position.moveTo_offset] at skip
  have moved := shows.forceTo (Nat.min_le_right (p.name.offset + n) _) (Nat.le_max_right _ _)
  rw [skip] at states' there'
  have noted := (position?_note (Medium.skip n s.store p).1
    (s.withStore (Medium.skip n s.store p).2) s.positions.size).trans (if_pos rfl)
  have name : (Medium.skip n s.store p).1.name = p.name.moveTo (min (p.name.offset + n) _) := there'.2.1
  have head := (h.step (.tail place n)).2.step_head_eq (p := (Medium.skip n s.store p).1)
    ((congrArg (position? · _) (congrArg Prod.snd (step_skip hp n))).trans noted)
  rw [Step.feeds_eq_nil (by rintro _ ⟨⟩), List.append_nil, name, Position.tokensOf_moveTo] at head
  rw [step_skip hp] at head ⊢
  refine ⟨_, rfl, noted, ?_, ?_, name ▸ head⟩
  · rw [name, Position.moveTo_moveTo]
  · rw [name, moved.offset_moveTo]

/-- **A session in a chain keeps what was read** if it does what a session in a store does. -/
theorem Mirrors.memoizes (h : Mirrors (linked α) feeds s t) (sound : t.Sound) : s.Memoizes feeds where
  pulls n feed hfeed := h.exists_farthest hfeed
  asked source n hn := by
    have inside := sound.sources source n (by rw [source?, ← h.sources_eq, hn]; rfl)
    rw [h.goes.size_eq, Store.new, Array.size_empty, Nat.zero_add] at inside
    refine ⟨inside, ?_⟩
    simp only [Session.step, Session.atSource, hn]
  asked_empty source hn := by simp only [Session.step, Session.atSource, hn]
  start input := by
    refine ⟨(Medium.start s.store input).1, rfl, (position?_note _ _ _).trans (if_pos rfl), ?_⟩
    cases input with
    | empty => exact ⟨rfl, rfl⟩
    | feed f =>
      refine ⟨rfl, ?_⟩
      obtain ⟨held, states⟩ := h.states
      have opened : Medium.opened s.store.inner = feeds.length :=
        ((linked α).opened states).trans (h.goes.size_eq.trans (Nat.zero_add _))
      change (Position.mark (Medium.opened s.store.inner) 0).tokensOf (feeds ++ [f]) = f.tokens
      rw [Position.tokensOf, opened, List.getElem?_concat_length]
      rfl
  head place p hp := by
    obtain ⟨held, states⟩ := h.states
    obtain ⟨-, there⟩ := h.position?_name hp
    have shows := h.shows hp
    have counted : t.store.Counted := h.goes.counted Store.counted_new
    refine ⟨shows.le_length, fun n o ho => ?_, ?_, ?_⟩
    · rw [h.pulls_eq]
      exact counted.lt_pulls there.2.2 ho
    · rw [step_offset hp, (linked α).offset states there]
      rfl
    · exact h.step_head_eq hp
  tail place n p hp := h.step_tail hp n
  take place n p hp := by
    obtain ⟨held, states⟩ := h.states
    obtain ⟨-, there⟩ := h.position?_name hp
    rw [step_take hp, ((linked α).take n states there).1, ← h.goes.tokens_eq]
    exact congrArg Reply.tokens (Store.take_eq n there.2.2)
  count place p hp := by
    obtain ⟨held, states⟩ := h.states
    obtain ⟨-, there⟩ := h.position?_name hp
    rw [step_count hp, ((linked α).count states there).1, ← h.goes.tokens_eq]
    exact congrArg Reply.number (Store.count_eq there.2.2)
  node place other p q hp hq filled := by
    obtain ⟨held, states⟩ := h.states
    have there : s.store.inner.heap.At p.place p.name := (h.position?_name hp).2.1
    have there' : s.store.inner.heap.At q.place q.name := (h.position?_name hq).2.1
    refine ⟨fun same => ?_, fun same => ?_⟩
    · obtain ⟨slot, hc, here⟩ := there
      rw [← here, there'.place_eq (same ▸ hc)]
    · exact states.1.fits.unique there (same ▸ there') filled
  same place other p q hp hq := by
    obtain ⟨held, states⟩ := h.states
    obtain ⟨-, there⟩ := h.position?_name hp
    obtain ⟨-, there'⟩ := h.position?_name hq
    refine ⟨Medium.samePlace s.store p q, by rw [step_samePlace hp hq], ?_⟩
    rw [(linked α).samePlace states there there', ← h.goes.tokens_eq p.name, ← h.goes.tokens_eq q.name]
    exact Store.samePlace_iff_of_reached there.2.2 there'.2.2
  equivalence := s.store.inner.samePlace_equivalence.comap Tracked.place
  drop dropped xs hxs := by
    have same := (t.sameBut_after_drop (List.Subset.refl dropped)).replies hxs
    calc (s.after (dropped.map .drop)).answerAll xs
        = (t.after (dropped.map .drop)).answerAll xs := (h.after _).answerAll xs
      _ = t.answerAll xs := by rw [answerAll_eq, same, answerAll_eq]
      _ = s.answerAll xs := (h.answerAll xs).symm

end Linked

/-! ## 4. Every session -/

variable {ds : List (Description α)} {s : Linked α}

omit [Token α] [DecidableEq α] in
theorem states_linked_new : (linked α).States [] 0 ⟨MemoChain.new, []⟩ (Store.new : Store α) :=
  ⟨MemoChain.follows_new, .refl, fun x hx => absurd hx (Multiset.notMem_zero x)⟩

/-- **Every session keeps what was read.**  Any steps in any order lead to a session that memoizes, with
the feeds of its descriptions and those that the steps have opened.  A session that keeps no list answers
the same, and so does a session in a store. -/
theorem memoizes_after (h : Session.beginIn ⟨MemoChain.new, []⟩ ds = .ok s) (xs : List (Step α)) :
    (s.after xs).Memoizes (Description.feedsAll ds ++ xs.flatMap Step.feeds) ∧
      ∃ (c : Session α (MemoChain α) Address) (t : Session α),
        Session.beginIn MemoChain.new ds = .ok c ∧ Session.begin ds = .ok t ∧
          c.answerAll xs = s.answerAll xs ∧ t.answerAll xs = s.answerAll xs := by
  obtain ⟨t, begun, both⟩ := exists_mirrors_of_begin states_linked_new h
  have reached := (Reaches.begin begun).after xs
  refine ⟨(both.after xs).memoizes reached.sound, ?_⟩
  obtain ⟨why, -, refused⟩ | ⟨c, t', begun', begun'', both'⟩ :=
    mirrors_beginIn (M := MemoChain.mirror α) MemoChain.follows_new ds
  · exact absurd (refused.symm.trans begun) nofun
  · obtain rfl := Except.ok.inj (begun''.symm.trans begun)
    have same := (both.answerAll xs).symm
    exact ⟨c, t', begun', begun, (both'.answerAll xs).trans same, same⟩

/-- Moved on far behind the end, a script of answers is asked up to its first answer without a token,
and not for the one behind that.  The node at the start goes when its position is dropped. -/
theorem memoizes_after_end :
    ∃ s : Linked Char, Session.beginIn ⟨MemoChain.new, []⟩ [] = .ok s ∧
      ∃ s', s' = s.after [.start (.feed (.answers [some 'a', none, some 'b'])), .tail 0 5, .clone 1,
        .drop 0] ∧
      s'.Memoizes [.answers [some 'a', none, some 'b']] ∧
      (s'.step (.pulls 0)).1 = .number 2 ∧ (s'.step (.samePlace 1 2)).1 = .flag true ∧
      (s'.step (.head 1)).1 = .token none ∧
      (s'.store.inner.heap.slot? 0).isNone ∧ (s'.store.inner.heap.slot? 1).isSome := by
  have begun :
      Session.beginIn ⟨MemoChain.new, []⟩ ([] : List (Description Char)) = .ok (_ : Linked Char) := rfl
  obtain ⟨memoizes, -⟩ := memoizes_after begun
    [.start (.feed (.answers [some 'a', none, some 'b'])), .tail 0 5, .clone 1, .drop 0]
  exact ⟨_, begun, _, rfl, memoizes, rfl, rfl, rfl, rfl, rfl⟩

end Session

end LazyPeg
