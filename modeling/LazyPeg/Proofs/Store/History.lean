import LazyPeg.Proofs.Store.Force

/-!
# How a store came about

A store is changed in three ways only: a sequence is opened, a position is moved on, and a fault is
taken out of a status.  `Store.Goes` is the relation between two stores of which the second came from
the first in these ways.  It carries the feeds that were opened and the places that were moved to.

* §1 counts for one sequence: as many questions as tokens were read, and one more for the end.
* §2 defines the relation, and §3 says what stays along it: the tokens of every sequence are those of
  its feed (`Goes.tokens_eq`), and a position that was reached stays reached (`Goes.reached`).
* §4 is the count along a whole history.  **Every feed was asked once for each place up to the farthest
  one that was moved to** (`Goes.pulls_eq`), and not again after it has said that there is no token
  (`Counted.pulls_le`).
-/
namespace LazyPeg

/-! ## 1. Counting for one sequence -/

namespace Source

variable {α : Type} {s : Source α} {o : Nat}

/-- The feed was asked once for each token that was read, and once more if it has ended.  The first
place was reached. -/
structure Counted (s : Source α) : Prop where
  pulls_eq : s.pulls = s.seen.size + if s.ended then 1 else 0
  reached_zero : s.reached 0

theorem counted_pull_ofFeed (feed : Feed α) : (ofFeed feed).pull.Counted := by
  rcases hn : feed.next with ⟨_ | t, rest⟩ <;> constructor <;> simp [reached, pull, ofFeed, hn]

theorem Counted.force (h : s.Counted) (o : Nat) : (s.force o).Counted := by
  refine ⟨?_, reached_force h.reached_zero o⟩
  have count := h.pulls_eq
  unfold Source.force
  split
  next => exact count
  next late =>
    have going := ended_of_not_reached (by simpa using late)
    obtain ⟨feed, seen, ended, pulls⟩ := s
    subst going
    simp only [Bool.false_eq_true, if_false, Nat.add_zero] at count
    rcases hn : feed.next with ⟨_ | t, rest⟩ <;> simp [pull, hn, count]

theorem Counted.forceTo (h : s.Counted) (o : Nat) : (s.forceTo o).Counted := by
  induction o with
  | zero => exact h
  | succ o ih => exact ih.force (o + 1)

/-- There is one question for each place at most. -/
theorem Counted.pulls_le (h : s.Counted) : s.pulls ≤ s.tokens.length + 1 := by
  rw [h.pulls_eq, tokens, List.length_append, Array.length_toList]
  split <;> omega

/-- For each place that was reached the feed was asked. -/
theorem Counted.lt_pulls (h : s.Counted) (ho : s.reached o) (le : o ≤ s.tokens.length) :
    o < s.pulls := by
  rw [h.pulls_eq]
  simp only [reached, Bool.or_eq_true, decide_eq_true_eq] at ho
  rcases ho with ho | ho
  · omega
  · simp only [tokens, ho, if_true, List.append_nil, Array.length_toList] at le ⊢
    omega

/-- To read on to the next place is one question, unless it was reached before. -/
theorem Counted.pulls_force_succ (h : s.Counted) (ho : s.reached o) (inside : o < s.tokens.length) :
    (s.force (o + 1)).pulls = max s.pulls (o + 2) := by
  unfold Source.force
  split
  next reached =>
    have := h.lt_pulls reached inside
    omega
  next late =>
    have going := ended_of_not_reached (by simpa using late)
    have count := h.pulls_eq
    obtain ⟨feed, seen, ended, pulls⟩ := s
    simp only [reached, Bool.or_eq_true, decide_eq_true_eq, not_or] at ho late
    subst going
    simp only [Bool.false_eq_true, if_false, Nat.add_zero, or_false] at count ho late
    rcases hn : feed.next with ⟨_ | t, rest⟩ <;> simp only [pull, hn] <;> omega

/-- To read on to a place is one question for each place on the way that was not reached before. -/
theorem Counted.pulls_forceTo (h : s.Counted) (ho : o ≤ s.tokens.length) :
    (s.forceTo o).pulls = max s.pulls (o + 1) := by
  induction o with
  | zero =>
    have := h.lt_pulls h.reached_zero ho
    rw [Source.forceTo]
    omega
  | succ o ih =>
    have here := reached_forceTo h.reached_zero o
    rw [Source.forceTo, (h.forceTo o).pulls_force_succ here (by rwa [tokens_forceTo]), ih (by omega)]
    omega

theorem counted_clearStatus (h : s.Counted) : ({ s with feed := s.feed.clearStatus } : Source α).Counted :=
  ⟨h.pulls_eq, h.reached_zero⟩

@[simp] theorem tokens_clearStatus (s : Source α) :
    ({ s with feed := s.feed.clearStatus } : Source α).tokens = s.tokens := by
  simp [tokens]

end Source

/-! ## 2. Histories -/

/-- The offset of a position in the sequence with a number. -/
def Position.offsetIn (source : Nat) : Position → Option Nat
  | .empty => none
  | .mark n offset => if n = source then some offset else none

/-- The tokens that stand in the sequence of a position, by the feeds of all sequences. -/
def Position.tokensOf {α : Type} (feeds : List (Feed α)) : Position → List α
  | .empty => []
  | .mark source _ => (feeds[source]?).elim [] Feed.tokens

theorem Position.tokensOf_moveTo {α : Type} (feeds : List (Feed α)) (p : Position) (i : Nat) :
    (p.moveTo i).tokensOf feeds = p.tokensOf feeds := by
  cases p <;> rfl

namespace Store

variable {α : Type} {st st' st'' : Store α} {feeds feeds' : List (Feed α)} {forced forced' : List Position}
  {p : Position}

/-- The second store came from the first by opening sequences on these feeds, in order, by moving to
these places, the last one first, and by taking out faults.  Opening a sequence moves to its first
place. -/
inductive Goes (st : Store α) : List (Feed α) → List Position → Store α → Prop
  | refl : Goes st [] [] st
  | opened {feeds : List (Feed α)} {forced : List Position} {st' : Store α}
    (h : Goes st feeds forced st') (feed : Feed α) :
    Goes st (feeds ++ [feed]) ((st'.add feed).1 :: forced) (st'.add feed).2
  | moved {feeds : List (Feed α)} {forced : List Position} {st' : Store α} {p : Position}
    (h : Goes st feeds forced st') (hp : st'.Reached p) :
    Goes st feeds ((st'.tail p).1 :: forced) (st'.tail p).2
  | cleared {feeds : List (Feed α)} {forced : List Position} {st' : Store α}
    (h : Goes st feeds forced st') (source : Nat) : Goes st feeds forced (st'.takeFault source).2

/-- Histories are put together, the feeds in order and the places in reverse. -/
theorem Goes.trans (h : Goes st feeds forced st') (h' : Goes st' feeds' forced' st'') :
    Goes st (feeds ++ feeds') (forced' ++ forced) st'' := by
  induction h' with
  | refl => rwa [List.append_nil]
  | opened _ feed ih => exact List.append_assoc .. ▸ ih.opened feed
  | moved _ hp ih => exact ih.moved hp
  | cleared _ source ih => exact ih.cleared source

/-! ## 3. What stays -/

theorem getElem?_add (st : Store α) (feed : Feed α) (n : Nat) :
    (st.add feed).2.sources[n]? =
      if n = st.sources.size then some (Source.ofFeed feed).pull else st.sources[n]? :=
  Array.getElem?_push

/-- Moving on from a reached position is reading on to the next place. -/
theorem tail_eq (h : st.Reached p) :
    st.tail p = (p.moveTo (min (p.offset + 1) (st.sequence p).length),
      st.forceTo p (min (p.offset + 1) (st.sequence p).length)) := by
  have one := h.shows.skip 1
  rw [Position.moveTo_offset] at one
  exact one

theorem Reached.add (h : st.Reached p) (feed : Feed α) : (st.add feed).2.Reached p := by
  match p, h with
  | .empty, _ => trivial
  | .mark n place, ⟨s, hs, there⟩ =>
    have old : n ≠ st.sources.size := Nat.ne_of_lt (Array.getElem?_eq_some_iff.1 hs).1
    exact ⟨s, by rw [getElem?_add, if_neg old, hs], there⟩

theorem Reached.takeFault (h : st.Reached p) (source : Nat) : (st.takeFault source).2.Reached p := by
  match p, h with
  | .empty, _ => trivial
  | .mark n place, ⟨s, hs, reached, le⟩ =>
    simp only [Reached, Store.takeFault, getElem?_update, hs, Option.map_some]
    split
    · exact ⟨_, rfl, reached, by simpa using le⟩
    · exact ⟨s, rfl, reached, le⟩

/-- Every position that was reached stays so. -/
theorem Goes.reached (h : Goes st feeds forced st') (hp : st.Reached p) : st'.Reached p := by
  induction h with
  | refl => exact hp
  | opened _ feed ih => exact ih.add feed
  | moved _ _ ih => exact ih.tail _
  | cleared _ source ih => exact ih.takeFault source

/-- The tokens of all sequences, in order. -/
def tokenLists (st : Store α) : List (List α) := st.sources.toList.map Source.tokens

theorem sequence_eq (st : Store α) (source offset : Nat) :
    st.sequence (.mark source offset) = (st.tokenLists[source]?).getD [] := by
  rw [sequence, tokenLists, List.getElem?_map, Array.getElem?_toList]
  cases st.sources[source]? <;> rfl

theorem tokenLists_update (st : Store α) (source : Nat) {f : Source α → Source α}
    (hf : ∀ s, (f s).tokens = s.tokens) : (st.update source f).tokenLists = st.tokenLists := by
  refine List.ext_getElem? fun n => ?_
  simp only [tokenLists, List.getElem?_map, Array.getElem?_toList, getElem?_update]
  split
  · rw [Option.map_map]
    exact congrArg (Option.map · st.sources[n]?) (funext hf)
  · rfl

theorem tokenLists_tail (hp : st.Reached p) : (st.tail p).2.tokenLists = st.tokenLists := by
  rw [tail_eq hp]
  match p with
  | .empty => rfl
  | .mark source offset => exact st.tokenLists_update source fun s => s.tokens_forceTo _

/-- The tokens of the sequences that were there stay, and those of the opened ones are the tokens of
their feeds. -/
theorem Goes.tokenLists_eq (h : Goes st feeds forced st') :
    st'.tokenLists = st.tokenLists ++ feeds.map Feed.tokens := by
  induction h with
  | refl => exact (List.append_nil _).symm
  | @opened feeds _ st' _ feed ih =>
    have first : (Source.ofFeed feed).pull.tokens = feed.tokens := by
      rw [Source.tokens_pull rfl, Source.tokens_ofFeed]
    have added : (st'.add feed).2.tokenLists = st'.tokenLists ++ [feed.tokens] := by
      simp only [tokenLists, add, Array.toList_push, List.map_append, List.map_cons, List.map_nil, first]
    rw [added, ih, List.map_append, List.append_assoc, List.map_singleton]
  | moved _ hp ih => rw [tokenLists_tail hp, ih]
  | cleared _ source ih => exact (tokenLists_update _ source Source.tokens_clearStatus).trans ih

/-- **The sequence of a position holds the tokens of its feed.** -/
theorem Goes.tokens_eq (h : Goes new feeds forced st) (p : Position) :
    st.sequence p = p.tokensOf feeds := by
  match p with
  | .empty => rfl
  | .mark source offset =>
    have lists : st.tokenLists = feeds.map Feed.tokens := h.tokenLists_eq
    rw [sequence_eq, lists, List.getElem?_map, Position.tokensOf]
    cases feeds[source]? <;> rfl

/-- The tokens of a sequence stay. -/
theorem Goes.sequence_eq_of_reached (h : Goes st feeds forced st') (hp : st.Reached p) :
    st'.sequence p = st.sequence p := by
  match p, hp with
  | .empty, _ => rfl
  | .mark source offset, ⟨s, hs, _⟩ =>
    have inside : source < st.tokenLists.length := by
      simpa [tokenLists] using (Array.getElem?_eq_some_iff.1 hs).1
    rw [sequence_eq, sequence_eq, h.tokenLists_eq, List.getElem?_append_left inside]

/-- What stands at a position that was reached stays. -/
theorem Goes.head?_eq (h : Goes st feeds forced st') (hp : st.Reached p) : st'.head? p = st.head? p := by
  rw [Store.head?_eq (h.reached hp), Store.head?_eq hp, h.sequence_eq_of_reached hp]

theorem Goes.size_eq (h : Goes st feeds forced st') :
    st'.sources.size = st.sources.size + feeds.length := by
  have lists := congrArg List.length h.tokenLists_eq
  simpa [tokenLists] using lists

/-! ## 4. The number of questions -/

/-- All sequences are counted. -/
def Counted (st : Store α) : Prop :=
  ∀ (n : Nat) (s : Source α), st.sources[n]? = some s → s.Counted

theorem counted_new : (new : Store α).Counted := fun _ _ hs => absurd hs (by simp [new])

theorem Counted.update (h : st.Counted) (source : Nat) {f : Source α → Source α}
    (hf : ∀ s, s.Counted → (f s).Counted) : (st.update source f).Counted := by
  intro n s hs
  rw [getElem?_update] at hs
  split at hs
  · obtain ⟨s', hs', rfl⟩ := Option.map_eq_some_iff.1 hs
    exact hf s' (h n s' hs')
  · exact h n s hs

theorem Counted.tail (h : st.Counted) (hp : st.Reached p) : (st.tail p).2.Counted := by
  rw [tail_eq hp]
  match p with
  | .empty => exact h
  | .mark source offset => exact h.update source fun s hs => hs.forceTo _

theorem Goes.counted (h : Goes st feeds forced st') (hst : st.Counted) : st'.Counted := by
  induction h with
  | refl => exact hst
  | opened _ feed ih =>
    intro n s hs
    rw [getElem?_add] at hs
    split at hs
    · obtain rfl := Option.some.inj hs
      exact Source.counted_pull_ofFeed feed
    · exact ih n s hs
  | moved _ hp ih => exact ih.tail hp
  | cleared _ source ih => exact ih.update source fun s hs => Source.counted_clearStatus hs

/-- The questions that it takes to reach a place of the sequence with a number. -/
def asked (source : Nat) (p : Position) : Nat := (p.offsetIn source).elim 0 (· + 1)

theorem pulls_update (st : Store α) (source n : Nat) (f : Source α → Source α) :
    (st.update source f).pulls n =
      if source = n then ((st.sources[n]?).map fun s => (f s).pulls).getD 0 else st.pulls n := by
  simp only [pulls, getElem?_update]
  split
  · rw [Option.map_map]
    rfl
  · rfl

theorem pulls_add (st : Store α) (feed : Feed α) (n : Nat) :
    (st.add feed).2.pulls n = max (st.pulls n) (asked n (st.add feed).1) := by
  have first : (Source.ofFeed feed).pull.pulls = 1 := by
    rcases hf : feed.next with ⟨_ | t, rest⟩ <;> simp [Source.pull, Source.ofFeed, hf]
  rw [pulls, getElem?_add, pulls, asked, add, Position.offsetIn]
  by_cases hn : n = st.sources.size
  · simp [hn, first]
  · simp [hn, Ne.symm hn]

/-- Reading on to a place takes the questions for the places that were not reached before. -/
theorem pulls_forceTo {ts : List α} {i o : Nat} (h : st.Counted) (hp : st.Shows p ts i)
    (ho : o ≤ ts.length) (n : Nat) :
    (st.forceTo p o).pulls n = max (st.pulls n) (asked n (p.moveTo o)) := by
  match p, hp with
  | .empty, _ => exact (Nat.max_zero _).symm
  | .mark source offset, hp =>
    obtain ⟨s, hs, -⟩ := hp.reached
    have tokens : s.tokens = ts := by simpa [sequence, hs] using hp.tokens
    simp only [forceTo, pulls_update, asked, Position.moveTo, Position.offsetIn]
    split
    next same =>
      subst same
      have moved := (h source s hs).pulls_forceTo (tokens ▸ ho)
      simp only [pulls, hs, Option.map_some, Option.getD_some, Option.elim_some, moved]
    next => exact (Nat.max_zero _).symm

theorem pulls_tail (h : st.Counted) (hp : st.Reached p) (n : Nat) :
    (st.tail p).2.pulls n = max (st.pulls n) (asked n (st.tail p).1) := by
  rw [tail_eq hp]
  exact pulls_forceTo h hp.shows (Nat.min_le_right _ _) n

theorem pulls_takeFault (st : Store α) (source n : Nat) :
    (st.takeFault source).2.pulls n = st.pulls n := by
  rw [takeFault, pulls_update]
  split <;> rfl

theorem max_asked_cons (n : Nat) (p : Position) (forced : List Position) (pulls : Nat) :
    max pulls (((p :: forced).filterMap (Position.offsetIn n)).max?.elim 0 (· + 1)) =
      max (max pulls ((forced.filterMap (Position.offsetIn n)).max?.elim 0 (· + 1))) (asked n p) := by
  rw [List.filterMap_cons, asked]
  cases hp : p.offsetIn n with
  | none => simp
  | some o =>
    rw [List.max?_cons]
    cases (forced.filterMap (Position.offsetIn n)).max? with
    | none => simp
    | some far => simp only [Option.elim_some]; omega

/-- **The questions that were asked.**  From one store to another every feed was asked as often as it
takes to reach the farthest of the places moved to. -/
theorem Goes.pulls_eq_max (h : Goes st feeds forced st') (hst : st.Counted) (n : Nat) :
    st'.pulls n =
      max (st.pulls n) ((forced.filterMap (Position.offsetIn n)).max?.elim 0 (· + 1)) := by
  induction h with
  | refl => exact (Nat.max_zero _).symm
  | opened _ feed ih => rw [pulls_add, ih, max_asked_cons]
  | moved before hp ih => rw [pulls_tail (before.counted hst) hp, ih, max_asked_cons]
  | cleared _ source ih => rw [pulls_takeFault, ih]

/-- A feed is asked once at least. -/
theorem Counted.pulls_pos (h : st.Counted) {n : Nat} (hn : n < st.sources.size) : 0 < st.pulls n := by
  obtain ⟨s, hs⟩ : ∃ s, st.sources[n]? = some s := ⟨_, Array.getElem?_eq_getElem hn⟩
  have first := (h n s hs).lt_pulls (h n s hs).reached_zero (Nat.zero_le _)
  simpa [pulls, hs] using first

/-- **One question for each place.**  A feed was asked once more than the largest offset that was ever
moved to says. -/
theorem Goes.pulls_eq (h : Goes new feeds forced st) {n : Nat} (hn : n < st.sources.size) :
    ∃ far, (forced.filterMap (Position.offsetIn n)).max? = some far ∧ st.pulls n = 1 + far := by
  have count := h.pulls_eq_max counted_new n
  have some := (h.counted counted_new).pulls_pos hn
  rw [show (new : Store α).pulls n = 0 from rfl, Nat.zero_max] at count
  cases hfar : (forced.filterMap (Position.offsetIn n)).max? with
  | none =>
    rw [hfar] at count
    exact absurd count (Nat.ne_of_gt some)
  | some far =>
    rw [hfar] at count
    exact ⟨far, rfl, count.trans (Nat.add_comm far 1)⟩

/-- No feed is asked again after it has said that there is no token. -/
theorem Counted.pulls_le (h : st.Counted) (source offset : Nat) :
    st.pulls source ≤ (st.sequence (.mark source offset)).length + 1 := by
  simp only [pulls, sequence]
  cases hs : st.sources[source]? with
  | none => exact Nat.zero_le _
  | some s => exact (h source s hs).pulls_le

/-- For each place that was reached its feed was asked. -/
theorem Counted.offset_lt_pulls (h : st.Counted) {source offset : Nat}
    (hp : st.Reached (.mark source offset)) : offset < st.pulls source := by
  obtain ⟨s, hs, reached, le⟩ := hp
  simpa [pulls, hs] using (h source s hs).lt_pulls reached le

/-- A feed was asked for each place that was reached. -/
theorem Counted.lt_pulls (h : st.Counted) (hp : st.Reached p) {n o : Nat} (ho : p.offsetIn n = some o) :
    o < st.pulls n := by
  cases p with
  | empty => exact absurd ho nofun
  | mark source offset =>
    rw [Position.offsetIn] at ho
    split at ho
    next same =>
      obtain rfl := Option.some.inj ho
      exact same ▸ h.offset_lt_pulls hp
    next => exact absurd ho nofun

end Store

end LazyPeg
