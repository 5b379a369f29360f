import LazyPeg.Source.Tokens

/-!
# Reading on to a place

`Store.forceTo` reads a sequence on until a place is reached, which is all that moving about in a
sequence ever does to a store: a step from a reached place to the next one is `forceTo` that place
(`Store.Shows.tail`), and reading on twice is reading on to the farther of the two places
(`Store.forceTo_forceTo`).  So the state of a store after a parse is given by one number, however
often the parse went back.
-/
namespace LazyPeg

/-! ## 1. Sources -/

namespace Source

variable {α : Type}

/-- Read on until a place is reached. -/
def forceTo : Nat → Source α → Source α
  | 0, s => s
  | o + 1, s => (forceTo o s).force (o + 1)

@[simp] theorem tokens_forceTo (o : Nat) (s : Source α) : (s.forceTo o).tokens = s.tokens := by
  induction o with
  | zero => rfl
  | succ o ih => rw [forceTo, tokens_force, ih]

theorem force_of_reached {s : Source α} {o : Nat} (h : s.reached o) : s.force o = s := if_pos h

theorem reached_of_le {s : Source α} {o o' : Nat} (h : s.reached o) (ho : o' ≤ o) : s.reached o' := by
  simp only [reached, Bool.or_eq_true, decide_eq_true_eq] at h ⊢
  exact h.imp_left (Nat.lt_of_le_of_lt ho)

theorem forceTo_of_reached {s : Source α} {o : Nat} (h : s.reached o) : s.forceTo o = s := by
  induction o with
  | zero => rfl
  | succ o ih => rw [forceTo, ih (reached_of_le h (Nat.le_succ o)), force_of_reached h]

/-- Every place that was reached stays so. -/
theorem reached_forceTo_of_reached {s : Source α} {place : Nat} (h : s.reached place) (o : Nat) :
    (s.forceTo o).reached place := by
  induction o with
  | zero => exact h
  | succ o ih => exact reached_force ih (o + 1)

/-- Where the first place was reached, reading on reaches every place. -/
theorem reached_forceTo {s : Source α} (h : s.reached 0) (o : Nat) : (s.forceTo o).reached o := by
  induction o with
  | zero => exact h
  | succ o ih => exact reached_force_succ ih

/-- From a reached place the next one is a single step away. -/
theorem forceTo_succ_of_reached {s : Source α} {o : Nat} (h : s.reached o) :
    s.forceTo (o + 1) = s.force (o + 1) := by
  rw [forceTo, forceTo_of_reached h]

theorem forceTo_forceTo {s : Source α} (h : s.reached 0) (o o' : Nat) :
    (s.forceTo o).forceTo o' = s.forceTo (max o o') := by
  rcases Nat.le_total o' o with ho | ho
  · rw [Nat.max_eq_left ho, forceTo_of_reached (reached_of_le (reached_forceTo h o) ho)]
  · rw [Nat.max_eq_right ho]
    induction ho with
    | refl => exact forceTo_of_reached (reached_forceTo h o)
    | step _ ih => rw [forceTo, ih, forceTo]

end Source

/-! ## 2. Positions of one sequence -/

/-- The place with an offset in the sequence of a position. -/
def Position.moveTo : Position → Nat → Position
  | .empty, _ => .empty
  | .mark source _, i => .mark source i

@[simp] theorem Position.moveTo_moveTo (p : Position) (i j : Nat) :
    (p.moveTo i).moveTo j = p.moveTo j := by
  cases p <;> rfl

@[simp] theorem Position.moveTo_offset (p : Position) : p.moveTo p.offset = p := by
  cases p <;> rfl

namespace Store

variable {α : Type}

@[simp] theorem sequence_moveTo (st : Store α) (p : Position) (i : Nat) :
    st.sequence (p.moveTo i) = st.sequence p := by
  cases p <;> rfl

/-- Read the sequence of a position on until a place of it is reached. -/
def forceTo (st : Store α) (p : Position) (o : Nat) : Store α :=
  match p with
  | .empty => st
  | .mark source _ => st.update source fun s => s.forceTo o

theorem update_update (st : Store α) (source : Nat) (f g : Source α → Source α) :
    (st.update source f).update source g = st.update source fun s => g (f s) := by
  simp only [update, mk.injEq]
  refine Array.ext_getElem? fun n => ?_
  simp only [Array.getElem?_modify]
  split
  · rw [Option.map_map]
    rfl
  · rfl

theorem update_congr {st : Store α} {source : Nat} {f g : Source α → Source α}
    (h : ∀ s, st.sources[source]? = some s → f s = g s) : st.update source f = st.update source g := by
  simp only [update, mk.injEq]
  refine Array.ext_getElem? fun n => ?_
  simp only [Array.getElem?_modify]
  split
  · rename_i hn
    subst hn
    cases hs : st.sources[source]? with
    | none => rfl
    | some s => rw [Option.map_some, Option.map_some, h s hs]
  · rfl

theorem update_id (st : Store α) (source : Nat) : st.update source (fun s => s) = st := by
  simp only [update]
  congr 1
  refine Array.ext_getElem? fun n => ?_
  rw [Array.getElem?_modify]
  split <;> simp

@[simp] theorem sequence_forceTo (st : Store α) (p q : Position) (o : Nat) :
    (st.forceTo p o).sequence q = st.sequence q := by
  match p, q with
  | .empty, _ => rfl
  | .mark _ _, .empty => rfl
  | .mark source _, .mark n _ =>
    simp only [forceTo, sequence, getElem?_update]
    split
    · cases st.sources[n]? <;> simp
    · rfl

/-! ## 3. What a store shows of a sequence -/

/-- The sequence of a position holds these tokens, and its place with offset `i` was reached. -/
structure Shows (st : Store α) (p : Position) (ts : List α) (i : Nat) : Prop where
  tokens : st.sequence p = ts
  reached : st.Reached (p.moveTo i)
  le_length : i ≤ ts.length

theorem Reached.shows {st : Store α} {p : Position} (h : st.Reached p) :
    st.Shows p (st.sequence p) p.offset where
  tokens := rfl
  reached := by rwa [Position.moveTo_offset]
  le_length := offset_le h

namespace Shows

variable {st : Store α} {p : Position} {ts : List α} {i : Nat}

@[simp] theorem offset_moveTo (h : st.Shows p ts i) : (p.moveTo i).offset = i := by
  cases p with
  | empty =>
    have := h.tokens ▸ h.le_length
    exact (Nat.le_zero.1 this).symm
  | mark source offset => rfl

theorem head? (h : st.Shows p ts i) : st.head? (p.moveTo i) = ts[i]? := by
  rw [head?_eq h.reached, sequence_moveTo, h.tokens, h.offset_moveTo]

theorem head?_here (h : st.Shows p ts p.offset) : st.head? p = ts[p.offset]? := by
  rw [← h.head?, Position.moveTo_offset]

theorem isEnd_iff (h : st.Shows p ts i) : st.isEnd (p.moveTo i) ↔ i = ts.length := by
  rw [Store.isEnd_iff h.reached, sequence_moveTo, h.tokens, h.offset_moveTo]

theorem reached_zero (h : st.Shows p ts i) {source offset : Nat} (hp : p = .mark source offset) :
    ∀ s, st.sources[source]? = some s → s.reached 0 := by
  subst hp
  obtain ⟨s, hs, reached, -⟩ := h.reached
  intro s' hs'
  obtain rfl := Option.some.inj (hs.symm.trans hs')
  exact Source.reached_of_le reached (Nat.zero_le i)

/-- Reading on to a place that was reached does nothing. -/
theorem forceTo_eq_self (h : st.Shows p ts i) {o : Nat} (ho : o ≤ i) : st.forceTo p o = st := by
  match p, h with
  | .empty, _ => rfl
  | .mark source offset, h =>
    obtain ⟨s, hs, reached, -⟩ := h.reached
    rw [forceTo, update_congr (g := fun s => s), update_id]
    intro s' hs'
    obtain rfl := Option.some.inj (hs.symm.trans hs')
    exact Source.forceTo_of_reached (Source.reached_of_le reached ho)

/-- Reading on twice is reading on to the farther place. -/
theorem forceTo_forceTo (h : st.Shows p ts i) (o o' : Nat) :
    (st.forceTo p o).forceTo p o' = st.forceTo p (max o o') := by
  match p, h with
  | .empty, _ => rfl
  | .mark source offset, h =>
    simp only [forceTo, update_update]
    exact update_congr fun s hs => Source.forceTo_forceTo (h.reached_zero rfl s hs) o o'

/-- After reading on, the store shows every place on the way. -/
theorem forceTo (h : st.Shows p ts i) {o j : Nat} (ho : o ≤ ts.length) (hj : j ≤ max i o) :
    (st.forceTo p o).Shows p ts j where
  tokens := by rw [sequence_forceTo, h.tokens]
  le_length := Nat.le_trans hj (Nat.max_le.2 ⟨h.le_length, ho⟩)
  reached := by
    have hle := Nat.le_trans hj (Nat.max_le.2 ⟨h.le_length, ho⟩)
    match p, h with
    | .empty, _ => trivial
    | .mark source offset, h =>
      obtain ⟨s, hs, reached, -⟩ := h.reached
      have tokens : s.tokens = ts := by simpa [sequence, hs] using h.tokens
      refine ⟨s.forceTo o, by simp [Store.forceTo, getElem?_update, hs], ?_, by simpa [tokens]⟩
      rcases Nat.le_total o i with ho | ho
      · rw [Nat.max_eq_left ho] at hj
        exact Source.reached_of_le (Source.reached_forceTo_of_reached reached o) hj
      · rw [Nat.max_eq_right ho] at hj
        have zero := Source.reached_of_le reached (Nat.zero_le i)
        exact Source.reached_of_le (Source.reached_forceTo zero o) hj

/-- Moving on from a place with a token reads on to the next place. -/
theorem tail (h : st.Shows p ts i) (hi : i < ts.length) :
    st.tail (p.moveTo i) = (p.moveTo (i + 1), st.forceTo p (i + 1)) := by
  have more : st.isEnd (p.moveTo i) = false := by
    rw [← Bool.not_eq_true, h.isEnd_iff]
    omega
  match p, h with
  | .empty, h => exact absurd hi (by simp [← h.tokens, sequence])
  | .mark source offset, h =>
    obtain ⟨s, hs, reached, -⟩ := h.reached
    simp only [Position.moveTo] at more ⊢
    simp only [Store.tail, more, Bool.false_eq_true, if_false, Store.forceTo, Prod.mk.injEq, true_and]
    refine update_congr fun s' hs' => ?_
    obtain rfl := Option.some.inj (hs.symm.trans hs')
    exact (Source.forceTo_succ_of_reached reached).symm

/-- At the end there is nowhere to move on to. -/
theorem tail_end (h : st.Shows p ts ts.length) :
    st.tail (p.moveTo ts.length) = (p.moveTo ts.length, st) := by
  have last := h.isEnd_iff.2 rfl
  match p, h with
  | .empty, h => rfl
  | .mark source offset, h =>
    simp only [Position.moveTo] at last ⊢
    simp only [Store.tail, last, if_true]

/-- Moving on by some places reads on to the last of them. -/
theorem skip (n : Nat) (h : st.Shows p ts i) :
    Medium.skip n st (p.moveTo i) =
      (p.moveTo (min (i + n) ts.length), st.forceTo p (min (i + n) ts.length)) := by
  induction n generalizing st i with
  | zero => rw [Nat.add_zero, Nat.min_eq_left h.le_length, h.forceTo_eq_self (Nat.le_refl i)]; rfl
  | succ n ih =>
    have step : Medium.skip (n + 1) st (p.moveTo i) =
        Medium.skip n (st.tail (p.moveTo i)).2 (st.tail (p.moveTo i)).1 := rfl
    rw [step]
    rcases Nat.lt_or_ge i ts.length with hi | hi
    · have next := h.forceTo (o := i + 1) hi (Nat.le_max_right i (i + 1))
      have target : min (i + 1 + n) ts.length = min (i + (n + 1)) ts.length := by omega
      rw [h.tail hi, ih next, h.forceTo_forceTo, target, Nat.max_eq_right (by omega)]
    · obtain rfl := Nat.le_antisymm h.le_length hi
      rw [h.tail_end, ih h]
      have target : min (ts.length + n) ts.length = min (ts.length + (n + 1)) ts.length := by omega
      rw [target]

/-- What is shown does not depend on the position by which the sequence is named. -/
theorem of_same (h : st.Shows p ts i) {q : Position} (hq : p.moveTo 0 = q.moveTo 0) :
    st.Shows q ts i where
  tokens := by rw [← sequence_moveTo st q 0, ← hq, sequence_moveTo, h.tokens]
  reached := by
    rw [← Position.moveTo_moveTo q 0 i, ← hq, Position.moveTo_moveTo]
    exact h.reached
  le_length := h.le_length

/-- Two places of one sequence are the same exactly if their offsets are. -/
theorem samePlace_iff {j : Nat} (h : st.Shows p ts i) (h' : st.Shows p ts j) :
    st.samePlace (p.moveTo i) (p.moveTo j) ↔ i = j := by
  have ends := h.isEnd_iff
  have ends' := h'.isEnd_iff
  simp only [samePlace, Bool.or_eq_true, Bool.and_eq_true, beq_iff_eq]
  constructor
  · rintro (hp | ⟨hi, hj⟩)
    · exact h.offset_moveTo.symm.trans ((congrArg Position.offset hp).trans h'.offset_moveTo)
    · exact (ends.1 hi).trans (ends'.1 hj).symm
  · rintro rfl
    exact .inl rfl

end Shows

end Store

end LazyPeg
