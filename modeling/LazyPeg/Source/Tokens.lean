import LazyPeg.Source.Store

/-!
# The tokens of a sequence

Seen from outside, a sequence is a list of tokens: those that its feed gives before it first answers
that there is none.  How much of it was read never shows.  This module says so: reading on leaves the
tokens as they are (`Source.tokens_force`, `Store.sequence_tail`), and at a position that was reached
the store shows the token of that place (`Store.head?_eq`).  `tail` leads from a reached position to
the next one, and to itself at the end (`Store.reached_tail`, `Store.offset_tail`).
-/
namespace LazyPeg

/-! ## 1. Sources -/

namespace Source

variable {α : Type}

/-- All tokens of a sequence, read or not. -/
def tokens (s : Source α) : List α := s.seen.toList ++ if s.ended then [] else s.feed.tokens

@[simp] theorem tokens_ofFeed (feed : Feed α) : (ofFeed feed).tokens = feed.tokens := by
  simp [tokens, ofFeed]

/-- Asking the feed once more leaves the tokens as they are. -/
theorem tokens_pull {s : Source α} (h : s.ended = false) : s.pull.tokens = s.tokens := by
  obtain ⟨feed, seen, ended, pulls⟩ := s
  subst h
  have first := feed.next_fst
  have rest := @Feed.tokens_next _ feed
  simp only [pull]
  split
  next t feed' hn =>
    simp only [hn, Option.isSome_some, forall_const] at first rest
    obtain ⟨ts, hts⟩ := List.head?_eq_some_iff.1 first.symm
    simp [tokens, rest, hts]
  next feed' hn =>
    simp only [hn] at first
    simp [tokens, List.head?_eq_none_iff.1 first.symm]

theorem ended_of_not_reached {s : Source α} {offset : Nat} (h : s.reached offset = false) :
    s.ended = false := by
  simp_all [reached]

/-- Reading on leaves the tokens as they are. -/
@[simp] theorem tokens_force (s : Source α) (offset : Nat) : (s.force offset).tokens = s.tokens := by
  unfold force
  split
  next => rfl
  next h => exact tokens_pull (ended_of_not_reached (by simpa using h))

theorem getElem?_seen {s : Source α} {offset : Nat} (h : s.reached offset) :
    s.seen[offset]? = s.tokens[offset]? := by
  simp only [reached, Bool.or_eq_true, decide_eq_true_eq] at h
  rcases h with h | h
  · simp [tokens, List.getElem?_append_left, h]
  · simp [tokens, h]

/-- Every place that was reached stays so. -/
theorem reached_force {s : Source α} {place : Nat} (h : s.reached place) (offset : Nat) :
    (s.force offset).reached place := by
  unfold force
  split
  next => exact h
  next late =>
    obtain ⟨feed, seen, ended, pulls⟩ := s
    simp only [reached, Bool.or_eq_true, decide_eq_true_eq] at h ⊢
    simp only [pull]
    split <;> grind

/-- Reading on reaches the next place. -/
theorem reached_force_succ {s : Source α} {offset : Nat} (h : s.reached offset) :
    (s.force (offset + 1)).reached (offset + 1) := by
  unfold force
  split
  next reached => exact reached
  next late =>
    obtain ⟨feed, seen, ended, pulls⟩ := s
    simp only [reached, Bool.or_eq_true, decide_eq_true_eq] at h late ⊢
    simp only [pull]
    split <;> grind

/-- There are no more tokens than places. -/
theorem length_tokens_lt (s : Source α) : s.tokens.length < s.places := by
  have := s.feed.length_tokens_le
  unfold tokens places
  rw [List.length_append, Array.length_toList]
  split <;> grind

end Source

/-! ## 2. The store -/

namespace Store

variable {α : Type}

/-- The tokens of the sequence in which a position lies. -/
def sequence (st : Store α) : Position → List α
  | .empty => []
  | .mark source _ => (st.sources[source]?).elim [] Source.tokens

/-- A position that can be looked at without asking a feed. -/
def Reached (st : Store α) : Position → Prop
  | .empty => True
  | .mark source offset =>
    ∃ s, st.sources[source]? = some s ∧ s.reached offset ∧ offset ≤ s.tokens.length

/-- A position shows the token of its place. -/
theorem head?_eq {st : Store α} {p : Position} (h : st.Reached p) :
    st.head? p = (st.sequence p)[p.offset]? := by
  match p, h with
  | .empty, _ => rfl
  | .mark source offset, ⟨s, hs, reached, _⟩ =>
    simp [head?, sequence, hs, Position.offset, Source.getElem?_seen reached]

theorem offset_le {st : Store α} {p : Position} (h : st.Reached p) :
    p.offset ≤ (st.sequence p).length := by
  match p, h with
  | .empty, _ => exact Nat.le_refl 0
  | .mark source offset, ⟨s, hs, _, le⟩ => simpa [sequence, hs, Position.offset] using le

/-- A position is at the end if no token of its sequence is left. -/
theorem isEnd_iff {st : Store α} {p : Position} (h : st.Reached p) :
    st.isEnd p ↔ p.offset = (st.sequence p).length := by
  have := offset_le h
  simp only [isEnd, head?_eq h, Option.isNone_iff_eq_none, List.getElem?_eq_none_iff]
  omega

/-- A new sequence holds the tokens of its feed. -/
theorem sequence_add (st : Store α) (feed : Feed α) :
    (st.add feed).2.sequence (st.add feed).1 = feed.tokens := by
  simp [add, sequence, Source.tokens_pull (s := Source.ofFeed feed) rfl]

/-- The first place of a new sequence was reached. -/
theorem reached_add (st : Store α) (feed : Feed α) : (st.add feed).2.Reached (st.add feed).1 := by
  refine ⟨(Source.ofFeed feed).pull, by simp [add], ?_, Nat.zero_le _⟩
  rcases hn : feed.next with ⟨_ | t, rest⟩ <;> simp [Source.reached, Source.pull, Source.ofFeed, hn]

theorem getElem?_update (st : Store α) (source n : Nat) (f : Source α → Source α) :
    (st.update source f).sources[n]? =
      if source = n then (st.sources[n]?).map f else st.sources[n]? := by
  simp [update, Array.getElem?_modify]

/-- Moving on leaves the tokens of every sequence as they are. -/
@[simp] theorem sequence_tail (st : Store α) (p q : Position) :
    (st.tail p).2.sequence q = st.sequence q := by
  unfold tail
  split
  next => rfl
  next source offset =>
    split
    next => rfl
    next =>
      match q with
      | .empty => rfl
      | .mark n place =>
        simp only [sequence, getElem?_update]
        split
        next => cases st.sources[n]? <;> simp
        next => rfl

/-- Every position that was reached stays so. -/
theorem Reached.tail {st : Store α} {q : Position} (h : st.Reached q) (p : Position) :
    (st.tail p).2.Reached q := by
  unfold Store.tail
  split
  next => exact h
  next source offset =>
    split
    next => exact h
    next =>
      match q, h with
      | .empty, _ => trivial
      | .mark n place, ⟨s, hs, reached, le⟩ =>
        simp only [Reached, getElem?_update]
        by_cases same : source = n
        · exact ⟨s.force (offset + 1), by simp [same, hs], Source.reached_force reached _, by simpa⟩
        · exact ⟨s, by simp [same, hs], reached, le⟩

/-- Moving on from a reached position leads to a reached position. -/
theorem reached_tail {st : Store α} {p : Position} (h : st.Reached p) :
    (st.tail p).2.Reached (st.tail p).1 := by
  match p, h with
  | .empty, _ => trivial
  | .mark source offset, ⟨s, hs, reached, le⟩ =>
    have whole : st.Reached (.mark source offset) := ⟨s, hs, reached, le⟩
    simp only [tail]
    split
    next => exact whole
    next more =>
      have := isEnd_iff whole
      refine ⟨s.force (offset + 1), by simp [getElem?_update, hs], Source.reached_force_succ reached, ?_⟩
      simp_all [sequence, Position.offset]
      omega

/-- Moving on adds one to the offset, except at the end. -/
theorem offset_tail {st : Store α} {p : Position} (h : st.Reached p) :
    (st.tail p).1.offset = min (p.offset + 1) (st.sequence p).length := by
  match p, h with
  | .empty, _ => rfl
  | .mark source offset, h =>
    have ends := isEnd_iff h
    have := offset_le h
    simp only [tail]
    split
    next last =>
      have := ends.1 last
      simp only [Position.offset] at *
      omega
    next more =>
      rw [ends] at more
      simp only [Position.offset] at *
      omega

/-- Moving on stays in the sequence. -/
@[simp] theorem sequence_fst_tail (st st' : Store α) (p : Position) :
    st'.sequence (st.tail p).1 = st'.sequence p := by
  unfold tail
  split
  next => rfl
  next => split <;> rfl

/-! ## 3. Walks -/

theorem takeOnto_succ (n : Nat) (st : Store α) (p : Position) (taken : List α) :
    Medium.takeOnto (n + 1) st p taken = match st.head? p with
      | none => (taken.reverse, st)
      | some t => Medium.takeOnto n (st.tail p).2 (st.tail p).1 (t :: taken) := rfl

theorem countUpTo_succ (limit : Nat) (st : Store α) (p : Position) (counted : Nat) :
    Medium.countUpTo (limit + 1) st p counted = if st.isEnd p then (counted, st)
      else Medium.countUpTo limit (st.tail p).2 (st.tail p).1 (counted + 1) := rfl

theorem takeOnto_eq (n : Nat) {st : Store α} {p : Position} (taken : List α) (h : st.Reached p) :
    (Medium.takeOnto n st p taken).1 = taken.reverse ++ ((st.sequence p).drop p.offset).take n := by
  induction n generalizing st p taken with
  | zero => simp [Medium.takeOnto]
  | succ n ih =>
    rw [takeOnto_succ, head?_eq h]
    split
    next ended =>
      rw [List.getElem?_eq_none_iff] at ended
      simp [List.drop_eq_nil_of_le ended]
    next t more =>
      obtain ⟨inside, rfl⟩ := List.getElem?_eq_some_iff.1 more
      rw [ih _ (reached_tail h), offset_tail h, sequence_tail, sequence_fst_tail,
        Nat.min_eq_left inside, List.drop_eq_getElem_cons inside]
      simp only [List.reverse_cons, List.append_assoc, List.singleton_append, List.take_succ_cons]

/-- Taking tokens gives those of the sequence from the position on. -/
theorem take_eq (n : Nat) {st : Store α} {p : Position} (h : st.Reached p) :
    (Medium.take n st p).1 = ((st.sequence p).drop p.offset).take n := takeOnto_eq n [] h

theorem places_le_foldl (sources : List (Source α)) (n : Nat) :
    n ≤ sources.foldl (fun n s => n + s.places) n ∧
      ∀ s ∈ sources, n + s.places ≤ sources.foldl (fun n s => n + s.places) n := by
  induction sources generalizing n with
  | nil => simp
  | cons s sources ih =>
    have rest := ih (n + s.places)
    simp only [List.foldl_cons, List.mem_cons, forall_eq_or_imp]
    exact ⟨by omega, rest.1, fun t ht => by have := rest.2 t ht; omega⟩

/-- There are fewer tokens in a sequence than places in the store. -/
theorem length_sequence_lt (st : Store α) (p : Position) : (st.sequence p).length < st.places := by
  have all := places_le_foldl st.sources.toList 1
  rw [Array.foldl_toList] at all
  unfold sequence places
  split
  next => exact all.1
  next source offset =>
    cases hs : st.sources[source]? with
    | none => exact all.1
    | some s =>
      have := all.2 s (by simpa using Array.mem_of_getElem? hs)
      have := s.length_tokens_lt
      simp only [Option.elim_some]
      omega

theorem countUpTo_eq {limit : Nat} {st : Store α} {p : Position} (counted : Nat) (h : st.Reached p)
    (enough : (st.sequence p).length < p.offset + limit) :
    (Medium.countUpTo limit st p counted).1 = counted + ((st.sequence p).length - p.offset) := by
  induction limit generalizing st p counted with
  | zero =>
    have := offset_le h
    omega
  | succ limit ih =>
    have := offset_le h
    have ends := isEnd_iff h
    rw [countUpTo_succ]
    split
    next last =>
      have := ends.1 last
      simp only
      omega
    next more =>
      rw [ends] at more
      have moved := offset_tail h
      rw [ih _ (reached_tail h) (by simp only [sequence_tail, sequence_fst_tail]; omega)]
      simp only [sequence_tail, sequence_fst_tail]
      omega

/-- Counting gives the number of tokens from the position on. -/
theorem count_eq {st : Store α} {p : Position} (h : st.Reached p) :
    (Medium.count st p).1 = (st.sequence p).length - p.offset := by
  have := st.length_sequence_lt p
  have places : Medium.places st = st.places := rfl
  rw [Medium.count, countUpTo_eq 0 h (by omega), Nat.zero_add]

end Store

/-! ## 4. Inputs -/

section Inputs

variable {α : Type}

/-- The tokens of an input. -/
def Input.tokens : Input α → List α
  | .feed f => f.tokens
  | .empty => []

namespace Store

/-- A new sequence holds the tokens of its input. -/
theorem sequence_start (st : Store α) (input : Input α) :
    (st.start input).2.sequence (st.start input).1 = input.tokens := by
  cases input with
  | feed f => exact sequence_add st f
  | empty => rfl

theorem reached_start (st : Store α) (input : Input α) :
    (st.start input).2.Reached (st.start input).1 := by
  cases input with
  | feed f => exact reached_add st f
  | empty => trivial

@[simp] theorem offset_start (st : Store α) (input : Input α) : (st.start input).1.offset = 0 := by
  cases input <;> rfl

end Store

end Inputs

end LazyPeg
