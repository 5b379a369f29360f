import LazyPeg.Proofs.Reading.Matches

/-!
# Separated lists

What a list of items with separators between them matches behind its first item is said by
`Parser.Further`, without any of the combinators that it is made of: separator and item, again and again,
up to the first place where the separator fails, or the item fails behind the separator, or both of them
have matched nothing.  In the second case the separator is not part of the list, in the third the item is
counted once.

* §1 holds the loop over pairs of a separator and an item to it, in both directions (`Further.gives`,
  `exists_further_of_gives`).  The loop has room for `unlimited` pairs; every pair but the last consumes a
  token, so a list of fewer tokens does not fill it.
* §2 adds the first item (`matches_sepBy1`, `reads_sepBy1_of_fails`, `sepBy1_cases`).
* §3 is the list that may be empty: it has the course of the other one, with an empty list in place of a
  failure (`reads_sepBy0_iff`).
-/
namespace LazyPeg

/-- The outcome, or an empty list at the start in place of a failure. -/
def Outcome.orEmpty {α π : Type} (start : π) : Outcome α π → Outcome α π
  | success v next => success v next
  | failure .. => success (.list []) start

namespace Parser

variable {α : Type} [Token α] [DecidableEq α]

/-! ## 1. Behind the first item -/

/-- Behind an item that has ended at an offset, separators and items match with these values of the items
up to another offset, and the list ends there. -/
inductive Further (grammar : Grammar α) (ts : List α) (p separator : Parser α) :
    Nat → List (Value α) → Nat → Prop where
  | noSeparator {i : Nat} (hs : separator.Fails grammar ts i) : Further grammar ts p separator i [] i
  | noItem {i j : Nat} {w : Value α} (hs : separator.Matches grammar ts i w j)
    (hp : p.Fails grammar ts j) : Further grammar ts p separator i [] i
  | nothing {i j : Nat} {w v : Value α} (hs : separator.Matches grammar ts i w j)
    (hp : p.Matches grammar ts j v i) : Further grammar ts p separator i [v] i
  | more {i j k l : Nat} {w v : Value α} {vs : List (Value α)}
    (hs : separator.Matches grammar ts i w j) (hp : p.Matches grammar ts j v k) (on : i < k)
    (rest : Further grammar ts p separator k vs l) : Further grammar ts p separator i (v :: vs) l

variable {grammar : Grammar α} {ts : List α} {p separator : Parser α} {i j k depth room : Nat}
  {v : Value α} {vs : List (Value α)} {c : Course α (Outcome α Nat)}

/-- Every item but the last consumes a token, together with the separator before it. -/
theorem Further.length_le (h : Further grammar ts p separator i vs k) (hi : i ≤ ts.length) :
    i + vs.length ≤ ts.length + 1 := by
  induction h with
  | noSeparator => exact Nat.le_succ_of_le hi
  | noItem => exact Nat.le_succ_of_le hi
  | nothing => exact Nat.succ_le_succ hi
  | more hs hp on rest ih =>
    have tokens := ih (hp.le_length (hs.le_length hi))
    rw [List.length_cons]
    omega

/-- The loop over pairs ends where the pair fails. -/
theorem gives_pairs_of_refuses {call : RuleId → String → Nat → Reading α (Outcome α Nat)}
    {q : Parser α} (h : q.Refuses ts call i) :
    (Reading.repeated (q.read ts call) room 0 i).Gives ([], i) := by
  cases room with
  | zero => exact Reading.gives_pure _
  | succ room =>
    obtain ⟨reason, place, hr⟩ := h
    exact Reading.Gives.bind hr (Reading.gives_pure _)

/-- **The loop over pairs collects what follows the first item**, if it has room for it. -/
theorem Further.gives (hdepth : grammar.size * (ts.length + 1) ≤ depth)
    (h : Further grammar ts p separator i vs k) (hi : i ≤ ts.length) (hr : vs.length ≤ room) :
    (Reading.repeated ((seq [separator, p]).read ts (callDepth grammar ts depth)) room 0 i).Gives
      (vs, k) := by
  induction h generalizing room with
  | noSeparator hs =>
    exact gives_pairs_of_refuses (((fails_iff_refuses hdepth hi).1 hs).seq [p])
  | noItem hs hp =>
    have inside := hs.le_length hi
    have separates := (matches_iff_takes hdepth hi).1 hs
    exact gives_pairs_of_refuses (separates.seq_refuses ((fails_iff_refuses hdepth inside).1 hp))
  | nothing hs hp =>
    obtain ⟨room, rfl⟩ := Nat.exists_eq_add_one_of_ne_zero (Nat.ne_zero_of_lt hr)
    have inside := hs.le_length hi
    have pair := ((matches_iff_takes hdepth hi).1 hs).seq ((matches_iff_takes hdepth inside).1 hp)
    refine Reading.Gives.bind pair ?_
    simp only [Nat.zero_le, and_self, if_true]
    exact Reading.gives_pure _
  | @more i j k l w v vs hs hp on rest ih =>
    obtain ⟨room, rfl⟩ := Nat.exists_eq_add_one_of_ne_zero (Nat.ne_zero_of_lt hr)
    have inside := hs.le_length hi
    have pair := ((matches_iff_takes hdepth hi).1 hs).seq ((matches_iff_takes hdepth inside).1 hp)
    refine Reading.Gives.bind pair ?_
    have moved : k ≠ i := Nat.ne_of_gt on
    simp only [moved, false_and, if_false]
    exact (ih (hp.le_length inside) (Nat.le_of_succ_le_succ hr)).bind (Reading.gives_pure _)

/-- **What the loop over pairs gives follows the first item**, if the tokens do not fill it. -/
theorem exists_further_of_gives (hdepth : grammar.size * (ts.length + 1) ≤ depth) (hi : i ≤ ts.length)
    (fits : ts.length + 1 ≤ i + room)
    (h : (Reading.repeated ((seq [separator, p]).read ts (callDepth grammar ts depth)) room 0 i).Gives
      (vs, k)) :
    Further grammar ts p separator i vs k := by
  induction room generalizing i vs k with
  | zero => omega
  | succ room ih =>
    obtain ⟨r, hr, tail⟩ := Reading.gives_bind.1 h
    rcases gives_seq_pair hr with ⟨parts, reason, rfl⟩ | ⟨w, j, v, l, first, second, rfl⟩
    · obtain ⟨rfl, rfl⟩ := Prod.mk.inj (Reading.gives_pure_iff.1 tail)
      rcases parts with refuses | ⟨w, j, takes, refuses⟩
      · exact .noSeparator ((fails_iff_refuses hdepth hi).2 refuses)
      · have hs := (matches_iff_takes hdepth hi).2 takes
        exact .noItem hs ((fails_iff_refuses hdepth (hs.le_length hi)).2 refuses)
    · have hs := (matches_iff_takes hdepth hi).2 first
      have inside := hs.le_length hi
      have hp := (matches_iff_takes hdepth inside).2 second
      have on : i ≤ l := Nat.le_trans (hs.le hi) (hp.le inside)
      simp only at tail
      split at tail
      next still =>
        obtain ⟨rfl, rfl⟩ := Prod.mk.inj (Reading.gives_pure_iff.1 tail)
        obtain ⟨rfl, -⟩ := still
        exact .nothing hs hp
      next moved =>
        have further : i < l := by omega
        obtain ⟨⟨ws, m⟩, loop, same⟩ := Reading.gives_bind.1 tail
        obtain ⟨rfl, rfl⟩ := Prod.mk.inj (Reading.gives_pure_iff.1 same)
        exact .more hs hp further (ih (hp.le_length inside) (by omega) loop)

/-- If separator and item come to an outcome from an offset on, something follows or the list ends. -/
theorem exists_further_of_decides (hi : i ≤ ts.length)
    (hs : ∀ j, i ≤ j → j ≤ ts.length → separator.Decides grammar ts j)
    (hp : ∀ j, i ≤ j → j ≤ ts.length → p.Decides grammar ts j) :
    ∃ vs k, Further grammar ts p separator i vs k := by
  obtain ⟨left, hleft⟩ : ∃ left, ts.length - i = left := ⟨_, rfl⟩
  induction left using Nat.strong_induction_on generalizing i with
  | _ left fewer =>
    rcases decides_iff.1 (hs i (Nat.le_refl i) hi) with ⟨w, j, first⟩ | fails
    · have inside := first.le_length hi
      have on := first.le hi
      rcases decides_iff.1 (hp j on inside) with ⟨v, k, second⟩ | fails
      · have on' := second.le inside
        by_cases still : k = i
        · exact ⟨[v], i, .nothing first (still ▸ second)⟩
        · have inside' := second.le_length inside
          obtain ⟨vs, l, rest⟩ := fewer (ts.length - k) (by omega) inside'
            (fun j hj => hs j (by omega)) (fun j hj => hp j (by omega)) rfl
          exact ⟨v :: vs, l, .more first second (by omega) rest⟩
      · exact ⟨[], i, .noItem first fails⟩
    · exact ⟨[], i, .noSeparator fails⟩

/-! ## 2. At least one item -/

/-- **A separated list has the values of its items, and ends behind the last of them.** -/
theorem matches_sepBy1 (fits : ts.length < i + unlimited) (hi : i ≤ ts.length)
    (h : p.Matches grammar ts i v j) (rest : Further grammar ts p separator j vs k) :
    (sepBy1 p separator).Matches grammar ts i (.list (v :: vs)) k := by
  have enough := Nat.le_refl (grammar.size * (ts.length + 1))
  have on := h.le hi
  have inside := h.le_length hi
  have room : vs.length ≤ unlimited := by
    have short := rest.length_le inside
    omega
  have loop := rest.gives enough inside room
  have pairs : (many .any (seq [separator, p])).Takes ts _ j (.list vs) k :=
    gives_many_any.2 ⟨vs, k, loop, rfl⟩
  exact (matches_iff_takes enough hi).2 (((matches_iff_takes enough hi).1 h).sepBy1 pairs)

/-- Without a first item it fails where it was started. -/
theorem reads_sepBy1_of_fails (hi : i ≤ ts.length) (h : p.Fails grammar ts i) (separator : Parser α) :
    ∃ c, (sepBy1 p separator).Reads grammar ts i c ∧ c.answer = .ok (.failure (.missing p.name) i) := by
  have enough := Nat.le_refl (grammar.size * (ts.length + 1))
  refine (gives_iff enough hi).1 ?_
  have row := ((fails_iff_refuses enough hi).1 h).gives_group "tuple" [many .any (seq [separator, p])]
  exact Reading.Gives.bind row (Reading.gives_pure _)

/-- There is no other way for it to come to an outcome. -/
theorem sepBy1_cases (fits : ts.length < i + unlimited) (hi : i ≤ ts.length)
    (h : (sepBy1 p separator).Decides grammar ts i) :
    (∃ v j vs k, p.Matches grammar ts i v j ∧ Further grammar ts p separator j vs k) ∨
      p.Fails grammar ts i := by
  have enough := Nat.le_refl (grammar.size * (ts.length + 1))
  obtain ⟨c, r, hc⟩ := h
  obtain ⟨r', hr', -⟩ := Reading.gives_bind.1 ((gives_iff enough hi).2 ⟨c, hc⟩)
  rcases gives_group_pair hr' with ⟨refuses | ⟨v, j, -, reason, place, bad⟩, -⟩ | ⟨v, j, w, k, first, rest, -⟩
  · exact .inr ((fails_iff_refuses enough hi).2 refuses)
  · -- a repetition of any number of pairs does not fail
    obtain ⟨vs, k, -, same⟩ := gives_many_any.1 bad
    exact absurd same nofun
  · obtain ⟨vs, l, loop, -⟩ := gives_many_any.1 rest
    have hp := (matches_iff_takes enough hi).2 first
    have on := hp.le hi
    exact .inl ⟨v, j, vs, l, hp, exists_further_of_gives enough (hp.le_length hi) (by omega) loop⟩

/-! ## 3. Any number of items -/

/-- **The list that may be empty is the other one, or empty.** -/
theorem reads_sepBy0_iff :
    (sepBy0 p separator).Reads grammar ts i c ↔ ∃ d, (sepBy1 p separator).Reads grammar ts i d ∧
      c = { d with answer := d.answer.map (Outcome.orEmpty i) } := by
  refine reads_iff_of_mapCourse fun depth => ?_
  change ((sepBy1 p separator).readDepth grammar ts depth i >>= _) >>= _ = _
  rcases (sepBy1 p separator).readDepth grammar ts depth i with _ | ⟨name | r, events, reach⟩
  · rfl
  · rfl
  · cases r <;>
      simp [Reading.ok_bind, Reading.pure_eq, Reading.mapCourse, Outcome.orEmpty, Outcome.mapValue,
        orEmptyList, Except.map]

end Parser

end LazyPeg
