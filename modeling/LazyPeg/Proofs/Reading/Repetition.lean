import LazyPeg.Proofs.Reading.Guarded
import LazyPeg.Proofs.Reading.Matches

/-!
# Repetitions in full

A repetition matches a parser at offsets `i 0`, `i 1`, … with values `v 0`, `v 1`, … until it stops.
`Parser.StopsAfter` says when it may stop: it has made the most matches that it may, or no match follows,
or it has enough matches and the last one moved nowhere.  `Parser.Repeats` says that the number of matches
is the first after which it does.

* §3 is the loop itself.  `Repeats` goes over from `k + 1` matches to `k`, from the second offset on, with
  one match less to come and one less needed (`Parser.repeats_succ`): this is the step of the loop, and by
  induction on the matches that may still be made, the loop gives what `Repeats` says
  (`Repeats.repeated`), with one course for each try (`Parser.Tries`).  In the other direction every
  answer of the loop is one of a repetition (`Parser.exists_repeats`).
* §4 counts.  A match that moves nowhere is made again and again at the same offset with the same outcome,
  since a parser has one answer there; so behind such a match no try fails, and the loop goes on only
  until it has enough matches (`Repeats.le_max`, `Tries.length_le`).
* §5 is the parser that repeats another one, also with an observer around that one, which sees every try.
-/
namespace LazyPeg

/-! ## 1. The rules of the loop -/

namespace Reading

variable {α : Type} {step : Nat → Reading α (Outcome α Nat)} {room need i j k reach : Nat}
  {c : Course α (Outcome α Nat)} {v : Value α} {vs : List (Value α)} {events : List (Event α Nat)}

/-- The loop ends where a match fails. -/
theorem repeated_of_failure (h : step i = ended c) {reason : Reason}
    (hc : c.answer = .ok (.failure reason j)) :
    repeated step (room + 1) need i = ended ⟨.ok ([], i), c.events, c.reach⟩ := by
  obtain ⟨_, events, reach⟩ := c
  obtain rfl := hc
  simp only [repeated, h, ok_bind, pure_eq, List.append_nil, Nat.max_zero]

/-- The loop ends behind a match that moves nowhere, unless more matches are needed. -/
theorem repeated_of_still (h : step i = ended c) (hc : c.answer = .ok (.success v i))
    (hn : need ≤ 1) :
    repeated step (room + 1) need i = ended ⟨.ok ([v], i), c.events, c.reach⟩ := by
  obtain ⟨_, events, reach⟩ := c
  obtain rfl := hc
  simp only [repeated, h, ok_bind, hn, and_self, if_true, pure_eq, List.append_nil, Nat.max_zero]

/-- Otherwise it goes on behind a match. -/
theorem repeated_of_success (h : step i = ended c) (hc : c.answer = .ok (.success v j))
    (on : ¬ (j = i ∧ need ≤ 1))
    (rest : repeated step room (need - 1) j = ended ⟨.ok (vs, k), events, reach⟩) :
    repeated step (room + 1) need i =
      ended ⟨.ok (v :: vs, k), c.events ++ events, max c.reach reach⟩ := by
  obtain ⟨_, events', reach'⟩ := c
  obtain rfl := hc
  simp only [repeated, h, ok_bind, on, if_false, rest, pure_eq, List.append_nil, Nat.max_zero]

end Reading

namespace Parser

variable {α : Type} [Token α] [DecidableEq α]

/-! ## 2. Where a repetition stops -/

/-- After `k` matches, which have led through the offsets `i 0`, `i 1`, …, a repetition stops. -/
def StopsAfter (grammar : Grammar α) (ts : List α) (q : Parser α) (least most : Nat) (i : Nat → Nat)
    (k : Nat) : Prop :=
  most ≤ k ∨ q.Fails grammar ts (i k) ∨ (max least 1 ≤ k ∧ i k = i (k - 1))

/-- A parser matches `k` times in a row, from one offset to the next, and `k` is the first number of
matches after which a repetition stops. -/
structure Repeats (grammar : Grammar α) (ts : List α) (q : Parser α) (least most : Nat) (i : Nat → Nat)
    (v : Nat → Value α) (k : Nat) : Prop where
  matched : ∀ t < k, q.Matches grammar ts (i t) (v t) (i (t + 1))
  goesOn : ∀ t < k, ¬ q.StopsAfter grammar ts least most i t
  stops : q.StopsAfter grammar ts least most i k

/-- The courses of all tries of a repetition that stops after `k` matches: one for each match, and one
more exactly if it stops because of a failure. -/
structure Tries (grammar : Grammar α) (ts : List α) (q : Parser α) (most : Nat) (i : Nat → Nat) (k : Nat)
    (tries : List (Course α (Outcome α Nat))) : Prop where
  reads : ∀ t c, tries[t]? = some c → q.Reads grammar ts (i t) c
  onceMore : k < most → q.Fails grammar ts (i k) → tries.length = k + 1
  noMore : ¬ (k < most ∧ q.Fails grammar ts (i k)) → tries.length = k

variable {grammar : Grammar α} {ts : List α} {q : Parser α} {least most room need depth k : Nat}
  {i : Nat → Nat} {v : Nat → Value α} {c : Course α (Outcome α Nat)}
  {tries : List (Course α (Outcome α Nat))}

/-! ## 3. The loop -/

/-- Where a match is made, there is no stop before it. -/
theorem not_stopsAfter_zero (first : q.Matches grammar ts (i 0) (v 0) (i 1)) (hi : i 0 ≤ ts.length) :
    ¬ q.StopsAfter grammar ts need (room + 1) i 0 := by
  rintro (full | fails | ⟨enough, -⟩)
  · exact absurd full (Nat.not_succ_le_zero room)
  · exact first.not_fails hi fails
  · omega

/-- From the second offset on a repetition stops as it does from the first one, with a match less to come
and one less needed.  The exception is the stop right behind a first match that moved nowhere. -/
theorem stopsAfter_succ (on : ¬ (i 1 = i 0 ∧ need ≤ 1)) (t : Nat) :
    q.StopsAfter grammar ts need (room + 1) i (t + 1) ↔
      q.StopsAfter grammar ts (need - 1) room (fun t => i (t + 1)) t := by
  have still : max need 1 ≤ t + 1 ∧ i (t + 1) = i (t + 1 - 1) ↔
      max (need - 1) 1 ≤ t ∧ i (t + 1) = i (t - 1 + 1) := by
    cases t with
    | zero =>
      constructor
      · rintro ⟨enough, same⟩
        exact absurd ⟨same, by omega⟩ on
      · rintro ⟨enough, -⟩
        omega
    | succ t =>
      have enough : max need 1 ≤ t + 1 + 1 ↔ max (need - 1) 1 ≤ t + 1 := by omega
      rw [enough, Nat.add_sub_cancel, Nat.add_sub_cancel]
  simp only [StopsAfter, still, Nat.add_le_add_iff_right]

/-- **One step of a repetition.** -/
theorem repeats_succ (first : q.Matches grammar ts (i 0) (v 0) (i 1)) (hi : i 0 ≤ ts.length)
    (on : ¬ (i 1 = i 0 ∧ need ≤ 1)) :
    q.Repeats grammar ts need (room + 1) i v (k + 1) ↔
      q.Repeats grammar ts (need - 1) room (fun t => i (t + 1)) (fun t => v (t + 1)) k := by
  constructor
  · intro h
    refine ⟨fun t ht => h.matched (t + 1) (Nat.succ_lt_succ ht), fun t ht => ?_, ?_⟩
    · exact (stopsAfter_succ on t).not.1 (h.goesOn (t + 1) (Nat.succ_lt_succ ht))
    · exact (stopsAfter_succ on k).1 h.stops
  · intro h
    refine ⟨fun t ht => ?_, fun t ht => ?_, (stopsAfter_succ on k).2 h.stops⟩
    · cases t with
      | zero => exact first
      | succ t => exact h.matched t (Nat.lt_of_succ_lt_succ ht)
    · cases t with
      | zero => exact not_stopsAfter_zero first hi
      | succ t => exact (stopsAfter_succ on t).not.2 (h.goesOn t (Nat.lt_of_succ_lt_succ ht))

theorem Tries.cons (hc : q.Reads grammar ts (i 0) c)
    (h : q.Tries grammar ts room (fun t => i (t + 1)) k tries) :
    q.Tries grammar ts (room + 1) i (k + 1) (c :: tries) where
  reads t d hd := by
    cases t with
    | zero =>
      obtain rfl := Option.some.inj hd
      exact hc
    | succ t => exact h.reads t d hd
  onceMore lt fails := congrArg (· + 1) (h.onceMore (Nat.lt_of_succ_lt_succ lt) fails)
  noMore stay := congrArg (· + 1) (h.noMore fun more => stay ⟨Nat.succ_lt_succ more.1, more.2⟩)

/-- A repetition that makes no match has room for none, or its first try fails. -/
theorem Repeats.fails_of_zero (h : q.Repeats grammar ts need (room + 1) i v 0) :
    q.Fails grammar ts (i 0) := by
  rcases h.stops with full | fails | ⟨enough, -⟩
  · exact absurd full (Nat.not_succ_le_zero room)
  · exact fails
  · omega

/-- A repetition stops right behind a first match that moved nowhere, unless it needs more. -/
theorem Repeats.eq_zero_of_still (h : q.Repeats grammar ts need room i v (k + 1))
    (still : i 1 = i 0 ∧ need ≤ 1) : k = 0 := by
  by_contra more
  have enough : max need 1 ≤ 1 := by omega
  exact h.goesOn 1 (by omega) (.inr (.inr ⟨enough, still.1⟩))

theorem tries_singleton (hc : q.Reads grammar ts (i 0) c) (t : Nat) (d : Course α (Outcome α Nat))
    (hd : [c][t]? = some d) : q.Reads grammar ts (i t) d := by
  cases t with
  | zero =>
    obtain rfl := Option.some.inj hd
    exact hc
  | succ t => exact absurd hd nofun

/-- **The loop gives what a repetition says**, and it has the events of its tries, one after the other. -/
theorem Repeats.repeated (hdepth : grammar.size * (ts.length + 1) ≤ depth)
    (h : q.Repeats grammar ts need room i v k) (hi : i 0 ≤ ts.length) :
    ∃ tries reach, q.Tries grammar ts room i k tries ∧
      Reading.repeated (q.readDepth grammar ts depth) room need (i 0) =
        .ended ⟨.ok ((List.range k).map v, i k), tries.flatMap Course.events, reach⟩ := by
  induction room generalizing need i v k with
  | zero =>
    obtain rfl : k = 0 := by
      by_contra pos
      exact h.goesOn 0 (Nat.pos_of_ne_zero pos) (.inl (Nat.le_refl 0))
    exact ⟨[], 0, ⟨nofun, fun lt => absurd lt (Nat.lt_irrefl 0), fun _ => rfl⟩, rfl⟩
  | succ room ih =>
    cases k with
    | zero =>
      obtain ⟨c, reason, place, hc, ha⟩ := h.fails_of_zero
      have read := (reads_iff_readDepth hdepth q hi).1 hc
      refine ⟨[c], c.reach, ⟨tries_singleton hc, fun _ _ => rfl, fun stay => ?_⟩, ?_⟩
      · exact absurd ⟨Nat.succ_pos room, h.fails_of_zero⟩ stay
      · rw [Reading.repeated_of_failure read ha, List.flatMap_singleton]
        rfl
    | succ k =>
      have first := h.matched 0 (Nat.succ_pos k)
      obtain ⟨c, hc, ha⟩ := h.matched 0 (Nat.succ_pos k)
      have read := (reads_iff_readDepth hdepth q hi).1 hc
      by_cases still : i 1 = i 0 ∧ need ≤ 1
      · obtain rfl := h.eq_zero_of_still still
        have again : ¬ q.Fails grammar ts (i 1) := still.1 ▸ first.not_fails hi
        refine ⟨[c], c.reach, ⟨tries_singleton hc, fun _ fails => absurd fails again, fun _ => rfl⟩, ?_⟩
        rw [Nat.zero_add, still.1] at ha
        rw [Reading.repeated_of_still read ha still.2, List.flatMap_singleton, still.1]
        rfl
      · obtain ⟨tries, reach, htries, rest⟩ :=
          ih ((repeats_succ first hi still).1 h) (first.le_length hi)
        refine ⟨c :: tries, max c.reach reach, htries.cons hc, ?_⟩
        rw [Reading.repeated_of_success read ha still rest, List.flatMap_cons, List.range_succ_eq_map,
          List.map_cons, List.map_map]
        rfl

/-- **Every answer of the loop is that of a repetition.** -/
theorem exists_repeats (hdepth : grammar.size * (ts.length + 1) ≤ depth) {start : Nat}
    (hi : start ≤ ts.length) {row : List (Value α) × Nat}
    (h : (Reading.repeated (q.readDepth grammar ts depth) room need start).Gives row) :
    ∃ i v k, i 0 = start ∧ q.Repeats grammar ts need room i v k := by
  induction room generalizing need start row with
  | zero => exact ⟨fun _ => start, fun _ => .none, 0, rfl, nofun, nofun, .inl (Nat.le_refl 0)⟩
  | succ room ih =>
    obtain ⟨r, hr, h⟩ := Reading.gives_bind.1 h
    cases r with
    | failure reason place =>
      have fails := (fails_iff_refuses hdepth hi).2 ⟨reason, place, hr⟩
      exact ⟨fun _ => start, fun _ => .none, 0, rfl, nofun, nofun, .inr (.inl fails)⟩
    | success v j =>
      have first := (matches_iff_takes hdepth hi).2 hr
      simp only at h
      split at h
      next still =>
        obtain ⟨rfl, needed⟩ := still
        have stops : q.StopsAfter grammar ts need (room + 1) (fun _ => j) 1 :=
          .inr (.inr ⟨by omega, rfl⟩)
        refine ⟨fun _ => j, fun _ => v, 1, rfl, fun t _ => first, fun t ht => ?_, stops⟩
        obtain rfl : t = 0 := by omega
        exact not_stopsAfter_zero (i := fun _ => j) (v := fun _ => v) first hi
      next on =>
        obtain ⟨more, hmore, -⟩ := Reading.gives_bind.1 h
        obtain ⟨i, vs, k, rfl, rest⟩ := ih (first.le_length hi) hmore
        let i' : Nat → Nat := fun t => Nat.casesOn t start i
        let vs' : Nat → Value α := fun t => Nat.casesOn t v vs
        exact ⟨i', vs', k + 1, rfl, (repeats_succ (i := i') (v := vs') first hi on).2 rest⟩

/-- A repetition of a parser that comes to an outcome from its start on stops somewhere. -/
theorem exists_repeats_of_decides {start : Nat} (hi : start ≤ ts.length)
    (h : ∀ j, start ≤ j → j ≤ ts.length → q.Decides grammar ts j) (least most : Nat) :
    ∃ i v k, i 0 = start ∧ q.Repeats grammar ts least most i v k := by
  have enough := Nat.le_refl (grammar.size * (ts.length + 1))
  have settles (j : Nat) (from_start : start ≤ j) (hj : j ≤ ts.length) :
      (q.readDepth grammar ts (grammar.size * (ts.length + 1)) j).Settles [] := by
    obtain ⟨c, r, hc, ha⟩ := h j from_start hj
    refine ⟨c, (reads_iff_readDepth enough q hj).1 hc, fun name bad => ?_⟩
    exact absurd (ha.symm.trans bad) nofun
  obtain ⟨⟨answer, events, reach⟩, ended, stops⟩ :=
    Reading.settles_repeated (fun j hj => spans_readDepth _ q hj) settles most least (Nat.le_refl _) hi
  cases answer with
  | error name => exact absurd (stops name rfl) List.not_mem_nil
  | ok row => exact exists_repeats enough hi ⟨events, reach, ended⟩

/-! ## 4. How many matches -/

namespace Repeats

variable {start : Nat} (h : q.Repeats grammar ts least most i v k) (hi : i 0 ≤ ts.length)

include h hi

theorem le_length {t : Nat} (ht : t ≤ k) : i t ≤ ts.length := by
  induction t with
  | zero => exact hi
  | succ t ih => exact (h.matched t ht).le_length (ih (Nat.le_of_succ_le ht))

/-- Behind a match that moved nowhere a repetition stays where it is. -/
theorem eq_of_still {z : Nat} (still : i (z + 1) = i z) (d : Nat) (hd : z + d ≤ k) : i (z + d) = i z := by
  induction d with
  | zero => rfl
  | succ d ih =>
    have here := ih (by omega)
    have there := h.matched z (by omega)
    have again := h.matched (z + d) hd
    rw [here] at again
    exact (again.unique there (h.le_length hi (by omega))).2.trans still

/-- As long as every match moves on, there is a token for each. -/
theorem add_le {n : Nat} (hn : n ≤ k) (moves : ∀ t < n, i (t + 1) ≠ i t) : i 0 + n ≤ i n := by
  induction n with
  | zero => exact Nat.le_refl _
  | succ n ih =>
    have before := ih (by omega) fun t ht => moves t (by omega)
    have on := (h.matched n hn).le (h.le_length hi (by omega))
    have moved := moves n (Nat.lt_succ_self n)
    omega

/-- A repetition that stops because of a failure has moved on with every match. -/
theorem add_le_of_fails (fails : q.Fails grammar ts (i k)) : i 0 + k ≤ i k := by
  refine h.add_le hi (Nat.le_refl k) fun z hz still => ?_
  have same := h.eq_of_still hi still (k - z) (by omega)
  rw [show z + (k - z) = k by omega] at same
  rw [same] at fails
  exact (h.matched z hz).not_fails (h.le_length hi (Nat.le_of_lt hz)) fails

/-- Where every match moves on, and there is room for one of each token, a repetition stops because of a
failure. -/
theorem fails_of_lt (moves : ∀ t < k, i t < i (t + 1)) (fits : ts.length < i 0 + most) :
    q.Fails grammar ts (i k) := by
  have tokens := h.add_le hi (Nat.le_refl k) fun t ht => Nat.ne_of_gt (moves t ht)
  have inside := h.le_length hi (Nat.le_refl k)
  rcases h.stops with full | fails | ⟨enough, still⟩
  · omega
  · exact fails
  · have moved := moves (k - 1) (by omega)
    rw [show k - 1 + 1 = k by omega] at moved
    omega

/-- **The matches are no more than the tokens that are left and one, or than the matches that are
needed.** -/
theorem le_max : k ≤ max (ts.length - i 0 + 1) least := by
  by_cases still : ∃ z < k, i (z + 1) = i z
  · -- up to the first match that moves nowhere there is a token for each, and behind it only the
    -- matches are made that are needed
    obtain ⟨hz, same⟩ := Nat.find_spec still
    have first (t : Nat) (ht : t < Nat.find still) : i (t + 1) ≠ i t := fun bad =>
      Nat.find_min still ht ⟨Nat.lt_trans ht hz, bad⟩
    generalize Nat.find still = z at hz same first
    have tokens := h.add_le hi (Nat.le_of_lt hz) first
    have inside := h.le_length hi (Nat.le_of_lt hz)
    by_contra more
    have stay := h.eq_of_still hi same (max least (z + 1) - z) (by omega)
    have stay' := h.eq_of_still hi same (max least (z + 1) - 1 - z) (by omega)
    rw [show z + (max least (z + 1) - z) = max least (z + 1) by omega] at stay
    rw [show z + (max least (z + 1) - 1 - z) = max least (z + 1) - 1 by omega] at stay'
    exact h.goesOn (max least (z + 1)) (by omega) (.inr (.inr ⟨by omega, stay.trans stay'.symm⟩))
  · have moves (t : Nat) (ht : t < k) : i (t + 1) ≠ i t := fun bad => still ⟨t, ht, bad⟩
    have tokens := h.add_le hi (Nat.le_refl k) moves
    have inside := h.le_length hi (Nat.le_refl k)
    omega

end Repeats

/-- **So are the tries.** -/
theorem Tries.length_le (htries : q.Tries grammar ts most i k tries)
    (h : q.Repeats grammar ts least most i v k) (hi : i 0 ≤ ts.length) :
    tries.length ≤ max (ts.length - i 0 + 1) least := by
  by_cases more : k < most ∧ q.Fails grammar ts (i k)
  · have tokens := h.add_le_of_fails hi more.2
    have inside := h.le_length hi (Nat.le_refl k)
    rw [htries.onceMore more.1 more.2]
    omega
  · rw [htries.noMore more]
    exact h.le_max hi

/-! ## 5. Repetitions as parsers -/

variable {style : Repetition}

/-- **A repetition succeeds with the values of its matches if they are enough**, and otherwise fails where
it began. -/
theorem Repeats.reads_many (h : q.Repeats grammar ts style.least style.most i v k)
    (hi : i 0 ≤ ts.length) :
    ∃ tries reach, q.Tries grammar ts style.most i k tries ∧
      (many style q).Reads grammar ts (i 0)
        ⟨.ok (if style.least ≤ k then .success (.list ((List.range k).map v)) (i k)
          else .failure (.tooFew style.least q.name) (i 0)), tries.flatMap Course.events, reach⟩ := by
  obtain ⟨tries, reach, htries, loop⟩ := h.repeated (Nat.le_refl _) hi
  refine ⟨tries, max reach 0, htries, grammar.size * (ts.length + 1), ?_⟩
  change (Reading.repeated (q.readDepth grammar ts _) style.most style.least (i 0) >>= _) = _
  rw [loop, Reading.ok_bind]
  simp only [List.length_map, List.length_range]
  by_cases enough : style.least ≤ k
  · simp only [Nat.not_lt.2 enough, enough, if_false, if_true, Reading.pure_eq, List.append_nil]
  · simp only [Nat.not_le.1 enough, enough, if_false, if_true, Reading.pure_eq, List.append_nil]

/-- What a repetition answers is the answer of one that stops somewhere. -/
theorem exists_repeats_of_reads {start : Nat} (hi : start ≤ ts.length)
    (h : (many style q).Reads grammar ts start c) {r : Outcome α Nat} (hr : c.answer = .ok r) :
    ∃ i v k, i 0 = start ∧ q.Repeats grammar ts style.least style.most i v k := by
  have enough := Nat.le_refl (grammar.size * (ts.length + 1))
  obtain ⟨row, hrow, -⟩ := Reading.gives_bind.1 ((gives_iff enough hi).2 ⟨c, h, hr⟩)
  exact exists_repeats enough hi hrow

end Parser

/-! ### Observers -/

/-- The course with an observer around it, which sees the outcome when it is there. -/
def Course.observedAs {α : Type} (tag : Literal) (c : Course α (Outcome α Nat)) :
    Course α (Outcome α Nat) :=
  match c.answer with
  | .ok r => { c with events := c.events ++ [.observed tag r] }
  | .error _ => c

namespace Parser

variable {α : Type} [Token α] [DecidableEq α] {grammar : Grammar α} {ts : List α} {q : Parser α}
  {least most k : Nat} {i : Nat → Nat} {v : Nat → Value α} {c : Course α (Outcome α Nat)}
  {tries : List (Course α (Outcome α Nat))} {tag : Literal}

omit [Token α] [DecidableEq α] in
@[simp] theorem answer_observedAs (tag : Literal) (c : Course α (Outcome α Nat)) :
    (c.observedAs tag).answer = c.answer := by
  obtain ⟨answer, events, reach⟩ := c
  cases answer <;> rfl

theorem reads_observed_iff {start : Nat} :
    (observed tag q).Reads grammar ts start c ↔
      ∃ d, q.Reads grammar ts start d ∧ c = d.observedAs tag := by
  refine reads_iff_of_mapCourse fun depth => ?_
  change (q.readDepth grammar ts depth start >>= _) = _
  rcases q.readDepth grammar ts depth start with _ | ⟨name | r, events, reach⟩
  · rfl
  · rfl
  · simp [Reading.ok_bind, Reading.note, Reading.pure_eq, Reading.mapCourse, Course.observedAs]

theorem matches_observed {start next : Nat} {value : Value α} :
    (observed tag q).Matches grammar ts start value next ↔ q.Matches grammar ts start value next := by
  constructor
  · rintro ⟨c, hc, ha⟩
    obtain ⟨d, hd, rfl⟩ := reads_observed_iff.1 hc
    exact ⟨d, hd, (answer_observedAs tag d).symm.trans ha⟩
  · rintro ⟨d, hd, ha⟩
    exact ⟨d.observedAs tag, reads_observed_iff.2 ⟨d, hd, rfl⟩, (answer_observedAs tag d).trans ha⟩

theorem fails_observed {start : Nat} :
    (observed tag q).Fails grammar ts start ↔ q.Fails grammar ts start := by
  constructor
  · rintro ⟨c, reason, place, hc, ha⟩
    obtain ⟨d, hd, rfl⟩ := reads_observed_iff.1 hc
    exact ⟨d, reason, place, hd, (answer_observedAs tag d).symm.trans ha⟩
  · rintro ⟨d, reason, place, hd, ha⟩
    exact ⟨d.observedAs tag, reason, place, reads_observed_iff.2 ⟨d, hd, rfl⟩,
      (answer_observedAs tag d).trans ha⟩

/-- An observer makes no difference to a repetition. -/
theorem Repeats.observed (h : q.Repeats grammar ts least most i v k) (tag : Literal) :
    (observed tag q).Repeats grammar ts least most i v k := by
  have stops (t : Nat) : (Parser.observed tag q).StopsAfter grammar ts least most i t ↔
      q.StopsAfter grammar ts least most i t := by
    simp only [StopsAfter, fails_observed]
  refine ⟨fun t ht => matches_observed.2 (h.matched t ht), fun t ht => ?_, (stops k).2 h.stops⟩
  exact (stops t).not.2 (h.goesOn t ht)

/-- It sees every try. -/
theorem Tries.observed (h : q.Tries grammar ts most i k tries) (tag : Literal) :
    (observed tag q).Tries grammar ts most i k (tries.map (Course.observedAs tag)) where
  reads t c hc := by
    rw [List.getElem?_map, Option.map_eq_some_iff] at hc
    obtain ⟨d, hd, rfl⟩ := hc
    exact reads_observed_iff.2 ⟨d, h.reads t d hd, rfl⟩
  onceMore lt fails := by rw [List.length_map, h.onceMore lt (fails_observed.1 fails)]
  noMore stay := by
    rw [List.length_map, h.noMore fun more => stay ⟨more.1, fails_observed.2 more.2⟩]

/-- The tries of a repetition are known. -/
theorem Tries.unique {tries' : List (Course α (Outcome α Nat))} (h : q.Tries grammar ts most i k tries)
    (h' : q.Tries grammar ts most i k tries') (hr : q.Repeats grammar ts least most i v k)
    (hi : i 0 ≤ ts.length) : tries = tries' := by
  have length : tries.length = tries'.length ∧ tries.length ≤ k + 1 := by
    by_cases more : k < most ∧ q.Fails grammar ts (i k)
    · rw [h.onceMore more.1 more.2, h'.onceMore more.1 more.2]
      exact ⟨rfl, Nat.le_refl _⟩
    · rw [h.noMore more, h'.noMore more]
      exact ⟨rfl, Nat.le_succ k⟩
  refine List.ext_getElem length.1 fun t ht ht' => ?_
  have here := h.reads t _ (List.getElem?_eq_getElem ht)
  have there := h'.reads t _ (List.getElem?_eq_getElem ht')
  exact here.unique there (hr.le_length hi (by omega))

end Parser

end LazyPeg
