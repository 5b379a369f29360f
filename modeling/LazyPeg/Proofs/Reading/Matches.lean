import LazyPeg.Proofs.Reading.Answers
import LazyPeg.Proofs.Reading.Depth

/-!
# Matches and failures

What a parser of a grammar answers at an offset of a list, with the depth of calls left aside: it matches
with a value up to another offset (`Parser.Matches`), or it fails (`Parser.Fails`).  It does at most one of
the two, and there is one value and one offset (`Matches.unique`, `Matches.not_fails`).  A parser that
does neither is stopped at a rule that is not defined, or does not end; one that does either
decides (`Parser.Decides`).

At a depth that is enough these are the answers of one reading (`matches_iff_takes`,
`fails_iff_refuses`), so the lemmas of `Reading.Answers` apply.  A parser that changes the course of
another one, and does nothing else, is dealt with at all depths at once (`reads_iff_of_mapCourse`).  §4 says
when a changed value and a row of two are matched, and when they fail.
-/
namespace LazyPeg

/-- The reading with its course changed. -/
def Reading.mapCourse {α β γ : Type} (f : Course α β → Course α γ) : Reading α β → Reading α γ
  | endless => endless
  | ended c => ended (f c)

namespace Parser

variable {α : Type} [Token α] [DecidableEq α]

/-- A parser matches from `i` to `j` with a value. -/
def Matches (grammar : Grammar α) (ts : List α) (q : Parser α) (i : Nat) (v : Value α) (j : Nat) : Prop :=
  ∃ c, q.Reads grammar ts i c ∧ c.answer = .ok (.success v j)

/-- A parser fails at `i`. -/
def Fails (grammar : Grammar α) (ts : List α) (q : Parser α) (i : Nat) : Prop :=
  ∃ c reason j, q.Reads grammar ts i c ∧ c.answer = .ok (.failure reason j)

/-- A parser comes to this outcome at `i`. -/
def Answers (grammar : Grammar α) (ts : List α) (q : Parser α) (i : Nat) (r : Outcome α Nat) : Prop :=
  ∃ c, q.Reads grammar ts i c ∧ c.answer = .ok r

/-- A parser comes to an outcome at `i`. -/
def Decides (grammar : Grammar α) (ts : List α) (q : Parser α) (i : Nat) : Prop :=
  ∃ c r, q.Reads grammar ts i c ∧ c.answer = .ok r

variable {grammar : Grammar α} {ts : List α} {q : Parser α} {i j k : Nat} {v w : Value α}

theorem decides_iff : q.Decides grammar ts i ↔ (∃ v j, q.Matches grammar ts i v j) ∨ q.Fails grammar ts i := by
  constructor
  · rintro ⟨c, r, hc, ha⟩
    cases r with
    | success v j => exact .inl ⟨v, j, c, hc, ha⟩
    | failure reason j => exact .inr ⟨c, reason, j, hc, ha⟩
  · rintro (⟨v, j, c, hc, ha⟩ | ⟨c, reason, j, hc, ha⟩)
    · exact ⟨c, _, hc, ha⟩
    · exact ⟨c, _, hc, ha⟩

/-- A parser matches where it answers with a success. -/
theorem exists_matches_iff_answers :
    (∃ v j, q.Matches grammar ts i v j) ↔ ∃ r, q.Answers grammar ts i r ∧ r.isSuccess := by
  constructor
  · rintro ⟨v, j, matched⟩
    exact ⟨.success v j, matched, rfl⟩
  · rintro ⟨r, answer, success⟩
    cases r with
    | success v j => exact ⟨v, j, answer⟩
    | failure reason j => cases success

/-- A parser fails where it answers with a failure. -/
theorem fails_iff_answers :
    q.Fails grammar ts i ↔ ∃ r, q.Answers grammar ts i r ∧ r.isSuccess = false := by
  constructor
  · rintro ⟨c, reason, j, reads, answer⟩
    exact ⟨_, ⟨c, reads, answer⟩, rfl⟩
  · rintro ⟨r, ⟨c, reads, answer⟩, failed⟩
    cases r with
    | success v j => cases failed
    | failure reason j => exact ⟨c, reason, j, reads, answer⟩

theorem decides_iff_answers : q.Decides grammar ts i ↔ ∃ r, q.Answers grammar ts i r := exists_comm

/-! ## 1. One answer -/

theorem Matches.unique (h : q.Matches grammar ts i v j) (h' : q.Matches grammar ts i w k)
    (hi : i ≤ ts.length) : v = w ∧ j = k := by
  obtain ⟨c, hc, ha⟩ := h
  obtain ⟨c', hc', ha'⟩ := h'
  obtain rfl := hc.unique hc' hi
  exact Outcome.success.inj (Except.ok.inj (ha.symm.trans ha'))

theorem Matches.not_fails (h : q.Matches grammar ts i v j) (hi : i ≤ ts.length) :
    ¬ q.Fails grammar ts i := by
  rintro ⟨c', reason, place, hc', ha'⟩
  obtain ⟨c, hc, ha⟩ := h
  obtain rfl := hc.unique hc' hi
  exact absurd (Except.ok.inj (ha.symm.trans ha')) nofun

theorem Matches.le (h : q.Matches grammar ts i v j) (hi : i ≤ ts.length) : i ≤ j := by
  obtain ⟨c, hc, ha⟩ := h
  exact (hc.place_mem hi ha).1

theorem Matches.le_length (h : q.Matches grammar ts i v j) (hi : i ≤ ts.length) : j ≤ ts.length := by
  obtain ⟨c, hc, ha⟩ := h
  have inside := (hc.place_mem hi ha).2
  have seen := hc.reach_le hi
  simp only [Outcome.place] at inside
  omega

/-! ## 2. At a depth that is enough -/

variable {depth : Nat}

theorem gives_iff (hdepth : grammar.size * (ts.length + 1) ≤ depth) (hi : i ≤ ts.length)
    {r : Outcome α Nat} :
    (q.readDepth grammar ts depth i).Gives r ↔ ∃ c, q.Reads grammar ts i c ∧ c.answer = .ok r := by
  constructor
  · rintro ⟨events, reach, hc⟩
    exact ⟨_, (reads_iff_readDepth hdepth q hi).2 hc, rfl⟩
  · rintro ⟨⟨answer, events, reach⟩, hc, rfl⟩
    exact ⟨events, reach, (reads_iff_readDepth hdepth q hi).1 hc⟩

theorem answers_iff_gives (hdepth : grammar.size * (ts.length + 1) ≤ depth) (hi : i ≤ ts.length)
    {r : Outcome α Nat} :
    q.Answers grammar ts i r ↔ (q.read ts (callDepth grammar ts depth) i).Gives r :=
  (gives_iff hdepth hi).symm

theorem matches_iff_takes (hdepth : grammar.size * (ts.length + 1) ≤ depth) (hi : i ≤ ts.length) :
    q.Matches grammar ts i v j ↔ q.Takes ts (callDepth grammar ts depth) i v j :=
  (gives_iff hdepth hi).symm

theorem fails_iff_refuses (hdepth : grammar.size * (ts.length + 1) ≤ depth) (hi : i ≤ ts.length) :
    q.Fails grammar ts i ↔ q.Refuses ts (callDepth grammar ts depth) i := by
  constructor
  · rintro ⟨c, reason, place, hc⟩
    exact ⟨reason, place, (gives_iff hdepth hi).2 ⟨c, hc⟩⟩
  · rintro ⟨reason, place, given⟩
    obtain ⟨c, hc⟩ := (gives_iff hdepth hi).1 given
    exact ⟨c, reason, place, hc⟩

theorem fails_satisfy {name : String} {accepts : α → Bool} (hi : i ≤ ts.length)
    (h : ¬ ∃ t, ts[i]? = some t ∧ accepts t) : (satisfy name accepts).Fails grammar ts i := by
  have enough := Nat.le_refl (grammar.size * (ts.length + 1))
  refine (fails_iff_refuses enough hi).2 (refuses_satisfy fun t ht => ?_)
  exact Bool.eq_false_of_not_eq_true fun ha => h ⟨t, ht, ha⟩

/-- A condition on one token matches where a token meets it. -/
theorem matches_satisfy_iff {name : String} {accepts : α → Bool} (hi : i ≤ ts.length) :
    (satisfy name accepts).Matches grammar ts i v j ↔
      ∃ t, ts[i]? = some t ∧ accepts t ∧ v = .token t ∧ j = i + 1 := by
  have enough := Nat.le_refl (grammar.size * (ts.length + 1))
  have takes {t : α} (ht : ts[i]? = some t) (ha : accepts t) :
      (satisfy name accepts).Matches grammar ts i (.token t) (i + 1) :=
    (matches_iff_takes enough hi).2 (takes_satisfy ht ha)
  constructor
  · intro matched
    by_cases here : ∃ t, ts[i]? = some t ∧ accepts t
    · obtain ⟨t, ht, ha⟩ := here
      obtain ⟨rfl, rfl⟩ := matched.unique (takes ht ha) hi
      exact ⟨t, ht, ha, rfl, rfl⟩
    · exact absurd (fails_satisfy hi here) (matched.not_fails hi)
  · rintro ⟨t, ht, ha, rfl, rfl⟩
    exact takes ht ha

theorem decides_satisfy (name : String) (accepts : α → Bool) (hi : i ≤ ts.length) :
    (satisfy name accepts).Decides grammar ts i := by
  refine decides_iff.2 ?_
  by_cases here : ∃ t, ts[i]? = some t ∧ accepts t
  · obtain ⟨t, ht, ha⟩ := here
    exact .inl ⟨_, _, (matches_satisfy_iff hi).2 ⟨t, ht, ha, rfl, rfl⟩⟩
  · exact .inr (fails_satisfy hi here)

/-! ## 3. Courses made of a course -/

/-- A parser that makes its course of that of another one, at every depth, has just these courses. -/
theorem reads_iff_of_mapCourse {q' : Parser α}
    {f : Course α (Outcome α Nat) → Course α (Outcome α Nat)} {c : Course α (Outcome α Nat)}
    (h : ∀ depth, q'.readDepth grammar ts depth i = (q.readDepth grammar ts depth i).mapCourse f) :
    q'.Reads grammar ts i c ↔ ∃ d, q.Reads grammar ts i d ∧ c = f d := by
  constructor
  · rintro ⟨depth, hc⟩
    rw [h] at hc
    cases hd : q.readDepth grammar ts depth i with
    | endless =>
      rw [hd] at hc
      exact absurd hc nofun
    | ended d =>
      rw [hd] at hc
      exact ⟨d, ⟨depth, hd⟩, (Reading.ended.inj hc).symm⟩
  · rintro ⟨d, ⟨depth, hd⟩, rfl⟩
    exact ⟨depth, by rw [h, hd]; rfl⟩

/-- A change of the value changes only the answer. -/
theorem reads_map_iff {f : Value α → Value α} {c : Course α (Outcome α Nat)} :
    (map f q).Reads grammar ts i c ↔
      ∃ d, q.Reads grammar ts i d ∧ c = { d with answer := d.answer.map (Outcome.mapValue f) } := by
  refine reads_iff_of_mapCourse fun depth => ?_
  change (q.readDepth grammar ts depth i >>= _) = _
  rcases q.readDepth grammar ts depth i with _ | ⟨name | r, events, reach⟩
  · rfl
  · rfl
  · simp [Reading.ok_bind, Reading.pure_eq, Reading.mapCourse, Except.map]

/-! ## 4. Changed values and rows of two -/

section Rows

variable {p : Parser α} {f : Value α → Value α} {label : String}

theorem answers_map_iff {r : Outcome α Nat} :
    (map f q).Answers grammar ts i r ↔ ∃ r', q.Answers grammar ts i r' ∧ r = r'.mapValue f := by
  constructor
  · rintro ⟨c, hc, ha⟩
    obtain ⟨⟨answer, events, reach⟩, hd, rfl⟩ := reads_map_iff.1 hc
    cases answer with
    | error name => cases ha
    | ok r' => exact ⟨r', ⟨_, hd, rfl⟩, (Except.ok.inj ha).symm⟩
  · rintro ⟨r', ⟨d, hd, ha⟩, rfl⟩
    exact ⟨_, reads_map_iff.2 ⟨d, hd, rfl⟩, by simp only [ha, Except.map]⟩

theorem matches_map_iff :
    (map f q).Matches grammar ts i v j ↔ ∃ w, q.Matches grammar ts i w j ∧ v = f w := by
  constructor
  · intro h
    obtain ⟨r, answer, same⟩ := answers_map_iff.1 h
    cases r with
    | success w k =>
      obtain ⟨rfl, rfl⟩ := Outcome.success.inj same
      exact ⟨w, answer, rfl⟩
    | failure reason k => cases same
  · rintro ⟨w, matched, rfl⟩
    exact answers_map_iff.2 ⟨_, matched, rfl⟩

theorem fails_map_iff : (map f q).Fails grammar ts i ↔ q.Fails grammar ts i := by
  rw [fails_iff_answers, fails_iff_answers]
  constructor
  · rintro ⟨_, answer, failed⟩
    obtain ⟨r, answer', rfl⟩ := answers_map_iff.1 answer
    exact ⟨r, answer', Outcome.isSuccess_mapValue f r ▸ failed⟩
  · rintro ⟨r, answer, failed⟩
    exact ⟨_, answers_map_iff.2 ⟨r, answer, rfl⟩, (Outcome.isSuccess_mapValue f r).trans failed⟩

/-- Two parsers in a row match where the second one matches behind the first. -/
theorem matches_group_pair_iff (hi : i ≤ ts.length) :
    (group label [p, q]).Matches grammar ts i v k ↔
      ∃ w j w', p.Matches grammar ts i w j ∧ q.Matches grammar ts j w' k ∧ v = .tuple [w, w'] := by
  have enough := Nat.le_refl (grammar.size * (ts.length + 1))
  constructor
  · intro h
    rcases gives_group_pair ((matches_iff_takes enough hi).1 h) with
      ⟨-, reason, bad⟩ | ⟨w, j, w', k', first, second, same⟩
    · cases bad
    · obtain ⟨rfl, rfl⟩ := Outcome.success.inj same
      have matched := (matches_iff_takes enough hi).2 first
      exact ⟨w, j, w', matched, (matches_iff_takes enough (matched.le_length hi)).2 second, rfl⟩
  · rintro ⟨w, j, w', first, second, rfl⟩
    have row := TakesRow.cons ((matches_iff_takes enough hi).1 first)
      (.cons ((matches_iff_takes enough (first.le_length hi)).1 second) (.nil k))
    exact (matches_iff_takes enough hi).2 (row.group label)

/-- They fail where the first one fails, or the second one behind it. -/
theorem fails_group_pair_iff (hi : i ≤ ts.length) :
    (group label [p, q]).Fails grammar ts i ↔
      p.Fails grammar ts i ∨ ∃ w j, p.Matches grammar ts i w j ∧ q.Fails grammar ts j := by
  have enough := Nat.le_refl (grammar.size * (ts.length + 1))
  constructor
  · intro h
    obtain ⟨reason, place, given⟩ := (fails_iff_refuses enough hi).1 h
    rcases gives_group_pair given with ⟨refuses | ⟨w, j, first, second⟩, -⟩ | ⟨w, j, w', k', -, -, bad⟩
    · exact .inl ((fails_iff_refuses enough hi).2 refuses)
    · have matched := (matches_iff_takes enough hi).2 first
      exact .inr ⟨w, j, matched, (fails_iff_refuses enough (matched.le_length hi)).2 second⟩
    · cases bad
  · rintro (first | ⟨w, j, first, second⟩)
    · exact (fails_iff_refuses enough hi).2 (((fails_iff_refuses enough hi).1 first).group label [q])
    · have refuses := (fails_iff_refuses enough (first.le_length hi)).1 second
      exact (fails_iff_refuses enough hi).2
        (((matches_iff_takes enough hi).1 first).group_refuses label refuses)

theorem matches_seq_pair_iff (hi : i ≤ ts.length) :
    (seq [p, q]).Matches grammar ts i v k ↔
      ∃ w j, p.Matches grammar ts i w j ∧ q.Matches grammar ts j v k := by
  rw [seq, matches_map_iff]
  simp only [matches_group_pair_iff hi]
  constructor
  · rintro ⟨_, ⟨w, j, w', first, second, rfl⟩, rfl⟩
    exact ⟨w, j, first, second⟩
  · rintro ⟨w, j, first, second⟩
    exact ⟨_, ⟨w, j, v, first, second, rfl⟩, rfl⟩

theorem fails_seq_pair_iff (hi : i ≤ ts.length) :
    (seq [p, q]).Fails grammar ts i ↔
      p.Fails grammar ts i ∨ ∃ w j, p.Matches grammar ts i w j ∧ q.Fails grammar ts j := by
  rw [seq, fails_map_iff, fails_group_pair_iff hi]

end Rows

end Parser

end LazyPeg
