import LazyPeg.Proofs.Reading.Matches

/-!
# Lookahead

What `peek` and `not` answer, by what the parser inside them answers at the same offset
(`answers_peek_iff`, `answers_not_iff`).  Both stay where they are.  At a token exactly one of them
matches, and the end of the input is the one place where neither a parser nor its negation need match.

In a row with the parser itself, `peek` changes nothing but what is said of a failure: the parser is read
twice at one offset, comes to the same both times, and the second time looks no farther
(`reads_seq_peek_iff`).  A row of `not` and the parser itself never matches.
-/
namespace LazyPeg

/-! ## 1. Outcomes -/

namespace Outcome

variable {α π : Type}

/-- The outcome, with nothing consumed. -/
def stay (start : π) : Outcome α π → Outcome α π
  | success v _ => success v start
  | failure reason place => failure reason place

/-- The outcome of a negation, where this token stands or none. -/
def negate (name : String) (here : Option α) (start : π) : Outcome α π → Outcome α π
  | success .. => failure (.present name) start
  | failure .. =>
    match here with
    | some t => success (.token t) start
    | none => failure .endOfInput start

@[simp] theorem isSuccess_stay (start : π) (r : Outcome α π) :
    (r.stay start).isSuccess = r.isSuccess := by
  cases r <;> rfl

/-- At the end of the input a negation fails, whatever was negated, and nothing else can match there. -/
theorem negate_none (name : String) (start : π) (r : Outcome α π) :
    ∃ reason, r.negate name none start = .failure reason start ∧ reason.kind = .unexpected := by
  cases r with
  | success v next => exact ⟨.present name, rfl, rfl⟩
  | failure reason place => exact ⟨.endOfInput, rfl, rfl⟩

theorem place_of_stay {start next : π} {r : Outcome α π} {v : Value α}
    (h : r.stay start = .success v next) : next = start := by
  cases r with
  | success w place => exact (Outcome.success.inj h).2.symm
  | failure reason place => cases h

theorem place_of_negate {name : String} {here : Option α} {start next : π} {r : Outcome α π} {v : Value α}
    (h : r.negate name here start = .success v next) : next = start := by
  rcases r with _ | _
  · cases h
  · cases here with
    | some t => exact (Outcome.success.inj h).2.symm
    | none => cases h

end Outcome

/-- The course of a parser behind a lookahead to it: it is read twice, and only a failure is reported
otherwise. -/
def Course.lookedAhead {α : Type} (name : String) (i : Nat) (c : Course α (Outcome α Nat)) :
    Course α (Outcome α Nat) :=
  match c.answer with
  | .ok (.success ..) => { c with events := c.events ++ c.events }
  | .ok (.failure ..) => { c with answer := .ok (.failure (.missing name) i) }
  | .error _ => c

@[simp] theorem Course.reach_lookedAhead {α : Type} (name : String) (i : Nat)
    (c : Course α (Outcome α Nat)) : (c.lookedAhead name i).reach = c.reach := by
  unfold lookedAhead
  split <;> rfl

theorem Course.answer_lookedAhead {α : Type} {name : String} {i : Nat} {c : Course α (Outcome α Nat)}
    {v : Value α} {j : Nat} :
    (c.lookedAhead name i).answer = .ok (.success v j) ↔ c.answer = .ok (.success v j) := by
  obtain ⟨answer, events, reach⟩ := c
  rcases answer with _ | _ | _ <;> simp [lookedAhead]

namespace Parser

variable {α : Type} [Token α] [DecidableEq α]

/-! ## 2. What a lookahead answers -/

section Answers

variable {grammar : Grammar α} {ts : List α} {q : Parser α} {i j : Nat} {v : Value α} {r : Outcome α Nat}

theorem gives_peek {call : RuleId → String → Nat → Reading α (Outcome α Nat)} :
    ((peek q).read ts call i).Gives r ↔ ∃ r', (q.read ts call i).Gives r' ∧ r = r'.stay i := by
  rw [read, Reading.gives_bind]
  refine exists_congr fun r' => and_congr_right fun _ => ?_
  cases r' <;> exact Reading.gives_pure_iff

theorem gives_not {call : RuleId → String → Nat → Reading α (Outcome α Nat)} :
    ((Parser.not q).read ts call i).Gives r ↔
      ∃ r', (q.read ts call i).Gives r' ∧ r = r'.negate q.name ts[i]? i := by
  rw [read, Reading.gives_bind]
  refine exists_congr fun r' => and_congr_right fun _ => ?_
  cases r' with
  | success w k => exact Reading.gives_pure_iff
  | failure reason k =>
    simp only [Reading.gives_bind, Reading.gives_look, exists_eq_left, Outcome.negate]
    cases ts[i]? <;> exact Reading.gives_pure_iff

theorem answers_peek_iff (hi : i ≤ ts.length) :
    (peek q).Answers grammar ts i r ↔ ∃ r', q.Answers grammar ts i r' ∧ r = r'.stay i := by
  simp only [answers_iff_gives (Nat.le_refl _) hi]
  exact gives_peek

theorem answers_not_iff (hi : i ≤ ts.length) :
    (Parser.not q).Answers grammar ts i r ↔
      ∃ r', q.Answers grammar ts i r' ∧ r = r'.negate q.name ts[i]? i := by
  simp only [answers_iff_gives (Nat.le_refl _) hi]
  exact gives_not

/-- A lookahead comes to an outcome where the parser does. -/
theorem decides_peek_iff (hi : i ≤ ts.length) :
    (peek q).Decides grammar ts i ↔ q.Decides grammar ts i := by
  simp only [decides_iff_answers, answers_peek_iff hi]
  constructor
  · rintro ⟨_, r, answer, -⟩
    exact ⟨r, answer⟩
  · rintro ⟨r, answer⟩
    exact ⟨_, r, answer, rfl⟩

theorem decides_not_iff (hi : i ≤ ts.length) :
    (Parser.not q).Decides grammar ts i ↔ q.Decides grammar ts i := by
  simp only [decides_iff_answers, answers_not_iff hi]
  constructor
  · rintro ⟨_, r, answer, -⟩
    exact ⟨r, answer⟩
  · rintro ⟨r, answer⟩
    exact ⟨_, r, answer, rfl⟩

/-- A `peek` matches where the parser does. -/
theorem exists_matches_peek_iff (hi : i ≤ ts.length) :
    (∃ v j, (peek q).Matches grammar ts i v j) ↔ ∃ v j, q.Matches grammar ts i v j := by
  simp only [exists_matches_iff_answers, answers_peek_iff hi]
  constructor
  · rintro ⟨_, ⟨r, answer, rfl⟩, success⟩
    exact ⟨r, answer, r.isSuccess_stay i ▸ success⟩
  · rintro ⟨r, answer, success⟩
    exact ⟨_, ⟨r, answer, rfl⟩, (r.isSuccess_stay i).trans success⟩

/-- A negation matches at a token where the parser fails, with the token for its value. -/
theorem matches_not_iff (hi : i ≤ ts.length) :
    (Parser.not q).Matches grammar ts i v j ↔
      q.Fails grammar ts i ∧ j = i ∧ ∃ t, ts[i]? = some t ∧ v = .token t := by
  change (Parser.not q).Answers grammar ts i (.success v j) ↔ _
  rw [answers_not_iff hi, fails_iff_answers]
  constructor
  · rintro ⟨r', answer, same⟩
    cases r' with
    | success w k => cases same
    | failure reason k =>
      simp only [Outcome.negate] at same
      split at same
      next t ht =>
        obtain ⟨rfl, rfl⟩ := Outcome.success.inj same
        exact ⟨⟨_, answer, rfl⟩, rfl, t, ht, rfl⟩
      next => cases same
  · rintro ⟨⟨r', answer, failed⟩, rfl, t, ht, rfl⟩
    cases r' with
    | success w k => cases failed
    | failure reason k => exact ⟨_, answer, by simp only [Outcome.negate, ht]⟩

/-- A negation fails where the parser matches, and at the end of the input where it fails as well. -/
theorem fails_not_iff (hi : i ≤ ts.length) :
    (Parser.not q).Fails grammar ts i ↔
      (∃ v j, q.Matches grammar ts i v j) ∨ q.Fails grammar ts i ∧ ts[i]? = none := by
  rw [fails_iff_answers, exists_matches_iff_answers, fails_iff_answers]
  simp only [answers_not_iff hi]
  constructor
  · rintro ⟨_, ⟨r', answer, rfl⟩, failed⟩
    cases r' with
    | success w k => exact .inl ⟨_, answer, rfl⟩
    | failure reason k =>
      simp only [Outcome.negate] at failed
      split at failed
      next => cases failed
      next ht => exact .inr ⟨⟨_, answer, rfl⟩, ht⟩
  · rintro (⟨r', answer, success⟩ | ⟨⟨r', answer, failed⟩, ht⟩)
    · cases r' with
      | success w k => exact ⟨_, ⟨_, answer, rfl⟩, rfl⟩
      | failure reason k => cases success
    · cases r' with
      | success w k => cases failed
      | failure reason k => exact ⟨_, ⟨_, answer, rfl⟩, by simp only [Outcome.negate, ht]; rfl⟩

/-- At a token either the parser or its negation matches, if the parser comes to an outcome. -/
theorem exists_matches_peek_iff_not (hi : i ≤ ts.length) {t : α} (ht : ts[i]? = some t)
    (decides : q.Decides grammar ts i) :
    (∃ v j, (peek q).Matches grammar ts i v j) ↔ ¬ ∃ v j, (Parser.not q).Matches grammar ts i v j := by
  rw [exists_matches_peek_iff hi]
  constructor
  · rintro ⟨v, j, matched⟩ ⟨w, k, negated⟩
    exact matched.not_fails hi ((matches_not_iff hi).1 negated).1
  · intro none
    rcases decides_iff.1 decides with matched | fails
    · exact matched
    · exact absurd ⟨.token t, i, (matches_not_iff hi).2 ⟨fails, rfl, t, ht, rfl⟩⟩ none

/-- A double negation matches at a token where the parser does. -/
theorem exists_matches_not_not_iff (hi : i ≤ ts.length) {t : α} (ht : ts[i]? = some t) :
    (∃ v j, (Parser.not (Parser.not q)).Matches grammar ts i v j) ↔
      ∃ v j, q.Matches grammar ts i v j := by
  simp only [matches_not_iff hi, fails_not_iff hi, ht]
  simp

end Answers

/-! ## 3. Rows of two -/

section Rows

variable {grammar : Grammar α} {ts : List α} {q : Parser α} {i k : Nat} {v : Value α}

/-- **What a parser is read as behind a lookahead to itself.** -/
theorem reads_seq_peek_iff {c : Course α (Outcome α Nat)} :
    (seq [peek q, q]).Reads grammar ts i c ↔
      ∃ d, q.Reads grammar ts i d ∧ c = d.lookedAhead (peek q).name i := by
  refine reads_iff_of_mapCourse fun depth => ?_
  rw [readDepth, readDepth, seq, read, read, readAll, read]
  rcases hq : q.read ts (callDepth grammar ts depth) i with
    _ | ⟨name | ⟨v, j⟩ | ⟨reason, j⟩, events, reach⟩
  · rfl
  · rfl
  · simp [readAll, hq, Reading.ok_bind, Reading.pure_eq, Reading.mapCourse, Course.lookedAhead,
      Outcome.mapValue, lastItem]
  · simp [Reading.ok_bind, Reading.pure_eq, Reading.mapCourse, Course.lookedAhead, Outcome.mapValue]

/-- Behind a lookahead to itself a parser matches as it does alone. -/
theorem matches_seq_peek_iff : (seq [peek q, q]).Matches grammar ts i v k ↔ q.Matches grammar ts i v k := by
  constructor
  · rintro ⟨c, hc, ha⟩
    obtain ⟨d, hd, rfl⟩ := reads_seq_peek_iff.1 hc
    exact ⟨d, hd, Course.answer_lookedAhead.1 ha⟩
  · rintro ⟨d, hd, ha⟩
    exact ⟨_, reads_seq_peek_iff.2 ⟨d, hd, rfl⟩, Course.answer_lookedAhead.2 ha⟩

/-- A parser never matches behind its negation. -/
theorem not_matches_seq_not (hi : i ≤ ts.length) : ¬ (seq [Parser.not q, q]).Matches grammar ts i v k := by
  intro h
  obtain ⟨w, j, negated, matched⟩ := (matches_seq_pair_iff hi).1 h
  obtain ⟨fails, rfl, -⟩ := (matches_not_iff hi).1 negated
  exact matched.not_fails hi fails

end Rows

/-! ## 4. Nested lookaheads -/

/-- A parser with lookaheads around it, at least one, in any nesting. -/
inductive Lookahead {α : Type} (q : Parser α) : Parser α → Prop where
  | peek : Lookahead q (peek q)
  | not : Lookahead q (not q)
  | peekOf {r : Parser α} (h : Lookahead q r) : Lookahead q (.peek r)
  | notOf {r : Parser α} (h : Lookahead q r) : Lookahead q (.not r)

/-- **No lookahead consumes anything.** -/
theorem Lookahead.stays {grammar : Grammar α} {ts : List α} {q r : Parser α} (h : Lookahead q r) {i j : Nat}
    (hi : i ≤ ts.length) {v : Value α} (matched : r.Matches grammar ts i v j) : j = i := by
  have peeks {r' : Parser α} (m : (Parser.peek r').Matches grammar ts i v j) : j = i := by
    obtain ⟨_, -, same⟩ := (answers_peek_iff hi).1 m
    exact Outcome.place_of_stay same.symm
  have negates {r' : Parser α} (m : (Parser.not r').Matches grammar ts i v j) : j = i := by
    obtain ⟨_, -, same⟩ := (answers_not_iff hi).1 m
    exact Outcome.place_of_negate same.symm
  cases h with
  | peek => exact peeks matched
  | not => exact negates matched
  | peekOf => exact peeks matched
  | notOf => exact negates matched

end Parser

end LazyPeg
