import LazyPeg.Proofs.Reading.Rows

/-!
# The parser that decides

Of several parsers one decides what the whole comes to.  **A choice commits to the first alternative that
does not fail** (`Parser.matches_choice_iff`), and **a group fails at the first parser that does not match
behind those before it**, and names it (`Parser.answers_failure_group_iff`).  In both cases the parsers
before it are known to have come to an outcome, and those behind it have no part in the outcome.
-/
namespace LazyPeg.Parser

variable {α : Type} [Token α] [DecidableEq α] {grammar : Grammar α} {ts : List α} {q : Parser α}
  {qs : List (Parser α)} {i j m : Nat} {v : Value α} {values : List (Value α)}
  {events : List (Event α Nat)} {label : String} {reason : Reason}

/-! ## 1. Alternatives -/

/-- A choice that has found a match has passed over alternatives that fail. -/
theorem readFirst_eq_some {call : RuleId → String → Nat → Reading α (Outcome α Nat)} {r : Outcome α Nat}
    (h : (readFirst ts call qs i).Gives (some r)) :
    ∃ before q after v j, qs = before ++ q :: after ∧ (∀ b ∈ before, b.Refuses ts call i) ∧
      q.Takes ts call i v j ∧ r = .success v j := by
  induction qs with
  | nil => exact absurd (Reading.gives_pure_iff.1 h) nofun
  | cons q qs ih =>
    obtain ⟨first, hfirst, h⟩ := Reading.gives_bind.1 h
    cases first with
    | success v j =>
      obtain rfl := Option.some.inj (Reading.gives_pure_iff.1 h)
      exact ⟨[], q, qs, v, j, rfl, fun b hb => absurd hb List.not_mem_nil, hfirst, rfl⟩
    | failure reason place =>
      obtain ⟨before, q', after, v, j, rfl, fail, takes, rfl⟩ := ih h
      exact ⟨q :: before, q', after, v, j, rfl, List.forall_mem_cons.2 ⟨⟨reason, place, hfirst⟩, fail⟩,
        takes, rfl⟩

/-- **A choice matches as its first alternative that does not fail.** -/
theorem matches_choice_iff (hi : i ≤ ts.length) :
    (choice qs).Matches grammar ts i v j ↔
      ∃ before q after, qs = before ++ q :: after ∧ (∀ b ∈ before, b.Fails grammar ts i) ∧
        q.Matches grammar ts i v j := by
  have enough := Nat.le_refl (grammar.size * (ts.length + 1))
  constructor
  · intro h
    obtain ⟨found, hfound, h⟩ := Reading.gives_bind.1 ((matches_iff_takes enough hi).1 h)
    cases found with
    | none => exact absurd (Reading.gives_pure_iff.1 h) nofun
    | some r =>
      obtain rfl := Reading.gives_pure_iff.1 h
      obtain ⟨before, q, after, w, k, rfl, fail, takes, same⟩ := readFirst_eq_some hfound
      obtain ⟨rfl, rfl⟩ := Outcome.success.inj same
      exact ⟨before, q, after, rfl, fun b hb => (fails_iff_refuses enough hi).2 (fail b hb),
        (matches_iff_takes enough hi).2 takes⟩
  · rintro ⟨before, q, after, rfl, fail, matched⟩
    have refuses b hb := (fails_iff_refuses enough hi).1 (fail b hb)
    exact (matches_iff_takes enough hi).2
      (takes_choice before refuses ((matches_iff_takes enough hi).1 matched))

/-! ## 2. Rows -/

/-- The parsers before the one that a row misses match, and that one fails behind them. -/
theorem MissesRow.exists_split (h : MissesRow grammar ts qs i q events) :
    ∃ before after values m events', qs = before ++ q :: after ∧
      MatchesRow grammar ts before i values m events' ∧ q.Fails grammar ts m := by
  induction h with
  | @here q i j reason c qs hc ha => exact ⟨[], qs, [], i, [], rfl, .nil i, c, reason, j, hc, ha⟩
  | @later q missing qs i j v c events hc ha _ ih =>
    obtain ⟨before, after, values, m, events', rfl, row, fails⟩ := ih
    exact ⟨q :: before, after, v :: values, m, _, rfl, .cons hc ha row, fails⟩

theorem MatchesRow.misses (h : MatchesRow grammar ts qs i values m events) (hq : q.Fails grammar ts m)
    (after : List (Parser α)) : ∃ events', MissesRow grammar ts (qs ++ q :: after) i q events' := by
  induction h with
  | nil i =>
    obtain ⟨c, reason, j, hc, ha⟩ := hq
    exact ⟨_, .here after hc ha⟩
  | cons hc ha _ ih =>
    obtain ⟨events', row⟩ := ih hq
    exact ⟨_, .later hc ha row⟩

/-- What a group answers comes from its row. -/
theorem answers_group_iff {r : Outcome α Nat} (hi : i ≤ ts.length) :
    (group label qs).Answers grammar ts i r ↔
      (∃ values j events, MatchesRow grammar ts qs i values j events ∧ r = .success (.tuple values) j) ∨
        ∃ q events, MissesRow grammar ts qs i q events ∧ r = .failure (.missing q.name) i := by
  have enough := Nat.le_refl (grammar.size * (ts.length + 1))
  rw [answers_iff_gives enough hi]
  constructor
  · intro h
    obtain ⟨row, hrow, h⟩ := Reading.gives_bind.1 h
    rcases row_cases enough hi hrow with ⟨values, j, events, row, rfl⟩ | ⟨q, events, row, rfl⟩
    · exact .inl ⟨values, j, events, row, Reading.gives_pure_iff.1 h⟩
    · exact .inr ⟨q, events, row, Reading.gives_pure_iff.1 h⟩
  · rintro (⟨values, j, events, row, rfl⟩ | ⟨q, events, row, rfl⟩)
    · obtain ⟨reach, read⟩ := row.readAll_eq enough hi
      exact Reading.Gives.bind ⟨events, reach, read⟩ (Reading.gives_pure _)
    · obtain ⟨reach, read⟩ := row.readAll_eq enough hi
      exact Reading.Gives.bind ⟨events, reach, read⟩ (Reading.gives_pure _)

/-- The parsers of a row match one after the other where their tuple matches. -/
theorem matches_tuple_iff (hi : i ≤ ts.length) :
    (tuple qs).Matches grammar ts i (.tuple values) j ↔
      ∃ events, MatchesRow grammar ts qs i values j events := by
  constructor
  · intro h
    rcases (answers_group_iff hi).1 h with ⟨values', j', events, row, same⟩ | ⟨q, events, -, bad⟩
    · obtain ⟨tuples, rfl⟩ := Outcome.success.inj same
      obtain rfl := Value.tuple.inj tuples
      exact ⟨events, row⟩
    · cases bad
  · rintro ⟨events, row⟩
    exact (answers_group_iff hi).2 (.inl ⟨values, j, events, row, rfl⟩)

/-- **A group fails at the first of its parsers that fails behind those before it**, and names that
parser. -/
theorem answers_failure_group_iff (hi : i ≤ ts.length) :
    (group label qs).Answers grammar ts i (.failure reason j) ↔
      j = i ∧ ∃ before q after values m, qs = before ++ q :: after ∧ reason = .missing q.name ∧
        (tuple before).Matches grammar ts i (.tuple values) m ∧ q.Fails grammar ts m := by
  rw [answers_group_iff hi]
  constructor
  · rintro (⟨values, k, events, -, bad⟩ | ⟨q, events, row, same⟩)
    · cases bad
    · obtain ⟨rfl, rfl⟩ := Outcome.failure.inj same
      obtain ⟨before, after, values, m, events', rfl, all, fails⟩ := row.exists_split
      exact ⟨rfl, before, q, after, values, m, rfl, rfl, (matches_tuple_iff hi).2 ⟨events', all⟩, fails⟩
  · rintro ⟨rfl, before, q, after, values, m, rfl, rfl, all, fails⟩
    obtain ⟨events, row⟩ := (matches_tuple_iff hi).1 all
    obtain ⟨events', misses⟩ := row.misses fails after
    exact .inr ⟨q, events', misses, rfl⟩

omit [DecidableEq α] in
/-- The combinators that match parsers in a row. -/
def rows : List (List (Parser α) → Parser α) := [tuple, seq]

/-- So does whatever is made of a group by a combinator for rows. -/
theorem answers_failure_row_iff {f : List (Parser α) → Parser α} (hf : f ∈ rows) (hi : i ≤ ts.length) :
    (f qs).Answers grammar ts i (.failure reason j) ↔
      j = i ∧ ∃ before q after values m, qs = before ++ q :: after ∧ reason = .missing q.name ∧
        (tuple before).Matches grammar ts i (.tuple values) m ∧ q.Fails grammar ts m := by
  rcases List.mem_pair.1 hf with rfl | rfl
  · exact answers_failure_group_iff hi
  · rw [seq, answers_map_iff, ← answers_failure_group_iff hi]
    constructor
    · rintro ⟨r, answer, same⟩
      cases r with
      | success v k => cases same
      | failure reason' k =>
        obtain ⟨rfl, rfl⟩ := Outcome.failure.inj same
        exact answer
    · exact fun answer => ⟨_, answer, rfl⟩

end LazyPeg.Parser
