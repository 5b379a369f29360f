import LazyPeg.Proofs.Reading.Matches

/-!
# Rows of parsers

What becomes of parsers that are matched one after the other.  Either all of them match
(`Parser.MatchesRow`), or one of them is the first to fail (`Parser.MissesRow`), or one of them does not
come to an outcome.  Both relations keep the events, in their order.

From them follows the course of a `bind`.  Behind a row that matches it is that of the parser which the
continuation makes of the values, with one call noted before it (`MatchesRow.reads_bind`); where the row
misses, the continuation has no part in it (`MissesRow.reads_bind`).  There is no other way to an outcome
(`row_cases_of_reads`).
-/
namespace LazyPeg.Parser

variable {α : Type} [Token α] [DecidableEq α]

/-- Parsers match one after the other: their values, the offset behind the last one, and the events. -/
inductive MatchesRow (grammar : Grammar α) (ts : List α) :
    List (Parser α) → Nat → List (Value α) → Nat → List (Event α Nat) → Prop where
  | nil (i : Nat) : MatchesRow grammar ts [] i [] i []
  | cons {q : Parser α} {qs : List (Parser α)} {i j k : Nat} {v : Value α} {values : List (Value α)}
    {c : Course α (Outcome α Nat)} {events : List (Event α Nat)} (hc : q.Reads grammar ts i c)
    (ha : c.answer = .ok (.success v j)) (rest : MatchesRow grammar ts qs j values k events) :
    MatchesRow grammar ts (q :: qs) i (v :: values) k (c.events ++ events)

/-- Of parsers that are matched one after the other, `missing` is the first to fail.  The events are those
of the parsers before it, and its own. -/
inductive MissesRow (grammar : Grammar α) (ts : List α) :
    List (Parser α) → Nat → (missing : Parser α) → List (Event α Nat) → Prop where
  | here {q : Parser α} {i j : Nat} {reason : Reason} {c : Course α (Outcome α Nat)}
    (qs : List (Parser α)) (hc : q.Reads grammar ts i c) (ha : c.answer = .ok (.failure reason j)) :
    MissesRow grammar ts (q :: qs) i q c.events
  | later {q missing : Parser α} {qs : List (Parser α)} {i j : Nat} {v : Value α}
    {c : Course α (Outcome α Nat)} {events : List (Event α Nat)} (hc : q.Reads grammar ts i c)
    (ha : c.answer = .ok (.success v j)) (rest : MissesRow grammar ts qs j missing events) :
    MissesRow grammar ts (q :: qs) i missing (c.events ++ events)

/-- The call of a continuation, if it is noted. -/
def called (noted : Bool) (values : List (Value α)) : List (Event α Nat) :=
  if noted then [.continued values] else []

variable {grammar : Grammar α} {ts : List α} {q : Parser α} {qs : List (Parser α)} {i j depth : Nat}
  {values : List (Value α)} {events : List (Event α Nat)}

theorem MatchesRow.le_length (h : MatchesRow grammar ts qs i values j events) (hi : i ≤ ts.length) :
    j ≤ ts.length := by
  induction h with
  | nil i => exact hi
  | cons hc ha _ ih => exact ih (Matches.le_length ⟨_, hc, ha⟩ hi)

/-! ## 1. At a depth that is enough -/

/-- At a depth that is enough a parser has its course. -/
theorem Reads.read_eq (hdepth : grammar.size * (ts.length + 1) ≤ depth) (hi : i ≤ ts.length)
    {c : Course α (Outcome α Nat)} {r : Outcome α Nat} (hc : q.Reads grammar ts i c)
    (ha : c.answer = .ok r) :
    q.read ts (callDepth grammar ts depth) i = .ended ⟨.ok r, c.events, c.reach⟩ := by
  rw [← ha]
  exact (reads_iff_readDepth hdepth q hi).1 hc

/-- Behind a match the row goes on, and what was matched comes first. -/
theorem readAll_cons_eq (hdepth : grammar.size * (ts.length + 1) ≤ depth) (hi : i ≤ ts.length)
    {c : Course α (Outcome α Nat)} {v : Value α} (hc : q.Reads grammar ts i c)
    (ha : c.answer = .ok (.success v j)) {row : Except String (List (Value α) × Nat)} {reach : Nat}
    (rest : readAll ts (callDepth grammar ts depth) qs j = .ended ⟨.ok row, events, reach⟩) :
    ∃ reach', readAll ts (callDepth grammar ts depth) (q :: qs) i =
      .ended ⟨.ok (row.map fun (values, k) => (v :: values, k)), c.events ++ events, reach'⟩ := by
  refine ⟨max c.reach (max reach 0), ?_⟩
  rw [readAll, hc.read_eq hdepth hi ha]
  cases row with
  | error name => simp only [Reading.ok_bind, rest, Reading.pure_eq, List.append_nil, Except.map]
  | ok found => simp only [Reading.ok_bind, rest, Reading.pure_eq, List.append_nil, Except.map]

theorem MatchesRow.readAll_eq (hdepth : grammar.size * (ts.length + 1) ≤ depth)
    (h : MatchesRow grammar ts qs i values j events) (hi : i ≤ ts.length) :
    ∃ reach, readAll ts (callDepth grammar ts depth) qs i =
      .ended ⟨.ok (.ok (values, j)), events, reach⟩ := by
  induction h with
  | nil i => exact ⟨0, rfl⟩
  | cons hc ha rest ih =>
    obtain ⟨reach, behind⟩ := ih (Matches.le_length ⟨_, hc, ha⟩ hi)
    exact readAll_cons_eq hdepth hi hc ha behind

theorem MissesRow.readAll_eq (hdepth : grammar.size * (ts.length + 1) ≤ depth)
    (h : MissesRow grammar ts qs i q events) (hi : i ≤ ts.length) :
    ∃ reach, readAll ts (callDepth grammar ts depth) qs i = .ended ⟨.ok (.error q.name), events, reach⟩ := by
  induction h with
  | here qs hc ha =>
    rw [readAll, hc.read_eq hdepth hi ha]
    simp only [Reading.ok_bind, Reading.pure_eq, List.append_nil]
    exact ⟨_, rfl⟩
  | later hc ha rest ih =>
    obtain ⟨reach, behind⟩ := ih (Matches.le_length ⟨_, hc, ha⟩ hi)
    exact readAll_cons_eq hdepth hi hc ha behind

/-- A row that comes to an end matches or misses. -/
theorem row_cases (hdepth : grammar.size * (ts.length + 1) ≤ depth) (hi : i ≤ ts.length)
    {row : Except String (List (Value α) × Nat)}
    (h : (readAll ts (callDepth grammar ts depth) qs i).Gives row) :
    (∃ values j events, MatchesRow grammar ts qs i values j events ∧ row = .ok (values, j)) ∨
      ∃ q events, MissesRow grammar ts qs i q events ∧ row = .error q.name := by
  induction qs generalizing i row with
  | nil => exact .inl ⟨[], i, [], .nil i, Reading.gives_pure_iff.1 h⟩
  | cons q qs ih =>
    obtain ⟨first, hfirst, h⟩ := Reading.gives_bind.1 h
    obtain ⟨c, hc, ha⟩ := (gives_iff hdepth hi).1 hfirst
    cases first with
    | failure reason j => exact .inr ⟨q, c.events, .here qs hc ha, Reading.gives_pure_iff.1 h⟩
    | success v j =>
      obtain ⟨rest, hrest, h⟩ := Reading.gives_bind.1 h
      rcases ih (Matches.le_length ⟨c, hc, ha⟩ hi) hrest with
        ⟨values, k, events, row, rfl⟩ | ⟨missing, events, row, rfl⟩
      · exact .inl ⟨_, k, _, .cons hc ha row, Reading.gives_pure_iff.1 h⟩
      · exact .inr ⟨missing, _, .later hc ha row, Reading.gives_pure_iff.1 h⟩

/-! ## 2. Continuations -/

variable {noted : Bool} {continuation : List (Value α) → Parser α} {c : Course α (Outcome α Nat)}

/-- **Behind a row that matches, the continuation is called once, and what it makes is returned as it
is.** -/
theorem MatchesRow.reads_bind (h : MatchesRow grammar ts qs i values j events) (hi : i ≤ ts.length)
    (hc : (continuation values).Reads grammar ts j c) :
    ∃ reach, (bind noted qs continuation).Reads grammar ts i
      ⟨c.answer, events ++ called noted values ++ c.events, reach⟩ := by
  obtain ⟨reach, row⟩ := h.readAll_eq (Nat.le_refl _) hi
  have behind : (continuation values).read ts (callDepth grammar ts _) j = .ended c :=
    (reads_iff_readDepth (Nat.le_refl _) _ (h.le_length hi)).1 hc
  refine ⟨max reach c.reach, grammar.size * (ts.length + 1), ?_⟩
  rw [readDepth, read, row]
  cases noted with
  | false => simp [Reading.ok_bind, behind, called]
  | true => simp [Reading.ok_bind, behind, called, Reading.note]

/-- **Where a row misses, the continuation is not called.**  The failure is reported where the row began. -/
theorem MissesRow.reads_bind (h : MissesRow grammar ts qs i q events) (hi : i ≤ ts.length) :
    ∃ reach, (bind noted qs continuation).Reads grammar ts i
      ⟨.ok (.failure (.missing q.name) i), events, reach⟩ := by
  obtain ⟨reach, row⟩ := h.readAll_eq (Nat.le_refl _) hi
  refine ⟨reach, grammar.size * (ts.length + 1), ?_⟩
  rw [readDepth, read, row]
  simp [Reading.ok_bind, Reading.pure_eq]

/-- An outcome comes about in one of these two ways. -/
theorem row_cases_of_reads (hi : i ≤ ts.length) (hc : (bind noted qs continuation).Reads grammar ts i c)
    {r : Outcome α Nat} (ha : c.answer = .ok r) :
    (∃ values j events d, MatchesRow grammar ts qs i values j events ∧
      (continuation values).Reads grammar ts j d ∧ d.answer = .ok r) ∨
      ∃ q events, MissesRow grammar ts qs i q events := by
  obtain ⟨depth, hdepth⟩ : ∃ depth, grammar.size * (ts.length + 1) ≤ depth := ⟨_, Nat.le_refl _⟩
  have given := (gives_iff hdepth hi).2 ⟨c, hc, ha⟩
  rw [readDepth, read] at given
  obtain ⟨row, hrow, given⟩ := Reading.gives_bind.1 given
  rcases row_cases hdepth hi hrow with ⟨values, j, events, all, rfl⟩ | ⟨q, events, misses, -⟩
  · have behind : ((continuation values).readDepth grammar ts depth j).Gives r := by
      cases noted with
      | false => exact given
      | true =>
        obtain ⟨_, -, behind⟩ := Reading.gives_bind.1 given
        exact behind
    obtain ⟨d, hd, hr⟩ := (gives_iff hdepth (all.le_length hi)).1 behind
    exact .inl ⟨values, j, events, d, all, hd, hr⟩
  · exact .inr ⟨q, events, misses⟩

end LazyPeg.Parser
