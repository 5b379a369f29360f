import LazyPeg.Proofs.Reading.Committed
import LazyPeg.Proofs.Session.Agreement
import LazyPeg.Proofs.Session.Bind
import LazyPeg.Proofs.Simulation.Regrouped

/-!
# Regrouping in a session

Sequences, tuples and choices may be put into one another in any way, or be written as chains of methods:
as long as the parsers and their order stay, **the matches stay, with all that is read and done for them**
(`Session.parse_regrouped`).  A failure may be worded in another way, but it is always an expected one at
the start of the whole.

* §1 brings what is known of single runs into sessions: how rows and choices fail, and that nothing behind
  the parser that decides is tried.
* §2 says which parser decides.  This is said for local parsers, because the parsers before it are parsed on
  their own for that.
* §3 puts it together.
-/
namespace LazyPeg

open LazyPeg.Parser

/-- What matches as a success does is the same success. -/
theorem Reply.MatchesAlike.of_success {α : Type} {reply reply' : Reply α} {place result : Nat}
    {v : Value α} {next : Position} {events : List (Event α Position)} (h : reply.MatchesAlike reply')
    (hr : reply = .parsed place result (.success v next) events) : reply' = reply := by
  cases h with
  | success => rfl
  | failure => cases hr
  | stopped => cases hr

namespace Session

variable {α : Type} [Token α] [DecidableEq α] {s : Session α} {p : Position} {q q' : Parser α}
  {qs : List (Parser α)} {ts : List α} {r : Result α} {reason : Reason} {next : Position} {place : Nat}

/-! ## 1. Runs in a session -/

/-- A parse fails. -/
def Fails (s : Session α) (q : Parser α) (p : Position) : Prop :=
  ∃ reason next, s.ComesTo q p (.failure reason next)

/-- What a parse comes to is what a run of its parser comes to, with the calls of rules left to the
grammar. -/
theorem exists_run (s : Session α) (p : Position) : ∃ call, ∀ q : Parser α,
    (ExceptT.run (q.parse s.workshop.grammar p)).run ⟨s.store, []⟩ =
      (ExceptT.run (q.eval call p)).run ⟨s.store, []⟩ := by
  have calls (grammar : Grammar α) (depth : Nat) :
      ∃ call, ∀ q : Parser α, (q.evalDepth grammar depth p : Parsing α _) = q.eval call p := by
    cases depth <;> exact ⟨_, fun _ => rfl⟩
  obtain ⟨call, same⟩ := calls s.workshop.grammar (enoughDepth s.workshop.grammar ⟨s.store, []⟩)
  exact ⟨call, fun q => by rw [run_parse, same]⟩

theorem ComesTo.run (h : s.ComesTo q p r) :
    ∃ w, (ExceptT.run (q.parse s.workshop.grammar p)).run ⟨s.store, []⟩ = (.ok r, w) := by
  obtain ⟨place, result, events, hr⟩ := h
  simp only [Session.parse, perform_eq] at hr
  rcases hrun : (ExceptT.run (q.parse s.workshop.grammar p)).run ⟨s.store, []⟩ with ⟨why | r', w⟩
  · rw [hrun] at hr
    cases hr
  · rw [hrun] at hr
    cases hr
    exact ⟨w, rfl⟩

theorem parse_eq_of_run
    (h : (ExceptT.run (q.parse s.workshop.grammar p)).run ⟨s.store, []⟩ =
      (ExceptT.run (q'.parse s.workshop.grammar p)).run ⟨s.store, []⟩) :
    s.parse q p = s.parse q' p := by
  simp only [Session.parse, perform_eq, h]

/-- A changed value changes nothing in the sequences. -/
theorem store_parse_map (f : Value α → Value α) (q : Parser α) (p : Position) (s : Session α) :
    (s.parse (map f q) p).2.store = (s.parse q p).2.store := by
  have left_in (q : Parser α) : (s.parse q p).2.store =
      ((ExceptT.run (q.parse s.workshop.grammar p)).run ⟨s.store, []⟩).2.store := by
    simp only [Session.parse, perform_eq]
    split <;> rfl
  obtain ⟨call, same⟩ := exists_run s p
  rw [left_in, left_in, same, same, world_map]

/-- Behind the alternative that matches none is tried. -/
theorem parse_choice_append (h : s.Succeeds (choice qs) p) (after : List (Parser α)) :
    s.parse (choice (qs ++ after)) p = s.parse (choice qs) p := by
  obtain ⟨v, next, comes⟩ := h
  obtain ⟨w, run⟩ := comes.run
  obtain ⟨call, same⟩ := exists_run s p
  refine parse_eq_of_run ?_
  rw [run, same]
  rw [same] at run
  exact run_choice_append after run

/-- Behind the parser that fails in a row none is tried. -/
theorem parse_row_append {f : List (Parser α) → Parser α} (hf : f ∈ rows) (h : s.Fails (f qs) p)
    (after : List (Parser α)) : s.parse (f (qs ++ after)) p = s.parse (f qs) p := by
  obtain ⟨reason, next, comes⟩ := h
  obtain ⟨w, run⟩ := comes.run
  obtain ⟨call, same⟩ := exists_run s p
  refine parse_eq_of_run ?_
  rw [run, same]
  rw [same] at run
  rcases List.mem_pair.1 hf with rfl | rfl
  · exact run_group_append after run
  · exact run_map_eq_failure.2 (run_group_append after (run_map_eq_failure.1 run))

/-- The combinators that may be put into one another. -/
def combinators : List (List (Parser α) → Parser α) := [tuple, seq, choice]

/-- What they are made of fails where it was started, and as expected. -/
theorem failure_of_comesTo {f : List (Parser α) → Parser α} (hf : f ∈ combinators)
    (h : s.ComesTo (f qs) p (.failure reason next)) : next = p ∧ reason.kind = .expected := by
  obtain ⟨w, run⟩ := h.run
  obtain ⟨call, same⟩ := exists_run s p
  rw [same] at run
  rcases List.mem_cons.1 hf with rfl | hf
  · exact failure_group run
  rcases List.mem_pair.1 hf with rfl | rfl
  · exact failure_group (run_map_eq_failure.1 run)
  · exact failure_choice run

/-! ## 2. Which parser decides -/

omit [Token α] [DecidableEq α] in
/-- Combinators make local parsers of local ones. -/
theorem local_combinator {grammar : Grammar α} {f : List (Parser α) → Parser α} (hf : f ∈ combinators)
    (hqs : ∀ q ∈ qs, q.Local grammar) : (f qs).Local grammar := by
  rcases List.mem_cons.1 hf with rfl | hf
  · exact .group _ (List.forall₂_same.2 hqs)
  rcases List.mem_pair.1 hf with rfl | rfl
  · exact .map _ (.group _ (List.forall₂_same.2 hqs))
  · exact .choice (List.forall₂_same.2 hqs)

theorem fails_iff (hq : q.Local s.workshop.grammar) (hts : s.store.Shows p ts p.offset) :
    s.Fails q p ↔ q.Fails s.workshop.grammar ts p.offset := by
  rw [← exists_failure_iff hq hts]
  constructor
  · rintro ⟨reason, next, comes⟩
    exact ⟨_, comes, rfl⟩
  · rintro ⟨r, comes, failed⟩
    cases r with
    | success v next => cases failed
    | failure reason next => exact ⟨reason, next, comes⟩

/-- **A choice commits to the first alternative that does not fail.** -/
theorem comesTo_choice_iff (hts : s.store.Shows p ts p.offset)
    (hqs : ∀ q ∈ qs, q.Local s.workshop.grammar) {v : Value α} :
    s.ComesTo (choice qs) p (.success v next) ↔
      ∃ before q after, qs = before ++ q :: after ∧ (∀ b ∈ before, s.Fails b p) ∧
        s.ComesTo q p (.success v next) := by
  have whole : (choice qs).Local s.workshop.grammar := .choice (List.forall₂_same.2 hqs)
  rw [comesTo_success_iff whole hts]
  simp only [matches_choice_iff hts.le_length]
  constructor
  · rintro ⟨j, ⟨before, q, after, rfl, fail, matched⟩, rfl⟩
    refine ⟨before, q, after, rfl, fun b hb => ?_, ?_⟩
    · exact (fails_iff (hqs b (List.mem_append_left _ hb)) hts).2 (fail b hb)
    · have member : q ∈ before ++ q :: after := List.mem_append_right _ List.mem_cons_self
      exact (comesTo_success_iff (hqs q member) hts).2 ⟨j, matched, rfl⟩
  · rintro ⟨before, q, after, rfl, fail, comes⟩
    have member : q ∈ before ++ q :: after := List.mem_append_right _ List.mem_cons_self
    obtain ⟨j, matched, rfl⟩ := (comesTo_success_iff (hqs q member) hts).1 comes
    refine ⟨j, ⟨before, q, after, rfl, fun b hb => ?_, matched⟩, rfl⟩
    exact (fails_iff (hqs b (List.mem_append_left _ hb)) hts).1 (fail b hb)

/-- Behind a match a parser fails in the session that the match has left, if it fails in the list. -/
theorem fails_behind_iff (hq : q.Local s.workshop.grammar) (hq' : q'.Local s.workshop.grammar)
    (hts : s.store.Shows p ts p.offset) {v : Value α} (h : s.ComesTo q p (.success v next)) :
    (s.parse q p).2.Fails q' next ↔ q'.Fails s.workshop.grammar ts next.offset := by
  have same := grammar_parse q p s
  rw [← same] at hq' ⊢
  exact fails_iff hq' (h.shows hq hts).1

/-- **A row fails at the first of its parsers that fails behind those before it**, and says that this one
is expected. -/
theorem comesTo_row_iff {f : List (Parser α) → Parser α} (hf : f ∈ rows)
    (hts : s.store.Shows p ts p.offset) (hqs : ∀ q ∈ qs, q.Local s.workshop.grammar) :
    s.ComesTo (f qs) p (.failure reason next) ↔
      next = p ∧ ∃ before q after values mid, qs = before ++ q :: after ∧ reason = .missing q.name ∧
        s.ComesTo (tuple before) p (.success (.tuple values) mid) ∧
        (s.parse (tuple before) p).2.Fails q mid := by
  have whole : (f qs).Local s.workshop.grammar :=
    local_combinator (List.mem_append_left [choice] hf) hqs
  have first {before : List (Parser α)} (hb : ∀ b ∈ before, b ∈ qs) :
      (tuple before).Local s.workshop.grammar :=
    local_combinator List.mem_cons_self fun b hmem => hqs b (hb b hmem)
  rw [comesTo_iff whole hts]
  constructor
  · rintro ⟨r, answer, same⟩
    cases r with
    | success v j => cases same
    | failure reason' j =>
      obtain ⟨rfl, rfl⟩ := Outcome.failure.inj same
      obtain ⟨rfl, before, q, after, values, m, rfl, rfl, row, fails⟩ :=
        (answers_failure_row_iff hf hts.le_length).1 answer
      have isLocal := first fun b hb => List.mem_append_left _ hb
      have comes := (comesTo_success_iff isLocal hts).2 ⟨m, row, rfl⟩
      have here : (p.moveTo m).offset = m := by
        have matched := (comes.shows isLocal hts).2
        exact (matched.unique row hts.le_length).2
      have hq : q ∈ before ++ q :: after := List.mem_append_right _ List.mem_cons_self
      refine ⟨p.moveTo_offset, before, q, after, values, _, rfl, rfl, comes, ?_⟩
      rw [fails_behind_iff isLocal (hqs q hq) hts comes, here]
      exact fails
  · rintro ⟨rfl, before, q, after, values, mid, rfl, rfl, comes, fails⟩
    have isLocal := first fun b hb => List.mem_append_left _ hb
    have hq : q ∈ before ++ q :: after := List.mem_append_right _ List.mem_cons_self
    have behind := (fails_behind_iff isLocal (hqs q hq) hts comes).1 fails
    refine ⟨.failure (.missing q.name) next.offset, ?_, ?_⟩
    · exact (answers_failure_row_iff hf hts.le_length).2
        ⟨rfl, before, q, after, values, _, rfl, rfl, (comes.shows isLocal hts).2, behind⟩
    · simp only [Outcome.mapPlace, Position.moveTo_offset]

/-! ## 3. Regrouping -/

/-- **Regrouping is safe.**  Tuples, sequences and choices that are put into one another in any way match
what one call with the leaves in order matches: they succeed at the same places with the same value, those
of nested tuples made one, and go on at the same place; they do the same things in the same order, whatever
the leaves do and note; and they are stopped alike.  They leave all sequences alike, so that every source
was asked equally often.  If one of them fails, so does the other, both as expected and where the whole was
started.  Chains of methods are such groupings.

Behind the parser that decides none is tried.  That is the first alternative which does not fail in a
choice, and in a row the first parser which fails behind those before it; the row names it. -/
theorem parse_regrouped (h : s.Sound) (hp : s.position? place = some p) :
    (∀ whole : Grouping α,
      s.MatchAlike p (map whole.flatten (whole.apply tuple)) (tuple whole.leaves) ∧
      s.MatchAlike p (whole.apply seq) (seq whole.leaves) ∧
      s.MatchAlike p (whole.apply choice) (choice whole.leaves)) ∧
    (∀ f ∈ combinators, ∀ (first : Grouping α) (rest : List (Grouping α)),
      let whole := Grouping.node first rest
      SamePulls (s.parse (whole.apply f) p).2 (s.parse (f whole.leaves) p).2 ∧
      ∀ q ∈ [whole.apply f, f whole.leaves], ∀ reason next, s.ComesTo q p (.failure reason next) →
        next = p ∧ reason.kind = .expected) ∧
    (∀ (q : Parser α) (qs : List (Parser α)),
      (Grouping.chain q qs).leaves = q :: qs ∧
      (Grouping.chain q qs).apply tuple = qs.foldl Parser.and q ∧
      (Grouping.chain q qs).apply seq = qs.foldl andThen q ∧
      (Grouping.chain q qs).apply choice = qs.foldl Parser.or q) ∧
    (∀ qs after : List (Parser α),
      (s.Succeeds (choice qs) p → s.parse (choice (qs ++ after)) p = s.parse (choice qs) p) ∧
      ∀ f ∈ rows, s.Fails (f qs) p → s.parse (f (qs ++ after)) p = s.parse (f qs) p) ∧
    ∀ qs : List (Parser α), (∀ q ∈ qs, q.Local s.workshop.grammar) →
      (∀ v next, s.ComesTo (choice qs) p (.success v next) ↔
        ∃ before q after, qs = before ++ q :: after ∧ (∀ b ∈ before, s.Fails b p) ∧
          s.ComesTo q p (.success v next)) ∧
      ∀ f ∈ rows, ∀ reason next, s.ComesTo (f qs) p (.failure reason next) ↔
        next = p ∧ ∃ before q after values mid, qs = before ++ q :: after ∧ reason = .missing q.name ∧
          s.ComesTo (tuple before) p (.success (.tuple values) mid) ∧
          (s.parse (tuple before) p).2.Fails q mid := by
  have hts := h.shows hp
  have alike (whole : Grouping α) :
      s.MatchAlike p (map whole.flatten (whole.apply tuple)) (tuple whole.leaves) ∧
      s.MatchAlike p (whole.apply seq) (seq whole.leaves) ∧
      s.MatchAlike p (whole.apply choice) (choice whole.leaves) :=
    ⟨matchAlike_of_match? fun _ => match?_tuple_leaves whole p,
      matchAlike_of_match? fun _ => match?_seq_leaves whole p,
      matchAlike_of_match? fun _ => match?_choice_leaves whole p⟩
  refine ⟨alike, fun f hf first rest => ⟨?_, fun q hq reason next comes => ?_⟩, fun q qs => ?_,
    fun qs after => ?_, fun qs hqs => ?_⟩
  · obtain ⟨tuples, sequences, choices⟩ := alike (.node first rest)
    rcases List.mem_cons.1 hf with rfl | hf
    · exact samePulls_of_store ((store_parse_map _ _ p s).symm.trans tuples.2)
    rcases List.mem_pair.1 hf with rfl | rfl
    · exact samePulls_of_store sequences.2
    · exact samePulls_of_store choices.2
  · rcases List.mem_pair.1 hq with rfl | rfl
    · exact failure_of_comesTo hf comes
    · exact failure_of_comesTo hf comes
  · exact ⟨Grouping.leaves_chain q qs, Grouping.apply_chain _ q qs, Grouping.apply_chain _ q qs,
      Grouping.apply_chain _ q qs⟩
  · exact ⟨fun succeeds => parse_choice_append succeeds after,
      fun f hf fails => parse_row_append hf fails after⟩
  · exact ⟨fun v next => comesTo_choice_iff hts hqs, fun f hf reason next => comesTo_row_iff hf hts hqs⟩

/-- The first of three letters in a row on its own, the other two in a tuple. -/
def oneAndTwo : Grouping Char :=
  .node (.leaf any) [.node (.leaf (observed (.text "second") any)) [.leaf (eq 'c')]]

/-- The tuple in the tuple is made one with it.  Of alternatives the second one matches, and the third one,
which would match as well, is not tried. -/
theorem parse_regrouped_letters :
    ∃ s : Session Char, s.Sound ∧ s.position? 0 = some (.mark 0 0) ∧
      (s.parse (map oneAndTwo.flatten (oneAndTwo.apply tuple)) (.mark 0 0)).1 =
        .parsed 1 0 (.success (.tuple [.token 'a', .token 'b', .token 'c']) (.mark 0 3))
          [.observed (.text "second") (.success (.token 'b') (.mark 0 2))] ∧
      (s.parse (tuple [any, observed (.text "second") any, eq 'c']) (.mark 0 0)).1 =
        .parsed 1 0 (.success (.tuple [.token 'a', .token 'b', .token 'c']) (.mark 0 3))
          [.observed (.text "second") (.success (.token 'b') (.mark 0 2))] ∧
      s.parse (choice [eq 'x', any, observed (.text "third") any]) (.mark 0 0) =
        s.parse (choice [eq 'x', any]) (.mark 0 0) ∧
      s.ComesTo (choice [eq 'x', any]) (.mark 0 0) (.success (.token 'a') (.mark 0 1)) := by
  have begun : Reaches (α := Char) [] _ [] [] := .begin rfl
  have opened := begun.step (.start (.feed (.items ['a', 'b', 'c'])))
  obtain ⟨alike, -, -, skips, decides⟩ := @parse_regrouped _ _ _ _ (.mark 0 0) 0 opened.sound rfl
  have isLocal : ∀ q ∈ [eq 'x', any], q.Local (#[] : Grammar Char) :=
    List.forall_mem_cons.2 ⟨.satisfy _ _, List.forall_mem_singleton.2 (.satisfy _ _)⟩
  have committed := ((decides [eq 'x', any] isLocal).1 (.token 'a') (.mark 0 1)).2
    ⟨[eq 'x'], any, [], rfl, List.forall_mem_singleton.2 ⟨_, _, _, _, _, rfl⟩, _, _, _, rfl⟩
  have skipped := (skips [eq 'x', any] [observed (.text "third") any]).1 ⟨_, _, committed⟩
  have flat := (alike oneAndTwo).1.1.of_success rfl
  exact ⟨_, opened.sound, rfl, rfl, flat, skipped, committed⟩

end Session

end LazyPeg
