import LazyPeg.Proofs.Reading.Shortcuts
import LazyPeg.Proofs.Session.Regrouped

/-!
# Shortcuts in a session

`token` and `oneOf` are shortcuts: for a row of single tokens, and for a choice between them.
**The shortcut and the long way succeed at the same places with the same tokens, go on at the same place,
and leave every source asked equally often** (`Session.parse_shortcuts`).  The long way is any grouping of
calls, a chain of methods among them.

* §1 brings groupings into sessions, parser by parser: what the calls come to is what one call with the
  leaves comes to.
* §2 is about one call, with the readings of `Reading.Shortcuts`.
* §3 puts the two together.
-/
namespace LazyPeg

open LazyPeg.Parser

/-! ## 1. Groupings in a session -/

namespace Grouping

variable {α : Type} {f : List (Parser α) → Parser α} {q q' : Parser α} {qs : List (Parser α)}

/-- Every call has parsers to call. -/
theorem leaves_ne_nil : (whole : Grouping α) → whole.leaves ≠ []
  | .leaf q => List.cons_ne_nil q []
  | .node first _ => fun none => first.leaves_ne_nil (List.append_eq_nil_iff.1 none).1

/-- One call with all parsers. -/
def flat (q : Parser α) (qs : List (Parser α)) : Grouping α := .node (.leaf q) (qs.map .leaf)

theorem leaves_flat (q : Parser α) (qs : List (Parser α)) : (flat q qs).leaves = q :: qs := by
  have leaves_map : allLeaves (qs.map leaf) = qs := by
    induction qs with
    | nil => rfl
    | cons q qs ih => rw [List.map_cons, allLeaves, leaves, ih, List.singleton_append]
  rw [flat, leaves, leaves, leaves_map, List.singleton_append]

theorem apply_flat (f : List (Parser α) → Parser α) (q : Parser α) (qs : List (Parser α)) :
    (flat q qs).apply f = f (q :: qs) := by
  have apply_map : applyAll f (qs.map leaf) = qs := by
    induction qs with
    | nil => rfl
    | cons q qs ih => rw [List.map_cons, applyAll, apply, ih]
  rw [flat, apply, apply, apply_map]

/-- A chain of a method calls it at least once if there are two parsers. -/
theorem exists_chain_eq_node (q q' : Parser α) (qs : List (Parser α)) :
    ∃ first rest, chain q (q' :: qs) = .node first rest := by
  suffices h : ∀ first rest, ∃ first' rest',
      qs.foldl (fun t r => Grouping.node t [.leaf r]) (.node first rest) = .node first' rest' from h _ _
  induction qs with
  | nil => exact fun first rest => ⟨first, rest, rfl⟩
  | cons r qs ih => exact fun first rest => ih _ _

end Grouping

theorem Reply.MatchesAlike.symm {α : Type} {reply reply' : Reply α} (h : reply.MatchesAlike reply') :
    reply'.MatchesAlike reply := by
  cases h with
  | success => exact .success _ _ _ _ _
  | failure => exact .failure _ _ _ _ _ _ _
  | stopped => exact .stopped _ _

namespace Session

variable {α : Type} [Token α] [DecidableEq α] {s : Session α} {p : Position} {q q' : Parser α}
  {r : Result α} {v : Value α} {next : Position} {place : Nat} {w ts : List α}

theorem MatchAlike.symm (h : s.MatchAlike p q q') : s.MatchAlike p q' q := ⟨h.1.symm, h.2.symm⟩

/-- What matches alike comes to the same successes. -/
theorem MatchAlike.comesTo_iff (h : s.MatchAlike p q q') :
    s.ComesTo q p (.success v next) ↔ s.ComesTo q' p (.success v next) := by
  constructor
  · rintro ⟨place, result, events, hr⟩
    exact ⟨place, result, events, (h.1.of_success hr).trans hr⟩
  · rintro ⟨place, result, events, hr⟩
    exact ⟨place, result, events, (h.symm.1.of_success hr).trans hr⟩

theorem MatchAlike.fails (h : s.MatchAlike p q q') (hq : s.Fails q p) : s.Fails q' p := by
  obtain ⟨reason, next, place, result, events, hr⟩ := hq
  have alike := h.1
  rw [hr] at alike
  generalize hr' : (s.parse q' p).1 = reply at alike
  cases alike with
  | failure _ _ _ reason' _ next' => exact ⟨reason', next', place, result, events, hr'⟩

/-- A parse comes to what the run of its parser ends with. -/
theorem comesTo_iff_run : s.ComesTo q p r ↔
    ∃ w, (ExceptT.run (q.parse s.workshop.grammar p)).run ⟨s.store, []⟩ = (.ok r, w) := by
  constructor
  · exact ComesTo.run
  · rintro ⟨w, run⟩
    simp only [ComesTo, Session.parse, perform_eq, run]
    exact ⟨_, _, _, rfl⟩

/-- With a changed value a parse comes to what it came to, changed. -/
theorem comesTo_map_iff {f : Value α → Value α} :
    s.ComesTo (map f q) p r ↔ ∃ r', s.ComesTo q p r' ∧ r = r'.mapValue f := by
  obtain ⟨call, same⟩ := exists_run s p
  simp only [comesTo_iff_run, same, eval, Parsing.run_bind]
  rcases (ExceptT.run (q.eval call p)).run ⟨s.store, []⟩ with ⟨why | r', w⟩
  · constructor
    · rintro ⟨w, ⟨⟩⟩
    · rintro ⟨r', ⟨w, ⟨⟩⟩, -⟩
  · constructor
    · rintro ⟨w, ⟨⟩⟩
      exact ⟨r', ⟨w, rfl⟩, rfl⟩
    · rintro ⟨r', ⟨w, ⟨⟩⟩, rfl⟩
      exact ⟨w, rfl⟩

theorem matchAlike_tuple (whole : Grouping α) :
    s.MatchAlike p (map whole.flatten (whole.apply tuple)) (tuple whole.leaves) :=
  matchAlike_of_match? fun _ => match?_tuple_leaves whole p

theorem matchAlike_choice (whole : Grouping α) :
    s.MatchAlike p (whole.apply choice) (choice whole.leaves) :=
  matchAlike_of_match? fun _ => match?_choice_leaves whole p

/-- **Nested tuples come to the values of the tuple of their leaves.** -/
theorem comesTo_tuple_leaves (whole : Grouping α) {values : List (Value α)} :
    s.ComesTo (tuple whole.leaves) p (.success (.tuple values) next) ↔
      ∃ v, whole.values v = values ∧ s.ComesTo (whole.apply tuple) p (.success v next) := by
  rw [← (matchAlike_tuple whole).comesTo_iff, comesTo_map_iff]
  constructor
  · rintro ⟨r, comes, same⟩
    cases r with
    | success v next' =>
      obtain ⟨flat, rfl⟩ := Outcome.success.inj same
      exact ⟨v, (Value.tuple.inj flat).symm, comes⟩
    | failure reason next' => cases same
  · rintro ⟨v, rfl, comes⟩
    exact ⟨_, comes, rfl⟩

/-- The two kinds of calls that shortcuts stand for. -/
def spelledOut : List (List (Parser α) → Parser α) := [tuple, choice]

omit [Token α] [DecidableEq α] in
theorem tuple_mem_spelledOut : tuple ∈ spelledOut (α := α) := List.mem_cons_self

omit [Token α] [DecidableEq α] in
theorem choice_mem_spelledOut : choice ∈ spelledOut (α := α) := List.mem_cons_of_mem _ List.mem_cons_self

/-- Calls that are put into one another leave every source asked as often as one call does. -/
theorem samePulls_leaves {f : List (Parser α) → Parser α} (hf : f ∈ spelledOut)
    (whole : Grouping α) :
    SamePulls (s.parse (f whole.leaves) p).2 (s.parse (whole.apply f) p).2 := by
  rcases List.mem_pair.1 hf with rfl | rfl
  · exact samePulls_of_store ((matchAlike_tuple whole).2.symm.trans (store_parse_map _ _ p s))
  · exact samePulls_of_store (matchAlike_choice whole).2.symm

/-- They fail where the one call fails, as expected and at the start. -/
theorem exists_failure_apply {f : List (Parser α) → Parser α} (hf : f ∈ spelledOut)
    {first : Grouping α} {rest : List (Grouping α)}
    (h : s.Fails (f (Grouping.node first rest).leaves) p) :
    ∃ reason, s.ComesTo ((Grouping.node first rest).apply f) p (.failure reason p) ∧
      reason.kind = .expected := by
  obtain ⟨reason, next, comes⟩ : s.Fails ((Grouping.node first rest).apply f) p := by
    rcases List.mem_pair.1 hf with rfl | rfl
    · obtain ⟨reason, next, comes⟩ := (matchAlike_tuple _).symm.fails h
      obtain ⟨r, comes, same⟩ := comesTo_map_iff.1 comes
      cases r with
      | success v next' => cases same
      | failure reason' next' => exact ⟨reason', next', comes⟩
    · exact (matchAlike_choice _).symm.fails h
  have combines : f ∈ combinators := by
    rcases List.mem_pair.1 hf with rfl | rfl
    · exact List.mem_cons_self
    · exact List.mem_cons_of_mem _ (List.mem_cons_of_mem _ List.mem_cons_self)
  obtain ⟨rfl, kind⟩ := failure_of_comesTo combines comes
  exact ⟨reason, comes, kind⟩

/-! ## 2. One call -/

section OneCall

variable {c : Course α (Outcome α Nat)} {r' : Outcome α Nat}

/-- A parse with a course comes to the answer of the course, and to nothing else. -/
theorem comesTo_iff_of_reads (hq : q.Local s.workshop.grammar) (hts : s.store.Shows p ts p.offset)
    (hc : q.Reads s.workshop.grammar ts p.offset c) (ha : c.answer = .ok r') :
    s.ComesTo q p r ↔ r = r'.mapPlace p.moveTo := by
  have comes := parse_of_answer hq hts hc ha
  constructor
  · rintro ⟨place, result, events, hr⟩
    cases comes.symm.trans hr
    rfl
  · rintro rfl
    exact ⟨_, _, _, comes⟩

theorem local_eq (grammar : Grammar α) (w : List α) :
    ∀ q ∈ w.map eq, q.Local grammar := by
  intro q hq
  obtain ⟨t, -, rfl⟩ := List.mem_map.1 hq
  exact .satisfy _ _

/-- A run of tokens is passed where it stands. -/
theorem comesTo_token_iff (hts : s.store.Shows p ts p.offset) :
    s.ComesTo (token w) p (.success v next) ↔
      w <+: ts.drop p.offset ∧ v = .list (w.map .token) ∧ next = p.moveTo (p.offset + w.length) := by
  rw [comesTo_success_iff (.token w) hts]
  simp only [matches_token_iff hts.le_length]
  constructor
  · rintro ⟨j, ⟨here, rfl, rfl⟩, rfl⟩
    exact ⟨here, rfl, rfl⟩
  · rintro ⟨here, rfl, rfl⟩
    exact ⟨_, ⟨here, rfl, rfl⟩, rfl⟩

/-- The tuple of its tokens passes it there, too. -/
theorem comesTo_tuple_eq_iff (hts : s.store.Shows p ts p.offset) (nonempty : w ≠ [])
    {values : List (Value α)} :
    s.ComesTo (tuple (w.map eq)) p (.success (.tuple values) next) ↔
      s.ComesTo (token w) p (.success (.list values) next) := by
  have isLocal := local_combinator List.mem_cons_self (local_eq s.workshop.grammar w)
  rw [comesTo_token_iff hts, comesTo_success_iff isLocal hts]
  simp only [matches_tuple_eq_iff nonempty hts.le_length, Value.tuple.injEq, Value.list.injEq]
  constructor
  · rintro ⟨j, ⟨here, rfl, rfl⟩, rfl⟩
    exact ⟨here, rfl, rfl⟩
  · rintro ⟨here, rfl, rfl⟩
    exact ⟨_, ⟨here, rfl, rfl⟩, rfl⟩

/-- If the run does not stand here, both fail. -/
theorem fails_run (hts : s.store.Shows p ts p.offset) (nonempty : w ≠ [])
    (missing : ¬ s.Succeeds (token w) p) :
    s.ComesTo (token w) p (.failure (.missing (token w).name) p) ∧ s.Fails (tuple (w.map eq)) p := by
  have absent : ¬ w <+: ts.drop p.offset :=
    fun here => missing ⟨_, _, (comesTo_token_iff hts).2 ⟨here, rfl, rfl⟩⟩
  have isLocal := local_combinator List.mem_cons_self (local_eq s.workshop.grammar w)
  refine ⟨?_, (fails_iff isLocal hts).2 (fails_tuple_eq nonempty absent)⟩
  have answer := (comesTo_iff_of_reads (.token w) hts (reads_token w p.offset) rfl).2 rfl
  rw [if_neg absent, Outcome.mapPlace, Position.moveTo_offset] at answer
  exact answer

/-- They ask equally often. -/
theorem samePulls_tuple_eq (hts : s.store.Shows p ts p.offset) (nonempty : w ≠ []) :
    SamePulls (s.parse (token w) p).2 (s.parse (tuple (w.map eq)) p).2 := by
  have isLocal := local_combinator List.mem_cons_self (local_eq s.workshop.grammar w)
  obtain ⟨name, reads⟩ := reads_tuple_eq s.workshop.grammar ts nonempty p.offset
  exact samePulls_of_store (store_parse_eq (.token w) isLocal hts (reads_token w p.offset) reads rfl)

/-- One of several tokens is passed if it stands here. -/
theorem comesTo_oneOf_iff (hts : s.store.Shows p ts p.offset) :
    s.ComesTo (oneOf w) p (.success v next) ↔
      ∃ t ∈ w, s.store.head? p = some t ∧ v = .token t ∧ next = p.moveTo (p.offset + 1) := by
  rw [oneOf, comesTo_success_iff (.satisfy _ _) hts, hts.head?_here]
  simp only [matches_satisfy_iff hts.le_length, List.contains_iff_mem]
  constructor
  · rintro ⟨j, ⟨t, ht, member, rfl, rfl⟩, rfl⟩
    exact ⟨t, member, ht, rfl, rfl⟩
  · rintro ⟨t, member, ht, rfl, rfl⟩
    exact ⟨_, ⟨t, ht, member, rfl, rfl⟩, rfl⟩

/-- The choice between them passes it, too, and otherwise both fail here.  They ask equally often. -/
theorem parse_oneOf (hts : s.store.Shows p ts p.offset) (nonempty : w ≠ []) :
    (∀ v next, s.ComesTo (choice (w.map eq)) p (.success v next) ↔
      s.ComesTo (oneOf w) p (.success v next)) ∧
    SamePulls (s.parse (oneOf w) p).2 (s.parse (choice (w.map eq)) p).2 ∧
    (¬ s.Succeeds (oneOf w) p → ∀ q ∈ [oneOf w, choice (w.map eq)],
      ∃ reason, s.ComesTo q p (.failure reason p)) := by
  have condition : oneOf w ∈ [oneOf w, choice (w.map eq)] := List.mem_cons_self
  have alternatives : choice (w.map eq) ∈ [oneOf w, choice (w.map eq)] :=
    List.mem_cons_of_mem _ List.mem_cons_self
  have isLocal : ∀ q ∈ [oneOf w, choice (w.map eq)], q.Local s.workshop.grammar :=
    List.forall_mem_cons.2 ⟨.satisfy _ _,
      List.forall_mem_singleton.2 (.choice (List.forall₂_same.2 (local_eq _ w)))⟩
  by_cases here : ∃ t, ts[p.offset]? = some t ∧ t ∈ w
  · obtain ⟨t, ht, member⟩ := here
    have reads := reads_of_mem s.workshop.grammar ht member
    have comes q hq (r : Result α) := comesTo_iff_of_reads (r := r) (isLocal q hq) hts (reads q hq) rfl
    refine ⟨fun v next => ?_, ?_, fun fails => ?_⟩
    · rw [comes _ condition, comes _ alternatives]
    · exact samePulls_of_store (store_parse_eq (isLocal _ condition) (isLocal _ alternatives) hts
        (reads _ condition) (reads _ alternatives) rfl)
    · exact absurd ⟨_, _, (comes _ condition _).2 rfl⟩ fails
  · have absent : ∀ t, ts[p.offset]? = some t → t ∉ w := fun t ht member => here ⟨t, ht, member⟩
    have reads := exists_reads_of_not_mem s.workshop.grammar nonempty absent
    obtain ⟨reason, first⟩ := reads _ condition
    obtain ⟨reason', second⟩ := reads _ alternatives
    have comes (r : Result α) := comesTo_iff_of_reads (r := r) (isLocal _ condition) hts first rfl
    have comes' (r : Result α) := comesTo_iff_of_reads (r := r) (isLocal _ alternatives) hts second rfl
    refine ⟨fun v next => ?_, ?_, fun _ q hq => ?_⟩
    · rw [comes, comes']
      exact ⟨nofun, nofun⟩
    · exact samePulls_of_store (store_parse_eq (isLocal _ condition) (isLocal _ alternatives) hts
        first second rfl)
    · rw [Outcome.mapPlace, Position.moveTo_offset] at comes comes'
      rcases List.mem_pair.1 hq with rfl | rfl
      · exact ⟨reason, (comes _).2 rfl⟩
      · exact ⟨reason', (comes' _).2 rfl⟩

end OneCall

/-! ## 3. Shortcuts -/

section Leaves

variable {first : Grouping α} {rest : List (Grouping α)}

theorem nonempty_of_leaves {whole : Grouping α} (leaves : whole.leaves = w.map eq) : w ≠ [] :=
  fun none => whole.leaves_ne_nil (leaves.trans (congrArg (List.map eq) none))

/-- Where a run is missed, so it is by any grouping of a row. -/
theorem exists_failure_row (hts : s.store.Shows p ts p.offset)
    (leaves : (Grouping.node first rest).leaves = w.map eq) (missing : ¬ s.Succeeds (token w) p) :
    ∀ q ∈ [token w, (Grouping.node first rest).apply tuple],
      ∃ reason, s.ComesTo q p (.failure reason p) ∧ reason.kind = .expected := by
  obtain ⟨missed, fails⟩ := fails_run hts (nonempty_of_leaves leaves) missing
  rw [← leaves] at fails
  have row := exists_failure_apply tuple_mem_spelledOut fails
  exact List.forall_mem_cons.2 ⟨⟨_, missed, rfl⟩, List.forall_mem_singleton.2 row⟩

/-- Where one of several tokens is missed, so it is by any grouping of a choice. -/
theorem exists_failure_alternatives (hts : s.store.Shows p ts p.offset)
    (leaves : (Grouping.node first rest).leaves = w.map eq) (missing : ¬ s.Succeeds (oneOf w) p) :
    ∀ q ∈ [oneOf w, (Grouping.node first rest).apply choice],
      ∃ reason, s.ComesTo q p (.failure reason p) := by
  have both := (parse_oneOf hts (nonempty_of_leaves leaves)).2.2 missing
  obtain ⟨missed, fails⟩ := List.forall_mem_cons.1 both
  obtain ⟨reason, comes⟩ := List.forall_mem_singleton.1 fails
  rw [← leaves] at comes
  obtain ⟨reason', comes', -⟩ := exists_failure_apply choice_mem_spelledOut ⟨reason, p, comes⟩
  exact List.forall_mem_cons.2 ⟨missed, List.forall_mem_singleton.2 ⟨reason', comes'⟩⟩

end Leaves

/-- **Shortcuts agree with what they abbreviate.**

* `token` matches a run of tokens exactly where it stands, and goes on behind it.  So does a row of parsers
  for the single tokens, in one call of `tuple` or in calls put into one another in any way: it comes to
  the same tokens, and leaves every source asked equally often, and if there is no match, both fail as
  expected at the start.  The empty run is matched everywhere.
* `oneOf` matches one of several tokens exactly where it stands.  So does the choice between parsers for the
  single tokens, in one call or in many; it asks equally often, and if there is no match, both fail at the
  start.
* One call with all the parsers is such a grouping of calls, and a chain of `and` or `or` is one. -/
theorem parse_shortcuts (h : s.Sound) (hp : s.position? place = some p) (w : List α) :
    (∀ v next, s.ComesTo (token w) p (.success v next) ↔
      w <+: (s.store.sequence p).drop p.offset ∧ v = .list (w.map .token) ∧
        next = p.moveTo (p.offset + w.length)) ∧
    s.ComesTo (token []) p (.success (.list []) p) ∧
    (∀ v next, s.ComesTo (oneOf w) p (.success v next) ↔
      ∃ t ∈ w, s.store.head? p = some t ∧ v = .token t ∧ next = p.moveTo (p.offset + 1)) ∧
    (∀ first rest, (Grouping.node first rest).leaves = w.map eq →
      let row := (Grouping.node first rest).apply tuple
      (∀ values next, s.ComesTo (token w) p (.success (.list values) next) ↔
        ∃ v, (Grouping.node first rest).values v = values ∧ s.ComesTo row p (.success v next)) ∧
      SamePulls (s.parse (token w) p).2 (s.parse row p).2 ∧
      (¬ s.Succeeds (token w) p → ∀ q ∈ [token w, row],
        ∃ reason, s.ComesTo q p (.failure reason p) ∧ reason.kind = .expected)) ∧
    (∀ first rest, (Grouping.node first rest).leaves = w.map eq →
      let alternatives := (Grouping.node first rest).apply choice
      (∀ v next, s.ComesTo (oneOf w) p (.success v next) ↔
        s.ComesTo alternatives p (.success v next)) ∧
      SamePulls (s.parse (oneOf w) p).2 (s.parse alternatives p).2 ∧
      (¬ s.Succeeds (oneOf w) p → ∀ q ∈ [oneOf w, alternatives],
        ∃ reason, s.ComesTo q p (.failure reason p))) ∧
    (w ≠ [] → ∃ first rest, (Grouping.node first rest).leaves = w.map eq ∧
      ∀ f, (Grouping.node first rest).apply f = f (w.map eq)) ∧
    ∀ t t' u, w = t :: t' :: u → ∃ first rest, (Grouping.node first rest).leaves = w.map eq ∧
      (Grouping.node first rest).apply tuple = (t' :: u).foldl (fun q t => q.and (eq t)) (eq t) ∧
      (Grouping.node first rest).apply choice = (t' :: u).foldl (fun q t => q.or (eq t)) (eq t) := by
  have hts := h.shows hp
  refine ⟨fun v next => comesTo_token_iff hts, ?_, fun v next => comesTo_oneOf_iff hts,
    fun first rest leaves => ⟨fun values next => ?_, fun source => ?_, exists_failure_row hts leaves⟩,
    fun first rest leaves => ⟨fun v next => ?_, fun source => ?_, exists_failure_alternatives hts leaves⟩,
    ?_, ?_⟩
  · exact (comesTo_token_iff hts).2 ⟨List.nil_prefix, rfl, p.moveTo_offset.symm⟩
  · rw [← comesTo_tuple_leaves, leaves, comesTo_tuple_eq_iff hts (nonempty_of_leaves leaves)]
  · have one := samePulls_tuple_eq hts (nonempty_of_leaves leaves) source
    have many := samePulls_leaves (s := s) (p := p) tuple_mem_spelledOut (.node first rest) source
    rw [leaves] at many
    exact one.trans many
  · rw [(matchAlike_choice _).comesTo_iff, leaves, (parse_oneOf hts (nonempty_of_leaves leaves)).1]
  · have one := (parse_oneOf hts (nonempty_of_leaves leaves)).2.1 source
    have many := samePulls_leaves (s := s) (p := p) choice_mem_spelledOut (.node first rest) source
    rw [leaves] at many
    exact one.trans many
  · intro nonempty
    obtain ⟨t, u, rfl⟩ := List.exists_cons_of_ne_nil nonempty
    exact ⟨.leaf (eq t), _, Grouping.leaves_flat (eq t) (u.map eq), fun f => Grouping.apply_flat f _ _⟩
  · rintro t t' u rfl
    obtain ⟨first, rest, chain⟩ := Grouping.exists_chain_eq_node (eq t) (eq t') (u.map eq)
    refine ⟨first, rest, ?_, ?_, ?_⟩
    · rw [← chain, Grouping.leaves_chain]
      rfl
    · rw [← chain, ← List.map_cons, Grouping.apply_chain, List.foldl_map]
      rfl
    · rw [← chain, ← List.map_cons, Grouping.apply_chain, List.foldl_map]
      rfl

/-- Two letters are read at once and one after the other, and a third one is missed in both ways. -/
theorem parse_shortcuts_letters :
    ∃ s : Session Char, s.Sound ∧ s.position? 0 = some (.mark 0 0) ∧
      s.ComesTo (token ['a', 'b']) (.mark 0 0) (.success (.list [.token 'a', .token 'b']) (.mark 0 2)) ∧
      s.ComesTo ((eq 'a').and (eq 'b')) (.mark 0 0)
        (.success (.tuple [.token 'a', .token 'b']) (.mark 0 2)) ∧
      SamePulls (s.parse (token ['a', 'b']) (.mark 0 0)).2
        (s.parse ((eq 'a').and (eq 'b')) (.mark 0 0)).2 ∧
      (∃ reason, s.ComesTo (tuple [eq 'a', eq 'b', eq 'x']) (.mark 0 0) (.failure reason (.mark 0 0)) ∧
        reason.kind = .expected) ∧
      s.ComesTo (choice [eq 'x', eq 'a']) (.mark 0 0) (.success (.token 'a') (.mark 0 1)) := by
  have begun : Reaches (α := Char) [] _ [] [] := .begin rfl
  have opened := begun.step (.start (.feed (.items ['a', 'b', 'c'])))
  have shortcuts (w : List Char) := @parse_shortcuts _ _ _ _ (.mark 0 0) 0 opened.sound rfl w
  obtain ⟨-, -, -, row, -⟩ := shortcuts ['a', 'b']
  obtain ⟨values, pulls, -⟩ := row (.leaf (eq 'a')) [.leaf (eq 'b')] rfl
  obtain ⟨stands, -, -, missed, -⟩ := shortcuts ['a', 'b', 'x']
  obtain ⟨-, -, fails⟩ := missed (.leaf (eq 'a')) [.leaf (eq 'b'), .leaf (eq 'x')] rfl
  have missing := fails (by
    rintro ⟨v, next, comes⟩
    exact absurd ((stands v next).1 comes).1 (by decide)) _ (List.mem_cons_of_mem _ List.mem_cons_self)
  obtain ⟨-, -, here, -, choices, -⟩ := shortcuts ['x', 'a']
  obtain ⟨successes, -⟩ := choices (.leaf (eq 'x')) [.leaf (eq 'a')] rfl
  have member : 'a' ∈ ['x', 'a'] := List.mem_cons_of_mem _ List.mem_cons_self
  have found := (here (.token 'a') (.mark 0 1)).2 ⟨'a', member, rfl, rfl, rfl⟩
  exact ⟨_, opened.sound, rfl, (values _ _).2 ⟨_, rfl, _, _, _, rfl⟩, ⟨_, _, _, rfl⟩, pulls, missing,
    (successes _ _).1 found⟩

end Session

end LazyPeg
