import LazyPeg.Proofs.Reading.Rows
import LazyPeg.Proofs.Session.Local
import LazyPeg.Proofs.Simulation.Bind

/-!
# Continuations in a session

What can be said of `bind` in a session (`Session.parse_bind`).  As far as matches go it is the `>>=` of a
monad, and this holds of all parsers and in every session, since nothing but the order in which things are
done is compared.  Failures are left out of these laws, because a `bind` reports a failure of its
antecedents as one of its own, so the ways to group them differ there.

What a `bind` itself does, failures and calls of the continuation included, is said for local parsers, by
their readings.
-/
namespace LazyPeg

/-! ## 1. The same matches -/

/-- One success, or two failures after the same events, or one stop. -/
inductive Reply.MatchesAlike {α : Type} : Reply α → Reply α → Prop where
  | success (place result : Nat) (v : Value α) (next : Position) (events : List (Event α Position)) :
    MatchesAlike (.parsed place result (.success v next) events)
      (.parsed place result (.success v next) events)
  | failure (place result : Nat) (reason reason' : Reason) (next next' : Position)
    (events : List (Event α Position)) :
    MatchesAlike (.parsed place result (.failure reason next) events)
      (.parsed place result (.failure reason' next') events)
  | stopped (why : Stop) (events : List (Event α Position)) :
    MatchesAlike (.stopped why events) (.stopped why events)

namespace Session

open LazyPeg.Parser

variable {α : Type} [Token α] [DecidableEq α]

/-- At a position two parsers match alike, and leave all sequences alike. -/
def MatchAlike (s : Session α) (p : Position) (q q' : Parser α) : Prop :=
  (s.parse q p).1.MatchesAlike (s.parse q' p).1 ∧ (s.parse q p).2.store = (s.parse q' p).2.store

variable {s : Session α} {place : Nat} {p : Position} {q q' : Parser α}

/-- Parsers that match alike whatever calls of rules do match alike in a session. -/
theorem matchAlike_of_match?
    (h : ∀ call, Parsing.match? (q.eval call p) = Parsing.match? (q'.eval call p)) :
    s.MatchAlike p q q' := by
  have same (depth : Nat) : Parsing.match? (q.evalDepth s.workshop.grammar depth p) =
      Parsing.match? (q'.evalDepth s.workshop.grammar depth p) := by
    cases depth <;> exact h _
  obtain ⟨answers, worlds⟩ := Parsing.run_of_match? (same _) ⟨s.store, []⟩
  simp only [MatchAlike, Session.parse, perform_eq, run_parse]
  generalize (ExceptT.run (q.evalDepth _ _ p)).run ⟨s.store, []⟩ = left at answers worlds ⊢
  generalize (ExceptT.run (q'.evalDepth _ _ p)).run ⟨s.store, []⟩ = right at answers worlds ⊢
  obtain ⟨left, w⟩ := left
  obtain ⟨right, w'⟩ := right
  obtain rfl : w = w' := worlds
  rcases left with why | ⟨v, next⟩ | ⟨reason, next⟩
  · rcases right with why' | r'
    · obtain rfl := Except.error.inj answers
      exact ⟨.stopped _ _, rfl⟩
    · cases answers
  · rcases right with why' | ⟨v', next'⟩ | ⟨reason', next'⟩
    · cases answers
    · obtain ⟨rfl, rfl⟩ := Prod.mk.inj (Option.some.inj (Except.ok.inj answers))
      exact ⟨.success _ _ _ _ _, rfl⟩
    · cases answers
  · rcases right with why' | ⟨v', next'⟩ | ⟨reason', next'⟩
    · cases answers
    · cases answers
    · exact ⟨.failure _ _ _ _ _ _ _, rfl⟩

/-! ## 2. The laws, and what a bind does -/

/-- **Continuations.**  What is bound to a value at once is what the continuation makes of the value,
failures included.  To bind to `result` changes no match, binding is associative, and to bind several
antecedents is to bind them one inside the continuation of the other; in these laws a failure may be
reported in another way.

If all antecedents match in a row, the continuation is called once, with all values, and the parser that it
makes is answered as it is.  If one of them is the first to fail, it is not called, and the failure says
which one is expected, where the row was started.  Nothing else comes to a result. -/
theorem parse_bind (h : s.Sound) (hp : s.position? place = some p) :
    (∀ v f, s.parse (bind1 false (result v) f) p = s.parse (f v) p) ∧
    (∀ q, s.MatchAlike p (bind1 false q result) q) ∧
    (∀ q f g, s.MatchAlike p (bind1 false (bind1 false q f) g)
      (bind1 false q fun v => bind1 false (f v) g)) ∧
    (∀ qs f, s.MatchAlike p (bind false qs f) (nested qs f)) ∧
    (∀ noted qs f, (∀ q ∈ qs, q.Local s.workshop.grammar) →
      (∀ values, (f values).Local s.workshop.grammar) →
      (∀ values j events c,
        MatchesRow s.workshop.grammar (s.store.sequence p) qs p.offset values j events →
        (f values).Reads s.workshop.grammar (s.store.sequence p) j c →
        (s.parse (bind noted qs f) p).1 =
          ({ c with events := events ++ called noted values ++ c.events } : Course _ _).reply p
            s.positions.size s.results.size) ∧
      (∀ missing events,
        MissesRow s.workshop.grammar (s.store.sequence p) qs p.offset missing events →
        (s.parse (bind noted qs f) p).1 = .parsed s.positions.size s.results.size
          (.failure (.missing missing.name) p) (events.map (Event.mapPlace p.moveTo))) ∧
      ∀ a b r events, (s.parse (bind noted qs f) p).1 = .parsed a b r events →
        (∃ values j events c,
          MatchesRow s.workshop.grammar (s.store.sequence p) qs p.offset values j events ∧
          (f values).Reads s.workshop.grammar (s.store.sequence p) j c) ∨
        ∃ missing events,
          MissesRow s.workshop.grammar (s.store.sequence p) qs p.offset missing events) ∧
    ∀ name, (Reason.missing name).kind = .expected ∧
      (Reason.missing name).message = name ++ " is expected" := by
  have hts := h.shows hp
  refine ⟨fun v f => parse_eq_of_eval fun call => eval_bind1_result v f,
    fun q => matchAlike_of_match? fun call => match?_bind1_result q,
    fun q f g => matchAlike_of_match? fun call => match?_bind1_assoc q f g,
    fun qs f => matchAlike_of_match? fun call => match?_nested qs f p, ?_, fun name => ⟨rfl, rfl⟩⟩
  intro noted qs f hqs hf
  have isLocal : (bind noted qs f).Local s.workshop.grammar :=
    .bind noted (List.forall₂_same.2 hqs) hf
  refine ⟨fun values j events c row reads => ?_, fun missing events row => ?_, fun a b r events hr => ?_⟩
  · obtain ⟨reach, whole⟩ := row.reads_bind hts.le_length reads
    rw [parse_of_reads isLocal hts whole]
    rfl
  · obtain ⟨reach, whole⟩ := row.reads_bind hts.le_length
    rw [parse_of_reads isLocal hts whole]
    simp only [Course.reply, Outcome.mapPlace, Position.moveTo_offset]
  · obtain ⟨c, r', whole, answer, -⟩ := reads_of_parsed isLocal hts hr
    rcases row_cases_of_reads hts.le_length whole answer with
      ⟨values, j, events, d, row, reads, -⟩ | misses
    · exact .inl ⟨values, j, events, d, row, reads⟩
    · exact .inr misses

/-- A character, and then the same character again. -/
def double (values : List (Value Char)) : Parser Char :=
  match values with
  | [.token t] => eq t
  | _ => any

/-- The continuation is called for the first letter and asks for it once more; where the row needs an `x`
as well, it is not called. -/
theorem parse_bind_double :
    ∃ s : Session Char, s.Sound ∧ s.position? 0 = some (.mark 0 0) ∧
      (∀ values, (double values).Local s.workshop.grammar) ∧
      MatchesRow s.workshop.grammar (s.store.sequence (.mark 0 0)) [any] 0 [.token 'a'] 1 [] ∧
      (double [.token 'a']).Reads s.workshop.grammar (s.store.sequence (.mark 0 0)) 1
        ⟨.ok (.success (.token 'a') 2), [], 2⟩ ∧
      (s.parse (bind true [any] double) (.mark 0 0)).1 =
        .parsed 1 0 (.success (.token 'a') (.mark 0 2)) [.continued [.token 'a']] ∧
      MissesRow s.workshop.grammar (s.store.sequence (.mark 0 0)) [any, eq 'x'] 0 (eq 'x') [] ∧
      (s.parse (bind true [any, eq 'x'] double) (.mark 0 0)).1 =
        .parsed 1 0 (.failure (.missing "'x'") (.mark 0 0)) [] := by
  have begun : Reaches (α := Char) [] _ [] [] := .begin rfl
  have opened := begun.step (.start (.feed (.items ['a', 'a', 'b'])))
  have isLocal (values : List (Value Char)) : (double values).Local #[] := by
    unfold double
    split <;> exact .satisfy _ _
  have first : any.Reads #[] ['a', 'a', 'b'] 0 ⟨.ok (.success (.token 'a') 1), [], 1⟩ := ⟨0, rfl⟩
  have again : (double [.token 'a']).Reads #[] ['a', 'a', 'b'] 1 ⟨.ok (.success (.token 'a') 2), [], 2⟩ :=
    ⟨0, rfl⟩
  have other : (eq 'x').Reads #[] ['a', 'a', 'b'] 1 ⟨.ok (.failure (.unsatisfied "'x'") 1), [], 1⟩ :=
    ⟨0, rfl⟩
  have row : MatchesRow #[] ['a', 'a', 'b'] [any] 0 [.token 'a'] 1 [] := .cons first rfl (.nil 1)
  have misses : MissesRow #[] ['a', 'a', 'b'] [any, eq 'x'] 0 (eq 'x') [] :=
    .later first rfl (.here [] other rfl)
  obtain ⟨-, -, -, -, does, -⟩ := @parse_bind _ _ _ _ 0 (.mark 0 0) opened.sound rfl
  have one : ∀ q ∈ [any (α := Char)], q.Local #[] := List.forall_mem_singleton.2 (.satisfy _ _)
  have two : ∀ q ∈ [any, eq 'x'], q.Local #[] :=
    List.forall_mem_cons.2 ⟨.satisfy _ _, List.forall_mem_singleton.2 (.satisfy _ _)⟩
  have calls := (does true _ double one isLocal).1 _ _ _ _ row again
  have fails := (does true _ double two isLocal).2.1 _ _ misses
  exact ⟨_, opened.sound, rfl, isLocal, row, again, calls, misses, fails⟩

end Session

end LazyPeg
