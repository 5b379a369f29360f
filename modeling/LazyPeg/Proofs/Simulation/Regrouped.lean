import LazyPeg.Proofs.Simulation.Bind
import Mathlib.Data.List.Monad

/-!
# Groups of parsers

Calls of one combinator may be put into one another: rows into rows, alternatives into alternatives.  A
`Grouping` is the tree of the calls, with the parsers in its leaves.  As far as matches go, **all trees with
the same leaves match what one flat call matches**, in the monad of matches, and so with the same effects in
the same order.

* A row in a row is a row (`Parser.row_append`).  The value of nested tuples has the values of the leaves in
  order (`Parser.match?_tuple_leaves`), and the value of a sequence is that of its last leaf
  (`Parser.match?_seq_leaves`).
* Alternatives are tried by the `<|>` of the monad (`Parser.firstOf_append`), which is associative
  (`Parser.match?_choice_leaves`).

Nothing is asked of the parsers.
-/
namespace LazyPeg

open LazyPeg.Parser

/-! ## 1. Trees of calls -/

/-- Calls of a combinator that are put into one another.  Each call has at least one argument. -/
inductive Grouping (α : Type) where
  | leaf (q : Parser α)
  | node (first : Grouping α) (rest : List (Grouping α))

namespace Grouping

variable {α : Type} (f : List (Parser α) → Parser α)

mutual

/-- The parsers in the leaves, in order. -/
def leaves : Grouping α → List (Parser α)
  | leaf q => [q]
  | node first rest => first.leaves ++ allLeaves rest

/-- The parsers in the leaves of several groupings. -/
def allLeaves : List (Grouping α) → List (Parser α)
  | [] => []
  | t :: ts => t.leaves ++ allLeaves ts

end

mutual

/-- The parser that calls a combinator in each node. -/
def apply : Grouping α → Parser α
  | leaf q => q
  | node first rest => f (first.apply :: applyAll rest)

/-- The parsers that are made of several groupings. -/
def applyAll : List (Grouping α) → List (Parser α)
  | [] => []
  | t :: ts => t.apply :: applyAll ts

end

mutual

/-- The values of the leaves, in order, in the value of nested tuples. -/
def values : Grouping α → Value α → List (Value α)
  | leaf _, v => [v]
  | node first rest, .tuple (v :: vs) => first.values v ++ allValues rest vs
  | node .., _ => []

/-- The values of the leaves of several groupings. -/
def allValues : List (Grouping α) → List (Value α) → List (Value α)
  | t :: ts, v :: vs => t.values v ++ allValues ts vs
  | _, _ => []

end

/-- Nested tuples made one. -/
def flatten (t : Grouping α) (v : Value α) : Value α := .tuple (t.values v)

/-- Parsers put together by a method, from the left. -/
def chain (q : Parser α) (qs : List (Parser α)) : Grouping α :=
  qs.foldl (fun t r => .node t [.leaf r]) (.leaf q)

theorem leaves_chain (q : Parser α) (qs : List (Parser α)) : (chain q qs).leaves = q :: qs := by
  suffices h : ∀ t : Grouping α,
      (qs.foldl (fun t r => .node t [.leaf r]) t).leaves = t.leaves ++ qs from h (.leaf q)
  induction qs with
  | nil => simp
  | cons r qs ih => simp [ih, leaves, allLeaves]

theorem apply_chain (q : Parser α) (qs : List (Parser α)) :
    (chain q qs).apply f = qs.foldl (fun p r => f [p, r]) q := by
  suffices h : ∀ t : Grouping α, (qs.foldl (fun t r => .node t [.leaf r]) t).apply f =
      qs.foldl (fun p r => f [p, r]) (t.apply f) from h (.leaf q)
  induction qs with
  | nil => exact fun _ => rfl
  | cons r qs ih => exact fun t => ih _

end Grouping

namespace Parser

variable {α : Type} [Token α] [DecidableEq α]
  {call : RuleId → String → Position → Parsing α (Result α)} {p : Position} {q : Parser α}
  {qs : List (Parser α)}

/-! ## 2. Rows, their last values, and alternatives -/

theorem match?_map (f : Value α → Value α) :
    Parsing.match? ((map f q).eval call p) = Prod.map f id <$> Parsing.match? (q.eval call p) := by
  apply OptionT.ext
  simp only [eval, Parsing.match?, OptionT.run_mk, OptionT.run_map, bind_pure_comp, Functor.map_map]
  congr 1
  funext r
  cases r <;> rfl

/-- A group matches a row. -/
theorem match?_group (label : String) (qs : List (Parser α)) :
    Parsing.match? ((group label qs).eval call p) = Prod.map .tuple id <$> row call qs p := by
  apply OptionT.ext
  simp only [eval, row, Parsing.match?, OptionT.run_mk, OptionT.run_map, map_bind, Functor.map_map]
  rw [map_eq_pure_bind]
  refine bind_congr fun found => ?_
  rcases found with name | ⟨values, next⟩
  · simp [Except.toOption, Outcome.match?]
  · simp [Except.toOption, Outcome.match?]

theorem row_append (qs qs' : List (Parser α)) (p : Position) : row call (qs ++ qs') p = (do
    let (values, next) ← row call qs p
    let (values', last) ← row call qs' next
    return (values ++ values', last)) := by
  induction qs generalizing p with
  | nil => simp [row_nil]
  | cons q qs ih => simp only [List.cons_append, row_cons, ih, bind_assoc, pure_bind]

/-- What the last of several parsers in a row matches. -/
def lastOf (call : RuleId → String → Position → Parsing α (Result α)) (qs : List (Parser α))
    (p : Position) : OptionT (Parsing α) (Option (Value α) × Position) :=
  Prod.map List.getLast? id <$> row call qs p

theorem lastOf_append (qs qs' : List (Parser α)) (p : Position) : lastOf call (qs ++ qs') p = (do
    let (v, next) ← lastOf call qs p
    let (w, last) ← lastOf call qs' next
    return (w.or v, last)) := by
  simp only [lastOf, row_append, map_eq_pure_bind, bind_assoc, pure_bind, Prod.map, id,
    List.getLast?_append]

theorem lastOf_cons_eq (q : Parser α) (qs : List (Parser α)) (p : Position) :
    lastOf call (q :: qs) p = (do
      let (v, next) ← Prod.map some id <$> Parsing.match? (q.eval call p)
      let (w, last) ← lastOf call qs next
      return (w.or v, last)) := by
  simp only [lastOf, row_cons, map_eq_pure_bind, bind_assoc, pure_bind, Prod.map, id,
    List.getLast?_cons, Option.or_some]

/-- A sequence matches what its last parser does. -/
theorem match?_seq (qs : List (Parser α)) (p : Position) :
    Parsing.match? ((seq qs).eval call p) = Prod.map (Option.getD · .none) id <$> lastOf call qs p := by
  rw [seq, match?_map, match?_group, lastOf, Functor.map_map, Functor.map_map]
  simp only [Prod.map, id, lastItem, List.getLastD_eq_getLast?]

/-- Where there is a parser, there is a last value. -/
theorem lastOf_cons (q : Parser α) (qs : List (Parser α)) (p : Position) :
    lastOf call (q :: qs) p = Prod.map some id <$> Parsing.match? ((seq (q :: qs)).eval call p) := by
  rw [match?_seq, lastOf, Functor.map_map, Functor.map_map, row_cons]
  simp only [map_eq_pure_bind, bind_assoc, pure_bind, Prod.map, id, List.getLast?_cons,
    Option.getD_some]

/-- What the first of several alternatives matches that does not fail. -/
def firstOf (call : RuleId → String → Position → Parsing α (Result α)) (qs : List (Parser α))
    (p : Position) : OptionT (Parsing α) (Value α × Position) :=
  OptionT.mk ((·.bind Outcome.match?) <$> evalFirst call qs p)

theorem firstOf_nil : firstOf call [] p = failure := by
  apply OptionT.ext
  simp [firstOf, evalFirst]

theorem firstOf_cons :
    firstOf call (q :: qs) p = (Parsing.match? (q.eval call p) <|> firstOf call qs p) := by
  apply OptionT.ext
  simp only [firstOf, evalFirst, Parsing.match?, OptionT.run_mk, OptionT.run_orElse, Option.elimM,
    map_bind, bind_map_left]
  refine bind_congr fun r => ?_
  cases r with
  | success v next => simp [Outcome.match?]
  | failure reason place => simp [Outcome.match?]

theorem firstOf_append (qs qs' : List (Parser α)) :
    firstOf call (qs ++ qs') p = (firstOf call qs p <|> firstOf call qs' p) := by
  induction qs with
  | nil => rw [List.nil_append, firstOf_nil, failure_orElse]
  | cons q qs ih => rw [List.cons_append, firstOf_cons, firstOf_cons, ih, orElse_assoc]

/-- A choice matches the first of its alternatives. -/
theorem match?_choice (qs : List (Parser α)) :
    Parsing.match? ((choice qs).eval call p) = firstOf call qs p := by
  apply OptionT.ext
  simp only [eval, firstOf, Parsing.match?, OptionT.run_mk, map_bind]
  rw [map_eq_pure_bind]
  refine bind_congr fun found => ?_
  cases found with
  | none => simp [Outcome.match?]
  | some r => simp

/-! ## 3. Trees and their leaves -/

open Grouping

mutual

/-- **Nested tuples match the row of the leaves.** -/
theorem row_leaves : (t : Grouping α) → (p : Position) →
    row call t.leaves p = Prod.map t.values id <$> Parsing.match? ((t.apply tuple).eval call p)
  | .leaf q, p => by
    rw [leaves, apply, row_cons, map_eq_pure_bind]
    simp only [row_nil, pure_bind]
    rfl
  | .node first rest, p => by
    rw [leaves, row_append, row_leaves first, apply, tuple, match?_group, row_cons]
    simp only [map_eq_pure_bind, bind_assoc, pure_bind, row_allLeaves rest]
    rfl

theorem row_allLeaves : (ts : List (Grouping α)) → (p : Position) →
    row call (allLeaves ts) p = Prod.map (allValues ts) id <$> row call (applyAll tuple ts) p
  | [], p => by
    rw [allLeaves, applyAll, row_nil, map_pure]
    rfl
  | t :: ts, p => by
    rw [allLeaves, row_append, row_leaves t, applyAll, row_cons]
    simp only [map_eq_pure_bind, bind_assoc, pure_bind, row_allLeaves ts]
    rfl

end

/-- Nested tuples, made one, are the tuple of the leaves. -/
theorem match?_tuple_leaves (t : Grouping α) (p : Position) :
    Parsing.match? ((map t.flatten (t.apply tuple)).eval call p) =
      Parsing.match? ((tuple t.leaves).eval call p) := by
  rw [match?_map, tuple, match?_group, row_leaves, ← comp_map]
  rfl

mutual

/-- **The last leaf has the last value of nested sequences.** -/
theorem lastOf_leaves : (t : Grouping α) → (p : Position) →
    lastOf call t.leaves p = Prod.map some id <$> Parsing.match? ((t.apply seq).eval call p)
  | .leaf q, p => by
    rw [leaves, apply, lastOf_cons_eq]
    simp only [lastOf, row_nil, map_pure, pure_bind]
    exact bind_pure _
  | .node first rest, p => by
    rw [leaves, apply, ← lastOf_cons, lastOf_append, lastOf_leaves first, lastOf_cons_eq]
    simp only [lastOf_allLeaves rest]

theorem lastOf_allLeaves : (ts : List (Grouping α)) → (p : Position) →
    lastOf call (allLeaves ts) p = lastOf call (applyAll seq ts) p
  | [], _ => rfl
  | t :: ts, p => by
    rw [allLeaves, applyAll, lastOf_append, lastOf_leaves t, lastOf_cons_eq]
    simp only [lastOf_allLeaves ts]

end

/-- Nested sequences are the sequence of the leaves. -/
theorem match?_seq_leaves (t : Grouping α) (p : Position) :
    Parsing.match? ((t.apply seq).eval call p) = Parsing.match? ((seq t.leaves).eval call p) := by
  rw [match?_seq, lastOf_leaves, ← comp_map]
  exact (id_map' _).symm

mutual

/-- **Nested alternatives are tried in the order of the leaves.** -/
theorem firstOf_leaves : (t : Grouping α) → (p : Position) →
    firstOf call t.leaves p = Parsing.match? ((t.apply choice).eval call p)
  | .leaf q, p => by rw [leaves, apply, firstOf_cons, firstOf_nil, orElse_failure]
  | .node first rest, p => by
    rw [leaves, apply, match?_choice, firstOf_append, firstOf_cons, firstOf_leaves first,
      firstOf_allLeaves rest]

theorem firstOf_allLeaves : (ts : List (Grouping α)) → (p : Position) →
    firstOf call (allLeaves ts) p = firstOf call (applyAll choice ts) p
  | [], _ => rfl
  | t :: ts, p => by
    rw [allLeaves, applyAll, firstOf_append, firstOf_cons, firstOf_leaves t, firstOf_allLeaves ts]

end

/-- Nested alternatives are the choice between the leaves. -/
theorem match?_choice_leaves (t : Grouping α) (p : Position) :
    Parsing.match? ((t.apply choice).eval call p) = Parsing.match? ((choice t.leaves).eval call p) := by
  rw [match?_choice, firstOf_leaves]

/-! ## 4. What decides -/

variable {w w' : World α} {r : Result α} {reason : Reason} {place : Position}

/-- A row that has failed goes no farther. -/
theorem run_evalAll_append {name : String} (after : List (Parser α))
    (h : (ExceptT.run (evalAll call qs p)).run w = (.ok (.error name), w')) :
    (ExceptT.run (evalAll call (qs ++ after) p)).run w = (.ok (.error name), w') := by
  induction qs generalizing p w with
  | nil => cases h
  | cons q qs ih =>
    rw [evalAll, Parsing.run_bind] at h
    rw [List.cons_append, evalAll, Parsing.run_bind]
    rcases hq : (ExceptT.run (q.eval call p)).run w with ⟨why | ⟨v, next⟩ | ⟨reason, place⟩, w₁⟩
    · rw [hq] at h
      cases h
    · rw [hq] at h
      simp only [Parsing.run_bind] at h ⊢
      rcases hrest : (ExceptT.run (evalAll call qs next)).run w₁ with
        ⟨why | name' | ⟨values, last⟩, w₂⟩
      · rw [hrest] at h
        cases h
      · rw [hrest] at h
        obtain ⟨rfl, rfl⟩ : name' = name ∧ w₂ = w' := by
          cases h
          exact ⟨rfl, rfl⟩
        rw [ih hrest]
        rfl
      · rw [hrest] at h
        cases h
    · rw [hq] at h
      exact h

/-- Alternatives of which one has matched are not tried any more. -/
theorem run_evalFirst_append (after : List (Parser α))
    (h : (ExceptT.run (evalFirst call qs p)).run w = (.ok (some r), w')) :
    (ExceptT.run (evalFirst call (qs ++ after) p)).run w = (.ok (some r), w') := by
  induction qs generalizing w with
  | nil => cases h
  | cons q qs ih =>
    rw [evalFirst, Parsing.run_bind] at h
    rw [List.cons_append, evalFirst, Parsing.run_bind]
    rcases hq : (ExceptT.run (q.eval call p)).run w with ⟨why | ⟨v, next⟩ | ⟨reason, place⟩, w₁⟩
    · rw [hq] at h
      cases h
    · rw [hq] at h
      exact h
    · rw [hq] at h
      exact ih h

/-- A changed value changes nothing in the world. -/
theorem world_map (f : Value α → Value α) (q : Parser α) (p : Position) (w : World α) :
    ((ExceptT.run ((map f q).eval call p)).run w).2 = ((ExceptT.run (q.eval call p)).run w).2 := by
  rw [eval, Parsing.run_bind]
  rcases (ExceptT.run (q.eval call p)).run w with ⟨why | r, w₁⟩ <;> rfl

/-- A changed value changes no failure. -/
theorem run_map_eq_failure {f : Value α → Value α} :
    (ExceptT.run ((map f q).eval call p)).run w = (.ok (.failure reason place), w') ↔
      (ExceptT.run (q.eval call p)).run w = (.ok (.failure reason place), w') := by
  rw [eval, Parsing.run_bind]
  rcases (ExceptT.run (q.eval call p)).run w with ⟨why | ⟨v, next⟩ | ⟨reason', place'⟩, w₁⟩
  · constructor <;> rintro ⟨⟩
  · constructor <;> rintro ⟨⟩
  · exact Iff.rfl

/-- What is behind the parser at which a group fails makes no difference. -/
theorem run_group_append {label : String} (after : List (Parser α))
    (h : (ExceptT.run ((group label qs).eval call p)).run w = (.ok (.failure reason place), w')) :
    (ExceptT.run ((group label (qs ++ after)).eval call p)).run w = (.ok (.failure reason place), w') := by
  rw [eval, Parsing.run_bind] at h ⊢
  rcases hrow : (ExceptT.run (evalAll call qs p)).run w with ⟨why | name | ⟨values, last⟩, w₁⟩
  · rw [hrow] at h
    cases h
  · rw [hrow] at h
    rw [run_evalAll_append after hrow]
    exact h
  · rw [hrow] at h
    cases h

/-- What is behind the alternative that matches makes no difference. -/
theorem run_choice_append {v : Value α} {next : Position} (after : List (Parser α))
    (h : (ExceptT.run ((choice qs).eval call p)).run w = (.ok (.success v next), w')) :
    (ExceptT.run ((choice (qs ++ after)).eval call p)).run w = (.ok (.success v next), w') := by
  rw [eval, Parsing.run_bind] at h ⊢
  rcases hfirst : (ExceptT.run (evalFirst call qs p)).run w with ⟨why | _ | r, w₁⟩
  · rw [hfirst] at h
    cases h
  · rw [hfirst] at h
    cases h
  · rw [hfirst] at h
    rw [run_evalFirst_append after hfirst]
    exact h

/-- A group fails where it was started, and as expected. -/
theorem failure_group {label : String}
    (h : (ExceptT.run ((group label qs).eval call p)).run w = (.ok (.failure reason place), w')) :
    place = p ∧ reason.kind = .expected := by
  rw [eval, Parsing.run_bind] at h
  rcases hrow : (ExceptT.run (evalAll call qs p)).run w with ⟨why | name | ⟨values, last⟩, w₁⟩
  · rw [hrow] at h
    cases h
  · rw [hrow] at h
    cases h
    exact ⟨rfl, rfl⟩
  · rw [hrow] at h
    cases h

theorem isSuccess_evalFirst (h : (ExceptT.run (evalFirst call qs p)).run w = (.ok (some r), w')) :
    r.isSuccess := by
  induction qs generalizing w with
  | nil => cases h
  | cons q qs ih =>
    rw [evalFirst, Parsing.run_bind] at h
    rcases hq : (ExceptT.run (q.eval call p)).run w with ⟨why | ⟨v, next⟩ | ⟨reason, place⟩, w₁⟩
    · rw [hq] at h
      cases h
    · rw [hq] at h
      cases h
      rfl
    · rw [hq] at h
      exact ih h

/-- So does a choice. -/
theorem failure_choice
    (h : (ExceptT.run ((choice qs).eval call p)).run w = (.ok (.failure reason place), w')) :
    place = p ∧ reason.kind = .expected := by
  rw [eval, Parsing.run_bind] at h
  rcases hfirst : (ExceptT.run (evalFirst call qs p)).run w with ⟨why | _ | r, w₁⟩
  · rw [hfirst] at h
    cases h
  · rw [hfirst] at h
    cases h
    exact ⟨rfl, rfl⟩
  · rw [hfirst] at h
    cases h
    cases isSuccess_evalFirst hfirst

end Parser

end LazyPeg
