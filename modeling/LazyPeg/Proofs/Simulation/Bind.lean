import LazyPeg.Parser.Derived
import LazyPeg.Parser.Eval
import Mathlib.Control.Monad.Basic

/-!
# The monad of matches

With failures not told apart, a parse at a position may match or not, and one match after the other is the
`>>=` of `OptionT (Parsing α)`.  In this monad `bind` is `>>=` (`Parser.match?_bind`), and a row of
antecedents is a row of matches (`Parser.row_cons`).  So the laws of `bind` are those of a monad
(`Parser.match?_bind1_result`, `Parser.match?_bind1_assoc`, `Parser.match?_nested`).

They are not laws of the parsers themselves: a failure of an antecedent is reported as that of the row, so
the ways to group antecedents differ in what they say of a failure.  Only what is bound to a value at once
is the same in every respect (`Parser.eval_bind1_result`).
-/
namespace LazyPeg

/-! ## 1. Matches -/

/-- The value and the place of a success. -/
def Outcome.match? {α π : Type} : Outcome α π → Option (Value α × π)
  | success v next => some (v, next)
  | failure .. => none

/-- What a parse matches.  Failures are not told apart. -/
def Parsing.match? {α : Type} (m : Parsing α (Result α)) : OptionT (Parsing α) (Value α × Position) :=
  OptionT.mk (Outcome.match? <$> m)

namespace Parser

variable {α : Type} [Token α] [DecidableEq α]
  {call : RuleId → String → Position → Parsing α (Result α)} {p : Position} {q : Parser α}
  {qs : List (Parser α)}

/-- What a row of parsers matches. -/
def row (call : RuleId → String → Position → Parsing α (Result α)) (qs : List (Parser α)) (p : Position) :
    OptionT (Parsing α) (List (Value α) × Position) :=
  OptionT.mk (Except.toOption <$> evalAll call qs p)

theorem row_nil : row call [] p = pure ([], p) := by
  apply OptionT.ext
  simp [row, evalAll, Except.toOption]

theorem row_cons : row call (q :: qs) p = (do
    let (v, next) ← Parsing.match? (q.eval call p)
    let (values, last) ← row call qs next
    return (v :: values, last)) := by
  apply OptionT.ext
  simp only [row, evalAll, Parsing.match?, OptionT.run_mk, OptionT.run_bind, Option.elimM, map_bind,
    bind_map_left]
  refine bind_congr fun r => ?_
  cases r with
  | failure reason place => simp [Outcome.match?, Except.toOption]
  | success v next =>
    simp only [Outcome.match?, Option.elim_some, map_bind]
    refine bind_congr fun found => ?_
    rcases found with name | ⟨values, last⟩
    · simp [Except.toOption]
    · simp [Except.toOption]

/-- **A bind is a row of matches and then what the continuation makes of their values.** -/
theorem match?_bind (f : List (Value α) → Parser α) :
    Parsing.match? ((bind false qs f).eval call p) = (do
      let (values, next) ← row call qs p
      Parsing.match? ((f values).eval call next)) := by
  apply OptionT.ext
  rw [eval]
  simp only [row, Parsing.match?, OptionT.run_mk, OptionT.run_bind, Option.elimM, map_bind, bind_map_left]
  refine bind_congr fun found => ?_
  rcases found with name | ⟨values, next⟩
  · simp [Except.toOption, Outcome.match?]
  · simp [Except.toOption]

/-- **So a bind with one antecedent is a `>>=`.** -/
theorem match?_bind1 (f : Value α → Parser α) :
    Parsing.match? ((bind1 false q f).eval call p) = (do
      let (v, next) ← Parsing.match? (q.eval call p)
      Parsing.match? ((f v).eval call next)) := by
  rw [bind1, match?_bind, row_cons, bind_assoc]
  refine bind_congr fun x => ?_
  simp only [row_nil, pure_bind, List.headD_cons]

/-! ## 2. The laws -/

/-- What is bound to a value at once does what the continuation says, failures included. -/
theorem eval_bind1_result (v : Value α) (f : Value α → Parser α) :
    (bind1 false (result v) f).eval call p = (f v).eval call p := by
  simp [bind1, eval, evalAll]

theorem match?_bind1_result (q : Parser α) :
    Parsing.match? ((bind1 false q result).eval call p) = Parsing.match? (q.eval call p) := by
  have found (v : Value α) (next : Position) :
      Parsing.match? ((result v).eval call next) = pure (v, next) := by
    apply OptionT.ext
    simp [Parsing.match?, eval, Outcome.match?]
  rw [match?_bind1]
  simp only [found]
  exact bind_pure _

theorem match?_bind1_assoc (q : Parser α) (f g : Value α → Parser α) :
    Parsing.match? ((bind1 false (bind1 false q f) g).eval call p) =
      Parsing.match? ((bind1 false q fun v => bind1 false (f v) g).eval call p) := by
  simp only [match?_bind1, bind_assoc]

/-- Antecedents bound one after the other, each inside the continuation of the one before. -/
def nested : List (Parser α) → (List (Value α) → Parser α) → Parser α
  | [], f => f []
  | q :: qs, f => bind1 false q fun v => nested qs fun values => f (v :: values)

theorem match?_nested (qs : List (Parser α)) (f : List (Value α) → Parser α) (p : Position) :
    Parsing.match? ((bind false qs f).eval call p) = Parsing.match? ((nested qs f).eval call p) := by
  induction qs generalizing f p with
  | nil => simp only [match?_bind, row_nil, pure_bind, nested]
  | cons q qs ih =>
    simp only [nested, match?_bind1, ← ih, match?_bind, row_cons, bind_assoc, pure_bind]

end Parser

/-! ## 3. Runs -/

/-- Two parses in the same world that match alike are stopped alike, or come to the same success, or fail
both, and leave the same world. -/
theorem Parsing.run_of_match? {α : Type} {m m' : Parsing α (Result α)}
    (h : Parsing.match? m = Parsing.match? m') (w : World α) :
    ((ExceptT.run m).run w).1.map Outcome.match? = ((ExceptT.run m').run w).1.map Outcome.match? ∧
      ((ExceptT.run m).run w).2 = ((ExceptT.run m').run w).2 := by
  have run (m : Parsing α (Result α)) : (ExceptT.run (Outcome.match? <$> m)).run w =
      (((ExceptT.run m).run w).1.map Outcome.match?, ((ExceptT.run m).run w).2) := by
    rw [map_eq_pure_bind, Parsing.run_bind]
    rcases (ExceptT.run m).run w with ⟨why | r, w'⟩
    · rfl
    · rfl
  have same := congrArg (fun m : OptionT (Parsing α) (Value α × Position) =>
    (ExceptT.run (OptionT.run m)).run w) h
  simp only [Parsing.match?, OptionT.run_mk, run] at same
  exact Prod.mk.inj same

end LazyPeg
