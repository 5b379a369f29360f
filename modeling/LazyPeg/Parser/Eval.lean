import LazyPeg.Parser.Basic
import LazyPeg.Source.Store

/-!
# Parsing

`Parser.eval` follows a term over the sequences of a medium.  It is a recursion on the term, so it
always ends, except that it leaves the calls of rules to a parameter; `Parser.evalDepth` closes the
knot for a bounded depth of calls, and `Parser.parse` chooses the depth so that a parse which needs
more would never end.

What a parse does besides giving its outcome is collected in a `World`: the sequences as far as they
were read, and the events so far.
-/
namespace LazyPeg

/-! ## 1. The surroundings of a parse -/

/-- The sequences and the events of a parse, the last event first. -/
structure World (α : Type) (σ : Type := Store α) (π : Type := Position) where
  store : σ
  events : List (Event α π)

/-- Why a parse came to no outcome. -/
inductive Stop where
  /-- A rule was called that is not defined. -/
  | undefinedRule (name : String)
  /-- Rules called one another without end. -/
  | endless
  deriving DecidableEq, Repr

/-- What is said of a stop. -/
def Stop.message : Stop → String
  | .undefinedRule name =>
    "Recursive: you must call 'define()' before using recursive parser '" ++ name ++ "'"
  | .endless => "Recursive: the rules call one another without end"

/-- A step of a parse in a medium.  The world is there also after a stop. -/
abbrev ParsingIn (α σ π : Type) := ExceptT Stop (StateM (World α σ π))

/-- A step of a parse in a store. -/
abbrev Parsing (α : Type) := ParsingIn α (Store α) Position

/-- An outcome at a place. -/
abbrev Result (α : Type) (π : Type := Position) := Outcome α π

namespace Parsing

section Operations

variable {α σ π : Type} [Medium α σ π]

/-- The token at a place. -/
def head? (p : π) : ParsingIn α σ π (Option α) := do
  return Medium.head? (← get).store p

/-- How many tokens stand before a place. -/
def offset (p : π) : ParsingIn α σ π Nat := do
  return Medium.offset (← get).store p

/-- The place that a parser knows by a name. -/
def named (name : Position) : ParsingIn α σ π π := do
  return Medium.named (← get).store name

/-- Where a jump from `p` sets out: at a place that the parser knows by a name, or at `p`. -/
def setOut (p : π) : Option Position → ParsingIn α σ π π
  | some name => named name
  | none => return p

/-- Move one place on. -/
def tail (p : π) : ParsingIn α σ π π :=
  modifyGet fun w =>
    let ⟨store, events⟩ := w
    let (p, store) := Medium.tail store p
    (p, ⟨store, events⟩)

/-- Move on by some places. -/
def skip (n : Nat) (p : π) : ParsingIn α σ π π :=
  modifyGet fun w =>
    let ⟨store, events⟩ := w
    let (p, store) := Medium.skip n store p
    (p, ⟨store, events⟩)

/-- Whether two places are the same. -/
def samePlace (p q : π) : ParsingIn α σ π Bool := do
  return Medium.samePlace (← get).store p q

/-- Note an event. -/
def note (e : Event α π) : ParsingIn α σ π Unit :=
  modify fun w => { w with events := e :: w.events }

/-- Match a run of tokens: the place behind it, unless a token differs or is not there. -/
def matchRun [DecidableEq α] : List α → π → ParsingIn α σ π (Option π)
  | [], p => return some p
  | item :: items, p => do
    match ← head? p with
    | none => return none
    | some t =>
      if t = item then matchRun items (← tail p) else return none

/-- Match again and again, at most `room` times more, after the values collected so far, which stand
in reverse.  The repetition ends where the parser fails, and also where it matched nothing although
`least` matches are there, since it would match nothing for ever.  -/
def repeatMatch (step : π → ParsingIn α σ π (Result α π)) (least : Nat) :
    (room collected : Nat) → List (Value α) → π → ParsingIn α σ π (List (Value α) × π)
  | 0, _, values, p => return (values.reverse, p)
  | room + 1, collected, values, p => do
    match ← step p with
    | .failure .. => return (values.reverse, p)
    | .success v next =>
      let stays ← samePlace next p
      if stays && least ≤ collected + 1 then return ((v :: values).reverse, next)
      else repeatMatch step least room (collected + 1) (v :: values) next

end Operations

section Store

variable {α : Type}

@[simp] theorem run_head? (p : Position) (w : World α) :
    (ExceptT.run (head? p)).run w = (.ok (w.store.head? p), w) := rfl

@[simp] theorem run_offset (p : Position) (w : World α) :
    (ExceptT.run (offset p)).run w = (.ok p.offset, w) := rfl

@[simp] theorem run_setOut (p : Position) (origin : Option Position) (w : World α) :
    (ExceptT.run (setOut p origin)).run w = (.ok (origin.getD p), w) := by
  cases origin <;> rfl

@[simp] theorem run_tail (p : Position) (w : World α) :
    (ExceptT.run (tail p)).run w = (.ok (w.store.tail p).1, ⟨(w.store.tail p).2, w.events⟩) := rfl

@[simp] theorem run_skip (n : Nat) (p : Position) (w : World α) :
    (ExceptT.run (skip n p)).run w =
      (.ok (Medium.skip n w.store p).1, ⟨(Medium.skip n w.store p).2, w.events⟩) := rfl

@[simp] theorem run_samePlace (p q : Position) (w : World α) :
    (ExceptT.run (samePlace p q)).run w = (.ok (w.store.samePlace p q), w) := rfl

@[simp] theorem run_note (e : Event α Position) (w : World α) :
    (ExceptT.run (note e)).run w = (.ok (), ⟨w.store, e :: w.events⟩) := rfl

end Store

/-- The second of two parses runs in the world that the first has left, unless the first was
stopped. -/
theorem run_bind {α σ π β γ : Type} (m : ParsingIn α σ π β) (g : β → ParsingIn α σ π γ) (w : World α σ π) :
    (ExceptT.run (m >>= g)).run w =
      match (ExceptT.run m).run w with
      | (.ok a, w') => (ExceptT.run (g a)).run w'
      | (.error why, w') => (.error why, w') := by
  rw [ExceptT.run_bind, StateT.run_bind]
  change (match (ExceptT.run m).run w with
    | (a, w') => _) = _
  rcases (ExceptT.run m).run w with ⟨_ | a, w'⟩ <;> rfl

end Parsing

/-! ## 2. Terms -/

namespace Parser

variable {α σ π : Type} [Token α] [DecidableEq α] [Medium α σ π]

mutual

/-- What a parser does at a place.  Calls of rules are left to `call`. -/
def eval (call : RuleId → String → π → ParsingIn α σ π (Result α π)) :
    Parser α → π → ParsingIn α σ π (Result α π)
  | endOfInput, p => do
    match ← Parsing.head? p with
    | none => return .success .endOfInput p
    | some _ => return .failure .tokensLeft p
  | satisfy name accepts, p => do
    match ← Parsing.head? p with
    | none => return .failure .endOfInput p
    | some t =>
      if accepts t then return .success (.token t) (← Parsing.tail p)
      else return .failure (.unsatisfied name) p
  | token items, p => do
    match ← Parsing.matchRun items p with
    | some next => return .success (.list (items.map .token)) next
    | none => return .failure (.missing (token items).name) p
  | result value, p => return .success value p
  | expected message, p => return .failure (.stated .expected message) p
  | offset, p => do return .success (.number (← Parsing.offset p)) p
  | jump _ origin count verdict, p => do
    let next ← Parsing.skip count (← Parsing.setOut p origin)
    match verdict with
    | .success => return .success (.number count) next
    | .failure kind message => return .failure (.stated kind message) next
  | map f q, p => do return (← q.eval call p).mapValue f
  | named _ q, p => q.eval call p
  | group _ qs, p => do
    match ← evalAll call qs p with
    | .ok (values, next) => return .success (.tuple values) next
    | .error name => return .failure (.missing name) p
  | choice qs, p => do
    match ← evalFirst call qs p with
    | some r => return r
    | none => return .failure (.noneOf (names qs)) p
  | many style q, p => do
    let (values, next) ← Parsing.repeatMatch (q.eval call) style.least style.most 0 [] p
    if values.length < style.least then return .failure (.tooFew style.least q.name) p
    else return .success (.list values) next
  | optional q, p => do
    match ← q.eval call p with
    | .success v next => return .success (.some v) next
    | .failure .. => return .success .none p
  | peek q, p => do
    match ← q.eval call p with
    | .success v _ => return .success v p
    | .failure reason place => return .failure reason place
  | not q, p => do
    match ← q.eval call p with
    | .success .. => return .failure (.present q.name) p
    | .failure .. =>
      match ← Parsing.head? p with
      | some t => return .success (.token t) p
      | none => return .failure .endOfInput p
  | bind noted qs continuation, p => do
    match ← evalAll call qs p with
    | .error name => return .failure (.missing name) p
    | .ok (values, next) =>
      if noted then Parsing.note (.continued values)
      (continuation values).eval call next
  | observed tag q, p => do
    let r ← q.eval call p
    Parsing.note (.observed tag r)
    return r
  | traced q, p => do
    let r ← q.eval call p
    Parsing.note (.traced q.name r)
    return r
  | rule id name, p => call id name p

/-- Match parsers in a row: the values and the place behind them, or the name of the first that
failed. -/
def evalAll (call : RuleId → String → π → ParsingIn α σ π (Result α π)) :
    List (Parser α) → π → ParsingIn α σ π (Except String (List (Value α) × π))
  | [], p => return .ok ([], p)
  | q :: qs, p => do
    match ← q.eval call p with
    | .failure .. => return .error q.name
    | .success v next =>
      match ← evalAll call qs next with
      | .error name => return .error name
      | .ok (values, last) => return .ok (v :: values, last)

/-- The success of the first parser that matches. -/
def evalFirst (call : RuleId → String → π → ParsingIn α σ π (Result α π)) :
    List (Parser α) → π → ParsingIn α σ π (Option (Result α π))
  | [], _ => return none
  | q :: qs, p => do
    match ← q.eval call p with
    | .success v next => return some (.success v next)
    | .failure .. => evalFirst call qs p

end

/-! ## 3. Rules -/

/-- The rules of a grammar by number.  A rule without a parser was never defined, or was given up. -/
abbrev Grammar (α : Type) := Array (Option (Parser α))

/-- What a parser does if rules call one another at most `depth` deep. -/
def evalDepth (grammar : Grammar α) : Nat → Parser α → π → ParsingIn α σ π (Result α π)
  | 0 => eval fun id name _ =>
    match (grammar[id]?).join with
    | some _ => throw .endless
    | none => throw (.undefinedRule name)
  | depth + 1 => eval fun id name p =>
    match (grammar[id]?).join with
    | some body => evalDepth grammar depth body p
    | none => throw (.undefinedRule name)

/-- A depth that is enough for every parse that ends: where calls are nested deeper than there are
pairs of a rule and a place, some rule calls itself without having moved on. -/
def enoughDepth (grammar : Grammar α) (w : World α σ π) : Nat := grammar.size * Medium.places w.store

/-- What a parser of a grammar does at a place. -/
def parse (grammar : Grammar α) (q : Parser α) (p : π) : ParsingIn α σ π (Result α π) := do
  q.evalDepth grammar (enoughDepth grammar (← get)) p

theorem run_parse (grammar : Grammar α) (q : Parser α) (p : π) (w : World α σ π) :
    (ExceptT.run (q.parse grammar p)).run w =
      (ExceptT.run (q.evalDepth grammar (enoughDepth grammar w) p)).run w := rfl

end Parser

end LazyPeg
