import LazyPeg.Description.Basic
import LazyPeg.Parser.Eval

/-!
# Building parsers

`Description.build` makes a parser of a description, from left to right: it reads patterns, opens the
sequences that jumps refer to, and numbers the rules.  A description with a bad pattern, or with a call
of a rule that is not around it, builds nothing; the first fault found is reported.
-/
namespace LazyPeg

/-- Why a description builds no parser. -/
inductive BuildError where
  /-- A pattern was refused. -/
  | badPattern (refusal : Pattern.Refusal)
  /-- A pattern was asked of tokens that are no characters. -/
  | notCharacters
  /-- A call stands outside every rule of that name. -/
  | unboundRule (name : String)
  deriving DecidableEq, Repr

/-- What parsers are built in: the sequences, and the rules of all parsers. -/
structure Workshop (α : Type) (σ : Type := Store α) where
  store : σ
  grammar : Parser.Grammar α

/-- A step of building in a medium. -/
abbrev BuildingIn (α σ : Type) := StateT (Workshop α σ) (Except BuildError)

/-- A step of building in a store. -/
abbrev Building (α : Type) := BuildingIn α (Store α)

namespace Building

variable {α σ π : Type}

/-- Open a sequence for a parser. -/
def start [Medium α σ π] (input : Input α) : BuildingIn α σ Position :=
  modifyGet fun w =>
    let (p, store) := Medium.startNamed w.store input
    (p, { w with store })

/-- Number a new rule, which is not yet defined. -/
def declare : BuildingIn α σ RuleId :=
  modifyGet fun w => (w.grammar.size, { w with grammar := w.grammar.push none })

/-- Define a rule. -/
def define (id : RuleId) (body : Parser α) : BuildingIn α σ Unit :=
  modify fun w => { w with grammar := w.grammar.setIfInBounds id (some body) }

/-- After a step that succeeded, building goes on in the workshop that it has left. -/
theorem run_bind_of_ok {β γ : Type} {w w' : Workshop α σ} {m : BuildingIn α σ β} {b : β}
    (h : m.run w = .ok (b, w')) (f : β → BuildingIn α σ γ) : (m >>= f).run w = (f b).run w' := by
  rw [StateT.run_bind, h]
  rfl

/-- What was built one after the other was built. -/
theorem run_bind_ok {β γ : Type} {w : Workshop α σ} {m : BuildingIn α σ β} {f : β → BuildingIn α σ γ} {c : γ}
    {w'' : Workshop α σ}
    (h : (m >>= f).run w = .ok (c, w'')) :
    ∃ b w', m.run w = .ok (b, w') ∧ (f b).run w' = .ok (c, w'') := by
  rw [StateT.run_bind] at h
  rcases hm : m.run w with _ | ⟨b, w'⟩
  · rw [hm] at h
    exact absurd h (by simp [bind, Except.bind])
  · rw [hm] at h
    exact ⟨b, w', rfl, h⟩

end Building

/-! ## 1. Continuations -/

namespace Parser

variable {α : Type} [Token α] [DecidableEq α]

/-- The first token of the value with a number. -/
def tokenOf? (index : Nat) (values : List (Value α)) : Option α :=
  (values[index]?).bind Value.firstToken?

/-- Match the first token again, or any other. -/
def sameToken (negated : Bool) (index : Nat) (values : List (Value α)) : Parser α :=
  match tokenOf? index values with
  | some t => if negated then neq t else eq t
  | none => expected "no token"

/-- Match all tokens of a value again. -/
def sameTokens (index : Nat) (values : List (Value α)) : Parser α :=
  token (((values[index]?).map Value.tokens).getD [])

/-- Match a parser as often as the number of the first token says. -/
def countedBy (index : Nat) (p : Parser α) (values : List (Value α)) : Parser α :=
  many (.exactly (((tokenOf? index values).map Token.number).getD 0).toNat) p

/-- Match the parser that goes with the first token, or another one. -/
def chosenBy (index : Nat) (cases : List (α × Parser α)) (otherwise : Parser α)
    (values : List (Value α)) : Parser α :=
  ((tokenOf? index values).bind fun t => cases.lookup t).getD otherwise

/-- Combine two parsers. -/
def pair : Pairing → Parser α → Parser α → Parser α
  | .andThen => andThen
  | .and => and
  | .preceded => preceded
  | .terminated => terminated
  | .or => or
  | .sepBy0 => sepBy0
  | .sepBy1 => sepBy1

end Parser

/-! ## 2. Descriptions -/

namespace Description

variable {α σ π : Type} [Token α] [DecidableEq α] [Medium α σ π]

/-- The rules around a description, the innermost first. -/
abbrev Scope := List (String × RuleId)

/-- The parser of a pattern. -/
def buildPattern (engine : Pattern.Engine) (text : String) : BuildingIn α σ (Parser α) :=
  match Token.chars? (α := α) with
  | none => throw .notCharacters
  | some toChar =>
    match Parser.matching engine toChar text with
    | .ok p => return p
    | .error rejection => throw (.badPattern rejection.refusal)

mutual

/-- The parser of a description. -/
def build (scope : Scope) : Description α → BuildingIn α σ (Parser α)
  | any => return .any
  | endOfInput => return .endOfInput
  | offset => return .offset
  | eq t => return .eq t
  | neq t => return .neq t
  | oneOf ts => return .oneOf ts
  | between name after before => return .between name after before
  | token ts => return .token ts
  | pattern engine text => buildPattern engine text
  | expected message => return .expected message
  | result l => return .result (.constant l)
  | jump name origin count verdict => do
    match origin with
    | none => return .jump name none count verdict
    | some input => return .jump name (some (← Building.start input)) count verdict
  | constant l of => do return .constant (.constant l) (← of.build scope)
  | named name of => do return .named name (← of.build scope)
  | boxed of => do return .boxed (← of.build scope)
  | change f of => do return .map f.apply (← of.build scope)
  | seq of => do return .seq (← buildAll scope of)
  | tuple of => do return .tuple (← buildAll scope of)
  | choice of => do return .choice (← buildAll scope of)
  | pair how of other => do
    let p ← of.build scope
    let q ← other.build scope
    return .pair how p q
  | optional of => do return .optional (← of.build scope)
  | many style of => do return .many style (← of.build scope)
  | peek of => do return .peek (← of.build scope)
  | not of => do return .not (← of.build scope)
  | bind noted of continuation => do
    let ps ← buildAll scope of
    let k ← buildContinuation scope continuation
    return .bind noted ps k
  | observed tag of => do return .observed tag (← of.build scope)
  | traced of => do return .traced (← of.build scope)
  | recursive name fate body => do
    let id ← Building.declare
    let p ← body.build ((name, id) :: scope)
    match fate with
    | .defined =>
      Building.define id p
      return .rule id name
    | .undefined => return p
    | .givenUp => return .rule id name
  | call name =>
    match scope.lookup name with
    | some id => return .rule id name
    | none => throw (.unboundRule name)

/-- The parsers of several descriptions. -/
def buildAll (scope : Scope) : List (Description α) → BuildingIn α σ (List (Parser α))
  | [] => return []
  | d :: ds => do
    let p ← d.build scope
    let ps ← buildAll scope ds
    return p :: ps

/-- The parsers of the cases of a switch. -/
def buildCases (scope : Scope) : List (α × Description α) → BuildingIn α σ (List (α × Parser α))
  | [] => return []
  | (t, d) :: cases => do
    let p ← d.build scope
    let ps ← buildCases scope cases
    return (t, p) :: ps

/-- The function that a continuation describes. -/
def buildContinuation (scope : Scope) :
    Continuation α → BuildingIn α σ (List (Value α) → Parser α)
  | .firstToken negated index => return Parser.sameToken negated index
  | .tokens index => return Parser.sameTokens index
  | .repeated index of => do return Parser.countedBy index (← of.build scope)
  | .values => return fun values => .result (.tuple values)
  | .always of => do
    let p ← of.build scope
    return fun _ => p
  | .switch index cases otherwise => do
    let cases ← buildCases scope cases
    let p ← otherwise.build scope
    return Parser.chosenBy index cases p

end

end Description

end LazyPeg
