import LazyPeg.Value
import LazyPeg.Text.Style

/-!
# Outcomes

A parse either succeeds with a value or fails for a reason, and both say at which place: a success
where the next parser goes on, a failure where it is reported.  A failure is *expected* if something
else might still match there, and *unexpected* if nothing can.

Outcomes are generic in what a place is: a position of a store, or just an offset.
-/
namespace LazyPeg

/-- The two kinds of failure. -/
inductive FailureKind where
  /-- Something else might match. -/
  | expected
  /-- Nothing can match, mostly because the input has ended. -/
  | unexpected
  deriving DecidableEq, Repr, Inhabited

/-! ## 1. Reasons -/

/-- Why a parse failed. -/
inductive Reason where
  /-- A token was needed at the end of the input. -/
  | endOfInput
  /-- The end of the input was needed where a token stands. -/
  | tokensLeft
  /-- The token has not the named property. -/
  | unsatisfied (name : String)
  /-- The named part of a sequence did not match. -/
  | missing (name : String)
  /-- None of the named alternatives matched. -/
  | noneOf (names : List String)
  /-- A repetition found fewer matches than it needs. -/
  | tooFew (least : Nat) (name : String)
  /-- Something matched that must not. -/
  | present (name : String)
  /-- A reason given in the parser itself. -/
  | stated (kind : FailureKind) (message : String)
  deriving DecidableEq, Repr, Inhabited

namespace Reason

/-- The kind of failure that a reason makes. -/
def kind : Reason → FailureKind
  | endOfInput => .unexpected
  | present _ => .unexpected
  | stated kind _ => kind
  | _ => .expected

/-- The message for a reason. -/
def message : Reason → String
  | endOfInput => "EOS"
  | tokensLeft => "EOS"
  | unsatisfied name => "Satisfying " ++ name
  | missing name => name ++ " is expected"
  | noneOf names => "One of " ++ ", ".intercalate names
  | tooFew least name => "At least " ++ toString least ++ " of " ++ name
  | present name => "Not " ++ name ++ " is expected"
  | stated _ message => message

end Reason

/-! ## 2. Outcomes -/

/-- What a parse came to. -/
inductive Outcome (α π : Type) where
  | success (value : Value α) (next : π)
  | failure (reason : Reason) (place : π)
  deriving Repr, Inhabited

namespace Outcome

variable {α π : Type}

/-- The place of an outcome. -/
def place : Outcome α π → π
  | success _ next => next
  | failure _ place => place

/-- The parse succeeded. -/
def isSuccess : Outcome α π → Bool
  | success .. => true
  | failure .. => false

/-- The value of a success. -/
def value? : Outcome α π → Option (Value α)
  | success v _ => some v
  | failure .. => none

/-- The reason of a failure. -/
def reason? : Outcome α π → Option Reason
  | success .. => none
  | failure reason _ => some reason

/-- Change the value of a success; failures stay as they are. -/
def mapValue (f : Value α → Value α) : Outcome α π → Outcome α π
  | success v next => success (f v) next
  | failure reason place => failure reason place

@[simp] theorem place_mapValue (f : Value α → Value α) (r : Outcome α π) :
    (r.mapValue f).place = r.place := by
  cases r <;> rfl

@[simp] theorem isSuccess_mapValue (f : Value α → Value α) (r : Outcome α π) :
    (r.mapValue f).isSuccess = r.isSuccess := by
  cases r <;> rfl

@[simp] theorem value?_mapValue (f : Value α → Value α) (r : Outcome α π) :
    (r.mapValue f).value? = r.value?.map f := by
  cases r <;> rfl

@[simp] theorem reason?_mapValue (f : Value α → Value α) (r : Outcome α π) :
    (r.mapValue f).reason? = r.reason? := by
  cases r <;> rfl

/-- Whether two outcomes cannot be told apart: the same value, or the same kind and message of
failure, at the same place. -/
def agrees [DecidableEq α] (samePlace : π → π → Bool) : Outcome α π → Outcome α π → Bool
  | success v p, success w q => v == w && samePlace p q
  | failure r p, failure r' q => r.kind == r'.kind && r.message == r'.message && samePlace p q
  | _, _ => false

/-- How an outcome is shown. -/
def describe [Token α] (describePlace : π → String) : Outcome α π → String
  | success v next => "Success \x7b value: " ++ v.quoted ++ ", next: " ++ describePlace next ++ " \x7d"
  | failure reason place =>
    (match reason.kind with
      | .expected => "ExpectedFailure"
      | .unexpected => "UnexpectedFailure")
      ++ " \x7b message: " ++ Text.quoteString reason.message ++ ", next: " ++ describePlace place
      ++ " \x7d"

end Outcome

/-! ## 3. Events -/

/-- What can be seen of a parse while it runs. -/
inductive Event (α π : Type) where
  /-- An observed parser finished. -/
  | observed (tag : Literal) (outcome : Outcome α π)
  /-- A continuation was asked what to parse after these values. -/
  | continued (values : List (Value α))
  /-- A traced parser finished. -/
  | traced (name : String) (outcome : Outcome α π)
  deriving Inhabited

/-- The line that a traced parser writes. -/
def Outcome.traceLine {α π : Type} [Token α] (colours : Bool) (offset : π → Nat) (name : String)
    (outcome : Outcome α π) : String :=
  let place := toString (offset outcome.place)
  let name := Text.Style.heavy.paint colours name
  match outcome with
  | .success v _ =>
    name ++ " " ++ (Text.Style.plainly .green).paint colours "matched" ++ " " ++ v.quoted
      ++ " (next at " ++ place ++ ")"
  | .failure reason _ =>
    let verdict := match reason.kind with
      | .expected => (Text.Style.plainly .yellow).paint colours "expected"
      | .unexpected => (Text.Style.plainly .red).paint colours "unexpected"
    name ++ " " ++ verdict ++ " " ++ reason.message ++ " (at " ++ place ++ ")"

/-- All that traced parsers wrote, a line each. -/
def traceText {α π : Type} [Token α] (colours : Bool) (offset : π → Nat)
    (events : List (Event α π)) : String :=
  events.foldl (fun text event =>
    match event with
    | .traced name outcome => text ++ outcome.traceLine colours offset name ++ "\n"
    | _ => text) ""

end LazyPeg
