import LazyPeg.Proofs.Reading.Bounds

/-!
# Kinds of parsers

`Parser.Node` is the kind of a parser, its parts apart, and `Parser.All` says of a parser that the kinds
of all parsers in it have a property.  What is proved of such a parser does not depend on how it was
built.
-/
namespace LazyPeg

namespace Parser

/-- The kind of a parser, its parts apart. -/
inductive Node where
  | endOfInput
  | satisfy
  | token
  | result
  | expected
  | offset
  | jump
  | map
  | named
  | group
  | choice
  | many
  | optional
  | peek
  | not
  | bind
  | observed
  | traced
  | rule (id : RuleId) (name : String)
  deriving DecidableEq, Repr

variable {α : Type} {ok ok' : Node → Prop}

mutual

/-- The kinds of a parser and of all parsers in it hold.  What continuations give counts as well, and the
bodies of rules do not. -/
def All (ok : Node → Prop) : Parser α → Prop
  | endOfInput => ok .endOfInput
  | satisfy .. => ok .satisfy
  | token _ => ok .token
  | result _ => ok .result
  | expected _ => ok .expected
  | offset => ok .offset
  | jump .. => ok .jump
  | map _ q => ok .map ∧ q.All ok
  | named _ q => ok .named ∧ q.All ok
  | group _ qs => ok .group ∧ AllOf ok qs
  | choice qs => ok .choice ∧ AllOf ok qs
  | many _ q => ok .many ∧ q.All ok
  | optional q => ok .optional ∧ q.All ok
  | peek q => ok .peek ∧ q.All ok
  | not q => ok .not ∧ q.All ok
  | bind _ qs continuation => ok .bind ∧ AllOf ok qs ∧ ∀ values, (continuation values).All ok
  | observed _ q => ok .observed ∧ q.All ok
  | traced q => ok .traced ∧ q.All ok
  | rule id name => ok (.rule id name)

/-- So do those of several parsers. -/
def AllOf (ok : Node → Prop) : List (Parser α) → Prop
  | [] => True
  | q :: qs => q.All ok ∧ AllOf ok qs

end

theorem allOf_iff {qs : List (Parser α)} : AllOf ok qs ↔ ∀ q ∈ qs, q.All ok := by
  induction qs with
  | nil => simp [AllOf]
  | cons q qs ih => simp [AllOf, ih]

theorem All.mono (h : ∀ n, ok n → ok' n) {q : Parser α} (hq : q.All ok) : q.All ok' := by
  have rows {qs : List (Parser α)} (ih : ∀ q ∈ qs, q.All ok → q.All ok') (hqs : AllOf ok qs) :
      AllOf ok' qs := allOf_iff.2 fun q hq => ih q hq (allOf_iff.1 hqs q hq)
  induction q with
  | map _ q ih => exact ⟨h _ hq.1, ih hq.2⟩
  | named _ q ih => exact ⟨h _ hq.1, ih hq.2⟩
  | group _ qs ih => exact ⟨h _ hq.1, rows ih hq.2⟩
  | choice qs ih => exact ⟨h _ hq.1, rows ih hq.2⟩
  | many _ q ih => exact ⟨h _ hq.1, ih hq.2⟩
  | optional q ih => exact ⟨h _ hq.1, ih hq.2⟩
  | peek q ih => exact ⟨h _ hq.1, ih hq.2⟩
  | not q ih => exact ⟨h _ hq.1, ih hq.2⟩
  | bind _ qs k ihs ihk => exact ⟨h _ hq.1, rows ihs hq.2.1, fun values => ihk values (hq.2.2 values)⟩
  | observed _ q ih => exact ⟨h _ hq.1, ih hq.2⟩
  | traced q ih => exact ⟨h _ hq.1, ih hq.2⟩
  | _ => exact h _ hq

end Parser

end LazyPeg
