import LazyPeg.Proofs.Reading.Anchored

/-!
# Where the tokens have run out

A failure is unexpected if nothing else can match, and the reason for that is, as a rule, that a token was
needed where the tokens have run out.  Two parsers have other reasons: a negation calls what matched
unexpected, and a jump fails as it was told.  **Without these two an unexpected failure stands where the
tokens have run out, and says so** (`Parser.Reads.exhausted`).

This failure may come from deep inside.  Continuations, lookahead and rules hand it on, wherever it stands;
rows, alternatives and repetitions put an expected failure in its place, which says nothing about the end.
-/
namespace LazyPeg

namespace Parser

variable {α : Type} [Token α] [DecidableEq α] {ts : List α}
  {call : RuleId → String → Nat → Reading α (Outcome α Nat)} {i j : Nat}

/-- If the outcome is an unexpected failure, it says that the tokens have run out, and so they have where
it stands. -/
def Exhausted (ts : List α) (r : Outcome α Nat) : Prop :=
  ∀ reason j, r = .failure reason j → reason.kind = .unexpected → reason.message = "EOS" ∧ ts[j]? = none

omit [Token α] [DecidableEq α] in
theorem exhausted_success {v : Value α} : Exhausted ts (.success v j) := nofun

omit [Token α] [DecidableEq α] in
theorem exhausted_expected {reason : Reason} (h : reason.kind = .expected) :
    Exhausted ts (.failure reason j) := by
  rintro _ _ ⟨⟩ unexpected
  exact absurd (h.symm.trans unexpected) nofun

omit [Token α] [DecidableEq α] in
theorem exhausted_endOfInput (h : ts[j]? = none) : Exhausted ts (.failure .endOfInput j) := by
  rintro _ _ ⟨⟩ -
  exact ⟨rfl, h⟩

omit [Token α] [DecidableEq α] in
theorem Exhausted.mapValue {r : Outcome α Nat} (h : Exhausted ts r) (f : Value α → Value α) :
    Exhausted ts (r.mapValue f) := by
  cases r with
  | success v j => exact exhausted_success
  | failure reason j => exact h

/-- Neither a negation nor a jump. -/
def Node.isForthright (n : Node) : Prop := n ≠ .not ∧ n ≠ .jump

/-- A parser without negations and jumps fails as unexpected only where the tokens have run out, if rules
do. -/
theorem exhausted_read (hcall : ∀ id name i, (call id name i).Only (Exhausted ts)) {q : Parser α}
    (hq : q.All Node.isForthright) (i : Nat) : (q.read ts call i).Only (Exhausted ts) := by
  induction q generalizing i with
  | endOfInput =>
    refine .bind fun t _ => ?_
    cases t with
    | none => exact .pure exhausted_success
    | some t => exact .pure (exhausted_expected rfl)
  | satisfy name accepts =>
    refine .bind fun t ht => ?_
    obtain rfl := Reading.gives_look.1 ht
    cases here : ts[i]? with
    | none => exact .pure (exhausted_endOfInput here)
    | some t =>
      simp only
      split
      · exact .bind fun _ _ => .pure exhausted_success
      · exact .pure (exhausted_expected rfl)
  | token items =>
    refine .bind fun _ _ => ?_
    split
    · exact .pure exhausted_success
    · exact .pure (exhausted_expected rfl)
  | result v => exact .pure exhausted_success
  | expected message => exact .pure (exhausted_expected rfl)
  | offset => exact .pure exhausted_success
  | jump => exact absurd rfl hq.2
  | map f q ih => exact .bind fun r hr => .pure ((ih hq.2 i r hr).mapValue f)
  | named name q ih => exact ih hq.2 i
  | group label qs _ =>
    refine .bind fun row _ => ?_
    cases row with
    | ok row => exact .pure exhausted_success
    | error name => exact .pure (exhausted_expected rfl)
  | choice qs ih =>
    have parts := allOf_iff.1 hq.2
    refine .bind fun r hr => ?_
    cases r with
    | none => exact .pure (exhausted_expected rfl)
    | some r => exact .pure (only_of_readFirst (fun q hq => ih q hq (parts q hq) i) _ hr r rfl)
  | many style q _ =>
    refine .bind fun row _ => ?_
    simp only
    split
    · exact .pure (exhausted_expected rfl)
    · exact .pure exhausted_success
  | optional q _ =>
    refine .bind fun r _ => ?_
    cases r <;> exact .pure exhausted_success
  | peek q ih =>
    refine .bind fun r hr => ?_
    cases r with
    | success v j => exact .pure exhausted_success
    | failure reason j => exact .pure (ih hq.2 i _ hr)
  | not => exact absurd rfl hq.1.1
  | bind noted qs k _ ihk =>
    rw [read]
    refine .bind fun row _ => ?_
    rcases row with name | ⟨values, j⟩
    · exact .pure (exhausted_expected rfl)
    · -- What the continuation comes to is handed on, from the place behind the row.
      have rest := ihk values (hq.2.2 values) j
      cases noted with
      | true => exact .bind fun _ _ => rest
      | false => exact rest
  | observed tag q ih => exact .bind fun r hr => .bind fun _ _ => .pure (ih hq.2 i r hr)
  | traced q ih => exact .bind fun r hr => .bind fun _ _ => .pure (ih hq.2 i r hr)
  | rule id name => exact hcall id name i

variable {grammar : Grammar α} {q : Parser α} {c : Course α (Outcome α Nat)}

/-- **Without negations and jumps an unexpected failure stands where the tokens have run out.** -/
theorem Reads.exhausted
    (hg : ∀ (id : RuleId) (body : Parser α), (grammar[id]?).join = some body →
      body.All Node.isForthright)
    (hq : q.All Node.isForthright) (h : Reads grammar ts q i c) {r : Outcome α Nat}
    (hc : c.answer = .ok r) : Exhausted ts r :=
  h.only (P := fun _ => Exhausted ts) (fun _ hcall _ hq => exhausted_read hcall hq) hg hq hc

end Parser

end LazyPeg
