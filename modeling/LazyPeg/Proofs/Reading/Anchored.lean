import LazyPeg.Proofs.Reading.Depth
import LazyPeg.Proofs.Reading.Nodes

/-!
# Where failures stand

A parser that fails is tried again, or replaced, at the place where it was started, so it matters which
place a failure names.  Only a continuation and a jump fail elsewhere; every other parser fails where it
was started, or hands on the failure of a parser that was started there too.  So **without continuations
and jumps every failure stands at the start** (`Parser.Reads.place_of_failure`).

It is the first of the properties that every answer of a reading has (`Reading.Only`).  The rules for them
are here as well: through rows and loops goes what links the two ends of a match
(`Parser.links_readAll`, `Reading.links_repeated`), and through the rules goes what parsers of a kind answer
whenever the rules do (`Parser.Reads.only`).
-/
namespace LazyPeg

/-! ## 1. What a reading may answer -/

namespace Reading

variable {α β γ : Type} {P : β → Prop} {P' : γ → Prop}

/-- A reading answers nothing but what has a property. -/
def Only (P : β → Prop) (c : Reading α β) : Prop := ∀ b, c.Gives b → P b

theorem Only.pure {b : β} (h : P b) : Only P (pure b : Reading α β) := by
  rintro b' ⟨events, reach, same⟩
  obtain rfl : b = b' := Except.ok.inj (Course.mk.inj (ended.inj same)).1
  exact h

theorem Only.bind {c : Reading α β} {f : β → Reading α γ} (h : ∀ b, c.Gives b → Only P' (f b)) :
    Only P' (c >>= f) := by
  intro d hd
  obtain ⟨b, hb, hf⟩ := gives_bind.1 hd
  exact h b hb d hf

theorem only_endless : Only P (endless : Reading α β) := nofun

theorem only_undefined (name : String) : Only P (undefined name : Reading α β) := by
  rintro b ⟨events, reach, same⟩
  exact absurd (Course.mk.inj (ended.inj same)).1 nofun

/-- A loop whose matches link the offset before them, their value and the offset behind them, links the
ends of what it has passed.  A last match that moved nowhere is collected, too. -/
theorem links_repeated {R : Nat → Value α → Nat → Prop} {S : Nat → List (Value α) → Nat → Prop}
    (nil : ∀ i, S i [] i) (cons : ∀ {i v j vs k}, R i v j → S j vs k → S i (v :: vs) k)
    {step : Nat → Reading α (Outcome α Nat)}
    (hstep : ∀ i, (step i).Only fun r => ∀ v j, r = .success v j → R i v j) (room need i : Nat) :
    (repeated step room need i).Only fun row => S i row.1 row.2 := by
  induction room generalizing need i with
  | zero => exact .pure (nil i)
  | succ room ih =>
    refine .bind fun r hr => ?_
    cases r with
    | failure reason j => exact .pure (nil i)
    | success v j =>
      have first : R i v j := hstep i _ hr v j rfl
      simp only
      split
      · exact .pure (cons first (nil j))
      · exact .bind fun row hrow => .pure (cons first (ih _ j row hrow))

end Reading

/-! ## 2. Terms -/

namespace Parser

variable {α : Type} [Token α] [DecidableEq α] {ts : List α}
  {call : RuleId → String → Nat → Reading α (Outcome α Nat)} {i j : Nat}

/-- If the outcome is a failure, it stands at an offset. -/
def FailsAt (i : Nat) (r : Outcome α Nat) : Prop := ∀ reason j, r = .failure reason j → j = i

omit [Token α] [DecidableEq α] in
theorem failsAt_success {v : Value α} : FailsAt i (.success v j) := nofun

omit [Token α] [DecidableEq α] in
theorem failsAt_failure {reason : Reason} : FailsAt i (.failure reason i : Outcome α Nat) :=
  fun _ _ same => (Outcome.failure.inj same).2.symm

omit [Token α] [DecidableEq α] in
theorem FailsAt.mapValue {r : Outcome α Nat} (h : FailsAt i r) (f : Value α → Value α) :
    FailsAt i (r.mapValue f) := by
  cases r with
  | success v j => exact failsAt_success
  | failure reason j => exact h

theorem only_readFirst (qs : List (Parser α)) (i : Nat) :
    (readFirst ts call qs i).Only fun r => ∀ r' ∈ r, FailsAt i r' := by
  induction qs with
  | nil => exact .pure nofun
  | cons q qs ih =>
    refine .bind fun r _ => ?_
    cases r with
    | success v j => exact .pure fun r' hr' => Option.some.inj hr' ▸ failsAt_success
    | failure reason j => exact ih

/-- Parsers in a row that link the offset before them, their value and the offset behind them, link the
ends of the row. -/
theorem links_readAll {R : Nat → Value α → Nat → Prop} {S : Nat → List (Value α) → Nat → Prop}
    (nil : ∀ i, S i [] i) (cons : ∀ {i v j vs k}, R i v j → S j vs k → S i (v :: vs) k)
    {qs : List (Parser α)}
    (hqs : ∀ q ∈ qs, ∀ i, (q.read ts call i).Only fun r => ∀ v j, r = .success v j → R i v j) (i : Nat) :
    (readAll ts call qs i).Only fun row => ∀ values j, row = .ok (values, j) → S i values j := by
  induction qs generalizing i with
  | nil =>
    refine .pure ?_
    rintro values j ⟨⟩
    exact nil i
  | cons q qs ih =>
    obtain ⟨hq, hqs⟩ := List.forall_mem_cons.1 hqs
    refine .bind fun r hr => ?_
    cases r with
    | failure reason j => exact .pure nofun
    | success v j =>
      refine .bind fun row hrow => ?_
      cases row with
      | error name => exact .pure nofun
      | ok row =>
        refine .pure ?_
        rintro values k ⟨⟩
        exact cons (hq i _ hr v j rfl) (ih hqs j _ hrow _ _ rfl)

/-- Alternatives answer what one of them answers at the same offset. -/
theorem only_of_readFirst {P : Outcome α Nat → Prop} {qs : List (Parser α)}
    (hqs : ∀ q ∈ qs, (q.read ts call i).Only P) :
    (readFirst ts call qs i).Only fun r => ∀ r', r = some r' → P r' := by
  induction qs with
  | nil => exact .pure nofun
  | cons q qs ih =>
    obtain ⟨hq, hqs⟩ := List.forall_mem_cons.1 hqs
    refine .bind fun r hr => ?_
    cases r with
    | failure reason j => exact ih hqs
    | success v j =>
      refine .pure ?_
      rintro r' ⟨⟩
      exact hq _ hr

/-- Neither a continuation nor a jump. -/
def Node.isSteady (n : Node) : Prop := n ≠ .bind ∧ n ≠ .jump

/-- A parser without continuations and jumps fails where it was started, if rules do. -/
theorem failsAt_read (hcall : ∀ id name i, (call id name i).Only (FailsAt i)) {q : Parser α}
    (hq : q.All Node.isSteady) (i : Nat) : (q.read ts call i).Only (FailsAt i) := by
  induction q generalizing i with
  | endOfInput =>
    refine .bind fun t _ => ?_
    cases t with
    | none => exact .pure failsAt_success
    | some t => exact .pure failsAt_failure
  | satisfy name accepts =>
    refine .bind fun t _ => ?_
    cases t with
    | none => exact .pure failsAt_failure
    | some t =>
      simp only
      split
      · exact .bind fun _ _ => .pure failsAt_success
      · exact .pure failsAt_failure
  | token items =>
    refine .bind fun _ _ => ?_
    split
    · exact .pure failsAt_success
    · exact .pure failsAt_failure
  | result v => exact .pure failsAt_success
  | expected message => exact .pure failsAt_failure
  | offset => exact .pure failsAt_success
  | jump => exact absurd rfl hq.2
  | map f q ih => exact .bind fun r hr => .pure ((ih hq.2 i r hr).mapValue f)
  | named name q ih => exact ih hq.2 i
  | group label qs _ =>
    refine .bind fun row _ => ?_
    cases row with
    | ok row => exact .pure failsAt_success
    | error name => exact .pure failsAt_failure
  | choice qs _ =>
    refine .bind fun r hr => ?_
    cases r with
    | none => exact .pure failsAt_failure
    | some r => exact .pure (only_readFirst qs i _ hr r rfl)
  | many style q _ =>
    refine .bind fun row _ => ?_
    simp only
    split
    · exact .pure failsAt_failure
    · exact .pure failsAt_success
  | optional q _ =>
    refine .bind fun r _ => ?_
    cases r <;> exact .pure failsAt_success
  | peek q ih =>
    refine .bind fun r hr => ?_
    cases r with
    | success v j => exact .pure failsAt_success
    | failure reason j => exact .pure (ih hq.2 i _ hr)
  | not q _ =>
    refine .bind fun r _ => ?_
    cases r with
    | success v j => exact .pure failsAt_failure
    | failure reason j =>
      refine .bind fun t _ => ?_
      cases t with
      | some t => exact .pure failsAt_success
      | none => exact .pure failsAt_failure
  | bind => exact absurd rfl hq.1.1
  | observed tag q ih => exact .bind fun r hr => .bind fun _ _ => .pure (ih hq.2 i r hr)
  | traced q ih => exact .bind fun r hr => .bind fun _ _ => .pure (ih hq.2 i r hr)
  | rule id name => exact hcall id name i

/-! ## 3. Rules -/

variable {grammar : Grammar α} {q : Parser α} {c : Course α (Outcome α Nat)}

/-- If the parsers of a kind answer only what has a property, provided that rules do, and the bodies of
all rules are of that kind, then rules do. -/
theorem only_callDepth {kind : Parser α → Prop} {P : Nat → Outcome α Nat → Prop}
    (hread : ∀ (call : RuleId → String → Nat → Reading α (Outcome α Nat)),
      (∀ id name i, (call id name i).Only (P i)) →
        ∀ q, kind q → ∀ i, (Parser.read ts call q i).Only (P i))
    (hg : ∀ (id : RuleId) (body : Parser α), (grammar[id]?).join = some body → kind body)
    (depth : Nat) (id : RuleId) (name : String) (i : Nat) :
    (callDepth grammar ts depth id name i).Only (P i) := by
  induction depth generalizing id name i with
  | zero =>
    unfold callDepth
    split
    · exact Reading.only_endless
    · exact Reading.only_undefined name
  | succ depth ih =>
    unfold callDepth
    split
    next body hbody => exact hread _ ih body (hg id body hbody) i
    next => exact Reading.only_undefined name

/-- So does every course of a parser of that kind. -/
theorem Reads.only {kind : Parser α → Prop} {P : Nat → Outcome α Nat → Prop}
    (hread : ∀ (call : RuleId → String → Nat → Reading α (Outcome α Nat)),
      (∀ id name i, (call id name i).Only (P i)) →
        ∀ q, kind q → ∀ i, (Parser.read ts call q i).Only (P i))
    (hg : ∀ (id : RuleId) (body : Parser α), (grammar[id]?).join = some body → kind body)
    (hq : kind q) (h : Reads grammar ts q i c) {r : Outcome α Nat} (hr : c.answer = .ok r) : P i r := by
  obtain ⟨depth, read⟩ := h
  have gives : (q.readDepth grammar ts depth i).Gives r := ⟨c.events, c.reach, by rw [read, ← hr]⟩
  exact hread _ (only_callDepth hread hg depth) q hq i r gives

/-- **Without continuations and jumps a failure stands at the start.** -/
theorem Reads.place_of_failure
    (hg : ∀ (id : RuleId) (body : Parser α), (grammar[id]?).join = some body → body.All Node.isSteady)
    (hq : q.All Node.isSteady) (h : Reads grammar ts q i c) {reason : Reason}
    (hc : c.answer = .ok (.failure reason j)) : j = i :=
  h.only (P := FailsAt) (fun _ hcall _ hq => failsAt_read hcall hq) hg hq hc reason j rfl

end Parser

end LazyPeg
