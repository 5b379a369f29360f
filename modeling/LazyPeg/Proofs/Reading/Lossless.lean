import LazyPeg.Proofs.Reading.Anchored

/-!
# Lossless parse trees

A parser that throws nothing away, and invents nothing, gives its tokens back: **the tokens among the
leaves of its value, from left to right, are the tokens that it has passed over**
(`Parser.Lossless.covers`).

* §1: a value *covers* the list from one offset to another.  Values in a row cover what they cover
  together.
* §2 says which parsers are lossless.  A lookahead is not one, since it gives a token that is not passed,
  and neither is a continuation, which gives the value of the last parser only.
* §3 is the induction over the terms.  What was tried and given up leaves nothing behind, because every
  further try begins where the first one did.
-/
namespace LazyPeg

/-! ## 1. Covered stretches -/

/-- The list goes on from offset `i` with these tokens, and offset `j` is behind them. -/
structure Stretch {α : Type} (ts : List α) (i j : Nat) (passed : List α) : Prop where
  drop_eq : ts.drop i = passed ++ ts.drop j
  length_eq : i + passed.length = j

namespace Stretch

variable {α : Type} {ts passed passed' : List α} {i j k : Nat}

theorem refl (ts : List α) (i : Nat) : Stretch ts i i [] := ⟨rfl, rfl⟩

theorem trans (h : Stretch ts i j passed) (h' : Stretch ts j k passed') :
    Stretch ts i k (passed ++ passed') := by
  constructor
  · rw [h.drop_eq, h'.drop_eq, List.append_assoc]
  · rw [List.length_append, ← h'.length_eq, ← h.length_eq, Nat.add_assoc]

theorem one {t : α} (ht : ts[i]? = some t) : Stretch ts i (i + 1) [t] := by
  obtain ⟨inside, rfl⟩ := List.getElem?_eq_some_iff.1 ht
  exact ⟨List.drop_eq_getElem_cons inside, rfl⟩

theorem run {items : List α} (here : items <+: ts.drop i) :
    Stretch ts i (i + items.length) items := by
  obtain ⟨rest, behind⟩ := here
  refine ⟨?_, rfl⟩
  rw [← List.drop_drop, ← behind, List.drop_left]

/-- The tokens of a stretch are those between its ends. -/
theorem eq_take (h : Stretch ts i j passed) : passed = (ts.drop i).take (j - i) := by
  have length : j - i = passed.length := by rw [← h.length_eq, Nat.add_sub_cancel_left]
  rw [length, h.drop_eq, List.take_left]

end Stretch

/-- If the outcome is a success, the tokens of its value are those from an offset on that were
passed. -/
def Outcome.Covers {α : Type} (ts : List α) (i : Nat) (r : Outcome α Nat) : Prop :=
  ∀ v j, r = .success v j → Stretch ts i j v.tokens

namespace Outcome

variable {α : Type} {ts : List α} {i j : Nat}

theorem covers_success {v : Value α} (h : Stretch ts i j v.tokens) : Covers ts i (.success v j) := by
  rintro v' j' ⟨⟩
  exact h

theorem covers_failure {reason : Reason} : Covers ts i (.failure reason j) := nofun

/-- A change that keeps the tokens of a value keeps what is covered. -/
theorem Covers.mapValue {r : Outcome α Nat} (h : Covers ts i r) {f : Value α → Value α}
    (hf : ∀ v, (f v).tokens = v.tokens) : Covers ts i (r.mapValue f) := by
  cases r with
  | failure reason j => exact covers_failure
  | success v j =>
    refine covers_success ?_
    rw [hf]
    exact h v j rfl

end Outcome

/-! ## 2. Lossless parsers -/

namespace Parser

variable {α : Type}

mutual

/-- Every token that is passed is kept in the value, once and in its place. -/
def Lossless : Parser α → Prop
  | endOfInput => True
  | satisfy .. => True
  | token _ => True
  | expected _ => True
  | offset => True
  | map f q => (∀ v, (f v).tokens = v.tokens) ∧ q.Lossless
  | named _ q => q.Lossless
  | group _ qs => AllLossless qs
  | choice qs => AllLossless qs
  | many _ q => q.Lossless
  | optional q => q.Lossless
  | observed _ q => q.Lossless
  | traced q => q.Lossless
  | rule .. => True
  | _ => False

/-- So it is in several parsers. -/
def AllLossless : List (Parser α) → Prop
  | [] => True
  | q :: qs => q.Lossless ∧ AllLossless qs

end

theorem allLossless_iff {qs : List (Parser α)} : AllLossless qs ↔ ∀ q ∈ qs, q.Lossless := by
  induction qs with
  | nil => simp [AllLossless]
  | cons q qs ih => simp [AllLossless, ih]

/-! ## 3. Readings -/

variable [Token α] [DecidableEq α] {ts : List α}
  {call : RuleId → String → Nat → Reading α (Outcome α Nat)} {qs : List (Parser α)}

omit [Token α] [DecidableEq α] in
/-- Values in a row cover what they cover together. -/
theorem stretch_cons {i j k : Nat} {v : Value α} {values : List (Value α)} (first : Stretch ts i j v.tokens)
    (rest : Stretch ts j k (values.flatMap Value.tokens)) :
    Stretch ts i k ((v :: values).flatMap Value.tokens) := by
  rw [List.flatMap_cons]
  exact first.trans rest

/-- The values of a row cover what the row has passed. -/
theorem covers_readAll (hqs : ∀ q ∈ qs, ∀ i, (q.read ts call i).Only (Outcome.Covers ts i)) (i : Nat) :
    (readAll ts call qs i).Only fun row =>
      ∀ values j, row = .ok (values, j) → Stretch ts i j (values.flatMap Value.tokens) :=
  links_readAll (R := fun i v j => Stretch ts i j v.tokens)
    (S := fun i values j => Stretch ts i j (values.flatMap Value.tokens)) (Stretch.refl ts) stretch_cons hqs i

omit [Token α] [DecidableEq α] in
/-- The values that a loop has collected cover what it has passed.  A last match that moved nowhere is
collected, too, and covers nothing. -/
theorem covers_repeated {step : Nat → Reading α (Outcome α Nat)}
    (hstep : ∀ i, (step i).Only (Outcome.Covers ts i)) (room need i : Nat) :
    (Reading.repeated step room need i).Only fun row =>
      Stretch ts i row.2 (row.1.flatMap Value.tokens) :=
  Reading.links_repeated (R := fun i v j => Stretch ts i j v.tokens)
    (S := fun i values j => Stretch ts i j (values.flatMap Value.tokens)) (Stretch.refl ts) stretch_cons hstep
    room need i

/-- **The leaves of a value are the tokens that were passed**, if this is so of rules. -/
theorem Lossless.covers (hcall : ∀ id name i, (call id name i).Only (Outcome.Covers ts i))
    {q : Parser α} (h : q.Lossless) (i : Nat) : (q.read ts call i).Only (Outcome.Covers ts i) := by
  have rows {qs : List (Parser α)} (hqs : AllLossless qs) (ih : ∀ q ∈ qs, q.Lossless →
      ∀ i, (q.read ts call i).Only (Outcome.Covers ts i)) :
      ∀ q ∈ qs, ∀ i, (q.read ts call i).Only (Outcome.Covers ts i) :=
    fun q hq => ih q hq (allLossless_iff.1 hqs q hq)
  induction q generalizing i with
  | endOfInput =>
    refine .bind fun t _ => ?_
    cases t with
    | none => exact .pure (Outcome.covers_success (.refl ts i))
    | some t => exact .pure Outcome.covers_failure
  | satisfy name accepts =>
    refine .bind fun t ht => ?_
    cases t with
    | none => exact .pure Outcome.covers_failure
    | some t =>
      simp only
      split
      · have here : ts[i]? = some t := (Reading.gives_look.1 ht).symm
        exact .bind fun _ _ => .pure (Outcome.covers_success (.one here))
      · exact .pure Outcome.covers_failure
  | token items =>
    refine .bind fun _ _ => ?_
    split
    · rename_i here
      refine .pure (Outcome.covers_success ?_)
      have same : (Value.list (items.map .token)).tokens = items := by
        simp only [Value.tokens_list, List.flatMap_map, Value.tokens_token, List.flatMap_singleton']
      rw [same]
      exact .run here
    · exact .pure Outcome.covers_failure
  | expected message => exact .pure Outcome.covers_failure
  | offset => exact .pure (Outcome.covers_success (.refl ts i))
  | map f q ih => exact .bind fun r hr => .pure ((ih h.2 i r hr).mapValue h.1)
  | named name q ih => exact ih h i
  | group label qs ih =>
    refine .bind fun row hrow => ?_
    cases row with
    | error name => exact .pure Outcome.covers_failure
    | ok row =>
      refine .pure (Outcome.covers_success ?_)
      rw [Value.tokens_tuple]
      exact covers_readAll (rows h ih) i _ hrow _ _ rfl
  | choice qs ih =>
    refine .bind fun r hr => ?_
    cases r with
    | none => exact .pure Outcome.covers_failure
    | some r => exact .pure (only_of_readFirst (fun q hq => rows h ih q hq i) _ hr r rfl)
  | many style q ih =>
    refine .bind fun row hrow => ?_
    simp only
    split
    · exact .pure Outcome.covers_failure
    · refine .pure (Outcome.covers_success ?_)
      rw [Value.tokens_list]
      exact covers_repeated (ih h) _ _ i row hrow
  | optional q ih =>
    refine .bind fun r hr => ?_
    cases r with
    | success v j => exact .pure (Outcome.covers_success (ih h i _ hr v j rfl))
    | failure reason j => exact .pure (Outcome.covers_success (.refl ts i))
  | observed tag q ih => exact .bind fun r hr => .bind fun _ _ => .pure (ih h i r hr)
  | traced q ih => exact .bind fun r hr => .bind fun _ _ => .pure (ih h i r hr)
  | rule id name => exact hcall id name i
  | result | jump | peek | not | bind => exact h.elim

/-- What a match of a lossless parser has passed stands in its value. -/
theorem Reads.stretch_of_success {grammar : Grammar α} {q : Parser α} {c : Course α (Outcome α Nat)}
    {i j : Nat} (hg : ∀ (id : RuleId) (body : Parser α), (grammar[id]?).join = some body → body.Lossless)
    (hq : q.Lossless) (h : Reads grammar ts q i c) {v : Value α} (hv : c.answer = .ok (.success v j)) :
    Stretch ts i j v.tokens :=
  h.only (P := Outcome.Covers ts) (fun _ hcall _ hq => hq.covers hcall) hg hq hv v j rfl

end Parser

end LazyPeg
