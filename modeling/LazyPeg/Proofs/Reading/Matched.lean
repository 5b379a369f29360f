import LazyPeg.Proofs.Reading.Guarded
import LazyPeg.Proofs.Simulation.Terms

/-!
# The tokens that are matched

A parser tests the tokens that it passes over, jumps apart.  So if all its tests let only tokens with a
property pass, then all tokens of a match have that property (`Parser.MatchesOnly.between`), whatever is
matched and in whatever order.  `Parser.MatchesOnly` says of a parser that its tests are such, and that it
calls no rules.  Every parser of that kind ends at every place (`Parser.MatchesOnly.exists_reads`).
-/
namespace LazyPeg

/-! ## 1. Stretches of a list -/

/-- The tokens between two offsets of a list have a property. -/
def Between {α : Type} (P : α → Prop) (ts : List α) (i j : Nat) : Prop :=
  ∀ k t, i ≤ k → k < j → ts[k]? = some t → P t

section

variable {α : Type} {P : α → Prop} {ts : List α} {i j k : Nat}

theorem between_self : Between P ts i i := by
  intro m t from_i to_i
  omega

theorem Between.trans (h : Between P ts i j) (h' : Between P ts j k) : Between P ts i k := by
  intro m t from_i to_k ht
  by_cases before : m < j
  · exact h m t from_i before ht
  · exact h' m t (by omega) to_k ht

theorem between_one {t : α} (ht : ts[i]? = some t) (h : P t) : Between P ts i (i + 1) := by
  intro m u from_i to_next hu
  obtain rfl : m = i := by omega
  obtain rfl : t = u := Option.some.inj (ht.symm.trans hu)
  exact h

theorem between_items {items : List α} (here : items <+: ts.drop i) (h : ∀ t ∈ items, P t) :
    Between P ts i (i + items.length) := by
  intro m t from_i to_end ht
  obtain ⟨rest, behind⟩ := here
  obtain ⟨n, rfl⟩ := Nat.exists_eq_add_of_le from_i
  have inside : n < items.length := by omega
  rw [← List.getElem?_drop, ← behind, List.getElem?_append_left inside] at ht
  exact h t (List.mem_of_getElem? ht)

/-- All tokens have the property if those from the first one on do. -/
theorem Between.forall_mem (h : Between P ts 0 ts.length) : ∀ t ∈ ts, P t := by
  intro t ht
  obtain ⟨m, inside, rfl⟩ := List.mem_iff_getElem.1 ht
  exact h m _ (Nat.zero_le m) inside (List.getElem?_eq_getElem inside)

end

namespace Parser

variable {α : Type} {P : α → Prop}

/-! ## 2. What a parser lets pass -/

mutual

/-- All tests in a parser let only tokens with a property pass.  A jump lets all tokens pass, and what a
rule does is not known. -/
def MatchesOnly (P : α → Prop) : Parser α → Prop
  | satisfy _ accepts => ∀ t, accepts t → P t
  | token items => ∀ t ∈ items, P t
  | jump .. => False
  | map _ q => q.MatchesOnly P
  | named _ q => q.MatchesOnly P
  | group _ qs => AllMatchOnly P qs
  | choice qs => AllMatchOnly P qs
  | many _ q => q.MatchesOnly P
  | optional q => q.MatchesOnly P
  | peek q => q.MatchesOnly P
  | not q => q.MatchesOnly P
  | bind _ qs continuation => AllMatchOnly P qs ∧ ∀ values, (continuation values).MatchesOnly P
  | observed _ q => q.MatchesOnly P
  | traced q => q.MatchesOnly P
  | rule .. => False
  | _ => True

/-- So do all tests in several parsers. -/
def AllMatchOnly (P : α → Prop) : List (Parser α) → Prop
  | [] => True
  | q :: qs => q.MatchesOnly P ∧ AllMatchOnly P qs

end

theorem allMatchOnly_iff {qs : List (Parser α)} : AllMatchOnly P qs ↔ ∀ q ∈ qs, q.MatchesOnly P := by
  induction qs with
  | nil => simp [AllMatchOnly]
  | cons q qs ih => simp [AllMatchOnly, ih]

/-- A parser that calls no rules is the same whatever rules are called. -/
theorem MatchesOnly.alike {rules : RuleId → RuleId → Prop} {q : Parser α} (h : q.MatchesOnly P) :
    Alike rules q q := by
  have rows {qs : List (Parser α)} (ih : ∀ q ∈ qs, q.MatchesOnly P → Alike rules q q)
      (hqs : AllMatchOnly P qs) : List.Forall₂ (Alike rules) qs qs :=
    List.forall₂_same.2 fun q hq => ih q hq (allMatchOnly_iff.1 hqs q hq)
  induction q with
  | endOfInput => exact .endOfInput
  | satisfy name accepts => exact .satisfy name accepts
  | token items => exact .token items
  | result value => exact .result value
  | expected message => exact .expected message
  | offset => exact .offset
  | jump => exact h.elim
  | map f q ih => exact .map f (ih h)
  | named name q ih => exact .named name (ih h)
  | group label qs ih => exact .group label (rows ih h)
  | choice qs ih => exact .choice (rows ih h)
  | many style q ih => exact .many style (ih h)
  | optional q ih => exact .optional (ih h)
  | peek q ih => exact .peek (ih h)
  | not q ih => exact .not (ih h)
  | bind noted qs k ihs ihk => exact .bind noted (rows ihs h.1) fun values => ihk values (h.2 values)
  | observed tag q ih => exact .observed tag (ih h)
  | traced q ih => exact .traced (ih h)
  | rule => exact h.elim

/-- Where no rules are called, nothing is asked of grammars. -/
theorem likeGrammars_of_none {grammar grammar' : Grammar α} :
    LikeGrammars (fun _ _ => False) grammar grammar' := nofun

/-- A parser that calls no rules calls none that is not defined. -/
theorem MatchesOnly.callable {q : Parser α} (h : q.MatchesOnly P) (grammar : Grammar α) :
    q.All (Callable grammar []) := by
  have rows {qs : List (Parser α)} (ih : ∀ q ∈ qs, q.MatchesOnly P → q.All (Callable grammar []))
      (hqs : AllMatchOnly P qs) : AllOf (Callable grammar []) qs :=
    allOf_iff.2 fun q hq => ih q hq (allMatchOnly_iff.1 hqs q hq)
  induction q with
  | jump => exact h.elim
  | map f q ih => exact ⟨trivial, ih h⟩
  | named name q ih => exact ⟨trivial, ih h⟩
  | group label qs ih => exact ⟨trivial, rows ih h⟩
  | choice qs ih => exact ⟨trivial, rows ih h⟩
  | many style q ih => exact ⟨trivial, ih h⟩
  | optional q ih => exact ⟨trivial, ih h⟩
  | peek q ih => exact ⟨trivial, ih h⟩
  | not q ih => exact ⟨trivial, ih h⟩
  | bind noted qs k ihs ihk => exact ⟨trivial, rows ihs h.1, fun values => ihk values (h.2 values)⟩
  | observed tag q ih => exact ⟨trivial, ih h⟩
  | traced q ih => exact ⟨trivial, ih h⟩
  | rule => exact h.elim
  | _ => exact trivial

/-! ## 3. What a parser has matched -/

variable [Token α] [DecidableEq α] {ts : List α}
  {call : RuleId → String → Nat → Reading α (Outcome α Nat)} {q : Parser α} {qs : List (Parser α)}

/-- If the outcome is a success, the tokens from an offset up to it have a property. -/
def Passes (P : α → Prop) (ts : List α) (i : Nat) (r : Outcome α Nat) : Prop :=
  ∀ v j, r = .success v j → Between P ts i j

omit [Token α] [DecidableEq α] in
theorem passes_success {v : Value α} {i j : Nat} (h : Between P ts i j) : Passes P ts i (.success v j) := by
  rintro v' j' ⟨⟩
  exact h

omit [Token α] [DecidableEq α] in
theorem passes_failure {reason : Reason} {i j : Nat} : Passes P ts i (.failure reason j) := nofun

omit [Token α] [DecidableEq α] in
theorem Passes.mapValue {r : Outcome α Nat} {i : Nat} (h : Passes P ts i r) (f : Value α → Value α) :
    Passes P ts i (r.mapValue f) := by
  cases r with
  | success v j => exact passes_success (h v j rfl)
  | failure reason j => exact passes_failure

theorem passes_readAll (hqs : ∀ q ∈ qs, ∀ i, (q.read ts call i).Only (Passes P ts i)) (i : Nat) :
    (readAll ts call qs i).Only fun row => ∀ values j, row = .ok (values, j) → Between P ts i j :=
  links_readAll (R := fun i _ j => Between P ts i j) (S := fun i _ j => Between P ts i j)
    (fun _ => between_self) Between.trans hqs i

omit [Token α] [DecidableEq α] in
theorem passes_repeated {step : Nat → Reading α (Outcome α Nat)}
    (hstep : ∀ i, (step i).Only (Passes P ts i)) (room need i : Nat) :
    (Reading.repeated step room need i).Only fun row => Between P ts i row.2 :=
  Reading.links_repeated (R := fun i _ j => Between P ts i j) (S := fun i _ j => Between P ts i j)
    (fun _ => between_self) Between.trans hstep room need i

/-- **What a parser matches has passed its tests.** -/
theorem MatchesOnly.passes (h : q.MatchesOnly P) (i : Nat) : (q.read ts call i).Only (Passes P ts i) := by
  have rows {qs : List (Parser α)} (ih : ∀ q ∈ qs, q.MatchesOnly P →
      ∀ i, (q.read ts call i).Only (Passes P ts i)) (hqs : AllMatchOnly P qs) :
      ∀ q ∈ qs, ∀ i, (q.read ts call i).Only (Passes P ts i) :=
    fun q hq => ih q hq (allMatchOnly_iff.1 hqs q hq)
  induction q generalizing i with
  | endOfInput =>
    refine .bind fun t _ => ?_
    cases t with
    | none => exact .pure (passes_success between_self)
    | some t => exact .pure passes_failure
  | satisfy name accepts =>
    refine .bind fun t ht => ?_
    cases t with
    | none => exact .pure passes_failure
    | some t =>
      simp only
      split
      next yes =>
        have one : Between P ts i (i + 1) := between_one (Reading.gives_look.1 ht).symm (h t yes)
        exact .bind fun _ _ => .pure (passes_success one)
      next => exact .pure passes_failure
  | token items =>
    refine .bind fun _ _ => ?_
    split
    next here => exact .pure (passes_success (between_items here h))
    next => exact .pure passes_failure
  | result v => exact .pure (passes_success between_self)
  | expected message => exact .pure passes_failure
  | offset => exact .pure (passes_success between_self)
  | jump => exact h.elim
  | map f q ih => exact .bind fun r hr => .pure ((ih h i r hr).mapValue f)
  | named name q ih => exact ih h i
  | group label qs ih =>
    refine .bind fun row hrow => ?_
    cases row with
    | ok row => exact .pure (passes_success (passes_readAll (rows ih h) i _ hrow _ _ rfl))
    | error name => exact .pure passes_failure
  | choice qs ih =>
    refine .bind fun r hr => ?_
    cases r with
    | none => exact .pure passes_failure
    | some r => exact .pure (only_of_readFirst (fun q hq => rows ih h q hq i) _ hr r rfl)
  | many style q ih =>
    refine .bind fun row hrow => ?_
    simp only
    split
    · exact .pure passes_failure
    · exact .pure (passes_success (passes_repeated (ih h) _ _ i row hrow))
  | optional q ih =>
    refine .bind fun r hr => ?_
    cases r with
    | success v j => exact .pure (passes_success (ih h i _ hr v j rfl))
    | failure reason j => exact .pure (passes_success between_self)
  | peek q _ =>
    refine .bind fun r _ => ?_
    cases r with
    | success v j => exact .pure (passes_success between_self)
    | failure reason j => exact .pure passes_failure
  | not q _ =>
    refine .bind fun r _ => ?_
    cases r with
    | success v j => exact .pure passes_failure
    | failure reason j =>
      refine .bind fun t _ => ?_
      cases t with
      | some t => exact .pure (passes_success between_self)
      | none => exact .pure passes_failure
  | bind noted qs k ihs ihk =>
    rw [read]
    refine .bind fun row hrow => ?_
    cases row with
    | error name => exact .pure passes_failure
    | ok row =>
      obtain ⟨values, m⟩ := row
      have before : Between P ts i m := passes_readAll (rows ihs h.1) i _ hrow _ _ rfl
      have behind : ((k values).read ts call m).Only (Passes P ts i) :=
        fun r hr v j hj => before.trans (ihk values (h.2 values) m r hr v j hj)
      cases noted with
      | false => exact behind
      | true => exact .bind fun _ _ => behind
  | observed tag q ih => exact .bind fun r hr => .bind fun _ _ => .pure (ih h i r hr)
  | traced q ih => exact .bind fun r hr => .bind fun _ _ => .pure (ih h i r hr)
  | rule => exact h.elim

/-! ## 4. Readings -/

variable {c : Course α (Outcome α Nat)} {i j : Nat}

/-- **The tokens of a match have the property.** -/
theorem MatchesOnly.between (h : q.MatchesOnly P) {grammar : Grammar α} (hc : Reads grammar ts q i c)
    {v : Value α} (hv : c.answer = .ok (.success v j)) : Between P ts i j := by
  obtain ⟨depth, read⟩ := hc
  exact h.passes i _ ⟨c.events, c.reach, by rw [← hv]; exact read⟩ v j rfl

/-- **A parser that calls no rules ends at every place with an outcome.** -/
theorem MatchesOnly.exists_reads (h : q.MatchesOnly P) (hi : i ≤ ts.length) :
    ∃ c r, Reads #[] ts q i c ∧ c.answer = .ok r := by
  have guarded : Guarded (#[] : Grammar α) := by
    refine guarded_of_rank (fun _ => 0) ?_
    rintro id id' ⟨body, none, -⟩
    simp at none
  have ends : ∃ c, Reads #[] ts q i c ∧ ∀ name, c.answer = .error name → name ∈ ([] : List String) :=
    Parser.exists_reads guarded (by simp) (h.callable #[]) hi
  obtain ⟨c, hc, stops⟩ := ends
  cases hr : c.answer with
  | error name => exact absurd (stops name hr) List.not_mem_nil
  | ok r => exact ⟨c, r, hc, hr⟩

end Parser

end LazyPeg
