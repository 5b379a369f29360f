import LazyPeg.Proofs.Reading.Basic

/-!
# How far a reading goes

A reading never leaves its list and never goes back behind its start: a parser started at an offset
`i` of a list looks at no offset behind the end, and its outcome lies between `i` and the largest
offset it looked at (`Parser.spans_read`).  The statement is carried through the terms by
`Reading.Spans`, which has one lemma for each way of putting readings together.
-/
namespace LazyPeg

namespace Parser

variable {α : Type}

/-- Induction on terms.  Of parsers in a row the motive may be assumed for each of them, of a
continuation for all that it gives. -/
@[elab_as_elim, induction_eliminator]
theorem induction {motive : Parser α → Prop}
    (endOfInput : motive .endOfInput)
    (satisfy : ∀ name accepts, motive (.satisfy name accepts))
    (token : ∀ items, motive (.token items))
    (result : ∀ value, motive (.result value))
    (expected : ∀ message, motive (.expected message))
    (offset : motive .offset)
    (jump : ∀ name origin count verdict, motive (.jump name origin count verdict))
    (map : ∀ f q, motive q → motive (.map f q))
    (named : ∀ name q, motive q → motive (.named name q))
    (group : ∀ label qs, (∀ q ∈ qs, motive q) → motive (.group label qs))
    (choice : ∀ qs, (∀ q ∈ qs, motive q) → motive (.choice qs))
    (many : ∀ style q, motive q → motive (.many style q))
    (optional : ∀ q, motive q → motive (.optional q))
    (peek : ∀ q, motive q → motive (.peek q))
    (not : ∀ q, motive q → motive (.not q))
    (bind : ∀ noted qs k, (∀ q ∈ qs, motive q) → (∀ values, motive (k values)) →
      motive (.bind noted qs k))
    (observed : ∀ tag q, motive q → motive (.observed tag q))
    (traced : ∀ q, motive q → motive (.traced q))
    (rule : ∀ id name, motive (.rule id name)) (q : Parser α) : motive q :=
  Parser.rec (motive_1 := motive) (motive_2 := fun qs => ∀ q ∈ qs, motive q)
    endOfInput satisfy token result expected offset jump map named group choice many optional peek not
    bind observed traced rule (fun _ h => absurd h List.not_mem_nil)
    (fun _ _ hq hqs => List.forall_mem_cons.2 ⟨hq, hqs⟩) q

end Parser

/-! ## 1. Putting readings together -/

namespace Reading

variable {α β γ : Type} {ts : List α}

/-- Wherever a reading that starts at `i`, with the list looked at up to `seen`, ends, it has not left
the list, and its answer has a place between `i` and what was looked at then. -/
def Spans (ts : List α) (i seen : Nat) (place : β → Nat) (c : Reading α β) : Prop :=
  ∀ d, c = ended d → d.reach ≤ ts.length ∧
    ∀ b, d.answer = .ok b → i ≤ place b ∧ place b ≤ max seen d.reach

theorem Spans.weaken {i j seen seen' : Nat} {place : β → Nat} {c : Reading α β}
    (h : Spans ts j seen place c) (hi : i ≤ j) (hs : seen ≤ seen') : Spans ts i seen' place c := by
  intro d hd
  obtain ⟨hr, hp⟩ := h d hd
  refine ⟨hr, fun b hb => ?_⟩
  have := hp b hb
  omega

theorem Spans.pure {i seen : Nat} {place : β → Nat} {b : β} (hi : i ≤ place b) (hs : place b ≤ seen) :
    Spans ts i seen place (pure b : Reading α β) := by
  intro d hd
  obtain rfl := Reading.ended.inj hd
  refine ⟨Nat.zero_le _, fun b' hb => ?_⟩
  obtain rfl := Except.ok.inj hb
  exact ⟨hi, Nat.le_trans hs (Nat.le_max_left _ _)⟩

theorem spans_look {i seen : Nat} (hi : i ≤ ts.length) : Spans ts i seen (fun _ => i) (look ts i) := by
  intro d hd
  obtain rfl := Reading.ended.inj hd
  exact ⟨hi, fun _ _ => ⟨Nat.le_refl i, Nat.le_max_right _ _⟩⟩

theorem spans_visit {i j seen : Nat} (hi : i ≤ j) (hj : j ≤ ts.length) :
    Spans ts i seen (fun _ => j) (visit j : Reading α Unit) := by
  intro d hd
  obtain rfl := Reading.ended.inj hd
  exact ⟨hj, fun _ _ => ⟨hi, Nat.le_max_right _ _⟩⟩

theorem spans_note {i j seen : Nat} (e : Event α Nat) (hi : i ≤ j) (hj : j ≤ seen) :
    Spans ts i seen (fun _ => j) (note e) := by
  intro d hd
  obtain rfl := Reading.ended.inj hd
  exact ⟨Nat.zero_le _, fun _ _ => ⟨hi, Nat.le_trans hj (Nat.le_max_left _ _)⟩⟩

theorem spans_undefined (name : String) (i seen : Nat) (place : β → Nat) :
    Spans ts i seen place (undefined name) := by
  intro d hd
  obtain rfl := Reading.ended.inj hd
  exact ⟨Nat.zero_le _, fun b hb => absurd hb (by simp)⟩

/-- The second part starts where the first one has ended, with all looked at that the first part
looked at. -/
theorem Spans.bind {i seen : Nat} {place : β → Nat} {place' : γ → Nat} {c : Reading α β}
    {f : β → Reading α γ} (h : Spans ts i seen place c) (hs : seen ≤ ts.length)
    (hf : ∀ b seen', c.Gives b → i ≤ place b → place b ≤ seen' → seen ≤ seen' → seen' ≤ ts.length →
      Spans ts i seen' place' (f b)) : Spans ts i seen place' (c >>= f) := by
  intro d hd
  rcases bind_eq_ended hd with ⟨name, hc, ha⟩ | ⟨b, events, reach, e, hc, he, rfl⟩
  · exact ⟨(h _ hc).1, fun b hb => absurd (ha.symm.trans hb) (by simp)⟩
  · obtain ⟨hr, hp⟩ := h _ hc
    obtain ⟨hlow, hhigh⟩ := hp b rfl
    obtain ⟨hr', hp'⟩ := hf b (max seen reach) ⟨_, _, hc⟩ hlow hhigh (Nat.le_max_left _ _)
      (Nat.max_le.2 ⟨hs, hr⟩) e he
    refine ⟨Nat.max_le.2 ⟨hr, hr'⟩, fun b' hb => ?_⟩
    have := hp' b' hb
    simp only
    omega

end Reading

/-! ## 2. Loops and rows -/

/-- Where the answer of parsers in a row stands: behind the last of them, or at the start. -/
def rowPlace {α ε : Type} (i : Nat) : Except ε (List (Value α) × Nat) → Nat
  | .ok (_, j) => j
  | .error _ => i

/-- Where the answer of a choice stands: where the alternative has ended, or at the start. -/
def choicePlace {α : Type} (i : Nat) : Option (Outcome α Nat) → Nat
  | some r => r.place
  | none => i

section Rows

variable {α : Type} [DecidableEq α] {ts : List α}

theorem matched_le (items : List α) {i : Nat} (hi : i ≤ ts.length) :
    i + matched ts items i ≤ ts.length := by
  induction items generalizing i with
  | nil => exact hi
  | cons item items ih =>
    simp only [matched]
    split
    · rename_i h
      have := ih (i := i + 1) (List.getElem?_eq_some_iff.1 h).1
      omega
    · exact hi

/-- All items match exactly where they stand in the list. -/
theorem matched_eq_length_iff (items : List α) (i : Nat) :
    matched ts items i = items.length ↔ items <+: ts.drop i := by
  induction items generalizing i with
  | nil => simp [matched]
  | cons item items ih =>
    simp only [matched]
    split
    · rename_i h
      obtain ⟨hi, rfl⟩ := List.getElem?_eq_some_iff.1 h
      rw [List.drop_eq_getElem_cons hi, List.prefix_cons_inj, ← ih]
      simp
    · rename_i h
      refine ⟨fun h0 => absurd h0 (by simp), fun ⟨rest, hrest⟩ => absurd ?_ h⟩
      have first : (ts.drop i)[0]? = some item := by rw [← hrest]; rfl
      rwa [List.getElem?_drop, Nat.add_zero] at first

omit [DecidableEq α] in
theorem Reading.spans_repeated {step : Nat → Reading α (Outcome α Nat)}
    (hstep : ∀ i ≤ ts.length, Spans ts i i Outcome.place (step i)) (room need : Nat) {i : Nat}
    (hi : i ≤ ts.length) : Spans ts i i Prod.snd (repeated step room need i) := by
  induction room generalizing need i with
  | zero => exact .pure (Nat.le_refl i) (Nat.le_refl i)
  | succ room ih =>
    refine (hstep i hi).bind hi fun r seen _ hlow hhigh hs hl => ?_
    cases r with
    | failure reason j => exact .pure (Nat.le_refl i) hs
    | success v j =>
      simp only
      split
      · exact .pure hlow hhigh
      · refine ((ih (need - 1) (Nat.le_trans hhigh hl)).weaken hlow hhigh).bind hl ?_
        rintro ⟨values, k⟩ seen' _ hlow' hhigh' _ _
        exact .pure hlow' hhigh'

end Rows

/-! ## 3. Terms -/

namespace Parser

variable {α : Type} [Token α] [DecidableEq α] {ts : List α}
  {call : RuleId → String → Nat → Reading α (Outcome α Nat)}

theorem spans_readAll {qs : List (Parser α)}
    (hqs : ∀ q ∈ qs, ∀ i ≤ ts.length, (q.read ts call i).Spans ts i i Outcome.place) {i : Nat}
    (hi : i ≤ ts.length) : (readAll ts call qs i).Spans ts i i (rowPlace i) := by
  induction qs generalizing i with
  | nil => exact .pure (Nat.le_refl i) (Nat.le_refl i)
  | cons q qs ih =>
    obtain ⟨hq, hqs⟩ := List.forall_mem_cons.1 hqs
    refine (hq i hi).bind hi fun r seen _ hlow hhigh hs hl => ?_
    cases r with
    | failure reason j => exact .pure (Nat.le_refl i) hs
    | success v j =>
      refine ((ih hqs (Nat.le_trans hhigh hl)).weaken hlow hhigh).bind hl ?_
      intro row seen' _ hlow' hhigh' hs' _
      rcases row with name | ⟨values, k⟩
      · exact .pure (Nat.le_refl i) (Nat.le_trans hs hs')
      · exact .pure hlow' hhigh'

theorem spans_readFirst {qs : List (Parser α)}
    (hqs : ∀ q ∈ qs, ∀ i ≤ ts.length, (q.read ts call i).Spans ts i i Outcome.place) {i seen : Nat}
    (hi : i ≤ seen) (hs : seen ≤ ts.length) :
    (readFirst ts call qs i).Spans ts i seen (choicePlace i) := by
  induction qs generalizing seen with
  | nil => exact .pure (Nat.le_refl i) hi
  | cons q qs ih =>
    obtain ⟨hq, hqs⟩ := List.forall_mem_cons.1 hqs
    refine ((hq i (Nat.le_trans hi hs)).weaken (Nat.le_refl i) hi).bind hs ?_
    intro r seen' _ hlow hhigh hs' hl
    cases r with
    | failure reason j => exact ih hqs (Nat.le_trans hi hs') hl
    | success v j => exact .pure hlow hhigh

/-- **A parser stays in its list.**  Its outcome stands neither before its start nor behind what it
looked at, and it looks at no offset behind the end. -/
theorem spans_read (hcall : ∀ id name, ∀ i ≤ ts.length, (call id name i).Spans ts i i Outcome.place)
    (q : Parser α) {i : Nat} (hi : i ≤ ts.length) : (q.read ts call i).Spans ts i i Outcome.place := by
  induction q generalizing i with
  | endOfInput =>
    refine (Reading.spans_look hi).bind hi fun t seen ht _ hhigh _ _ => ?_
    cases t <;> exact .pure (Nat.le_refl i) hhigh
  | satisfy name accepts =>
    refine (Reading.spans_look hi).bind hi fun t seen ht _ hhigh hs hl => ?_
    obtain rfl := Reading.gives_look.1 ht
    split
    · exact .pure (Nat.le_refl i) hhigh
    · rename_i t ht
      split
      · refine (Reading.spans_visit (Nat.le_succ i) (List.getElem?_eq_some_iff.1 ht).1).bind hl ?_
        exact fun _ seen' _ hlow hhigh' _ _ => .pure hlow hhigh'
      · exact .pure (Nat.le_refl i) hhigh
  | token items =>
    refine (Reading.spans_visit (Nat.le_add_right i _) (matched_le items hi)).bind hi ?_
    intro _ seen _ hlow hhigh hs _
    split
    · rename_i h
      rw [(matched_eq_length_iff items i).2 h] at hhigh
      exact .pure (Nat.le_add_right i _) hhigh
    · exact .pure (Nat.le_refl i) hs
  | result value => exact .pure (Nat.le_refl i) (Nat.le_refl i)
  | expected message => exact .pure (Nat.le_refl i) (Nat.le_refl i)
  | offset => exact .pure (Nat.le_refl i) (Nat.le_refl i)
  | jump name origin count verdict =>
    refine (Reading.spans_visit (by omega) (Nat.min_le_right _ _)).bind hi ?_
    intro _ seen _ hlow hhigh _ _
    cases verdict <;> exact .pure hlow hhigh
  | map f q ih =>
    refine (ih hi).bind hi fun r seen _ hlow hhigh _ _ => ?_
    exact .pure (by simpa using hlow) (by simpa using hhigh)
  | named name q ih => exact ih hi
  | group label qs ih =>
    refine (spans_readAll (fun q hq i hi => ih q hq hi) hi).bind hi ?_
    intro row seen _ hlow hhigh hs _
    rcases row with name | ⟨values, j⟩
    · exact .pure (Nat.le_refl i) hs
    · exact .pure hlow hhigh
  | choice qs ih =>
    refine (spans_readFirst (fun q hq i hi => ih q hq hi) (Nat.le_refl i) hi).bind hi ?_
    intro first seen _ hlow hhigh hs _
    cases first with
    | some r => exact .pure hlow hhigh
    | none => exact .pure (Nat.le_refl i) hs
  | many style q ih =>
    refine (Reading.spans_repeated (fun i hi => ih hi) _ _ hi).bind hi ?_
    rintro ⟨values, j⟩ seen _ hlow hhigh hs _
    simp only
    split
    · exact .pure (Nat.le_refl i) hs
    · exact .pure hlow hhigh
  | optional q ih =>
    refine (ih hi).bind hi fun r seen _ hlow hhigh hs _ => ?_
    cases r with
    | success v j => exact .pure hlow hhigh
    | failure reason j => exact .pure (Nat.le_refl i) hs
  | peek q ih =>
    refine (ih hi).bind hi fun r seen _ hlow hhigh hs _ => ?_
    cases r with
    | success v j => exact .pure (Nat.le_refl i) hs
    | failure reason j => exact .pure hlow hhigh
  | not q ih =>
    refine (ih hi).bind hi fun r seen _ hlow hhigh hs hl => ?_
    cases r with
    | success v j => exact .pure (Nat.le_refl i) hs
    | failure reason j =>
      refine (Reading.spans_look hi).bind hl fun t seen' _ _ hhigh' _ _ => ?_
      cases t <;> exact .pure (Nat.le_refl i) hhigh'
  | bind noted qs k ihs ihk =>
    rw [read]
    refine (spans_readAll (fun q hq i hi => ihs q hq hi) hi).bind hi ?_
    intro row seen _ hlow hhigh hs hl
    rcases row with name | ⟨values, j⟩
    · exact .pure (Nat.le_refl i) hs
    · cases noted with
      | false => exact (ihk values (Nat.le_trans hhigh hl)).weaken hlow hhigh
      | true =>
        refine (Reading.spans_note _ hlow hhigh).bind hl fun _ seen' _ hlow' hhigh' _ hl' => ?_
        exact (ihk values (Nat.le_trans hhigh' hl')).weaken hlow' hhigh'
  | observed tag q ih =>
    refine (ih hi).bind hi fun r seen _ hlow hhigh hs hl => ?_
    exact (Reading.spans_note _ hlow hhigh).bind hl fun _ seen' _ hlow' hhigh' _ _ => .pure hlow' hhigh'
  | traced q ih =>
    refine (ih hi).bind hi fun r seen _ hlow hhigh hs hl => ?_
    exact (Reading.spans_note _ hlow hhigh).bind hl fun _ seen' _ hlow' hhigh' _ _ => .pure hlow' hhigh'
  | rule id name => exact hcall id name i hi

end Parser

end LazyPeg
