import LazyPeg.Proofs.Reading.Bounds
import Mathlib.Data.Finset.Card
import Mathlib.Data.Finset.Prod

/-!
# What a reading depends on

Two readings of one parser are the same if the lists show the same tokens as far as the first reading
looks, and the second may nest the calls of rules at least as deep (`Parser.carries_readDepth`).  So a
course is the only one of its parser, list and offset (`Parser.Reads.unique`), and no token that a
reading has not looked at has a say in it (`Parser.Reads.carry`).

A depth of the number of rules times the number of places is always enough
(`Parser.reads_iff_readDepth`).  The argument is a count: the calls that end within a depth are a set
of pairs of a rule and a place which grows with the depth, and once it stops growing it has stopped
for good, because the next depth then does the same as this one.
-/
namespace LazyPeg

/-! ## 1. Carrying a course over -/

namespace Reading

variable {α β γ : Type} {ts ts' : List α}

/-- If the first reading ends, and the lists show the same tokens as far as it looks, then the second
one ends alike. -/
def CarriesOver (ts ts' : List α) (c c' : Reading α β) : Prop :=
  ∀ d, c = ended d → (∀ o ≤ d.reach, ts[o]? = ts'[o]?) → c' = ended d

theorem CarriesOver.refl (c : Reading α β) : CarriesOver ts ts' c c := fun _ hd _ => hd

theorem le_reach_of_visit {j : Nat} {f : Unit → Reading α β} {d : Course α β}
    (h : (visit j >>= f) = ended d) : j ≤ d.reach := by
  rcases bind_eq_ended h with ⟨name, hc, -⟩ | ⟨_, events, reach, e, hc, -, rfl⟩
  · exact absurd hc (by simp [visit])
  · simp only [visit, ended.injEq, Course.mk.injEq] at hc
    exact hc.2.2 ▸ Nat.le_max_left _ _

theorem carries_look (i : Nat) : CarriesOver ts ts' (look ts i) (look ts' i) := by
  intro d hd hts
  obtain rfl := Reading.ended.inj hd
  rw [look, ← hts i (Nat.le_refl i)]

theorem CarriesOver.bind {c c' : Reading α β} {f f' : β → Reading α γ} (h : CarriesOver ts ts' c c')
    (hf : ∀ b, c.Gives b → CarriesOver ts ts' (f b) (f' b)) :
    CarriesOver ts ts' (c >>= f) (c' >>= f') := by
  intro d hd hts
  rcases bind_eq_ended hd with ⟨name, hc, ha⟩ | ⟨b, events, reach, e, hc, he, rfl⟩
  · obtain ⟨answer, events, reach⟩ := d
    obtain rfl : answer = .error name := ha
    rw [h _ hc hts, error_bind]
  · have hc' := h _ hc fun o ho => hts o (Nat.le_trans ho (Nat.le_max_left _ _))
    have he' := hf b ⟨_, _, hc⟩ e he fun o ho => hts o (Nat.le_trans ho (Nat.le_max_right _ _))
    rw [hc', ok_bind, he']

theorem Spans.place_le {i : Nat} {place : β → Nat} {c : Reading α β} {b : β}
    (h : Spans ts i i place c) (hi : i ≤ ts.length) (hb : c.Gives b) : place b ≤ ts.length := by
  obtain ⟨events, reach, hc⟩ := hb
  obtain ⟨hr, hp⟩ := h _ hc
  exact Nat.le_trans (hp b rfl).2 (Nat.max_le.2 ⟨hi, hr⟩)

theorem Spans.le_place {i : Nat} {place : β → Nat} {c : Reading α β} {b : β}
    (h : Spans ts i i place c) (hb : c.Gives b) : i ≤ place b := by
  obtain ⟨events, reach, hc⟩ := hb
  exact ((h _ hc).2 b rfl).1

theorem carries_repeated {step step' : Nat → Reading α (Outcome α Nat)}
    (hspan : ∀ i ≤ ts.length, Spans ts i i Outcome.place (step i))
    (hstep : ∀ i ≤ ts.length, CarriesOver ts ts' (step i) (step' i)) (room need : Nat) {i : Nat}
    (hi : i ≤ ts.length) :
    CarriesOver ts ts' (repeated step room need i) (repeated step' room need i) := by
  induction room generalizing need i with
  | zero => exact .refl _
  | succ room ih =>
    refine (hstep i hi).bind fun r hr => ?_
    cases r with
    | failure reason j => exact .refl _
    | success v j =>
      simp only
      split
      · exact .refl _
      · exact (ih (need - 1) ((hspan i hi).place_le hi hr)).bind fun _ _ => .refl _

end Reading

/-! ## 2. Terms -/

section Tokens

variable {α : Type} {ts ts' : List α}

/-- Lists that show the same up to the end of one of them end there both. -/
theorem min_length_eq_of_agree {k : Nat} (h : ∀ o ≤ min k ts.length, ts[o]? = ts'[o]?) :
    min k ts'.length = min k ts.length := by
  have last := h _ (Nat.le_refl _)
  rcases Nat.lt_or_ge k ts.length with hk | hk
  · rw [Nat.min_eq_left (Nat.le_of_lt hk), List.getElem?_eq_getElem hk] at last
    have := (List.getElem?_eq_some_iff.1 last.symm).1
    omega
  · rw [Nat.min_eq_right hk, List.getElem?_eq_none (Nat.le_refl _)] at last
    have hle := List.getElem?_eq_none_iff.1 last.symm
    rcases Nat.eq_zero_or_pos ts.length with h0 | h0
    · omega
    · have before := h (ts.length - 1) (by omega)
      rw [List.getElem?_eq_getElem (by omega)] at before
      have := (List.getElem?_eq_some_iff.1 before.symm).1
      omega

variable [DecidableEq α]

theorem matched_eq_of_agree (items : List α) {i : Nat}
    (h : ∀ o ≤ i + matched ts items i, ts[o]? = ts'[o]?) : matched ts' items i = matched ts items i := by
  induction items generalizing i with
  | nil => rfl
  | cons item items ih =>
    have here := h i (Nat.le_add_right i _)
    simp only [matched] at h ⊢
    rw [← here]
    split
    · rename_i ht
      rw [if_pos ht] at h
      rw [ih fun o ho => h o (by omega)]
    · rfl

end Tokens

namespace Parser

variable {α : Type} [Token α] [DecidableEq α] {ts ts' : List α}
  {call call' : RuleId → String → Nat → Reading α (Outcome α Nat)}

theorem carries_readAll {qs : List (Parser α)}
    (hspan : ∀ q ∈ qs, ∀ i ≤ ts.length, (q.read ts call i).Spans ts i i Outcome.place)
    (hqs : ∀ q ∈ qs, ∀ i ≤ ts.length, (q.read ts call i).CarriesOver ts ts' (q.read ts' call' i))
    {i : Nat} (hi : i ≤ ts.length) :
    (readAll ts call qs i).CarriesOver ts ts' (readAll ts' call' qs i) := by
  induction qs generalizing i with
  | nil => exact .refl _
  | cons q qs ih =>
    obtain ⟨hs, hspan⟩ := List.forall_mem_cons.1 hspan
    obtain ⟨hq, hqs⟩ := List.forall_mem_cons.1 hqs
    refine (hq i hi).bind fun r hr => ?_
    cases r with
    | failure reason j => exact .refl _
    | success v j => exact (ih hspan hqs ((hs i hi).place_le hi hr)).bind fun _ _ => .refl _

theorem carries_readFirst {qs : List (Parser α)} {i : Nat}
    (hqs : ∀ q ∈ qs, (q.read ts call i).CarriesOver ts ts' (q.read ts' call' i)) :
    (readFirst ts call qs i).CarriesOver ts ts' (readFirst ts' call' qs i) := by
  induction qs with
  | nil => exact .refl _
  | cons q qs ih =>
    obtain ⟨hq, hqs⟩ := List.forall_mem_cons.1 hqs
    refine hq.bind fun r hr => ?_
    cases r with
    | failure reason j => exact ih hqs
    | success v j => exact .refl _

/-- **Readings depend on what they look at only.** -/
theorem carries_read
    (hspan : ∀ id name, ∀ i ≤ ts.length, (call id name i).Spans ts i i Outcome.place)
    (hcall : ∀ id name, ∀ i ≤ ts.length, (call id name i).CarriesOver ts ts' (call' id name i))
    (q : Parser α) {i : Nat} (hi : i ≤ ts.length) :
    (q.read ts call i).CarriesOver ts ts' (q.read ts' call' i) := by
  induction q generalizing i with
  | endOfInput => exact (Reading.carries_look i).bind fun _ _ => .refl _
  | satisfy name accepts => exact (Reading.carries_look i).bind fun _ _ => .refl _
  | token items =>
    intro d hd hts
    have hreach := Reading.le_reach_of_visit hd
    have hm := matched_eq_of_agree items fun o ho => hts o (Nat.le_trans ho hreach)
    simp only [read, ← matched_eq_length_iff] at hd ⊢
    rwa [hm]
  | result value => exact .refl _
  | expected message => exact .refl _
  | offset => exact .refl _
  | jump name origin count verdict =>
    intro d hd hts
    have hreach := Reading.le_reach_of_visit hd
    simp only [read] at hd ⊢
    rwa [min_length_eq_of_agree fun o ho => hts o (Nat.le_trans ho hreach)]
  | map f q ih => exact (ih hi).bind fun _ _ => .refl _
  | named name q ih => exact ih hi
  | group label qs ih =>
    refine (carries_readAll (fun q _ i hi => spans_read hspan q hi) (fun q hq i hi => ih q hq hi) hi).bind ?_
    exact fun _ _ => .refl _
  | choice qs ih => exact (carries_readFirst fun q hq => ih q hq hi).bind fun _ _ => .refl _
  | many style q ih =>
    refine (Reading.carries_repeated (fun i hi => spans_read hspan q hi) (fun i hi => ih hi) _ _ hi).bind ?_
    exact fun _ _ => .refl _
  | optional q ih => exact (ih hi).bind fun _ _ => .refl _
  | peek q ih => exact (ih hi).bind fun _ _ => .refl _
  | not q ih =>
    refine (ih hi).bind fun r _ => ?_
    cases r with
    | success v j => exact .refl _
    | failure reason j => exact (Reading.carries_look i).bind fun _ _ => .refl _
  | bind noted qs k ihs ihk =>
    rw [read, read]
    refine (carries_readAll (fun q _ i hi => spans_read hspan q hi) (fun q hq i hi => ihs q hq hi) hi).bind ?_
    intro row hgives
    rcases row with name | ⟨values, j⟩
    · exact .refl _
    · have hj : j ≤ ts.length :=
        (spans_readAll (fun q _ i hi => spans_read hspan q hi) hi).place_le hi hgives
      cases noted with
      | false => exact ihk values hj
      | true => exact (Reading.CarriesOver.refl _).bind fun _ _ => ihk values hj
  | observed tag q ih => exact (ih hi).bind fun _ _ => .refl _
  | traced q ih => exact (ih hi).bind fun _ _ => .refl _
  | rule id name => exact hcall id name i hi

/-! ## 3. Depths -/

variable {grammar : Grammar α}

theorem spans_callDepth (depth : Nat) (id : RuleId) (name : String) {i : Nat} (hi : i ≤ ts.length) :
    (callDepth grammar ts depth id name i).Spans ts i i Outcome.place := by
  induction depth generalizing id name i with
  | zero =>
    rw [callDepth]
    split
    · exact fun d hd => absurd hd (by simp)
    · exact Reading.spans_undefined _ _ _ _
  | succ depth ih =>
    rw [callDepth]
    split
    · rename_i body _
      exact spans_read (fun id name _ hi => ih id name hi) body hi
    · exact Reading.spans_undefined _ _ _ _

theorem spans_readDepth (depth : Nat) (q : Parser α) {i : Nat} (hi : i ≤ ts.length) :
    (q.readDepth grammar ts depth i).Spans ts i i Outcome.place :=
  spans_read (fun id name _ hi => spans_callDepth depth id name hi) q hi

theorem carries_callDepth {depth depth' : Nat} (h : depth ≤ depth') (id : RuleId) (name : String)
    {i : Nat} (hi : i ≤ ts.length) :
    (callDepth grammar ts depth id name i).CarriesOver ts ts' (callDepth grammar ts' depth' id name i) := by
  induction depth generalizing depth' id name i with
  | zero =>
    intro d hd _
    cases hrule : (grammar[id]?).join with
    | some body => simp [callDepth, hrule] at hd
    | none =>
      have : callDepth grammar ts' depth' id name i = .undefined name := by
        cases depth' <;> simp [callDepth, hrule]
      simpa [this, callDepth, hrule] using hd
  | succ depth ih =>
    obtain ⟨depth', rfl⟩ := Nat.exists_eq_add_one_of_ne_zero (Nat.ne_zero_of_lt h)
    simp only [callDepth]
    split
    · rename_i body _
      exact carries_read (fun id name i hi => spans_callDepth depth id name hi)
        (fun id name i hi => ih (Nat.le_of_succ_le_succ h) id name hi) body hi
    · exact .refl _

/-- **A deeper reading of a list that shows the same tokens ends alike.** -/
theorem carries_readDepth {depth depth' : Nat} (h : depth ≤ depth') (q : Parser α) {i : Nat}
    (hi : i ≤ ts.length) :
    (q.readDepth grammar ts depth i).CarriesOver ts ts' (q.readDepth grammar ts' depth' i) :=
  carries_read (fun id name _ hi => spans_callDepth depth id name hi)
    (fun id name _ hi => carries_callDepth h id name hi) q hi

/-! ## 4. A depth that is enough -/

theorem callDepth_undefined {id : RuleId} (h : (grammar[id]?).join = none) (depth : Nat) (name : String)
    (i : Nat) : callDepth grammar ts depth id name i = .undefined name := by
  cases depth <;> simp [callDepth, h]

/-- A call of a defined rule does not depend on the name that it is called by. -/
theorem callDepth_name {id : RuleId} (h : (grammar[id]?).join ≠ none) (depth : Nat)
    (name name' : String) (i : Nat) :
    callDepth grammar ts depth id name i = callDepth grammar ts depth id name' i := by
  obtain ⟨body, hbody⟩ := Option.ne_none_iff_exists'.1 h
  cases depth <;> simp [callDepth, hbody]

/-- The calls of defined rules, each with its place, that end within a depth. -/
noncomputable def settled (grammar : Grammar α) (ts : List α) (depth : Nat) : Finset (RuleId × Nat) :=
  open Classical in
  (Finset.range grammar.size ×ˢ Finset.range (ts.length + 1)).filter fun call =>
    (grammar[call.1]?).join ≠ none ∧ ∃ name c, callDepth grammar ts depth call.1 name call.2 = .ended c

theorem mem_settled {depth : Nat} {id : RuleId} {i : Nat} :
    (id, i) ∈ settled grammar ts depth ↔ i ≤ ts.length ∧ (grammar[id]?).join ≠ none ∧
      ∃ name c, callDepth grammar ts depth id name i = .ended c := by
  simp only [settled, Finset.mem_filter, Finset.mem_product, Finset.mem_range, Nat.lt_succ_iff]
  refine ⟨fun ⟨⟨_, hi⟩, h⟩ => ⟨hi, h⟩, fun ⟨hi, h⟩ => ⟨⟨?_, hi⟩, h⟩⟩
  by_contra out
  exact h.1 (by rw [Array.getElem?_eq_none (Nat.le_of_not_lt out), Option.join_none])

theorem settled_subset_succ (grammar : Grammar α) (ts : List α) (depth : Nat) :
    settled grammar ts depth ⊆ settled grammar ts (depth + 1) := by
  rintro ⟨id, i⟩ h
  obtain ⟨hi, hrule, name, c, hc⟩ := mem_settled.1 h
  exact mem_settled.2
    ⟨hi, hrule, name, c, carries_callDepth (Nat.le_succ depth) id name hi c hc fun _ _ => rfl⟩

theorem card_settled_le (grammar : Grammar α) (ts : List α) (depth : Nat) :
    (settled grammar ts depth).card ≤ grammar.size * (ts.length + 1) := by
  classical
  refine (Finset.card_filter_le _ _).trans_eq ?_
  rw [Finset.card_product, Finset.card_range, Finset.card_range]

/-- A chain of sets of at most `n` elements stands still somewhere in its first `n` steps. -/
theorem exists_standstill {β : Type} {s : Nat → Finset β} {n : Nat} (hs : ∀ k, s k ⊆ s (k + 1))
    (hn : ∀ k, (s k).card ≤ n) : ∃ k ≤ n, s (k + 1) ⊆ s k := by
  by_contra! moving
  have grows : ∀ k ≤ n + 1, k ≤ (s k).card := by
    intro k
    induction k with
    | zero => exact fun _ => Nat.zero_le _
    | succ k ih =>
      intro hk
      have := Finset.card_lt_card ((hs k).ssubset_of_not_subset (moving k (by omega)))
      have := ih (by omega)
      omega
  have := grows (n + 1) (Nat.le_refl _)
  have := hn (n + 1)
  omega

/-- Where no further call ends one level deeper, no further call ends at any depth. -/
theorem callDepth_of_standstill {k : Nat} (h : settled grammar ts (k + 1) ⊆ settled grammar ts k)
    (depth : Nat) (id : RuleId) (name : String) {i : Nat} (hi : i ≤ ts.length) :
    (callDepth grammar ts depth id name i).CarriesOver ts ts (callDepth grammar ts k id name i) := by
  induction depth generalizing id name i with
  | zero => exact carries_callDepth (Nat.zero_le k) id name hi
  | succ depth ih =>
    intro c hc _
    cases hrule : (grammar[id]?).join with
    | none => rwa [callDepth_undefined hrule] at hc ⊢
    | some body =>
      have defined : (grammar[id]?).join ≠ none := by simp [hrule]
      -- One level below the call does by hypothesis what it does at `k`, so it ends at `k + 1`.
      have deeper : callDepth grammar ts (k + 1) id name i = .ended c := by
        simp only [callDepth, hrule] at hc ⊢
        exact carries_read (fun id name _ hi => spans_callDepth depth id name hi)
          (fun id name _ hi => ih id name hi) body hi c hc fun _ _ => rfl
      obtain ⟨-, -, name', c', hc'⟩ := mem_settled.1 (h (mem_settled.2 ⟨hi, defined, name, c, deeper⟩))
      rw [callDepth_name defined k name' name] at hc'
      have same := carries_callDepth (Nat.le_succ k) id name hi c' hc' fun _ _ => rfl
      rw [hc', ← deeper, same]

/-- **As many levels as there are pairs of a rule and a place are enough.** -/
theorem reads_iff_readDepth {depth : Nat} (h : grammar.size * (ts.length + 1) ≤ depth) (q : Parser α)
    {i : Nat} (hi : i ≤ ts.length) {c : Course α (Outcome α Nat)} :
    Reads grammar ts q i c ↔ q.readDepth grammar ts depth i = .ended c := by
  refine ⟨fun ⟨depth', hc⟩ => ?_, fun hc => ⟨depth, hc⟩⟩
  obtain ⟨k, hk, still⟩ :=
    exists_standstill (settled_subset_succ grammar ts) (card_settled_le grammar ts)
  have atK : q.readDepth grammar ts k i = .ended c :=
    carries_read (fun id name _ hi => spans_callDepth depth' id name hi)
      (fun id name _ hi => callDepth_of_standstill still depth' id name hi) q hi c hc fun _ _ => rfl
  exact carries_readDepth (Nat.le_trans hk h) q hi c atK fun _ _ => rfl

/-! ## 5. Courses -/

namespace Reads

variable {q : Parser α} {i : Nat} {c c' : Course α (Outcome α Nat)}

/-- A parser has one course at each offset of a list. -/
theorem unique (h : Reads grammar ts q i c) (h' : Reads grammar ts q i c') (hi : i ≤ ts.length) :
    c = c' := by
  rw [reads_iff_readDepth (Nat.le_refl _) q hi] at h h'
  exact Reading.ended.inj (h.symm.trans h')

/-- **No token that was not looked at has a say.**  In a list that shows the same tokens as far as a
course reaches, the parser has the same course. -/
theorem carry (h : Reads grammar ts q i c) (hi : i ≤ ts.length)
    (hts : ∀ o ≤ c.reach, ts[o]? = ts'[o]?) : Reads grammar ts' q i c := by
  obtain ⟨depth, hc⟩ := h
  exact ⟨depth, carries_readDepth (Nat.le_refl depth) q hi c hc hts⟩

theorem reach_le (h : Reads grammar ts q i c) (hi : i ≤ ts.length) : c.reach ≤ ts.length := by
  obtain ⟨depth, hc⟩ := h
  exact (spans_readDepth depth q hi c hc).1

/-- The outcome lies between the start and what was looked at. -/
theorem place_mem (h : Reads grammar ts q i c) (hi : i ≤ ts.length) {r : Outcome α Nat}
    (hr : c.answer = .ok r) : i ≤ r.place ∧ r.place ≤ max i c.reach := by
  obtain ⟨depth, hc⟩ := h
  exact (spans_readDepth depth q hi c hc).2 r hr

end Reads

end Parser

end LazyPeg
