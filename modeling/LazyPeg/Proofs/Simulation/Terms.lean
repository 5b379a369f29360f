import LazyPeg.Proofs.Simulation.Follows
import Mathlib.Data.List.Forall2

/-!
# Every term follows its reading

The simulation of `Simulation.Follows`, carried through the loops, the rows and the terms
(`Parser.follows_eval`), and from there to bounded depths of calls and to `Parser.parse`, which takes a
depth that is enough (`Parser.parse_of_reads`, `Parser.parse_endless`).
-/
namespace LazyPeg

/-! ## 1. Parsers up to the numbers of their rules -/

/-- The same parser, except for the numbers of the rules that it calls.  Neither of the two jumps into
another sequence. -/
inductive Parser.Alike {α : Type} (rules : RuleId → RuleId → Prop) : Parser α → Parser α → Prop where
  | endOfInput : Alike rules .endOfInput .endOfInput
  | satisfy (name : String) (accepts : α → Bool) :
    Alike rules (.satisfy name accepts) (.satisfy name accepts)
  | token (items : List α) : Alike rules (.token items) (.token items)
  | result (value : Value α) : Alike rules (.result value) (.result value)
  | expected (message : String) : Alike rules (.expected message) (.expected message)
  | offset : Alike rules .offset .offset
  | jump (name : String) (count : Nat) (verdict : Verdict) :
    Alike rules (.jump name none count verdict) (.jump name none count verdict)
  | map {q q' : Parser α} (f : Value α → Value α) (h : Alike rules q q') :
    Alike rules (.map f q) (.map f q')
  | named {q q' : Parser α} (name : String) (h : Alike rules q q') :
    Alike rules (.named name q) (.named name q')
  | group {qs qs' : List (Parser α)} (label : String) (h : List.Forall₂ (Alike rules) qs qs') :
    Alike rules (.group label qs) (.group label qs')
  | choice {qs qs' : List (Parser α)} (h : List.Forall₂ (Alike rules) qs qs') :
    Alike rules (.choice qs) (.choice qs')
  | many {q q' : Parser α} (style : Repetition) (h : Alike rules q q') :
    Alike rules (.many style q) (.many style q')
  | optional {q q' : Parser α} (h : Alike rules q q') : Alike rules (.optional q) (.optional q')
  | peek {q q' : Parser α} (h : Alike rules q q') : Alike rules (.peek q) (.peek q')
  | not {q q' : Parser α} (h : Alike rules q q') : Alike rules (.not q) (.not q')
  | bind {qs qs' : List (Parser α)} {k k' : List (Value α) → Parser α} (noted : Bool)
    (h : List.Forall₂ (Alike rules) qs qs') (hk : ∀ values, Alike rules (k values) (k' values)) :
    Alike rules (.bind noted qs k) (.bind noted qs' k')
  | observed {q q' : Parser α} (tag : Literal) (h : Alike rules q q') :
    Alike rules (.observed tag q) (.observed tag q')
  | traced {q q' : Parser α} (h : Alike rules q q') : Alike rules (.traced q) (.traced q')
  | rule {id id' : RuleId} (name : String) (h : rules id id') :
    Alike rules (.rule id name) (.rule id' name)

namespace Parser

variable {α : Type} {rules : RuleId → RuleId → Prop}

/-- What holds of every pair of a row, given what holds of the members of its first half. -/
theorem forall₂_of_mem {p : Parser α → Prop} {r r' : Parser α → Parser α → Prop}
    {qs qs' : List (Parser α)} (h : List.Forall₂ r qs qs') (hp : ∀ q ∈ qs, p q)
    (hr : ∀ q q', p q → r q q' → r' q q') : List.Forall₂ r' qs qs' :=
  ((List.forall₂_and_left qs qs').2 ⟨hp, h⟩).imp fun q q' hq => hr q q' hq.1 hq.2

theorem names_eq_of_forall₂ [Token α] {qs qs' : List (Parser α)}
    (h : List.Forall₂ (fun q q' => q.name = q'.name) qs qs') : names qs = names qs' := by
  induction h with
  | nil => rfl
  | cons h _ ih => simp only [names, h, ih]

theorem Alike.name_eq [Token α] {q q' : Parser α} (h : Alike rules q q') : q.name = q'.name := by
  have row {qs qs' : List (Parser α)} (h : List.Forall₂ (Alike rules) qs qs')
      (ih : ∀ q ∈ qs, ∀ {q'}, Alike rules q q' → q.name = q'.name) : names qs = names qs' :=
    names_eq_of_forall₂ (forall₂_of_mem h ih fun _ _ ihq hq => ihq hq)
  induction q generalizing q' with
  | map f q ih => cases h with | map _ h => simp only [name, ih h]
  | group label qs ih => cases h with | group _ h => simp only [name, row h ih]
  | choice qs ih => cases h with | choice h => simp only [name, row h ih]
  | many style q ih => cases h with | many _ h => simp only [name, ih h]
  | optional q ih => cases h with | optional h => simp only [name, ih h]
  | peek q ih => cases h with | peek h => simp only [name, ih h]
  | not q ih => cases h with | not h => simp only [name, ih h]
  | bind noted qs k ih _ => cases h with | bind _ h _ => simp only [name, row h ih]
  | observed tag q ih => cases h with | observed _ h => simp only [name, ih h]
  | traced q ih => cases h with | traced h => simp only [name, ih h]
  | _ => cases h; rfl

/-- Rows of like parsers have like names. -/
theorem names_eq_of_alike [Token α] {qs qs' : List (Parser α)}
    (h : List.Forall₂ (Alike rules) qs qs') : names qs = names qs' :=
  names_eq_of_forall₂ (h.imp fun _ _ => Alike.name_eq)

end Parser

/-! ## 2. Loops -/

namespace Parsing

variable {α : Type} {p : Position} {ts : List α} {i : Nat} {w : World α}

/-- The items of a run are looked at one after the other. -/
theorem visit_matched_cons [DecidableEq α] (item : α) (items : List α) (i : Nat) :
    (Reading.visit (i + matched ts (item :: items) i) : Reading α Unit) =
      (do
        if (← Reading.look ts i) = some item then
          Reading.visit (i + 1)
          Reading.visit (i + 1 + matched ts items (i + 1))
        else return ()) := by
  simp only [matched, Reading.look, Reading.ok_bind]
  split
  · simp only [Reading.visit, Reading.ok_bind, List.append_nil, Reading.ended.injEq, Course.mk.injEq,
      true_and]
    omega
  · simp only [Reading.visit, Reading.pure_eq, List.append_nil, Nat.max_zero, Nat.add_zero]

/-- To move to the place where one is needs nothing. -/
theorem follows_stay {γ : Type} {b : γ} {f : Unit → γ} (hw : w.store.Shows p ts i) (hf : f () = b) :
    Follows p f w (pure b) (Reading.visit i) := by
  change (Except.ok b, w) = (Except.ok (f ()), (⟨w.store.forceTo p i, w.events⟩ : World α))
  rw [hf, hw.forceTo_eq_self (Nat.le_refl i)]

theorem follows_matchRun [DecidableEq α] (items : List α) (hw : w.store.Shows p ts i) :
    Follows p (fun _ => if matched ts items i = items.length then some (p.moveTo (i + items.length))
      else none) w (matchRun items (p.moveTo i)) (Reading.visit (i + matched ts items i)) := by
  induction items generalizing i w with
  | nil => exact follows_stay hw rfl
  | cons item items ih =>
    rw [visit_matched_cons]
    refine (follows_head? hw).bind hw (Reading.spans_look hw.le_length) fun t w' ht hi _ => ?_
    replace ht : ts[i]? = t := (Reading.gives_look.1 ht).symm
    simp only [id, matched, ht]
    cases t with
    | none => exact .pure hi (by simp)
    | some t =>
      have inside := (List.getElem?_eq_some_iff.1 ht).1
      by_cases same : t = item
      · simp only [same, if_true]
        refine (follows_tail hi inside).bind hi (Reading.spans_visit (Nat.le_succ i) inside) ?_
        intro _ w'' _ _ next
        have target : i + (items.length + 1) = i + 1 + items.length := by omega
        simp only [List.length_cons, Nat.add_right_cancel_iff, target]
        exact ih next
      · simp only [same, if_false, Option.some.injEq]
        exact .pure hi (by simp)

/-- A loop with the values collected so far in reverse does what the loop of the reading says, which
collects them on the way back. -/
theorem follows_repeatMatch {step : Position → Parsing α (Result α)}
    {step' : Nat → Reading α (Outcome α Nat)}
    (hspan : ∀ i ≤ ts.length, (step' i).Spans ts i i Outcome.place)
    (hstep : ∀ i w, w.store.Shows p ts i →
      Follows p (Outcome.mapPlace p.moveTo) w (step (p.moveTo i)) (step' i))
    (least room collected : Nat) (values : List (Value α)) (hw : w.store.Shows p ts i) :
    Follows p (fun (more, j) => (values.reverse ++ more, p.moveTo j)) w
      (repeatMatch step least room collected values (p.moveTo i))
      (Reading.repeated step' room (least - collected) i) := by
  induction room generalizing collected values i w with
  | zero => exact .pure hw (by simp only [List.append_nil])
  | succ room ih =>
    refine (hstep i w hw).bind hw (hspan i hw.le_length) fun r w' _ hi hj => ?_
    cases r with
    | failure reason j => exact .pure hi (by simp only [List.append_nil])
    | success v j =>
      refine .samePlace_bind hj hi ?_
      have enough : least ≤ collected + 1 ↔ least - collected ≤ 1 := by omega
      simp only [enough, Bool.and_eq_true, decide_eq_true_eq]
      split
      · exact .pure hj (by simp only [List.reverse_cons])
      · have rest := ih (collected + 1) (v :: values) hj
        rw [Nat.sub_add_eq] at rest
        refine Follows.map (fun (more, k) => (v :: more, k)) rest fun _ => ?_
        simp only [List.reverse_cons, List.append_assoc, List.singleton_append]

end Parsing

/-! ## 3. Terms -/

namespace Parser

variable {α : Type} [Token α] [DecidableEq α] {rules : RuleId → RuleId → Prop} {p : Position}
  {ts : List α} {i : Nat} {w : World α}
  {call : RuleId → String → Position → Parsing α (Result α)}
  {call' : RuleId → String → Nat → Reading α (Outcome α Nat)}

/-- A parser in a store does what a parser in a list does. -/
def FollowsRead (p : Position) (ts : List α) (m : Position → Parsing α (Result α))
    (c : Nat → Reading α (Outcome α Nat)) : Prop :=
  ∀ i w, w.store.Shows p ts i → Parsing.Follows p (Outcome.mapPlace p.moveTo) w (m (p.moveTo i)) (c i)

theorem follows_evalAll {qs qs' : List (Parser α)}
    (hspan : ∀ id name, ∀ i ≤ ts.length, (call' id name i).Spans ts i i Outcome.place)
    (h : List.Forall₂ (fun q q' => q.name = q'.name ∧ FollowsRead p ts (q.eval call) (q'.read ts call'))
      qs qs') (hw : w.store.Shows p ts i) :
    Parsing.Follows p (Except.map fun (values, j) => (values, p.moveTo j)) w
      (evalAll call qs (p.moveTo i)) (readAll ts call' qs' i) := by
  induction h generalizing i w with
  | nil => exact .pure hw rfl
  | @cons q q' qs qs' hq _ ih =>
    refine (hq.2 i w hw).bind hw (spans_read hspan q' hw.le_length) fun r w' _ hi hj => ?_
    cases r with
    | failure reason j => exact .pure hi (by rw [hq.1]; rfl)
    | success v j =>
      refine (ih hj).bind hj (spans_readAll (fun q _ _ hi => spans_read hspan q hi) hj.le_length) ?_
      intro row w'' _ hj' _
      rcases row with name | ⟨values, k⟩
      · exact .pure hj' rfl
      · exact .pure hj' rfl

theorem follows_evalFirst {qs qs' : List (Parser α)}
    (hspan : ∀ id name, ∀ i ≤ ts.length, (call' id name i).Spans ts i i Outcome.place)
    (h : List.Forall₂ (fun q q' => q.name = q'.name ∧ FollowsRead p ts (q.eval call) (q'.read ts call'))
      qs qs') (hw : w.store.Shows p ts i) :
    Parsing.Follows p (Option.map (Outcome.mapPlace p.moveTo)) w
      (evalFirst call qs (p.moveTo i)) (readFirst ts call' qs' i) := by
  induction h generalizing w with
  | nil => exact .pure hw rfl
  | @cons q q' qs qs' hq _ ih =>
    refine (hq.2 i w hw).bind hw (spans_read hspan q' hw.le_length) fun r w' _ hi _ => ?_
    cases r with
    | failure reason j => exact ih hi
    | success v j => exact .pure hi rfl

/-- **The simulation.**  A parser in a store does what a like parser does in the list that the
sequence holds. -/
theorem follows_eval
    (hspan : ∀ id name, ∀ i ≤ ts.length, (call' id name i).Spans ts i i Outcome.place)
    (hcall : ∀ id id', rules id id' → ∀ name, FollowsRead p ts (call id name) (call' id' name))
    {q q' : Parser α} (h : Alike rules q q') : FollowsRead p ts (q.eval call) (q'.read ts call') := by
  have rows {qs qs' : List (Parser α)} (h : List.Forall₂ (Alike rules) qs qs')
      (ih : ∀ q ∈ qs, ∀ {q'}, Alike rules q q' → FollowsRead p ts (q.eval call) (q'.read ts call')) :
      List.Forall₂ (fun q q' => q.name = q'.name ∧ FollowsRead p ts (q.eval call) (q'.read ts call'))
        qs qs' :=
    forall₂_of_mem h ih fun _ _ ihq hq => ⟨hq.name_eq, ihq hq⟩
  induction q generalizing q' with
  | endOfInput =>
    cases h
    intro i w hw
    refine (Parsing.follows_head? hw).bind hw (Reading.spans_look hw.le_length) fun t w' _ hi _ => ?_
    cases t <;> exact .pure hi rfl
  | satisfy name accepts =>
    cases h
    intro i w hw
    refine (Parsing.follows_head? hw).bind hw (Reading.spans_look hw.le_length) fun t w' ht hi _ => ?_
    cases t with
    | none => exact .pure hi rfl
    | some t =>
      have inside := (List.getElem?_eq_some_iff.1 (Reading.gives_look.1 ht).symm).1
      simp only [id]
      split
      · refine (Parsing.follows_tail hi inside).bind hi (Reading.spans_visit (Nat.le_succ i) inside) ?_
        exact fun _ w'' _ hi' _ => .pure hi' rfl
      · exact .pure hi rfl
  | token items =>
    cases h
    intro i w hw
    refine (Parsing.follows_matchRun items hw).bind hw
      (Reading.spans_visit (Nat.le_add_right i _) (matched_le items hw.le_length)) ?_
    intro _ w' _ hi _
    by_cases whole : items <+: ts.drop i
    · simp only [matched_eq_length_iff, whole, if_true]
      exact .pure hi rfl
    · simp only [matched_eq_length_iff, whole, if_false]
      exact .pure hi rfl
  | result value =>
    cases h
    exact fun i w hw => .pure hw rfl
  | expected message =>
    cases h
    exact fun i w hw => .pure hw rfl
  | offset =>
    cases h
    intro i w hw
    have here : Medium.offset w.store (p.moveTo i) = i := hw.offset_moveTo
    exact .pure hw (by simp only [Outcome.mapPlace, here])
  | jump name origin count verdict =>
    cases h
    intro i w hw
    have hi := hw.le_length
    rw [eval, Parsing.setOut, pure_bind]
    refine (Parsing.follows_skip count hw).bind hw
      (Reading.spans_visit (by omega) (Nat.min_le_right _ _)) fun _ w' _ hi' _ => ?_
    cases verdict <;> exact .pure hi' rfl
  | map f q ih =>
    cases h with | map _ h => ?_
    intro i w hw
    refine (ih h i w hw).bind hw (spans_read hspan _ hw.le_length) fun r w' _ hi _ => ?_
    exact .pure hi (Outcome.mapPlace_mapValue _ f r)
  | named name q ih =>
    cases h with | named _ h => ?_
    have inner := ih h
    exact inner
  | group label qs ih =>
    cases h with | group _ h => ?_
    intro i w hw
    refine (follows_evalAll hspan (rows h ih) hw).bind hw
      (spans_readAll (fun q _ _ hi => spans_read hspan q hi) hw.le_length) fun row w' _ hi _ => ?_
    rcases row with name | ⟨values, j⟩
    · exact .pure hi rfl
    · exact .pure hi rfl
  | choice qs ih =>
    cases h with | choice h => ?_
    intro i w hw
    refine (follows_evalFirst hspan (rows h ih) hw).bind hw
      (spans_readFirst (fun q _ _ hi => spans_read hspan q hi) (Nat.le_refl i) hw.le_length) ?_
    intro first w' _ hi _
    cases first with
    | some r => exact .pure hi rfl
    | none => exact .pure hi (by rw [names_eq_of_alike h]; rfl)
  | many style q ih =>
    cases h with | @many _ q' _ h => ?_
    intro i w hw
    have hs (i : Nat) (hi : i ≤ ts.length) := spans_read hspan q' hi
    refine (Parsing.follows_repeatMatch hs (ih h) style.least style.most 0 [] hw).bind hw
      (Reading.spans_repeated hs _ _ hw.le_length) ?_
    rintro ⟨values, j⟩ w' _ hi _
    by_cases few : values.length < style.least
    · simp only [List.reverse_nil, List.nil_append, few, if_true]
      exact .pure hi (by rw [h.name_eq]; rfl)
    · simp only [List.reverse_nil, List.nil_append, few, if_false]
      exact .pure hi rfl
  | optional q ih =>
    cases h with | optional h => ?_
    intro i w hw
    refine (ih h i w hw).bind hw (spans_read hspan _ hw.le_length) fun r w' _ hi _ => ?_
    cases r <;> exact .pure hi rfl
  | peek q ih =>
    cases h with | peek h => ?_
    intro i w hw
    refine (ih h i w hw).bind hw (spans_read hspan _ hw.le_length) fun r w' _ hi _ => ?_
    cases r <;> exact .pure hi rfl
  | not q ih =>
    cases h with | not h => ?_
    intro i w hw
    refine (ih h i w hw).bind hw (spans_read hspan _ hw.le_length) fun r w' _ hi _ => ?_
    cases r with
    | success v j => exact .pure hi (by rw [h.name_eq]; rfl)
    | failure reason j =>
      refine (Parsing.follows_head? hi).bind hi (Reading.spans_look hi.le_length) ?_
      intro t w'' _ hi' _
      cases t <;> exact .pure hi' rfl
  | bind noted qs k ihs ihk =>
    cases h with | bind _ h hk => ?_
    intro i w hw
    rw [eval, read]
    refine (follows_evalAll hspan (rows h ihs) hw).bind hw
      (spans_readAll (fun q _ _ hi => spans_read hspan q hi) hw.le_length) fun row w' _ hi hj => ?_
    rcases row with name | ⟨values, j⟩
    · exact .pure hi rfl
    · cases noted with
      | false => exact ihk values (hk values) j w' hj
      | true =>
        refine (Parsing.follows_note hj (.continued values)).bind hj
          (Reading.spans_note _ (Nat.le_refl j) (Nat.le_refl j)) fun _ w'' _ hj' _ => ?_
        exact ihk values (hk values) j w'' hj'
  | observed tag q ih =>
    cases h with | observed _ h => ?_
    intro i w hw
    refine (ih h i w hw).bind hw (spans_read hspan _ hw.le_length) fun r w' _ hi _ => ?_
    refine (Parsing.follows_note hi (.observed tag r)).bind hi
      (Reading.spans_note _ (Nat.le_refl i) (Nat.le_refl i)) fun _ w'' _ hi' _ => ?_
    exact .pure hi' rfl
  | traced q ih =>
    cases h with | traced h => ?_
    intro i w hw
    refine (ih h i w hw).bind hw (spans_read hspan _ hw.le_length) fun r w' _ hi _ => ?_
    rw [h.name_eq]
    refine (Parsing.follows_note hi (.traced _ r)).bind hi
      (Reading.spans_note _ (Nat.le_refl i) (Nat.le_refl i)) fun _ w'' _ hi' _ => ?_
    exact .pure hi' rfl
  | rule id name =>
    cases h with | rule _ h => exact hcall _ _ h name

/-! ## 4. Rules -/

variable {grammar grammar' : Grammar α}

/-- Related rules are both missing or both there, with like bodies. -/
def LikeGrammars (rules : RuleId → RuleId → Prop) (grammar grammar' : Grammar α) : Prop :=
  ∀ id id', rules id id' →
    Option.Rel (Alike rules) (grammar[id]?).join (grammar'[id']?).join

theorem follows_evalDepth (hg : LikeGrammars rules grammar grammar') (depth : Nat) {q q' : Parser α}
    (h : Alike rules q q') :
    FollowsRead p ts (q.evalDepth grammar depth) (q'.readDepth grammar' ts depth) := by
  induction depth generalizing q q' with
  | zero =>
    refine follows_eval (fun id name _ hi => spans_callDepth 0 id name hi) ?_ h
    intro id id' hid name i w hw
    have rel := hg id id' hid
    simp only [callDepth]
    generalize (grammar[id]?).join = body at rel ⊢
    generalize (grammar'[id']?).join = body' at rel ⊢
    cases rel with
    | some _ => rfl
    | none => exact Parsing.follows_undefined hw name
  | succ depth ih =>
    refine follows_eval (fun id name _ hi => spans_callDepth (depth + 1) id name hi) ?_ h
    intro id id' hid name i w hw
    have rel := hg id id' hid
    simp only [callDepth]
    generalize (grammar[id]?).join = body at rel ⊢
    generalize (grammar'[id']?).join = body' at rel ⊢
    cases rel with
    | some hb => exact ih hb i w hw
    | none => exact Parsing.follows_undefined hw name

omit [Token α] [DecidableEq α] in
/-- The depth that a parse takes is enough for the list of its sequence. -/
theorem enoughDepth_of_shows (hw : w.store.Shows p ts i) (hsize : grammar'.size ≤ grammar.size) :
    grammar'.size * (ts.length + 1) ≤ enoughDepth grammar w := by
  have := w.store.length_sequence_lt p
  rw [hw.tokens] at this
  exact Nat.mul_le_mul hsize this

variable {q q' : Parser α}

/-- **A parse comes to what its reading comes to.** -/
theorem parse_of_reads (hg : LikeGrammars rules grammar grammar') (hsize : grammar'.size ≤ grammar.size)
    (h : Alike rules q q') (hw : w.store.Shows p ts i) {c : Course α (Outcome α Nat)}
    (hc : Reads grammar' ts q' i c) :
    (ExceptT.run (q.parse grammar (p.moveTo i))).run w =
      (c.answerWith (Outcome.mapPlace p.moveTo), w.follow p c) := by
  rw [reads_iff_readDepth (enoughDepth_of_shows hw hsize) q' hw.le_length] at hc
  have follows := follows_evalDepth hg (enoughDepth grammar w) h i w hw
  rw [hc] at follows
  exact follows

/-- **A parse is stopped as endless exactly if its reading does not end.** -/
theorem parse_endless (hg : LikeGrammars rules grammar grammar') (h : Alike rules q q')
    (hw : w.store.Shows p ts i) (hc : ∀ c, ¬ Reads grammar' ts q' i c) :
    ((ExceptT.run (q.parse grammar (p.moveTo i))).run w).1 = .error .endless := by
  have follows := follows_evalDepth hg (enoughDepth grammar w) h i w hw
  cases hr : q'.readDepth grammar' ts (enoughDepth grammar w) i with
  | endless =>
    rw [hr] at follows
    exact follows
  | ended c => exact absurd ⟨_, hr⟩ (hc c)

end Parser

end LazyPeg
