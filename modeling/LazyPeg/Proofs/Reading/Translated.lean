import LazyPeg.Proofs.Reading.Nodes
import LazyPeg.Proofs.Simulation.Follows

/-!
# Readings of a rest

The tokens from some place on are a list of their own, and a parser that never asks for its offset cannot
tell whether it reads this list from the start or the whole list from that place: **its courses over the
rest are its courses over the whole, with every place moved back by the same number**
(`Parser.Reads.onward`, `Parser.Reads.exists_rest`).  The one decision that compares places is that of a
repetition, whether a match has moved, and it compares two places that are moved alike.
-/
namespace LazyPeg

/-! ## 1. Places farther on -/

namespace Reading

variable {α β γ : Type} {k : Nat} {f : β → β} {g : γ → γ}

/-- The second reading comes to what the first one comes to, with all places `k` farther on; `f` says what
this means for the answer.  How far they look is left open. -/
inductive Onward (k : Nat) (f : β → β) : Reading α β → Reading α β → Prop where
  | endless : Onward k f .endless .endless
  | ended (answer : Except String β) (events : List (Event α Nat)) (reach reach' : Nat) :
    Onward k f (.ended ⟨answer, events, reach⟩)
      (.ended ⟨answer.map f, events.map (Event.mapPlace (k + ·)), reach'⟩)

theorem Onward.pure {b b' : β} (h : f b = b') :
    Onward k f (pure b : Reading α β) (pure b') := by
  obtain rfl := h
  exact .ended (.ok b) [] 0 0

theorem onward_look {ts : List α} {i : Nat} : Onward k id (look (ts.drop k) i) (look ts (k + i)) := by
  rw [look, look, ← List.getElem?_drop]
  exact .ended _ [] _ _

theorem onward_visit (i j : Nat) : Onward k id (visit i : Reading α Unit) (visit j) :=
  .ended (.ok ()) [] _ _

theorem onward_note (e : Event α Nat) : Onward k id (note e) (note (e.mapPlace (k + ·))) :=
  .ended (.ok ()) [e] 0 0

theorem onward_undefined (name : String) :
    Onward k f (undefined name : Reading α β) (undefined name) :=
  .ended (.error name) [] 0 0

/-- Each part of a reading is moved alike. -/
theorem Onward.bind {c c' : Reading α β} {h h' : β → Reading α γ} (hc : Onward k f c c')
    (hh : ∀ b, Onward k g (h b) (h' (f b))) : Onward k g (c >>= h) (c' >>= h') := by
  cases hc with
  | endless => exact .endless
  | ended answer events reach reach' =>
    cases answer with
    | error name => exact .ended (.error name) events reach reach'
    | ok b =>
      have second := hh b
      have first : (Except.ok b : Except String β).map f = .ok (f b) := rfl
      rw [first, ok_bind, ok_bind]
      generalize h b = d at second
      generalize h' (f b) = d' at second
      cases second with
      | endless => exact .endless
      | ended answer events' =>
        simp only [← List.map_append]
        exact .ended answer (events ++ events') _ _

/-! ## 2. Loops and rows -/

/-- The values of a loop with the place behind them farther on. -/
def loopOnward (k : Nat) (row : List (Value α) × Nat) : List (Value α) × Nat := (row.1, k + row.2)

/-- A loop stops in both lists, because a match has moved nowhere in one of them exactly if it has moved
nowhere in the other. -/
theorem onward_repeated {step step' : Nat → Reading α (Outcome α Nat)}
    (hstep : ∀ i, Onward k (Outcome.mapPlace (k + ·)) (step i) (step' (k + i))) (room need i : Nat) :
    Onward k (loopOnward k) (repeated step room need i) (repeated step' room need (k + i)) := by
  induction room generalizing need i with
  | zero => exact .pure rfl
  | succ room ih =>
    refine (hstep i).bind fun r => ?_
    cases r with
    | failure reason j => exact .pure rfl
    | success v j =>
      simp only [Outcome.mapPlace, Nat.add_left_cancel_iff]
      split
      · exact .pure rfl
      · exact (ih (need - 1) j).bind fun row => .pure rfl

end Reading

/-- A course with all places farther on, and with another reach. -/
def Course.onward {α : Type} (k : Nat) (c : Course α (Outcome α Nat)) (reach : Nat) :
    Course α (Outcome α Nat) :=
  ⟨c.answer.map (Outcome.mapPlace (k + ·)), c.events.map (Event.mapPlace (k + ·)), reach⟩

/-! ## 3. Terms -/

namespace Parser

open Reading

variable {α : Type} [Token α] [DecidableEq α] {ts : List α} {k i : Nat}
  {call call' : RuleId → String → Nat → Reading α (Outcome α Nat)} {qs : List (Parser α)}

theorem onward_readAll
    (hqs : ∀ q ∈ qs, ∀ i, Onward k (Outcome.mapPlace (k + ·)) (q.read (ts.drop k) call i)
      (q.read ts call' (k + i))) (i : Nat) :
    Onward k (Except.map (loopOnward k)) (readAll (ts.drop k) call qs i)
      (readAll ts call' qs (k + i)) := by
  induction qs generalizing i with
  | nil => exact .pure rfl
  | cons q qs ih =>
    obtain ⟨hq, hqs⟩ := List.forall_mem_cons.1 hqs
    refine (hq i).bind fun r => ?_
    cases r with
    | failure reason j => exact .pure rfl
    | success v j =>
      refine (ih hqs j).bind fun row => ?_
      rcases row with name | row
      · exact .pure rfl
      · exact .pure rfl

theorem onward_readFirst
    (hqs : ∀ q ∈ qs, ∀ i, Onward k (Outcome.mapPlace (k + ·)) (q.read (ts.drop k) call i)
      (q.read ts call' (k + i))) (i : Nat) :
    Onward k (Option.map (Outcome.mapPlace (k + ·))) (readFirst (ts.drop k) call qs i)
      (readFirst ts call' qs (k + i)) := by
  induction qs with
  | nil => exact .pure rfl
  | cons q qs ih =>
    obtain ⟨hq, hqs⟩ := List.forall_mem_cons.1 hqs
    refine (hq i).bind fun r => ?_
    cases r with
    | failure reason j => exact ih hqs
    | success v j => exact .pure rfl

/-- **A parser that does not ask for its offset reads the rest of a list as it reads the list from
there on**, if rules do. -/
theorem onward_read (hk : k ≤ ts.length)
    (hcall : ∀ id name i,
      Onward k (Outcome.mapPlace (k + ·)) (call id name i) (call' id name (k + i)))
    {q : Parser α} (hq : q.All (· ≠ .offset)) (i : Nat) :
    Onward k (Outcome.mapPlace (k + ·)) (q.read (ts.drop k) call i) (q.read ts call' (k + i)) := by
  have rows {qs : List (Parser α)} (hqs : AllOf (· ≠ .offset) qs) (ih : ∀ q ∈ qs, q.All (· ≠ .offset) →
      ∀ i, Onward k (Outcome.mapPlace (k + ·)) (q.read (ts.drop k) call i) (q.read ts call' (k + i))) :
      ∀ q ∈ qs, ∀ i, Onward k (Outcome.mapPlace (k + ·)) (q.read (ts.drop k) call i)
        (q.read ts call' (k + i)) :=
    fun q hq => ih q hq (allOf_iff.1 hqs q hq)
  induction q generalizing i with
  | endOfInput =>
    refine onward_look.bind fun t => ?_
    cases t <;> exact .pure rfl
  | satisfy name accepts =>
    refine onward_look.bind fun t => ?_
    cases t with
    | none => exact .pure rfl
    | some t =>
      simp only [id]
      split
      · exact (onward_visit _ _).bind fun _ => .pure rfl
      · exact .pure rfl
  | token items =>
    refine (onward_visit _ _).bind fun _ => ?_
    rw [List.drop_drop]
    split
    · refine .pure ?_
      rw [Outcome.mapPlace, Nat.add_assoc]
    · exact .pure rfl
  | result v => exact .pure rfl
  | expected message => exact .pure rfl
  | offset => exact absurd rfl hq
  | jump name origin count verdict =>
    have ends : min (k + i + count) ts.length = k + min (i + count) (ts.drop k).length := by
      rw [List.length_drop]
      omega
    simp only [read, ends]
    refine (onward_visit _ _).bind fun _ => ?_
    cases verdict <;> exact .pure rfl
  | map f q ih => exact (ih hq.2 i).bind fun r => .pure (Outcome.mapPlace_mapValue _ f r)
  | named name q ih => exact ih hq.2 i
  | group label qs ih =>
    refine (onward_readAll (rows hq.2 ih) i).bind fun row => ?_
    rcases row with name | row <;> exact .pure rfl
  | choice qs ih =>
    refine (onward_readFirst (rows hq.2 ih) i).bind fun r => ?_
    cases r <;> exact .pure rfl
  | many style q ih =>
    refine (onward_repeated (ih hq.2) _ _ i).bind fun row => ?_
    by_cases few : row.1.length < style.least
    · simp only [loopOnward, few, if_true]
      exact .pure rfl
    · simp only [loopOnward, few, if_false]
      exact .pure rfl
  | optional q ih =>
    refine (ih hq.2 i).bind fun r => ?_
    cases r <;> exact .pure rfl
  | peek q ih =>
    refine (ih hq.2 i).bind fun r => ?_
    cases r <;> exact .pure rfl
  | not q ih =>
    refine (ih hq.2 i).bind fun r => ?_
    cases r with
    | success v j => exact .pure rfl
    | failure reason j =>
      refine onward_look.bind fun t => ?_
      cases t <;> exact .pure rfl
  | bind noted qs continuation ihs ihk =>
    rw [read, read]
    refine (onward_readAll (rows hq.2.1 ihs) i).bind fun row => ?_
    rcases row with name | ⟨values, j⟩
    · exact .pure rfl
    · cases noted with
      | false => exact ihk values (hq.2.2 values) j
      | true => exact (onward_note _).bind fun _ => ihk values (hq.2.2 values) j
  | observed tag q ih => exact (ih hq.2 i).bind fun r => (onward_note _).bind fun _ => .pure rfl
  | traced q ih => exact (ih hq.2 i).bind fun r => (onward_note _).bind fun _ => .pure rfl
  | rule id name => exact hcall id name i

/-! ## 4. Rules -/

variable {grammar : Grammar α} {q : Parser α}

theorem onward_callDepth (hk : k ≤ ts.length)
    (hg : ∀ (id : RuleId) (body : Parser α), (grammar[id]?).join = some body → body.All (· ≠ .offset))
    (depth : Nat) (id : RuleId) (name : String) (i : Nat) :
    Onward k (Outcome.mapPlace (k + ·)) (callDepth grammar (ts.drop k) depth id name i)
      (callDepth grammar ts depth id name (k + i)) := by
  induction depth generalizing id name i with
  | zero =>
    unfold callDepth
    split
    · exact .endless
    · exact onward_undefined name
  | succ depth ih =>
    unfold callDepth
    split
    next body hbody => exact onward_read hk ih (hg id body hbody) i
    next => exact onward_undefined name

theorem onward_readDepth (hk : k ≤ ts.length)
    (hg : ∀ (id : RuleId) (body : Parser α), (grammar[id]?).join = some body → body.All (· ≠ .offset))
    (hq : q.All (· ≠ .offset)) (depth i : Nat) :
    Onward k (Outcome.mapPlace (k + ·)) (q.readDepth grammar (ts.drop k) depth i)
      (q.readDepth grammar ts depth (k + i)) :=
  onward_read hk (onward_callDepth hk hg depth) hq i

/-- A course over the rest of a list is found again in the whole list. -/
theorem Reads.onward {c : Course α (Outcome α Nat)} (h : Reads grammar (ts.drop k) q i c)
    (hk : k ≤ ts.length)
    (hg : ∀ (id : RuleId) (body : Parser α), (grammar[id]?).join = some body → body.All (· ≠ .offset))
    (hq : q.All (· ≠ .offset)) : ∃ reach, Reads grammar ts q (k + i) (c.onward k reach) := by
  obtain ⟨depth, read⟩ := h
  have moved := onward_readDepth hk hg hq depth i
  rw [read] at moved
  generalize whole : q.readDepth grammar ts depth (k + i) = c' at moved
  cases moved with
  | ended answer events reach reach' => exact ⟨reach', depth, whole⟩

/-- Every course in the whole list is one of those. -/
theorem Reads.exists_rest {c' : Course α (Outcome α Nat)} (h : Reads grammar ts q (k + i) c')
    (hk : k ≤ ts.length)
    (hg : ∀ (id : RuleId) (body : Parser α), (grammar[id]?).join = some body → body.All (· ≠ .offset))
    (hq : q.All (· ≠ .offset)) : ∃ c, Reads grammar (ts.drop k) q i c := by
  obtain ⟨depth, read⟩ := h
  have moved := onward_readDepth hk hg hq depth i
  rw [read] at moved
  generalize rest : q.readDepth grammar (ts.drop k) depth i = c at moved
  cases moved with
  | ended answer events reach reach' => exact ⟨_, depth, rest⟩

end Parser

end LazyPeg
