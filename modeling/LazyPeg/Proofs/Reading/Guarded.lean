import LazyPeg.Proofs.Reading.Anchored
import Mathlib.Data.Fintype.EquivFin
import Mathlib.Logic.Relation

/-!
# Guarded rules

A rule that comes back to itself before a token was consumed does so for ever.  The rules are guarded if
none of them does: on every way from the body of a rule to a call of that rule, through whatever bodies,
a parser that consumes stands before the call in a row (`Parser.Guarded`).  Then **every parser ends on
every list** (`Parser.exists_reads`).

* §1 says which calls may be made at the place where a parser was started.
* §2 is about the parts of a parser: it ends if the calls do that it makes behind its start, and those
  that it may make at its start.
* §3 is the measure.  It is the number of tokens left, and for calls at one place the order in which the
  rules lead to one another.  The parser around the calls adds nothing to it, not even a repetition: the
  matches of one are no more than the tokens that they consume and the matches that are needed
  (`Parser.Reads.length_of_many`).
-/
namespace LazyPeg

/-! ## 1. Calls at the start -/

namespace Parser

variable {α : Type} [Token α] [DecidableEq α]

/-- A parser cannot succeed without consuming a token, whatever the list and the place. -/
def Consumes (grammar : Grammar α) (q : Parser α) : Prop :=
  ∀ (ts : List α) (i : Nat) (c : Course α (Outcome α Nat)) (v : Value α) (j : Nat),
    i ≤ ts.length → Reads grammar ts q i c → c.answer = .ok (.success v j) → i < j

mutual

/-- A parser may call a rule at the place where it was started: no parser that stands before the call in
a row consumes. -/
def Ahead (grammar : Grammar α) (id : RuleId) : Parser α → Prop
  | map _ q => q.Ahead grammar id
  | named _ q => q.Ahead grammar id
  | group _ qs => AheadInRow grammar id False qs
  | choice qs => AheadInAny grammar id qs
  | many _ q => q.Ahead grammar id
  | optional q => q.Ahead grammar id
  | peek q => q.Ahead grammar id
  | not q => q.Ahead grammar id
  | bind _ qs continuation =>
    AheadInRow grammar id (∃ values, (continuation values).Ahead grammar id) qs
  | observed _ q => q.Ahead grammar id
  | traced q => q.Ahead grammar id
  | rule id' _ => id' = id
  | _ => False

/-- Parsers in a row, and what follows them, may call a rule where the row was started. -/
def AheadInRow (grammar : Grammar α) (id : RuleId) (follows : Prop) : List (Parser α) → Prop
  | [] => follows
  | q :: qs => q.Ahead grammar id ∨ ¬ q.Consumes grammar ∧ AheadInRow grammar id follows qs

/-- One of several parsers may call a rule where it was started. -/
def AheadInAny (grammar : Grammar α) (id : RuleId) : List (Parser α) → Prop
  | [] => False
  | q :: qs => q.Ahead grammar id ∨ AheadInAny grammar id qs

end

/-- The body of a rule may call another rule at the place where it was started. -/
def Leads (grammar : Grammar α) (id id' : RuleId) : Prop :=
  ∃ body, (grammar[id]?).join = some body ∧ body.Ahead grammar id'

/-- No rule comes back to itself before a token was consumed. -/
def Guarded (grammar : Grammar α) : Prop := ∀ id, ¬ Relation.TransGen (Leads grammar) id id

variable {grammar : Grammar α} {id : RuleId}

/-- A test of one token consumes it. -/
theorem consumes_satisfy (grammar : Grammar α) (name : String) (accepts : α → Bool) :
    (satisfy name accepts).Consumes grammar := by
  rintro ts i ⟨answer, events, reach⟩ v j - ⟨depth, hc⟩ rfl
  have moves : (readDepth grammar ts depth (satisfy name accepts) i).Only fun r =>
      ∀ v j, r = .success v j → i < j := by
    refine .bind fun t _ => ?_
    cases t with
    | none => exact .pure nofun
    | some t =>
      simp only
      split
      · refine .bind fun _ _ => .pure fun v j same => ?_
        obtain ⟨-, rfl⟩ := Outcome.success.inj same
        exact Nat.lt_succ_self i
      · exact .pure nofun
  exact moves _ ⟨events, reach, hc⟩ v j rfl

/-- Rules that lead only to rules of a lower rank are guarded. -/
theorem guarded_of_rank (rank : RuleId → Nat)
    (h : ∀ id id', Leads grammar id id' → rank id' < rank id) : Guarded grammar := by
  intro id back
  have lower : ∀ {id id'}, Relation.TransGen (Leads grammar) id id' → rank id' < rank id := by
    intro id id' way
    induction way with
    | single leads => exact h _ _ leads
    | tail _ leads ih => exact Nat.lt_trans (h _ _ leads) ih
  exact Nat.lt_irrefl _ (lower back)

/-- **Induction over guarded rules.**  Of a rule may be shown what its body needs of the rules ahead in
it. -/
theorem Guarded.induction (h : Guarded grammar) {motive : RuleId → Prop}
    (step : ∀ id body, (grammar[id]?).join = some body →
      (∀ id', body.Ahead grammar id' → (grammar[id']?).join ≠ none → motive id') → motive id)
    (hid : (grammar[id]?).join ≠ none) : motive id := by
  have inside {id : RuleId} (hid : (grammar[id]?).join ≠ none) : id < grammar.size := by
    by_contra out
    exact hid (by rw [Array.getElem?_eq_none (Nat.le_of_not_lt out), Option.join_none])
  let below (id id' : Fin grammar.size) : Prop := Relation.TransGen (Leads grammar) id'.1 id.1
  have : IsTrans (Fin grammar.size) below := ⟨fun _ _ _ way way' => way'.trans way⟩
  have : Std.Irrefl below := ⟨fun id => h id.1⟩
  have wf : WellFounded below := Finite.wellFounded_of_trans_of_irrefl below
  suffices ∀ id : Fin grammar.size, (grammar[id.1]?).join ≠ none → motive id.1 from
    this ⟨id, inside hid⟩ hid
  intro id
  induction id using wf.induction with
  | _ id ih =>
    intro hid
    obtain ⟨body, hbody⟩ := Option.ne_none_iff_exists'.1 hid
    exact step id.1 body hbody fun id' ahead hid' =>
      ih ⟨id', inside hid'⟩ (.single ⟨body, hbody, ahead⟩) hid'

end Parser

/-! ## 2. Parts -/

namespace Reading

variable {α β γ : Type} {misused : List String} {ts : List α} {step : Nat → Reading α (Outcome α Nat)}

/-- A reading ends, and it is stopped at the rules of these names only. -/
def Settles (misused : List String) (c : Reading α β) : Prop :=
  ∃ d, c = ended d ∧ ∀ name, d.answer = .error name → name ∈ misused

theorem settles_pure (b : β) : Settles misused (pure b : Reading α β) := ⟨_, rfl, nofun⟩

theorem settles_look (ts : List α) (i : Nat) : Settles misused (look ts i) := ⟨_, rfl, nofun⟩

theorem settles_visit (i : Nat) : Settles misused (visit i : Reading α Unit) := ⟨_, rfl, nofun⟩

theorem settles_note (e : Event α Nat) : Settles misused (note e) := ⟨_, rfl, nofun⟩

theorem settles_undefined {name : String} (h : name ∈ misused) :
    Settles misused (undefined name : Reading α β) :=
  ⟨_, rfl, fun _ same => Except.error.inj same ▸ h⟩

theorem Settles.bind {c : Reading α β} {f : β → Reading α γ} (h : Settles misused c)
    (hf : ∀ b, c.Gives b → Settles misused (f b)) : Settles misused (c >>= f) := by
  obtain ⟨⟨answer, events, reach⟩, rfl, stops⟩ := h
  cases answer with
  | error name => exact ⟨_, rfl, fun _ same => stops _ (congrArg Except.error (Except.error.inj same))⟩
  | ok b =>
    obtain ⟨e, he, stops'⟩ := hf b ⟨events, reach, rfl⟩
    exact ⟨⟨e.answer, events ++ e.events, max reach e.reach⟩, by rw [ok_bind, he], stops'⟩

/-- A repetition settles if its matches do from its start on. -/
theorem settles_repeated (hspan : ∀ j ≤ ts.length, Spans ts j j Outcome.place (step j)) {i : Nat}
    (hstep : ∀ j, i ≤ j → j ≤ ts.length → Settles misused (step j)) (room need : Nat) {j : Nat}
    (hij : i ≤ j) (hj : j ≤ ts.length) : Settles misused (repeated step room need j) := by
  induction room generalizing need j with
  | zero => exact settles_pure _
  | succ room ih =>
    refine (hstep j hij hj).bind fun r hr => ?_
    cases r with
    | failure reason k => exact settles_pure _
    | success v k =>
      have on : j ≤ k := (hspan j hj).le_place hr
      have inside : k ≤ ts.length := (hspan j hj).place_le hj hr
      simp only
      split
      · exact settles_pure _
      · exact (ih (need - 1) (Nat.le_trans hij on) inside).bind fun _ _ => settles_pure _

/-- The matches of a repetition are no more than the places that it moved on and the matches that were
needed, of which it makes at least one. -/
theorem length_of_repeated (hspan : ∀ j ≤ ts.length, Spans ts j j Outcome.place (step j))
    (room need : Nat) {i : Nat} (hi : i ≤ ts.length) :
    (repeated step room need i).Only fun row => row.1.length + i ≤ row.2 + max need 1 := by
  induction room generalizing need i with
  | zero => exact .pure (by simp only [List.length_nil]; omega)
  | succ room ih =>
    refine .bind fun r hr => ?_
    cases r with
    | failure reason j => exact .pure (by simp only [List.length_nil]; omega)
    | success v j =>
      have on : i ≤ j := (hspan i hi).le_place hr
      have inside : j ≤ ts.length := (hspan i hi).place_le hi hr
      simp only
      split
      · exact .pure (by simp only [List.length_singleton]; omega)
      · refine .bind fun row hrow => ?_
        have rest := ih (need - 1) inside row hrow
        exact .pure (by simp only [List.length_cons]; omega)

end Reading

namespace Parser

variable {α : Type} [Token α] [DecidableEq α] {grammar : Grammar α} {ts : List α} {depth i : Nat}
  {misused : List String} {ids follows : RuleId → Prop}

/-- The rules of some numbers, called at a place within a depth, settle if they are defined. -/
def CallsSettle (grammar : Grammar α) (ts : List α) (depth : Nat) (misused : List String)
    (ids : RuleId → Prop) (i : Nat) : Prop :=
  ∀ id name, ids id → (grammar[id]?).join ≠ none →
    (callDepth grammar ts depth id name i).Settles misused

/-- All rules settle behind a place. -/
def SettlesBehind (grammar : Grammar α) (ts : List α) (depth : Nat) (misused : List String)
    (i : Nat) : Prop :=
  ∀ j, i < j → j ≤ ts.length → CallsSettle grammar ts depth misused (fun _ => True) j

/-- A parser settles at a place if the rules do behind the place, and those ahead at the place. -/
def Relies (grammar : Grammar α) (ts : List α) (depth : Nat) (misused : List String)
    (q : Parser α) : Prop :=
  ∀ i ≤ ts.length, SettlesBehind grammar ts depth misused i →
    CallsSettle grammar ts depth misused (fun id => q.Ahead grammar id) i →
    (q.readDepth grammar ts depth i).Settles misused

theorem CallsSettle.mono {ids' : RuleId → Prop} (h : CallsSettle grammar ts depth misused ids i)
    (sub : ∀ id, ids' id → ids id) : CallsSettle grammar ts depth misused ids' i :=
  fun id name hid => h id name (sub id hid)

theorem SettlesBehind.mono {j : Nat} (h : SettlesBehind grammar ts depth misused i) (hij : i ≤ j) :
    SettlesBehind grammar ts depth misused j :=
  fun k hk => h k (Nat.lt_of_le_of_lt hij hk)

/-- Behind a place there is no need to say which rules are ahead. -/
theorem SettlesBehind.calls {j : Nat} (h : SettlesBehind grammar ts depth misused i) (hij : i < j)
    (hj : j ≤ ts.length) : CallsSettle grammar ts depth misused ids j :=
  (h j hij hj).mono fun _ _ => trivial

/-- A parser that relies on the rules behind a place, and on those ahead there, settles from there on. -/
theorem Relies.onward {q : Parser α} (hq : Relies grammar ts depth misused q)
    (behind : SettlesBehind grammar ts depth misused i)
    (ahead : CallsSettle grammar ts depth misused (fun id => q.Ahead grammar id) i) {j : Nat}
    (hij : i ≤ j) (hj : j ≤ ts.length) : (q.readDepth grammar ts depth j).Settles misused := by
  refine hq j hj (behind.mono hij) ?_
  rcases Nat.lt_or_eq_of_le hij with lt | rfl
  · exact behind.calls lt hj
  · exact ahead

/-- A row settles, and so do the rules ahead in what follows, at the place where the row has ended. -/
theorem settles_readAll {qs : List (Parser α)} (hqs : ∀ q ∈ qs, Relies grammar ts depth misused q)
    (hi : i ≤ ts.length) (behind : SettlesBehind grammar ts depth misused i)
    (ahead : CallsSettle grammar ts depth misused (fun id => AheadInRow grammar id (follows id) qs) i) :
    (readAll ts (callDepth grammar ts depth) qs i).Settles misused ∧
      (readAll ts (callDepth grammar ts depth) qs i).Only fun row =>
        ∀ values j, row = .ok (values, j) →
          i ≤ j ∧ j ≤ ts.length ∧ CallsSettle grammar ts depth misused follows j := by
  induction qs generalizing i with
  | nil =>
    refine ⟨Reading.settles_pure _, .pure fun values j same => ?_⟩
    obtain ⟨-, rfl⟩ := Prod.mk.inj (Except.ok.inj same)
    exact ⟨Nat.le_refl i, hi, ahead⟩
  | cons q qs ih =>
    obtain ⟨hq, hqs⟩ := List.forall_mem_cons.1 hqs
    have spans : (q.readDepth grammar ts depth i).Spans ts i i Outcome.place :=
      spans_readDepth depth q hi
    have rest {v : Value α} {j : Nat}
        (hr : (q.readDepth grammar ts depth i).Gives (.success v j)) :=
      ih (i := j) hqs (spans.place_le hi hr) (behind.mono (spans.le_place hr)) <| by
        -- where the first parser has moved on, all rules settle; else it is one that does not consume
        rcases Nat.lt_or_eq_of_le (spans.le_place hr) with lt | stays
        · exact behind.calls lt (spans.place_le hi hr)
        · obtain rfl : i = j := stays
          obtain ⟨events, reach, hc⟩ := hr
          have passes : ¬ q.Consumes grammar := fun consumes =>
            Nat.lt_irrefl i (consumes ts i _ v i hi ⟨depth, hc⟩ rfl)
          exact ahead.mono fun id hid => .inr ⟨passes, hid⟩
    refine ⟨(hq i hi behind (ahead.mono fun id hid => .inl hid)).bind fun r hr => ?_,
      .bind fun r hr => ?_⟩
    · cases r with
      | failure reason j => exact Reading.settles_pure _
      | success v j => exact (rest hr).1.bind fun row _ => by cases row <;> exact Reading.settles_pure _
    · cases r with
      | failure reason j => exact .pure nofun
      | success v j =>
        refine .bind fun row hrow => ?_
        cases row with
        | error name => exact .pure nofun
        | ok row =>
          obtain ⟨on, inside, calls⟩ := (rest hr).2 _ hrow row.1 row.2 rfl
          refine .pure fun values k same => ?_
          obtain ⟨-, rfl⟩ := Prod.mk.inj (Except.ok.inj same)
          exact ⟨Nat.le_trans (spans.le_place hr) on, inside, calls⟩

theorem settles_readFirst {qs : List (Parser α)} (hqs : ∀ q ∈ qs, Relies grammar ts depth misused q)
    (hi : i ≤ ts.length) (behind : SettlesBehind grammar ts depth misused i)
    (ahead : CallsSettle grammar ts depth misused (fun id => AheadInAny grammar id qs) i) :
    (readFirst ts (callDepth grammar ts depth) qs i).Settles misused := by
  induction qs with
  | nil => exact Reading.settles_pure _
  | cons q qs ih =>
    obtain ⟨hq, hqs⟩ := List.forall_mem_cons.1 hqs
    refine (hq i hi behind (ahead.mono fun id hid => .inl hid)).bind fun r _ => ?_
    cases r with
    | failure reason j => exact ih hqs (ahead.mono fun id hid => .inr hid)
    | success v j => exact Reading.settles_pure _

/-- A call is of a rule that is defined, or of one of these names. -/
def Callable (grammar : Grammar α) (misused : List String) : Node → Prop
  | .rule id name => (grammar[id]?).join ≠ none ∨ name ∈ misused
  | _ => True

/-- **A parser needs the rules ahead where it was started, and behind that place all of them.** -/
theorem relies_of_all {q : Parser α} (hq : q.All (Callable grammar misused)) :
    Relies grammar ts depth misused q := by
  induction q with
  | endOfInput =>
    refine fun i _ _ _ => (Reading.settles_look ts i).bind fun t _ => ?_
    cases t <;> exact Reading.settles_pure _
  | satisfy name accepts =>
    refine fun i _ _ _ => (Reading.settles_look ts i).bind fun t _ => ?_
    cases t with
    | none => exact Reading.settles_pure _
    | some t =>
      simp only
      split
      · exact (Reading.settles_visit _).bind fun _ _ => Reading.settles_pure _
      · exact Reading.settles_pure _
  | token items =>
    refine fun i _ _ _ => (Reading.settles_visit _).bind fun _ _ => ?_
    split <;> exact Reading.settles_pure _
  | result value => exact fun i _ _ _ => Reading.settles_pure _
  | expected message => exact fun i _ _ _ => Reading.settles_pure _
  | offset => exact fun i _ _ _ => Reading.settles_pure _
  | jump name origin count verdict =>
    refine fun i _ _ _ => (Reading.settles_visit _).bind fun _ _ => ?_
    cases verdict <;> exact Reading.settles_pure _
  | map f q ih =>
    exact fun i hi behind ahead => (ih hq.2 i hi behind ahead).bind fun _ _ => Reading.settles_pure _
  | named name q ih => exact ih hq.2
  | group label qs ih =>
    intro i hi behind ahead
    have parts q hmem := ih q hmem (allOf_iff.1 hq.2 q hmem)
    refine (settles_readAll parts hi behind ahead).1.bind fun row _ => ?_
    cases row <;> exact Reading.settles_pure _
  | choice qs ih =>
    intro i hi behind ahead
    have parts q hmem := ih q hmem (allOf_iff.1 hq.2 q hmem)
    refine (settles_readFirst parts hi behind ahead).bind fun r _ => ?_
    cases r <;> exact Reading.settles_pure _
  | many style q ih =>
    intro i hi behind ahead
    have rounds := Reading.settles_repeated (fun j hj => spans_readDepth depth q hj)
      (fun j => (ih hq.2).onward behind ahead) style.most style.least (Nat.le_refl i) hi
    refine rounds.bind fun row _ => ?_
    simp only
    split <;> exact Reading.settles_pure _
  | optional q ih =>
    refine fun i hi behind ahead => (ih hq.2 i hi behind ahead).bind fun r _ => ?_
    cases r <;> exact Reading.settles_pure _
  | peek q ih =>
    refine fun i hi behind ahead => (ih hq.2 i hi behind ahead).bind fun r _ => ?_
    cases r <;> exact Reading.settles_pure _
  | not q ih =>
    refine fun i hi behind ahead => (ih hq.2 i hi behind ahead).bind fun r _ => ?_
    cases r with
    | success v j => exact Reading.settles_pure _
    | failure reason j =>
      refine (Reading.settles_look ts i).bind fun t _ => ?_
      cases t <;> exact Reading.settles_pure _
  | bind noted qs k ihs ihk =>
    intro i hi behind ahead
    have parts q hmem := ihs q hmem (allOf_iff.1 hq.2.1 q hmem)
    obtain ⟨row, after⟩ := settles_readAll parts hi behind ahead
    rw [readDepth, read]
    refine row.bind fun row hrow => ?_
    cases row with
    | error name => exact Reading.settles_pure _
    | ok row =>
      obtain ⟨values, j⟩ := row
      obtain ⟨on, inside, calls⟩ := after _ hrow values j rfl
      have goes := ihk values (hq.2.2 values) j inside (behind.mono on) (calls.mono fun _ h => ⟨values, h⟩)
      cases noted with
      | false => exact goes
      | true => exact (Reading.settles_note _).bind fun _ _ => goes
  | observed tag q ih =>
    exact fun i hi behind ahead => (ih hq.2 i hi behind ahead).bind fun _ _ =>
      (Reading.settles_note _).bind fun _ _ => Reading.settles_pure _
  | traced q ih =>
    exact fun i hi behind ahead => (ih hq.2 i hi behind ahead).bind fun _ _ =>
      (Reading.settles_note _).bind fun _ _ => Reading.settles_pure _
  | rule id name =>
    intro i _ _ ahead
    change (callDepth grammar ts depth id name i).Settles misused
    by_cases hid : (grammar[id]?).join = none
    · rw [callDepth_undefined hid]
      exact Reading.settles_undefined (hq.resolve_left fun defined => defined hid)
    · exact ahead id name rfl hid

/-! ## 3. Rules -/

/-- At a depth that is enough every rule settles everywhere. -/
theorem callsSettle_of_guarded (hg : Guarded grammar)
    (bodies : ∀ (id : RuleId) (body : Parser α), (grammar[id]?).join = some body →
      body.All (Callable grammar misused))
    (hdepth : grammar.size * (ts.length + 1) ≤ depth) (hi : i ≤ ts.length) :
    CallsSettle grammar ts depth misused (fun _ => True) i := by
  obtain ⟨left, hleft⟩ : ∃ left, ts.length - i = left := ⟨_, rfl⟩
  induction left using Nat.strong_induction_on generalizing i with
  | _ left fewer =>
    subst hleft
    have behind : SettlesBehind grammar ts depth misused i := fun j hij hj =>
      fewer (ts.length - j) (by omega) hj rfl
    intro id name _ hid
    revert name
    refine hg.induction (motive := fun id => ∀ name, (callDepth grammar ts depth id name i).Settles misused)
      (fun id body hbody below name => ?_) hid
    obtain ⟨c, hc, stops⟩ := relies_of_all (bodies id body hbody) i hi behind
      fun id' name ahead hid' => below id' ahead hid' name
    have reads : Reads grammar ts (.rule id name) i c :=
      ⟨depth + 1, by simpa only [readDepth, read, callDepth, hbody] using hc⟩
    exact ⟨c, (reads_iff_readDepth hdepth _ hi).1 reads, stops⟩

/-- **Where the rules are guarded, every parser ends** at every place of every list.  It is stopped at
rules only that are not defined, and then by a call of one of these names. -/
theorem exists_reads (hg : Guarded grammar)
    (bodies : ∀ (id : RuleId) (body : Parser α), (grammar[id]?).join = some body →
      body.All (Callable grammar misused)) {q : Parser α} (hq : q.All (Callable grammar misused))
    (hi : i ≤ ts.length) :
    ∃ c, Reads grammar ts q i c ∧ ∀ name, c.answer = .error name → name ∈ misused := by
  have everywhere {j : Nat} (hj : j ≤ ts.length) :=
    callsSettle_of_guarded hg bodies (Nat.le_refl (grammar.size * (ts.length + 1))) hj
  obtain ⟨c, hc, stops⟩ := relies_of_all hq i hi (fun j _ hj => everywhere hj)
    ((everywhere hi).mono fun _ _ => trivial)
  exact ⟨c, ⟨_, hc⟩, stops⟩

/-- The matches of a repetition are no more than the tokens that they consume and the matches that are
needed, of which it makes at least one. -/
theorem Reads.length_of_many {style : Repetition} {q : Parser α} {c : Course α (Outcome α Nat)}
    (h : Reads grammar ts (.many style q) i c) (hi : i ≤ ts.length) {v : Value α} {j : Nat}
    (hc : c.answer = .ok (.success v j)) :
    ∃ values, v = .list values ∧ values.length + i ≤ j + max style.least 1 := by
  obtain ⟨depth, read⟩ := h
  obtain ⟨answer, events, reach⟩ := c
  obtain rfl : answer = _ := hc
  have rounds : ((many style q).readDepth grammar ts depth i).Only fun r => ∀ v j, r = .success v j →
      ∃ values, v = .list values ∧ values.length + i ≤ j + max style.least 1 := by
    refine .bind fun row hrow => ?_
    simp only
    split
    · exact .pure nofun
    · refine .pure fun v j same => ?_
      obtain ⟨rfl, rfl⟩ := Outcome.success.inj same
      exact ⟨_, rfl, Reading.length_of_repeated (fun j hj => spans_readDepth depth q hj) _ _ hi row hrow⟩
  exact rounds _ ⟨events, reach, read⟩ v j rfl

end Parser

end LazyPeg
