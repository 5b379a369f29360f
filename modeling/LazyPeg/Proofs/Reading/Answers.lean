import LazyPeg.Parser.Derived
import LazyPeg.Proofs.Reading.Basic

/-!
# What a parser answers

Of a reading only the answer matters here: `Parser.Takes` says that a parser matches from one offset
to another with a value, `Parser.Refuses` that it fails.  Each way of putting parsers together has a
lemma for its match and, where it can fail, one for its failure.  Events and reaches are left out.

* §1 puts answers of readings together.
* §2 has the single tokens and the changes of a value.
* §3 has rows (`TakesRow`), choices and options.
* §4 has repetitions: `TakesMany` is a row of matches of one parser each of which moves on, and
  `takes_many` says where the loop ends.
-/
namespace LazyPeg

/-! ## 1. Answers -/

namespace Reading

variable {α β γ : Type} {c : Reading α β} {b : β}

theorem gives_pure (b : β) : (pure b : Reading α β).Gives b := ⟨[], 0, rfl⟩

theorem Gives.bind {f : β → Reading α γ} {d : γ} (h : c.Gives b) (h' : (f b).Gives d) :
    (c >>= f).Gives d :=
  gives_bind.2 ⟨b, h, h'⟩

theorem gives_pure_iff {b' : β} : (pure b : Reading α β).Gives b' ↔ b' = b := by
  constructor
  · rintro ⟨events, reach, same⟩
    exact (Except.ok.inj (Course.mk.inj (ended.inj same)).1).symm
  · rintro rfl
    exact gives_pure b'

theorem gives_look_getElem? (ts : List α) (i : Nat) : (look ts i).Gives ts[i]? := gives_look.2 rfl

theorem gives_visit (i : Nat) : (visit i : Reading α Unit).Gives () := ⟨[], i, rfl⟩

theorem gives_note (e : Event α Nat) : (note e).Gives () := ⟨[e], 0, rfl⟩

end Reading

namespace Parser

variable {α : Type} [Token α] [DecidableEq α]

/-- A parser matches from `i` to `j` with a value. -/
def Takes (ts : List α) (call : RuleId → String → Nat → Reading α (Outcome α Nat)) (q : Parser α)
    (i : Nat) (v : Value α) (j : Nat) : Prop :=
  (q.read ts call i).Gives (.success v j)

/-- A parser fails at `i`. -/
def Refuses (ts : List α) (call : RuleId → String → Nat → Reading α (Outcome α Nat)) (q : Parser α)
    (i : Nat) : Prop :=
  ∃ reason place, (q.read ts call i).Gives (.failure reason place)

variable {ts : List α} {call : RuleId → String → Nat → Reading α (Outcome α Nat)}
  {q : Parser α} {qs : List (Parser α)} {i j k : Nat} {v : Value α} {vs : List (Value α)}

/-! ## 2. Tokens and values -/

theorem takes_satisfy {name : String} {accepts : α → Bool} {t : α} (ht : ts[i]? = some t)
    (ha : accepts t) : (satisfy name accepts).Takes ts call i (.token t) (i + 1) := by
  refine (Reading.gives_look_getElem? ts i).bind ?_
  simp only [ht, ha, if_true]
  exact (Reading.gives_visit (i + 1)).bind (Reading.gives_pure _)

theorem refuses_satisfy {name : String} {accepts : α → Bool}
    (h : ∀ t, ts[i]? = some t → accepts t = false) : (satisfy name accepts).Refuses ts call i := by
  cases ht : ts[i]? with
  | none =>
    refine ⟨.endOfInput, i, (Reading.gives_look_getElem? ts i).bind ?_⟩
    simp only [ht]
    exact Reading.gives_pure _
  | some t =>
    refine ⟨.unsatisfied name, i, (Reading.gives_look_getElem? ts i).bind ?_⟩
    simp only [ht, h t ht, Bool.false_eq_true, if_false]
    exact Reading.gives_pure _

theorem takes_eq {t : α} (ht : ts[i]? = some t) : (eq t).Takes ts call i (.token t) (i + 1) :=
  takes_satisfy ht (beq_self_eq_true t)

theorem refuses_eq {t : α} (ht : ts[i]? ≠ some t) : (eq t).Refuses ts call i := by
  refine refuses_satisfy fun u hu => beq_false_of_ne ?_
  rintro rfl
  exact ht hu

theorem takes_result (v : Value α) (i : Nat) : (result v).Takes ts call i v i := Reading.gives_pure _

theorem Takes.map (f : Value α → Value α) (h : q.Takes ts call i v j) :
    (map f q).Takes ts call i (f v) j :=
  Reading.Gives.bind h (Reading.gives_pure _)

theorem Refuses.map (f : Value α → Value α) (h : q.Refuses ts call i) :
    (map f q).Refuses ts call i := by
  obtain ⟨reason, place, hr⟩ := h
  exact ⟨reason, place, Reading.Gives.bind hr (Reading.gives_pure _)⟩

theorem Takes.named (name : String) (h : q.Takes ts call i v j) :
    (named name q).Takes ts call i v j := h

/-! ## 3. Rows, choices and options -/

/-- Parsers match one after the other. -/
inductive TakesRow (ts : List α) (call : RuleId → String → Nat → Reading α (Outcome α Nat)) :
    List (Parser α) → Nat → List (Value α) → Nat → Prop where
  | nil (i : Nat) : TakesRow ts call [] i [] i
  | cons {q : Parser α} {qs : List (Parser α)} {v : Value α} {vs : List (Value α)} {i j k : Nat}
    (h : q.Takes ts call i v j) (rest : TakesRow ts call qs j vs k) :
    TakesRow ts call (q :: qs) i (v :: vs) k

theorem TakesRow.gives (h : TakesRow ts call qs i vs j) :
    (readAll ts call qs i).Gives (.ok (vs, j)) := by
  induction h with
  | nil i => exact Reading.gives_pure _
  | cons h _ ih => exact Reading.Gives.bind h (ih.bind (Reading.gives_pure _))

theorem TakesRow.group (label : String) (h : TakesRow ts call qs i vs j) :
    (group label qs).Takes ts call i (.tuple vs) j :=
  h.gives.bind (Reading.gives_pure _)

theorem TakesRow.bind (noted : Bool) {continuation : List (Value α) → Parser α}
    (h : TakesRow ts call qs i vs j) (h' : (continuation vs).Takes ts call j v k) :
    (bind noted qs continuation).Takes ts call i v k := by
  unfold Takes
  rw [read]
  refine h.gives.bind ?_
  cases noted with
  | false => exact h'
  | true => exact (Reading.gives_note _).bind h'

/-- A row fails where its first parser fails, and names it. -/
theorem Refuses.gives_group (label : String) (qs : List (Parser α)) (h : q.Refuses ts call i) :
    ((group label (q :: qs)).read ts call i).Gives (.failure (.missing q.name) i) := by
  obtain ⟨reason, place, hr⟩ := h
  exact Reading.Gives.bind (Reading.Gives.bind hr (Reading.gives_pure _)) (Reading.gives_pure _)

theorem Refuses.group (label : String) (qs : List (Parser α)) (h : q.Refuses ts call i) :
    (group label (q :: qs)).Refuses ts call i :=
  ⟨_, _, h.gives_group label qs⟩

/-- A row of two fails where the second parser fails behind the first. -/
theorem Takes.group_refuses (label : String) {p : Parser α} (h : p.Takes ts call i v j)
    (hq : q.Refuses ts call j) : (group label [p, q]).Refuses ts call i := by
  obtain ⟨reason, place, hr⟩ := hq
  have second : (readAll ts call [q] j).Gives (.error q.name) :=
    Reading.Gives.bind hr (Reading.gives_pure _)
  exact ⟨.missing q.name, i,
    Reading.Gives.bind (Reading.Gives.bind h (second.bind (Reading.gives_pure _)))
      (Reading.gives_pure _)⟩

/-- What a row of two answers comes from its parts. -/
theorem gives_group_pair {label : String} {p : Parser α} {r : Outcome α Nat}
    (h : ((group label [p, q]).read ts call i).Gives r) :
    ((p.Refuses ts call i ∨ ∃ v j, p.Takes ts call i v j ∧ q.Refuses ts call j) ∧
        ∃ reason, r = .failure reason i) ∨
      ∃ v j w k, p.Takes ts call i v j ∧ q.Takes ts call j w k ∧ r = .success (.tuple [v, w]) k := by
  obtain ⟨row, hrow, h⟩ := Reading.gives_bind.1 h
  obtain ⟨first, hfirst, hrow⟩ := Reading.gives_bind.1 hrow
  cases first with
  | failure reason place =>
    obtain rfl := Reading.gives_pure_iff.1 hrow
    exact .inl ⟨.inl ⟨reason, place, hfirst⟩, _, Reading.gives_pure_iff.1 h⟩
  | success v j =>
    obtain ⟨rest, hrest, hrow⟩ := Reading.gives_bind.1 hrow
    obtain ⟨second, hsecond, hrest⟩ := Reading.gives_bind.1 hrest
    cases second with
    | failure reason place =>
      obtain rfl := Reading.gives_pure_iff.1 hrest
      obtain rfl := Reading.gives_pure_iff.1 hrow
      exact .inl ⟨.inr ⟨v, j, hfirst, reason, place, hsecond⟩, _, Reading.gives_pure_iff.1 h⟩
    | success w k =>
      obtain ⟨none, hnone, hrest⟩ := Reading.gives_bind.1 hrest
      obtain rfl := Reading.gives_pure_iff.1 hnone
      obtain rfl := Reading.gives_pure_iff.1 hrest
      obtain rfl := Reading.gives_pure_iff.1 hrow
      exact .inr ⟨v, j, w, k, hfirst, hsecond, Reading.gives_pure_iff.1 h⟩

/-! ### The last of two -/

theorem Takes.seq {p : Parser α} {w : Value α} (h : p.Takes ts call i v j) (hq : q.Takes ts call j w k) :
    (seq [p, q]).Takes ts call i w k :=
  ((TakesRow.cons h (.cons hq (.nil _))).group "seq").map lastItem

theorem Refuses.seq (qs : List (Parser α)) (h : q.Refuses ts call i) : (seq (q :: qs)).Refuses ts call i :=
  (h.group "seq" qs).map lastItem

theorem Takes.seq_refuses {p : Parser α} (h : p.Takes ts call i v j) (hq : q.Refuses ts call j) :
    (Parser.seq [p, q]).Refuses ts call i :=
  (h.group_refuses "seq" hq).map lastItem

/-- What two parsers in a row answer comes from both of them. -/
theorem gives_seq_pair {p : Parser α} {r : Outcome α Nat} (h : ((seq [p, q]).read ts call i).Gives r) :
    ((p.Refuses ts call i ∨ ∃ v j, p.Takes ts call i v j ∧ q.Refuses ts call j) ∧
        ∃ reason, r = .failure reason i) ∨
      ∃ v j w k, p.Takes ts call i v j ∧ q.Takes ts call j w k ∧ r = .success w k := by
  obtain ⟨r', hr', h⟩ := Reading.gives_bind.1 h
  obtain rfl := Reading.gives_pure_iff.1 h
  rcases gives_group_pair hr' with ⟨parts, reason, rfl⟩ | ⟨v, j, w, k, first, second, rfl⟩
  · exact .inl ⟨parts, reason, rfl⟩
  · exact .inr ⟨v, j, w, k, first, second, rfl⟩

/-! ### Choices and options -/

theorem gives_readFirst_none (h : ∀ q ∈ qs, q.Refuses ts call i) :
    (readFirst ts call qs i).Gives none := by
  induction qs with
  | nil => exact Reading.gives_pure _
  | cons q qs ih =>
    obtain ⟨⟨reason, place, hr⟩, rest⟩ := List.forall_mem_cons.1 h
    exact Reading.Gives.bind hr (ih rest)

/-- A choice fails where all alternatives fail. -/
theorem refuses_choice (h : ∀ q ∈ qs, q.Refuses ts call i) : (choice qs).Refuses ts call i :=
  ⟨.noneOf (names qs), i, (gives_readFirst_none h).bind (Reading.gives_pure _)⟩

/-- A choice matches as the first alternative that does not fail. -/
theorem takes_choice (before : List (Parser α)) {after : List (Parser α)} (hb : ∀ p ∈ before, p.Refuses ts call i)
    (h : q.Takes ts call i v j) : (choice (before ++ q :: after)).Takes ts call i v j := by
  have first : (readFirst ts call (before ++ q :: after) i).Gives (some (.success v j)) := by
    induction before with
    | nil => exact Reading.Gives.bind h (Reading.gives_pure _)
    | cons p before ih =>
      obtain ⟨⟨reason, place, hr⟩, rest⟩ := List.forall_mem_cons.1 hb
      exact Reading.Gives.bind hr (ih rest)
  exact first.bind (Reading.gives_pure _)

theorem Takes.optional (h : q.Takes ts call i v j) : (optional q).Takes ts call i (.some v) j :=
  Reading.Gives.bind h (Reading.gives_pure _)

theorem Refuses.optional (h : q.Refuses ts call i) : (optional q).Takes ts call i .none i := by
  obtain ⟨reason, place, hr⟩ := h
  exact Reading.Gives.bind hr (Reading.gives_pure _)

/-! ## 4. Repetitions -/

/-- A parser matches again and again and moves on each time. -/
inductive TakesMany (ts : List α) (call : RuleId → String → Nat → Reading α (Outcome α Nat))
    (q : Parser α) : Nat → List (Value α) → Nat → Prop where
  | nil (i : Nat) : TakesMany ts call q i [] i
  | cons {v : Value α} {vs : List (Value α)} {i j k : Nat} (h : q.Takes ts call i v j) (on : i < j)
    (rest : TakesMany ts call q j vs k) : TakesMany ts call q i (v :: vs) k

theorem TakesMany.add_length_le (h : TakesMany ts call q i vs k) : i + vs.length ≤ k := by
  induction h with
  | nil i => exact Nat.le_refl i
  | cons _ on _ ih =>
    simp only [List.length_cons]
    omega

/-- The loop collects all of a row of matches if it has room for them and none follows. -/
theorem TakesMany.gives (h : TakesMany ts call q i vs k) (hk : q.Refuses ts call k) {room : Nat}
    (hr : vs.length ≤ room) (need : Nat) :
    (Reading.repeated (q.read ts call) room need i).Gives (vs, k) := by
  induction h generalizing room need with
  | nil i =>
    cases room with
    | zero => exact Reading.gives_pure _
    | succ room =>
      obtain ⟨reason, place, hr⟩ := hk
      exact Reading.Gives.bind hr (Reading.gives_pure _)
  | @cons v vs i j k h on _ ih =>
    obtain ⟨room, rfl⟩ := Nat.exists_eq_add_one_of_ne_zero (Nat.ne_zero_of_lt hr)
    refine Reading.Gives.bind h ?_
    have moved : ¬ (j = i ∧ need ≤ 1) := by omega
    simp only [moved, if_false]
    exact (ih hk (Nat.le_of_succ_le_succ hr) (need - 1)).bind (Reading.gives_pure _)

/-- A repetition without a bound of its own takes all matches up to the first failure.  What it has
collected is counted in a machine word, so there is room for `unlimited` of them. -/
theorem takes_many (h : TakesMany ts call q i vs k) (hk : q.Refuses ts call k)
    (hr : vs.length ≤ unlimited) : (many .any q).Takes ts call i (.list vs) k :=
  (h.gives hk hr 0).bind (Reading.gives_pure _)

/-- A separated list is its first item and a repetition of what follows. -/
theorem Takes.sepBy1 {p separator : Parser α} (h : p.Takes ts call i v j)
    (rest : (many .any (Parser.seq [separator, p])).Takes ts call j (.list vs) k) :
    (Parser.sepBy1 p separator).Takes ts call i (.list (v :: vs)) k :=
  (((TakesRow.cons h (.cons rest (.nil _))).group "tuple").map prependFirst).named _

/-- A repetition without bounds of its own answers what its loop gives. -/
theorem gives_many_any {r : Outcome α Nat} :
    ((many .any q).read ts call i).Gives r ↔ ∃ vs k,
      (Reading.repeated (q.read ts call) unlimited 0 i).Gives (vs, k) ∧ r = .success (.list vs) k := by
  constructor
  · intro h
    obtain ⟨⟨vs, k⟩, loop, h⟩ := Reading.gives_bind.1 h
    exact ⟨vs, k, loop, Reading.gives_pure_iff.1 h⟩
  · rintro ⟨vs, k, loop, rfl⟩
    exact loop.bind (Reading.gives_pure _)

end Parser

end LazyPeg
