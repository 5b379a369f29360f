import LazyPeg.Proofs.Reading.Scanning

/-!
# Shortcuts

A run of tokens may be asked for at once (`token`), or one after the other, by a row of parsers for one
token each.  One of several tokens may be asked for by a condition (`oneOf`), or by a choice between parsers
for one token each.  The shortcut answers what the long way does, and **it looks equally far**, also where
the input ends within the run, or goes on with something else.

* §1 has the course of a single token.
* §2: a row of single tokens passes the whole run, or it fails behind as many tokens as were found one after
  the other (`readAll_map_eq`, `readAll_map_eq_of_not_prefix`).  The reach is that of `token`
  (`reads_token`).
* §3: a choice of single tokens passes the one that stands here, or it fails, and then it looks at no other
  token (`readFirst_map_eq`, `readFirst_map_eq_of_not_mem`).

A row of no parsers looks at nothing, whereas `token` moves to where it is; so what is said of courses is
said of runs of at least one token.
-/
namespace LazyPeg.Parser

variable {α : Type} [Token α] [DecidableEq α] {grammar : Grammar α} {ts w : List α} {i : Nat} {t : α}
  (call : RuleId → String → Nat → Reading α (Outcome α Nat))

/-! ## 1. Single tokens -/

section Satisfy

variable {name : String} {accepts : α → Bool}

/-- A token that is accepted is looked at and passed. -/
theorem read_satisfy (ht : ts[i]? = some t) (ha : accepts t) :
    (satisfy name accepts).read ts call i = .ended ⟨.ok (.success (.token t) (i + 1)), [], i + 1⟩ := by
  simp [read, Reading.look, Reading.visit, Reading.ok_bind, Reading.pure_eq, ht, ha]

/-- One that is not accepted is only looked at, and so is the end. -/
theorem read_satisfy_of_not (h : ∀ t, ts[i]? = some t → accepts t = false) :
    ∃ reason, (satisfy name accepts).read ts call i = .ended ⟨.ok (.failure reason i), [], i⟩ := by
  cases ht : ts[i]? with
  | none => exact ⟨.endOfInput, by simp [read, Reading.look, Reading.ok_bind, Reading.pure_eq, ht]⟩
  | some t =>
    have rejected := h t ht
    refine ⟨.unsatisfied name, ?_⟩
    simp [read, Reading.look, Reading.ok_bind, Reading.pure_eq, ht, rejected]

end Satisfy

theorem read_eq (ht : ts[i]? = some t) :
    (eq t).read ts call i = .ended ⟨.ok (.success (.token t) (i + 1)), [], i + 1⟩ :=
  read_satisfy call ht (beq_self_eq_true t)

theorem read_eq_of_ne (ht : ts[i]? ≠ some t) :
    ∃ reason, (eq t).read ts call i = .ended ⟨.ok (.failure reason i), [], i⟩ := by
  refine read_satisfy_of_not call fun u hu => beq_false_of_ne ?_
  rintro rfl
  exact ht hu

/-! ## 2. Runs -/

omit [Token α] [DecidableEq α] in
/-- A run stands here if its first token does, and the others behind it. -/
theorem cons_prefix_drop_iff : t :: w <+: ts.drop i ↔ ts[i]? = some t ∧ w <+: ts.drop (i + 1) := by
  rw [List.cons_prefix_iff]
  constructor
  · rintro ⟨behind, whole, rest⟩
    have inside : i < ts.length := by
      by_contra outside
      rw [List.drop_eq_nil_iff.2 (Nat.le_of_not_lt outside)] at whole
      cases whole
    obtain ⟨rfl, rfl⟩ := List.cons.inj (whole.symm.trans (List.drop_eq_getElem_cons inside))
    exact ⟨List.getElem?_eq_getElem inside, rest⟩
  · rintro ⟨ht, rest⟩
    obtain ⟨inside, rfl⟩ := List.getElem?_eq_some_iff.1 ht
    exact ⟨_, List.drop_eq_getElem_cons inside, rest⟩

/-- **A row of single tokens passes the run that stands here.** -/
theorem readAll_map_eq (here : w <+: ts.drop i) :
    readAll ts call (w.map eq) i = .ended ⟨.ok (.ok (w.map .token, i + w.length)), [],
      if w = [] then 0 else i + w.length⟩ := by
  induction w generalizing i with
  | nil => rfl
  | cons t w ih =>
    obtain ⟨ht, behind⟩ := cons_prefix_drop_iff.1 here
    have count : i + 1 + w.length = i + (w.length + 1) := by omega
    have far : max (i + 1) (if w = [] then 0 else i + (w.length + 1)) = i + (w.length + 1) := by
      split
      · rename_i none
        rw [none, Nat.max_zero, List.length_nil]
      · exact Nat.max_eq_right (Nat.add_le_add_left (Nat.le_add_left 1 _) i)
    simp only [List.map_cons, readAll, read_eq call ht, Reading.ok_bind, ih behind, Reading.pure_eq,
      List.append_nil, Nat.max_zero, count, far, List.length_cons, List.cons_ne_nil, if_false]

/-- **It fails behind the tokens of the run that are there.** -/
theorem readAll_map_eq_of_not_prefix (missing : ¬ w <+: ts.drop i) : ∃ name,
    readAll ts call (w.map eq) i = .ended ⟨.ok (.error name), [], i + matched ts w i⟩ := by
  induction w generalizing i with
  | nil => exact absurd List.nil_prefix missing
  | cons t w ih =>
    by_cases ht : ts[i]? = some t
    · obtain ⟨name, rest⟩ := ih fun behind => missing (cons_prefix_drop_iff.2 ⟨ht, behind⟩)
      have far : max (i + 1) (i + 1 + matched ts w (i + 1)) = i + (matched ts w (i + 1) + 1) := by omega
      refine ⟨name, ?_⟩
      simp only [List.map_cons, readAll, read_eq call ht, Reading.ok_bind, rest, Reading.pure_eq,
        List.append_nil, Nat.max_zero, far, matched, ht, if_true]
    · obtain ⟨reason, first⟩ := read_eq_of_ne call ht
      refine ⟨(eq t).name, ?_⟩
      simp only [List.map_cons, readAll, first, Reading.ok_bind, Reading.pure_eq, List.append_nil,
        Nat.max_zero, matched, ht, if_false, Nat.add_zero]

/-- The tuple of at least one token looks as far as `token` does. -/
theorem reads_tuple_eq (grammar : Grammar α) (ts : List α) (nonempty : w ≠ []) (i : Nat) :
    ∃ name, (tuple (w.map eq)).Reads grammar ts i ⟨.ok (if w <+: ts.drop i then
        .success (.tuple (w.map .token)) (i + w.length)
      else .failure (.missing name) i), [], i + matched ts w i⟩ := by
  by_cases here : w <+: ts.drop i
  · have row := readAll_map_eq (callDepth grammar ts 0) here
    refine ⟨(token w).name, 0, ?_⟩
    simp only [readDepth, tuple, read, row, Reading.ok_bind, Reading.pure_eq, List.append_nil,
      Nat.max_zero, here, nonempty, if_true, if_false, (matched_eq_length_iff w i).2 here]
  · obtain ⟨name, row⟩ := readAll_map_eq_of_not_prefix (callDepth grammar ts 0) here
    refine ⟨name, 0, ?_⟩
    simp only [readDepth, tuple, read, row, Reading.ok_bind, Reading.pure_eq, List.append_nil,
      Nat.max_zero, here, if_false]

theorem matches_tuple_eq_iff (nonempty : w ≠ []) (hi : i ≤ ts.length) {v : Value α} {j : Nat} :
    (tuple (w.map eq)).Matches grammar ts i v j ↔
      w <+: ts.drop i ∧ v = .tuple (w.map .token) ∧ j = i + w.length := by
  obtain ⟨name, reads⟩ := reads_tuple_eq grammar ts nonempty i
  constructor
  · rintro ⟨c, hc, ha⟩
    obtain rfl := hc.unique reads hi
    by_cases here : w <+: ts.drop i
    · simp only [here, if_true, Except.ok.injEq, Outcome.success.injEq] at ha
      exact ⟨here, ha.1.symm, ha.2.symm⟩
    · simp [here] at ha
  · rintro ⟨here, rfl, rfl⟩
    exact ⟨_, reads, by simp only [here, if_true]⟩

theorem fails_tuple_eq (nonempty : w ≠ []) (missing : ¬ w <+: ts.drop i) :
    (tuple (w.map eq)).Fails grammar ts i := by
  obtain ⟨name, reads⟩ := reads_tuple_eq grammar ts nonempty i
  exact ⟨_, .missing name, i, reads, by simp only [missing, if_false]⟩

/-! ## 3. One of several tokens -/

/-- **A choice of single tokens passes the one that stands here.** -/
theorem readFirst_map_eq (ht : ts[i]? = some t) (member : t ∈ w) :
    readFirst ts call (w.map eq) i = .ended ⟨.ok (some (.success (.token t) (i + 1))), [], i + 1⟩ := by
  induction w with
  | nil => exact absurd member List.not_mem_nil
  | cons u w ih =>
    by_cases same : u = t
    · simp only [List.map_cons, readFirst, same, read_eq call ht, Reading.ok_bind, Reading.pure_eq,
        List.append_nil, Nat.max_zero]
    · have other : ts[i]? ≠ some u := by
        rw [ht]
        exact fun h => same (Option.some.inj h).symm
      obtain ⟨reason, first⟩ := read_eq_of_ne call other
      have rest := ih (List.mem_of_ne_of_mem (Ne.symm same) member)
      simp only [List.map_cons, readFirst, first, Reading.ok_bind, rest, List.append_nil,
        Nat.max_eq_right (Nat.le_succ i)]

/-- If none of them stands here, it has looked at this one place, or at none. -/
theorem readFirst_map_eq_of_not_mem (h : ∀ t, ts[i]? = some t → t ∉ w) :
    readFirst ts call (w.map eq) i = .ended ⟨.ok none, [], if w = [] then 0 else i⟩ := by
  induction w with
  | nil => rfl
  | cons u w ih =>
    have other : ts[i]? ≠ some u := fun hu => h u hu List.mem_cons_self
    obtain ⟨reason, first⟩ := read_eq_of_ne call other
    have rest := ih fun t ht member => h t ht (List.mem_cons_of_mem u member)
    have far : max i (if w = [] then 0 else i) = i := by split <;> simp
    simp only [List.map_cons, readFirst, first, Reading.ok_bind, rest, List.append_nil, far,
      List.cons_ne_nil, if_false]

/-- The condition and the choice pass a token that is one of several. -/
theorem reads_of_mem (grammar : Grammar α) (ht : ts[i]? = some t) (member : t ∈ w) :
    ∀ q ∈ [oneOf w, choice (w.map eq)],
      q.Reads grammar ts i ⟨.ok (.success (.token t) (i + 1)), [], i + 1⟩ := by
  intro q hq
  rcases List.mem_pair.1 hq with rfl | rfl
  · exact ⟨0, read_satisfy _ ht (List.contains_iff_mem.2 member)⟩
  · refine ⟨0, ?_⟩
    simp only [readDepth, read, readFirst_map_eq _ ht member, Reading.ok_bind, Reading.pure_eq,
      List.append_nil, Nat.max_zero]

/-- Both fail where none of them stands, and then they have looked at one place. -/
theorem exists_reads_of_not_mem (grammar : Grammar α) (nonempty : w ≠ [])
    (h : ∀ t, ts[i]? = some t → t ∉ w) :
    ∀ q ∈ [oneOf w, choice (w.map eq)], ∃ reason,
      q.Reads grammar ts i ⟨.ok (.failure reason i), [], i⟩ := by
  have rejected : ∀ t, ts[i]? = some t → w.contains t = false :=
    fun t ht => Bool.eq_false_of_not_eq_true fun member => h t ht (List.contains_iff_mem.1 member)
  intro q hq
  rcases List.mem_pair.1 hq with rfl | rfl
  · obtain ⟨reason, first⟩ := read_satisfy_of_not (callDepth grammar ts 0) rejected
    exact ⟨reason, 0, first⟩
  · refine ⟨.noneOf (names (w.map eq)), 0, ?_⟩
    simp only [readDepth, read, readFirst_map_eq_of_not_mem _ h, Reading.ok_bind, Reading.pure_eq,
      List.append_nil, Nat.max_zero, nonempty, if_false]

end LazyPeg.Parser
