import LazyPeg.Parser.Handles

/-!
# Strong handles are counted

The strong handles of a rule stand in two places: in the bodies of rules, and outside.  The counts of the
cells are right (`Cell.Counted`) if each is the number of strong handles of its rule in both places, and
the bodies are (`Cell.Bodied`) if a rule has one exactly as long as it was defined and is counted at least
once.

`retain`, `release` and the definition of a rule keep both right; what they change is what stands outside.
For `release` these are at first also the handles that are still to be let go of.
-/
namespace LazyPeg

namespace Cell

variable {α : Type} {cells : List (Cell α)} {cell : Cell α} {id : RuleId} {ids outside : List RuleId}
  {defs : List (RuleId × Held α)}

/-! ## 1. Reading cells -/

/-- How many strong handles of a rule are counted. -/
def strongOf (cells : List (Cell α)) (id : RuleId) : Nat := ((cells[id]?).map strong).getD 0

/-- The body of a rule. -/
def body? (cells : List (Cell α)) (id : RuleId) : Option (Held α) := (cells[id]?).bind body

theorem strongOf_eq (h : cells[id]? = some cell) : strongOf cells id = cell.strong := by
  rw [strongOf, h, Option.map_some, Option.getD_some]

theorem lt_length_of_strongOf (h : 0 < strongOf cells id) : id < cells.length := by
  refine Nat.lt_of_not_le fun beyond => ?_
  rw [strongOf, List.getElem?_eq_none beyond] at h
  exact absurd h (Nat.lt_irrefl 0)

theorem exists_cell (h : 0 < strongOf cells id) : ∃ cell, cells[id]? = some cell :=
  ⟨_, List.getElem?_eq_getElem (lt_length_of_strongOf h)⟩

theorem getElem?_set_of_some (h : cells[id]? = some cell) (c : Cell α) (id' : RuleId) :
    (cells.set id c)[id']? = if id' = id then some c else cells[id']? := by
  obtain ⟨inside, -⟩ := List.getElem?_eq_some_iff.1 h
  rw [List.getElem?_set]
  by_cases same : id' = id
  · rw [if_pos same.symm, if_pos inside, if_pos same]
  · rw [if_neg (Ne.symm same), if_neg same]

theorem strongOf_set (h : cells[id]? = some cell) (c : Cell α) (id' : RuleId) :
    strongOf (cells.set id c) id' = if id' = id then c.strong else strongOf cells id' := by
  rw [strongOf, getElem?_set_of_some h]
  split <;> rfl

theorem body?_set (h : cells[id]? = some cell) (c : Cell α) (id' : RuleId) :
    body? (cells.set id c) id' = if id' = id then c.body else body? cells id' := by
  rw [body?, getElem?_set_of_some h]
  split <;> rfl

/-- What the bodies keep when a cell is replaced. -/
theorem count_kept_set (h : cells[id]? = some cell) (c : Cell α) (id' : RuleId) :
    (kept (cells.set id c)).count id' + cell.keeps.count id' =
      (kept cells).count id' + c.keeps.count id' := by
  have gathered := (flatMap_set_perm keeps c h).count_eq id'
  rwa [List.count_append, List.count_append] at gathered

/-- What is kept by the body of a rule. -/
theorem mem_kept : id ∈ kept cells ↔ ∃ id' held, body? cells id' = some held ∧ id ∈ held.keeps := by
  rw [kept, List.mem_flatMap]
  constructor
  · rintro ⟨⟨strong, body⟩, stands, keeps⟩
    obtain ⟨id', inside⟩ := List.mem_iff_getElem?.1 stands
    cases body with
    | none => exact absurd keeps List.not_mem_nil
    | some held => exact ⟨id', held, by rw [body?, inside]; rfl, keeps⟩
  · rintro ⟨id', held, hbody, keeps⟩
    obtain ⟨⟨strong, body⟩, inside, rfl⟩ := Option.bind_eq_some_iff.1 hbody
    exact ⟨_, List.mem_of_getElem? inside, keeps⟩

/-! ## 2. What is kept right -/

/-- Each rule is counted as often as it is held outside or kept by a body. -/
def Counted (cells : List (Cell α)) (outside : List RuleId) : Prop :=
  ∀ id, strongOf cells id = outside.count id + (kept cells).count id

/-- A rule has the body that it was defined with as long as it is counted. -/
def Bodied (cells : List (Cell α)) (defs : List (RuleId × Held α)) : Prop :=
  ∀ id held, body? cells id = some held ↔ (id, held) ∈ defs ∧ 0 < strongOf cells id

theorem Counted.perm (h : Counted cells outside) {outside' : List RuleId}
    (same : outside.Perm outside') : Counted cells outside' :=
  fun id => same.count_eq id ▸ h id

/-- What is held outside is counted. -/
theorem Counted.pos_of_mem (h : Counted cells outside) (hid : id ∈ outside) : 0 < strongOf cells id := by
  have held := List.count_pos_iff.2 hid
  have counted := h id
  omega

theorem Counted.pos_iff (h : Counted cells outside) :
    0 < strongOf cells id ↔ id ∈ outside ∨ id ∈ kept cells := by
  rw [h id, ← List.count_pos_iff, ← List.count_pos_iff]
  omega

/-- A cell is replaced.  What its rule is counted more and what its body keeps less has to be made up for
outside. -/
theorem Counted.set (h : Counted cells outside) (hcell : cells[id]? = some cell) {c : Cell α}
    {outside' : List RuleId}
    (own : c.strong + cell.keeps.count id + outside.count id =
      outside'.count id + c.keeps.count id + cell.strong)
    (other : ∀ id' ≠ id, cell.keeps.count id' + outside.count id' =
      outside'.count id' + c.keeps.count id') :
    Counted (cells.set id c) outside' := by
  intro id'
  have gathered := count_kept_set hcell c id'
  have counted := h id'
  rw [strongOf_set hcell]
  by_cases same : id' = id
  · subst same
    rw [strongOf_eq hcell] at counted
    rw [if_pos rfl]
    omega
  · have made_up := other id' same
    rw [if_neg same]
    omega

theorem Bodied.set (h : Bodied cells defs) (hcell : cells[id]? = some cell) {c : Cell α}
    {defs' : List (RuleId × Held α)}
    (own : ∀ held, c.body = some held ↔ (id, held) ∈ defs' ∧ 0 < c.strong)
    (other : ∀ id' ≠ id, ∀ held, (id', held) ∈ defs' ↔ (id', held) ∈ defs) :
    Bodied (cells.set id c) defs' := by
  intro id' held
  rw [body?_set hcell, strongOf_set hcell]
  by_cases same : id' = id
  · subst same
    rw [if_pos rfl, if_pos rfl]
    exact own held
  · rw [if_neg same, if_neg same, other id' same]
    exact h id' held

/-- What is known of the body of a cell. -/
theorem Bodied.own (h : Bodied cells defs) (hcell : cells[id]? = some cell) (held : Held α) :
    cell.body = some held ↔ (id, held) ∈ defs ∧ 0 < cell.strong := by
  have known := h id held
  rwa [body?, hcell, strongOf_eq hcell] at known

/-! ## 3. Retaining -/

theorem getElem?_retain (ids : List RuleId) (cells : List (Cell α)) (id : RuleId) :
    (retain ids cells)[id]? =
      (cells[id]?).map fun cell => { cell with strong := cell.strong + ids.count id } := by
  induction ids generalizing cells with
  | nil => simp [retain]
  | cons first ids ih =>
    change (retain ids (cells.modify first retained))[id]? = _
    rw [ih, List.getElem?_modify, List.count_cons]
    by_cases same : first = id
    · simp [same, retained, Function.comp_def, Nat.add_comm 1, Nat.add_assoc]
    · simp [same]

theorem length_retain (ids : List RuleId) (cells : List (Cell α)) :
    (retain ids cells).length = cells.length := by
  induction ids generalizing cells with
  | nil => rfl
  | cons first ids ih => exact (ih _).trans (List.length_modify ..)

theorem body?_retain (ids : List RuleId) (cells : List (Cell α)) (id : RuleId) :
    body? (retain ids cells) id = body? cells id := by
  rw [body?, getElem?_retain, body?]
  cases cells[id]? <;> rfl

/-- Bodies keep what they have kept. -/
theorem kept_retain (ids : List RuleId) (cells : List (Cell α)) : kept (retain ids cells) = kept cells := by
  have same : (retain ids cells).map keeps = cells.map keeps := by
    refine List.ext_getElem? fun id => ?_
    rw [List.getElem?_map, getElem?_retain, List.getElem?_map, Option.map_map]
    rfl
  rw [kept, kept, List.flatMap_def, List.flatMap_def, same]

/-- Rules that are held outside are counted once more for each handle more. -/
theorem strongOf_retain (h : Counted cells outside) (hids : ids ⊆ outside) (id : RuleId) :
    strongOf (retain ids cells) id = ids.count id + strongOf cells id := by
  rw [strongOf, getElem?_retain, strongOf]
  by_cases hid : id ∈ ids
  · obtain ⟨cell, inside⟩ := exists_cell (h.pos_of_mem (hids hid))
    rw [inside]
    exact Nat.add_comm _ _
  · rw [List.count_eq_zero_of_not_mem hid, Nat.zero_add]
    cases cells[id]? <;> rfl

/-- **More strong handles are counted.** -/
theorem Counted.retain (h : Counted cells outside) (hids : ids ⊆ outside) :
    Counted (retain ids cells) (ids ++ outside) := by
  intro id
  rw [strongOf_retain h hids, kept_retain, List.count_append, Nat.add_assoc, h id]

theorem Bodied.retain (h : Bodied cells defs) (counted : Counted cells outside) (hids : ids ⊆ outside) :
    Bodied (retain ids cells) defs := by
  intro id held
  have alive : 0 < ids.count id + strongOf cells id ↔ 0 < strongOf cells id := by
    refine ⟨fun more => ?_, fun pos => Nat.add_pos_right _ pos⟩
    by_cases hid : id ∈ ids
    · exact counted.pos_of_mem (hids hid)
    · rwa [List.count_eq_zero_of_not_mem hid, Nat.zero_add] at more
  rw [body?_retain, strongOf_retain counted hids, alive]
  exact h id held

/-! ## 4. Releasing -/

/-- The last strong handle goes, and its place is taken by what the body has kept. -/
theorem Counted.last (h : Counted cells (id :: outside)) (hcell : cells[id]? = some cell)
    (last : cell.strong ≤ 1) : Counted (cells.set id ⟨0, none⟩) (cell.keeps ++ outside) := by
  refine h.set hcell ?_ fun id' differ => ?_
  · have held := h.pos_of_mem List.mem_cons_self
    rw [strongOf_eq hcell] at held
    rw [List.count_cons_self, List.count_append, keeps_none, List.count_nil]
    change 0 + _ + _ = _
    omega
  · rw [List.count_cons_of_ne (Ne.symm differ), List.count_append, keeps_none, List.count_nil]
    rfl

theorem Bodied.last (h : Bodied cells defs) (hcell : cells[id]? = some cell) :
    Bodied (cells.set id ⟨0, none⟩) defs :=
  h.set hcell (fun _ => ⟨nofun, fun alive => absurd alive.2 (Nat.lt_irrefl 0)⟩) fun _ _ _ => Iff.rfl

/-- A strong handle goes that is not the last. -/
theorem Counted.one (h : Counted cells (id :: outside)) (hcell : cells[id]? = some cell)
    (more : ¬ cell.strong ≤ 1) : Counted (cells.set id { cell with strong := cell.strong - 1 }) outside := by
  have same : ({ cell with strong := cell.strong - 1 } : Cell α).keeps = cell.keeps := rfl
  refine h.set hcell ?_ fun id' differ => ?_
  · rw [List.count_cons_self, same]
    change cell.strong - 1 + _ + _ = _
    omega
  · rw [List.count_cons_of_ne (Ne.symm differ), same, Nat.add_comm]

theorem Bodied.one (h : Bodied cells defs) (hcell : cells[id]? = some cell) (more : ¬ cell.strong ≤ 1) :
    Bodied (cells.set id { cell with strong := cell.strong - 1 }) defs := by
  refine h.set hcell (fun held => (h.own hcell held).trans (and_congr_right fun _ => ?_)) fun _ _ _ => Iff.rfl
  change 0 < cell.strong ↔ 0 < cell.strong - 1
  omega

/-- **Strong handles are let go of, and with the last one of a rule what its body has kept.**  The counts
and the bodies are right for what is left outside. -/
theorem release_spec (counted : Counted cells (ids ++ outside)) (bodied : Bodied cells defs) :
    Counted (release ids cells) outside ∧ Bodied (release ids cells) defs ∧
      (release ids cells).length = cells.length := by
  fun_induction release ids cells with
  | case1 cells => exact ⟨counted, bodied, rfl⟩
  | case2 cells id ids gone ih =>
    have held := counted.pos_of_mem List.mem_cons_self
    obtain ⟨cell, inside⟩ := exists_cell held
    exact absurd (gone.symm.trans inside) nofun
  | case3 cells id ids cell hcell last ih =>
    obtain ⟨counted', bodied', length⟩ := ih
      ((List.append_assoc ..).symm ▸ Counted.last counted hcell last) (bodied.last hcell)
    exact ⟨counted', bodied', length.trans List.length_set⟩
  | case4 cells id ids cell hcell more ih =>
    obtain ⟨counted', bodied', length⟩ := ih (Counted.one counted hcell more) (bodied.one hcell more)
    exact ⟨counted', bodied', length.trans List.length_set⟩

/-! ## 5. Declaring and defining -/

/-- What stands at an index when one more entry is put behind a list. -/
theorem getElem?_append_one {β : Type} (xs : List β) (x : β) (i : Nat) :
    (xs ++ [x])[i]? = if i = xs.length then some x else xs[i]? := by
  rcases Nat.lt_trichotomy i xs.length with old | rfl | beyond
  · rw [List.getElem?_append_left old, if_neg (Nat.ne_of_lt old)]
  · rw [List.getElem?_concat_length, if_pos rfl]
  · rw [if_neg (Nat.ne_of_gt beyond), List.getElem?_eq_none (Nat.le_of_lt beyond)]
    exact List.getElem?_eq_none (by simp only [List.length_append, List.length_singleton]; omega)

/-- A rule that is declared is counted once. -/
theorem Counted.declare (h : Counted cells outside) :
    Counted (cells ++ [⟨1, none⟩]) (cells.length :: outside) := by
  intro id
  have same : kept (cells ++ [⟨1, none⟩]) = kept cells := by
    rw [kept, List.flatMap_append, List.flatMap_singleton, keeps_none, List.append_nil, kept]
  rw [strongOf, getElem?_append_one, same, List.count_cons]
  by_cases new : id = cells.length
  · subst new
    have none : strongOf cells cells.length = 0 := by
      rw [strongOf, List.getElem?_eq_none (Nat.le_refl _)]
      rfl
    have counted := h cells.length
    rw [if_pos rfl, beq_self_eq_true, if_pos rfl]
    change 1 = _
    omega
  · rw [if_neg new, beq_false_of_ne (Ne.symm new), if_neg Bool.false_ne_true, Nat.add_zero]
    exact h id

theorem Bodied.declare (h : Bodied cells defs) (hdefs : ∀ x ∈ defs, x.1 < cells.length) :
    Bodied (cells ++ [⟨1, none⟩]) defs := by
  intro id held
  rw [body?, strongOf, getElem?_append_one]
  by_cases new : id = cells.length
  · rw [if_pos new]
    exact ⟨nofun, fun defined => absurd (hdefs _ defined.1) (new ▸ Nat.lt_irrefl _)⟩
  · rw [if_neg new]
    exact h id held

theorem modify_eq_set (h : cells[id]? = some cell) (f : Cell α → Cell α) :
    cells.modify id f = cells.set id (f cell) := by
  refine List.ext_getElem? fun id' => ?_
  rw [getElem?_set_of_some h, List.getElem?_modify]
  by_cases same : id' = id
  · subst same
    rw [h, if_pos rfl]
    exact congrArg some (if_pos rfl)
  · rw [if_neg same]
    cases cells[id']? with
    | none => rfl
    | some other => exact congrArg some (if_neg (Ne.symm same))

/-- A rule without a body gets one, and what was held outside as a part of it is kept by a body now. -/
theorem Counted.define {held : Held α} (h : Counted cells (held.keeps ++ outside))
    (hcell : cells[id]? = some cell) (undefined : cell.body = none) :
    Counted (cells.modify id fun cell => { cell with body := some held }) outside := by
  have nothing : cell.keeps = [] := by rw [keeps, undefined]; rfl
  rw [modify_eq_set hcell]
  refine h.set hcell ?_ fun id' _ => ?_
  · rw [nothing, List.count_nil, List.count_append, keeps_some]
    change cell.strong + 0 + _ = _
    omega
  · rw [nothing, List.count_nil, List.count_append, keeps_some]
    omega

theorem Bodied.define (h : Bodied cells defs) (held : Held α) (hcell : cells[id]? = some cell)
    (alive : 0 < cell.strong) (new : ∀ held', (id, held') ∉ defs) :
    Bodied (cells.modify id fun cell => { cell with body := some held }) ((id, held) :: defs) := by
  rw [modify_eq_set hcell]
  refine h.set hcell (fun held' => ⟨fun given => ?_, fun ⟨defined, _⟩ => ?_⟩) fun id' differ held' => ?_
  · obtain rfl := Option.some.inj given
    exact ⟨List.mem_cons_self, alive⟩
  · rcases List.mem_cons.1 defined with own | old
    · rw [(Prod.mk.inj own).2]
    · exact absurd old (new held')
  · refine List.mem_cons.trans (or_iff_right fun own => ?_)
    exact differ (Prod.mk.inj own).1

end Cell

end LazyPeg
