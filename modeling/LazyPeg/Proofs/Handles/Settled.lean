import LazyPeg.Description.Basic
import LazyPeg.Proofs.Handles.Alive

/-!
# What becomes of a rule

A description says of each rule whether it is defined, never defined, or defined and given up
(`Fate`).  `Shelf.settle` are the acts that bring this about, once there is a handle of the rule and one of
its body.  **Afterwards the rule can be called exactly if it was defined and not given up**
(`Reaches.callable_settle`), which is the entry that building a description leaves in the grammar.
-/
namespace LazyPeg

namespace Shelf

variable {α : Type} {s : Shelf α} {id : RuleId} {defs : List (RuleId × Held α)}

/-! ## 1. Handles after an act -/

theorem handle?_put_of_some {n : Nat} {y : Handle α} (hy : s.handle? n = some y) (x : Handle α) :
    (s.put x).handle? n = some y := by
  rw [handle?_put, if_neg, hy]
  rintro rfl
  rw [handle?, List.getElem?_eq_none (Nat.le_refl _)] at hy
  cases hy

theorem act_refer {rule : Nat} {name : String} (hrule : s.handle? rule = some (.rule id name)) :
    s.act (.refer rule) = s.put (.parser ⟨.rule id name, []⟩) := by
  simp only [act, hrule]

theorem handle?_act_refer {rule n : Nat} {name : String} {y : Handle α}
    (hrule : s.handle? rule = some (.rule id name)) (hy : s.handle? n = some y) :
    (s.act (.refer rule)).handle? n = some y := by
  rw [act_refer hrule]
  exact handle?_put_of_some hy _

theorem handle?_act_drop (h : Nat) (s : Shelf α) (n : Nat) :
    (s.act (.drop h)).handle? n = if n = h then none else s.handle? n := by
  rw [← handle?_remove]
  unfold act
  dsimp only
  split
  next => rfl
  next gone =>
    rw [handle?_remove]
    split
    next same => rw [same, gone]
    next => rfl

/-- The state after a definition, and what it was called before. -/
theorem act_define {rule body : Nat} {name : String} {held : Held α}
    (hrule : s.handle? rule = some (.rule id name)) (hbody : s.handle? body = some (.parser held)) :
    s.defines (.define rule body) = [(id, held)] ∧
      (s.act (.define rule body)).handle? s.handles.length = some (.parser ⟨.rule id name, [id]⟩) ∧
      ∀ n x, (s.act (.define rule body)).handle? n = some x → n ≠ s.handles.length →
        n ≠ rule ∧ s.handle? n = some x := by
  have length : ((s.remove rule).remove body).handles.length = s.handles.length := by
    simp only [remove, List.length_set]
  have put (n : Nat) : (s.act (.define rule body)).handle? n =
      if n = s.handles.length then some (.parser ⟨.rule id name, [id]⟩)
      else ((s.remove rule).remove body).handle? n := by
    simp only [act, hrule, hbody, handle?_put, length]
    rfl
  refine ⟨by simp only [defines, hrule, hbody], ?_, fun n x hx new => ?_⟩
  · rw [put, if_pos rfl]
  · rw [put, if_neg new] at hx
    exact handle?_of_remove (handle?_of_remove hx).2

/-! ## 2. Fates -/

/-- Define a rule by a parser, never define it, or define it and give it up but for a reference. -/
def settle (s : Shelf α) (rule body : Nat) : Fate → Shelf α
  | .defined => s.act (.define rule body)
  | .undefined => s.act (.drop rule)
  | .givenUp => ((s.act (.refer rule)).act (.define rule body)).act (.drop (s.handles.length + 1))

/-- A rule that was given up is not alive any more: its only strong handle was dropped, and neither its own
body nor those that were defined before can keep it. -/
theorem not_alive_givenUp (h : Reaches s defs) {rule body : Nat} {name : String} {held : Held α}
    (hrule : s.handle? rule = some (.rule id name)) (hbody : s.handle? body = some (.parser held)) :
    ¬ Alive (s.settle rule body .givenUp) ((id, held) :: defs) id := by
  have length : (s.act (.refer rule)).handles.length = s.handles.length + 1 := by
    rw [act_refer hrule, put, List.length_append, List.length_singleton]
  have old := (act_define (handle?_act_refer hrule hrule) (handle?_act_refer hrule hbody)).2.2
  rw [length] at old
  -- what is held after all is a reference, or was held before
  have left {n : Nat} {x : Handle α} (hx : (s.settle rule body .givenUp).handle? n = some x) :
      x.keeps = [] ∨ n ≠ rule ∧ s.handle? n = some x := by
    rw [settle, handle?_act_drop] at hx
    split at hx
    · cases hx
    rename_i differ
    obtain ⟨other, hx⟩ := old n x hx differ
    rw [act_refer hrule, handle?_put] at hx
    split at hx
    · obtain rfl := Option.some.inj hx
      exact .inl rfl
    · exact .inr ⟨other, hx⟩
  have undefined := h.sound.fits.rules hrule
  have keeps {k : RuleId} (alive : Alive (s.settle rule body .givenUp) ((id, held) :: defs) k) : k ≠ id := by
    cases alive with
    | @held n x k hx kept =>
      rintro rfl
      rcases left hx with none | ⟨other, hx⟩
      · exact absurd (none ▸ kept) List.not_mem_nil
      · cases x with
        | parser held' => exact undefined (h.sound.fits.parsers hx kept)
        | rule id' name' =>
          obtain rfl := List.mem_singleton.1 kept
          exact other (h.sound.fits.single hx hrule)
    | inside _ defined kept =>
      rintro rfl
      rcases List.mem_cons.1 defined with own | earlier
      · obtain ⟨-, rfl⟩ := Prod.mk.inj own
        exact undefined (h.sound.fits.parsers hbody kept)
      · exact undefined (h.sound.layered.idxOf_lt earlier kept).1
  exact fun alive => keeps alive rfl

/-- **A rule can be called after all exactly if it was defined and not given up.** -/
theorem Reaches.callable_settle (h : Reaches s defs) {rule body : Nat} {name : String} {held : Held α}
    (hrule : s.handle? rule = some (.rule id name)) (hbody : s.handle? body = some (.parser held))
    (fate : Fate) :
    ((s.settle rule body fate).grammar[id]?).join = if fate = .defined then some held.parser else none := by
  cases fate with
  | defined =>
    obtain ⟨defines, last, -⟩ := act_define hrule hbody
    have after := h.act (.define rule body)
    rw [defines] at after
    rw [if_pos rfl]
    exact after.callable_iff.2 ⟨.held last List.mem_cons_self, held, List.mem_cons_self, rfl⟩
  | undefined =>
    have after := h.act (.drop rule)
    rw [if_neg nofun]
    refine after.not_callable_iff.2 (.inl fun held' defined => ?_)
    exact h.sound.fits.rules hrule (List.mem_map_of_mem defined)
  | givenUp =>
    have defines := (act_define (handle?_act_refer hrule hrule) (handle?_act_refer hrule hbody)).1
    have after := ((h.act (.refer rule)).act (.define rule body)).act (.drop (s.handles.length + 1))
    rw [defines] at after
    rw [if_neg nofun]
    exact after.not_callable_iff.2 (.inr (not_alive_givenUp h hrule hbody))

end Shelf

end LazyPeg
