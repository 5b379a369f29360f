import Mathlib.Data.List.Basic
import LazyPeg.Proofs.Handles.Counting

/-!
# Which rules can be called

`Shelf.Reaches` relates the states of a program to the definitions it has made so far, the last one
first: any acts, in any order.  A rule is alive (`Shelf.Alive`) if a handle of the program keeps it alive,
or the body of a rule that is alive.

**A rule can be called exactly if it was defined and is alive** (`Reaches.callable_iff`).  That a cell is
counted at all is one thing and that a handle leads to it another: the two could differ if bodies kept one
another alive.  They do not, because a body can only keep rules that were defined before it
(`Shelf.Layered`), and the references inside it keep none.

* §1 and §2 are the states and what is right in each of them, §3 is one step, and §4 the run.
* §5 is the answer.
-/
namespace LazyPeg

namespace Shelf

variable {α : Type} {s s' : Shelf α} {x : Handle α} {id : RuleId} {defs : List (RuleId × Held α)}

/-! ## 1. Handles -/

/-- The rules that handles keep alive, each as often as it is kept. -/
def hand (s : Shelf α) : List RuleId := s.handles.flatMap fun x => (x.map Handle.keeps).getD []

theorem handle?_put (x : Handle α) (s : Shelf α) (h : Nat) :
    (s.put x).handle? h = if h = s.handles.length then some x else s.handle? h := by
  rw [handle?, put, Cell.getElem?_append_one]
  split <;> rfl

theorem handle?_remove (h : Nat) (s : Shelf α) (h' : Nat) :
    (s.remove h).handle? h' = if h' = h then none else s.handle? h' := by
  unfold handle? remove
  rw [List.getElem?_set]
  by_cases same : h' = h
  · rw [if_pos same.symm, if_pos same]
    split <;> rfl
  · rw [if_neg (Ne.symm same), if_neg same]

theorem handle?_of_remove {h h' : Nat} (hx : (s.remove h).handle? h' = some x) :
    h' ≠ h ∧ s.handle? h' = some x := by
  rw [handle?_remove] at hx
  split at hx
  · exact absurd hx nofun
  next other => exact ⟨other, hx⟩

theorem hand_put (x : Handle α) (s : Shelf α) : (s.put x).hand = s.hand ++ x.keeps := by
  rw [hand, put, List.flatMap_append, List.flatMap_singleton]
  rfl

theorem hand_remove {h : Nat} (hx : s.handle? h = some x) :
    ((s.remove h).hand ++ x.keeps).Perm s.hand := by
  have gathered := Cell.flatMap_set_perm (fun x : Option (Handle α) => (x.map Handle.keeps).getD []) none
    (Option.join_eq_some_iff.1 hx)
  rwa [Option.map_none, Option.getD_none, List.append_nil] at gathered

theorem mem_hand : id ∈ s.hand ↔ ∃ h x, s.handle? h = some x ∧ id ∈ x.keeps := by
  rw [hand, List.mem_flatMap]
  constructor
  · rintro ⟨_ | x, stands, keeps⟩
    · exact absurd keeps List.not_mem_nil
    · obtain ⟨h, inside⟩ := List.mem_iff_getElem?.1 stands
      exact ⟨h, x, Option.join_eq_some_iff.2 inside, keeps⟩
  · rintro ⟨h, x, hx, keeps⟩
    exact ⟨some x, List.mem_of_getElem? (Option.join_eq_some_iff.1 hx), keeps⟩

/-! ## 2. What is right in every state -/

/-- A rule is defined once, and its body keeps only rules that were defined before. -/
def Layered : List (RuleId × Held α) → Prop
  | [] => True
  | (id, held) :: defs => held.keeps ⊆ defs.map Prod.fst ∧ id ∉ defs.map Prod.fst ∧ Layered defs

/-- Parsers keep only defined rules, and what is to be defined was not defined and stands in one handle
only. -/
structure Fits (defs : List (RuleId × Held α)) (s : Shelf α) : Prop where
  parsers : ∀ {h held}, s.handle? h = some (.parser held) → held.keeps ⊆ defs.map Prod.fst
  rules : ∀ {h id name}, s.handle? h = some (.rule id name) → id ∉ defs.map Prod.fst
  single : ∀ {h h' id name name'}, s.handle? h = some (.rule id name) →
    s.handle? h' = some (.rule id name') → h = h'

/-- Everything is right: what is counted, the bodies, and the handles. -/
structure Sound (s : Shelf α) (defs : List (RuleId × Held α)) : Prop where
  counted : Cell.Counted s.cells s.hand
  bodied : Cell.Bodied s.cells defs
  layered : Layered defs
  declared : ∀ x ∈ defs, x.1 < s.cells.length
  fits : Fits defs s

theorem sound_empty : Sound (empty : Shelf α) [] where
  counted _ := rfl
  bodied _ _ := ⟨nofun, fun defined => absurd defined.1 List.not_mem_nil⟩
  layered := trivial
  declared _ hx := absurd hx List.not_mem_nil
  fits := ⟨nofun, nofun, nofun⟩

/-- Handles that are left still fit. -/
theorem Fits.sub (h : Fits defs s) (hs : ∀ {n x}, s'.handle? n = some x → s.handle? n = some x) :
    Fits defs s' where
  parsers hx := h.parsers (hs hx)
  rules hx := h.rules (hs hx)
  single hx hx' := h.single (hs hx) (hs hx')

theorem Fits.remove (h : Fits defs s) (n : Nat) : Fits defs (s.remove n) :=
  h.sub fun hx => (handle?_of_remove hx).2

theorem Fits.put_held (h : Fits defs s) {held : Held α} (hkeeps : held.keeps ⊆ defs.map Prod.fst) :
    Fits defs (s.put (.parser held)) := by
  have old {n : Nat} {id : RuleId} {name : String}
      (hx : (s.put (.parser held)).handle? n = some (.rule id name)) : s.handle? n = some (.rule id name) := by
    rw [handle?_put] at hx
    split at hx
    · exact absurd (Option.some.inj hx) nofun
    · exact hx
  refine ⟨fun hx => ?_, fun hx => h.rules (old hx), fun hx hx' => h.single (old hx) (old hx')⟩
  rw [handle?_put] at hx
  split at hx
  · obtain rfl := Handle.parser.inj (Option.some.inj hx)
    exact hkeeps
  · exact h.parsers hx

theorem Fits.put_rule (h : Fits defs s) {name : String} (undefined : id ∉ defs.map Prod.fst)
    (new : id ∉ s.hand) : Fits defs (s.put (.rule id name)) := by
  have fresh {n : Nat} {name' : String} : s.handle? n ≠ some (.rule id name') :=
    fun hx => new (mem_hand.2 ⟨n, _, hx, List.mem_singleton.2 rfl⟩)
  refine ⟨fun hx => ?_, fun hx => ?_, fun {n n' id' _ _} hx hx' => ?_⟩
  · rw [handle?_put] at hx
    split at hx
    · exact absurd (Option.some.inj hx) nofun
    · exact h.parsers hx
  · rw [handle?_put] at hx
    split at hx
    · obtain ⟨rfl, -⟩ := Handle.rule.inj (Option.some.inj hx)
      exact undefined
    · exact h.rules hx
  · rw [handle?_put] at hx hx'
    split at hx <;> split at hx'
    · next here here' => exact here.trans here'.symm
    · obtain ⟨rfl, -⟩ := Handle.rule.inj (Option.some.inj hx)
      exact absurd hx' fresh
    · obtain ⟨rfl, -⟩ := Handle.rule.inj (Option.some.inj hx')
      exact absurd hx fresh
    · exact h.single hx hx'

/-! ## 3. One step -/

/-- What was used up was held, and it is not held any more. -/
theorem takeAll_spec {hs : List Nat} {helds : List (Held α)} (taken : s.takeAll hs = some (helds, s')) :
    s'.cells = s.cells ∧ (∀ {n x}, s'.handle? n = some x → s.handle? n = some x) ∧
      (s'.hand ++ helds.flatMap Held.keeps).Perm s.hand ∧
      ∀ held ∈ helds, ∃ n, s.handle? n = some (.parser held) := by
  induction hs generalizing s helds with
  | nil =>
    obtain ⟨rfl, rfl⟩ := Prod.mk.inj (Option.some.inj taken)
    exact ⟨rfl, id, by simp, fun _ hheld => absurd hheld List.not_mem_nil⟩
  | cons n hs ih =>
    rw [takeAll] at taken
    split at taken
    next held hn =>
      obtain ⟨⟨rest, last⟩, others, given⟩ := Option.map_eq_some_iff.1 taken
      obtain ⟨rfl, rfl⟩ := Prod.mk.inj given
      obtain ⟨cells, left, gathered, held'⟩ := ih others
      refine ⟨cells, fun hx => (handle?_of_remove (left hx)).2, ?_, ?_⟩
      · have first := hand_remove hn
        rw [List.flatMap_cons]
        have swap : (last.hand ++ (held.keeps ++ rest.flatMap Held.keeps)).Perm
            (last.hand ++ rest.flatMap Held.keeps ++ held.keeps) := by
          rw [List.append_assoc]
          exact List.perm_append_comm.append_left _
        exact swap.trans ((gathered.append_right _).trans first)
      · intro other hother
        rcases List.mem_cons.1 hother with rfl | hother
        · exact ⟨n, hn⟩
        · obtain ⟨m, hm⟩ := held' other hother
          exact ⟨m, (handle?_of_remove hm).2⟩
    next => exact absurd taken nofun

theorem Sound.declare (h : Sound s defs) (name : String) : Sound (s.act (.declare name)) defs := by
  have new : s.cells.length ∉ s.hand := fun hid =>
    absurd (Cell.lt_length_of_strongOf (h.counted.pos_of_mem hid)) (Nat.lt_irrefl _)
  have undefined : s.cells.length ∉ defs.map Prod.fst := by
    rintro hid
    obtain ⟨x, hx, same⟩ := List.mem_map.1 hid
    exact absurd (h.declared x hx) (same ▸ Nat.lt_irrefl _)
  refine ⟨?_, h.bodied.declare h.declared, h.layered, fun x hx => ?_, ?_⟩
  · rw [act, hand_put]
    exact h.counted.declare.perm (List.perm_append_singleton _ _).symm
  · exact Nat.lt_of_lt_of_le (h.declared x hx) (by simp [act, put])
  · have before : Fits defs (⟨s.cells ++ [⟨1, none⟩], s.handles⟩ : Shelf α) := h.fits.sub id
    exact before.put_rule undefined new

theorem Sound.refer (h : Sound s defs) (rule : Nat) : Sound (s.act (.refer rule)) defs := by
  unfold act
  dsimp only
  split
  next id name _ =>
    refine ⟨?_, h.bodied, h.layered, h.declared, h.fits.put_held (List.nil_subset _)⟩
    rw [hand_put]
    exact h.counted.perm (.of_eq (List.append_nil _).symm)
  next => exact h

theorem Sound.clone (h : Sound s defs) (parser : Nat) : Sound (s.act (.clone parser)) defs := by
  unfold act
  dsimp only
  split
  next held hheld =>
    have held_hand : held.keeps ⊆ s.hand := fun id hid => mem_hand.2 ⟨parser, _, hheld, hid⟩
    have before : Fits defs (⟨Cell.retain held.keeps s.cells, s.handles⟩ : Shelf α) := h.fits.sub id
    refine ⟨?_, h.bodied.retain h.counted held_hand, h.layered, fun x hx => ?_,
      before.put_held (h.fits.parsers hheld)⟩
    · rw [hand_put]
      exact (h.counted.retain held_hand).perm List.perm_append_comm
    · exact (Cell.length_retain held.keeps s.cells).symm ▸ h.declared x hx
  next => exact h

theorem Sound.compose (h : Sound s defs) (shape : List (Parser α) → Parser α) (parts : List Nat) :
    Sound (s.act (.compose shape parts)) defs := by
  unfold act
  dsimp only
  split
  next helds rest taken =>
    obtain ⟨cells, left, gathered, held⟩ := takeAll_spec taken
    refine ⟨?_, ?_, h.layered, ?_, (h.fits.sub left).put_held fun id hid => ?_⟩
    · rw [hand_put]
      exact (cells.symm ▸ h.counted : Cell.Counted rest.cells s.hand).perm gathered.symm
    · exact (cells.symm ▸ h.bodied : Cell.Bodied rest.cells defs)
    · exact fun x hx => (cells.symm ▸ h.declared x hx : x.1 < rest.cells.length)
    · obtain ⟨one, hone, keeps⟩ := List.mem_flatMap.1 hid
      obtain ⟨n, hn⟩ := held one hone
      exact h.fits.parsers hn keeps
  next => exact h

/-- A rule is defined by what was held, and it is not to be defined any more. -/
theorem Sound.define (h : Sound s defs) {rule body : Nat} {name : String} {held : Held α}
    (hrule : s.handle? rule = some (.rule id name)) (hbody : s.handle? body = some (.parser held)) :
    Sound (s.act (.define rule body)) ((id, held) :: defs) := by
  have hbody' : (s.remove rule).handle? body = some (.parser held) := by
    rw [handle?_remove, if_neg, hbody]
    rintro rfl
    exact absurd (hrule.symm.trans hbody) nofun
  have undefined := h.fits.rules hrule
  have new (held' : Held α) : (id, held') ∉ defs := fun old => undefined (List.mem_map_of_mem old)
  -- what is outside once the rule is defined, and the parts of the body
  have parts : s.hand.Perm (held.keeps ++ (((s.remove rule).remove body).hand ++ [id])) := by
    have first := hand_remove hrule
    have second := hand_remove hbody'
    refine first.symm.trans ((second.symm.append_right _).trans ?_)
    rw [← List.append_assoc]
    exact List.perm_append_comm.append_right _
  have alive : 0 < Cell.strongOf s.cells id :=
    h.counted.pos_of_mem (mem_hand.2 ⟨rule, _, hrule, List.mem_singleton.2 rfl⟩)
  obtain ⟨cell, hcell⟩ := Cell.exists_cell alive
  have bare : cell.body = none := by
    refine Option.eq_none_iff_forall_ne_some.2 fun held' given => ?_
    have body : Cell.body? s.cells id = some held' := by rw [Cell.body?, hcell]; exact given
    exact new held' ((h.bodied id held').1 body).1
  simp only [act, hrule, hbody]
  refine ⟨?_, ?_, ⟨h.fits.parsers hbody, undefined, h.layered⟩, fun x hx => ?_, ?_⟩
  · rw [hand_put]
    exact Cell.Counted.define (h.counted.perm parts) hcell bare
  · exact h.bodied.define held hcell (Cell.strongOf_eq hcell ▸ alive) new
  · change x.1 < (s.cells.modify id _).length
    rw [List.length_modify]
    rcases List.mem_cons.1 hx with rfl | hx
    · exact Cell.lt_length_of_strongOf alive
    · exact h.declared x hx
  · have left {n : Nat} {x : Handle α} (hx : ((s.remove rule).remove body).handle? n = some x) :
        n ≠ rule ∧ s.handle? n = some x := handle?_of_remove (handle?_of_remove hx).2
    have rest : Fits ((id, held) :: defs) ((s.remove rule).remove body) := by
      refine ⟨fun hx => ?_, fun hx defined => ?_, fun hx hx' => h.fits.single (left hx).2 (left hx').2⟩
      · exact List.subset_cons_of_subset _ (h.fits.parsers (left hx).2)
      · rcases List.mem_cons.1 defined with rfl | defined
        · exact (left hx).1 (h.fits.single (left hx).2 hrule)
        · exact h.fits.rules (left hx).2 defined
    have after : Fits ((id, held) :: defs)
        (⟨s.cells.modify id fun cell => { cell with body := some held },
          ((s.remove rule).remove body).handles⟩ : Shelf α) := rest.sub fun hx => hx
    exact after.put_held fun id' own => List.mem_singleton.1 own ▸ List.mem_cons_self

theorem Sound.drop (h : Sound s defs) (handle : Nat) : Sound (s.act (.drop handle)) defs := by
  unfold act
  dsimp only
  split
  next x hx =>
    have outside := h.counted.perm ((hand_remove hx).symm.trans List.perm_append_comm)
    obtain ⟨counted, bodied, length⟩ := Cell.release_spec outside h.bodied
    exact ⟨counted, bodied, h.layered, fun x hx => length.symm ▸ h.declared x hx,
      (h.fits.remove handle).sub fun hx => hx⟩
  next => exact h

/-! ## 4. Every state -/

/-- The definition that an act makes. -/
def defines (s : Shelf α) : Act α → List (RuleId × Held α)
  | .define rule body =>
    match s.handle? rule, s.handle? body with
    | some (.rule id _), some (.parser held) => [(id, held)]
    | _, _ => []
  | _ => []

/-- A state was reached by some acts, and these are the definitions made on the way, the last one
first. -/
inductive Reaches : Shelf α → List (RuleId × Held α) → Prop where
  | empty : Reaches empty []
  | act {s : Shelf α} {defs : List (RuleId × Held α)} (h : Reaches s defs) (a : Act α) :
    Reaches (s.act a) (s.defines a ++ defs)

theorem Sound.act (h : Sound s defs) (a : Act α) : Sound (s.act a) (s.defines a ++ defs) := by
  cases a with
  | declare name => exact h.declare name
  | refer rule => exact h.refer rule
  | clone parser => exact h.clone parser
  | compose shape parts => exact h.compose shape parts
  | drop handle => exact h.drop handle
  | define rule body =>
    rw [defines]
    split
    next id name held hrule hbody => exact h.define hrule hbody
    next refused =>
      rw [Shelf.act]
      split
      next id name held hrule hbody => exact absurd hbody (refused id name held hrule)
      next => exact h

/-- **Everything is right in every state.** -/
theorem Reaches.sound (h : Reaches s defs) : Sound s defs := by
  induction h with
  | empty => exact sound_empty
  | act _ a ih => exact ih.act a

/-! ## 5. Rules that are alive -/

/-- A rule is alive if a handle keeps it alive, or the body of a defined rule that is alive. -/
inductive Alive (s : Shelf α) (defs : List (RuleId × Held α)) : RuleId → Prop where
  | held {h : Nat} {x : Handle α} {id : RuleId} (hx : s.handle? h = some x) (keeps : id ∈ x.keeps) :
    Alive s defs id
  | inside {id id' : RuleId} {held : Held α} (alive : Alive s defs id') (body : (id', held) ∈ defs)
    (keeps : id ∈ held.keeps) : Alive s defs id

/-- What a body keeps stands further back among the definitions. -/
theorem Layered.idxOf_lt (h : Layered defs) {held : Held α} (body : (id, held) ∈ defs) {id' : RuleId}
    (keeps : id' ∈ held.keeps) :
    id' ∈ defs.map Prod.fst ∧ (defs.map Prod.fst).idxOf id < (defs.map Prod.fst).idxOf id' := by
  induction defs with
  | nil => exact absurd body List.not_mem_nil
  | cons first defs ih =>
    obtain ⟨before, once, rest⟩ := h
    rw [List.map_cons]
    rcases List.mem_cons.1 body with rfl | body
    · have differ : id ≠ id' := fun same => once (same ▸ before keeps)
      rw [List.idxOf_cons_self, List.idxOf_cons_ne _ differ]
      exact ⟨List.mem_cons_of_mem _ (before keeps), Nat.succ_pos _⟩
    · obtain ⟨inside, lt⟩ := ih rest body
      have own : first.1 ≠ id := fun same => once (same ▸ List.mem_map_of_mem body)
      have differ : first.1 ≠ id' := fun same => once (same ▸ inside)
      rw [List.idxOf_cons_ne _ own, List.idxOf_cons_ne _ differ]
      exact ⟨List.mem_cons_of_mem _ inside, Nat.succ_lt_succ lt⟩

/-- **A rule is counted as long as it is alive.** -/
theorem Sound.pos_iff_alive (h : Sound s defs) : 0 < Cell.strongOf s.cells id ↔ Alive s defs id := by
  constructor
  · -- the body that keeps the rule belongs to a later definition
    induction hn : (defs.map Prod.fst).idxOf id using Nat.strongRecOn generalizing id with
    | ind n ih =>
      intro counted
      rcases h.counted.pos_iff.1 counted with outside | inside
      · obtain ⟨_, _, hx, keeps⟩ := mem_hand.1 outside
        exact .held hx keeps
      · obtain ⟨id', held, body, keeps⟩ := Cell.mem_kept.1 inside
        obtain ⟨defined, counted'⟩ := (h.bodied id' held).1 body
        have later := (h.layered.idxOf_lt defined keeps).2
        exact .inside (ih _ (hn ▸ later) rfl counted') defined keeps
  · intro alive
    induction alive with
    | held hx keeps => exact h.counted.pos_of_mem (mem_hand.2 ⟨_, _, hx, keeps⟩)
    | inside _ defined keeps ih =>
      have body := (h.bodied _ _).2 ⟨defined, ih⟩
      exact h.counted.pos_iff.2 (.inr (Cell.mem_kept.2 ⟨_, _, body, keeps⟩))

theorem join_grammar (s : Shelf α) (id : RuleId) :
    (s.grammar[id]?).join = (Cell.body? s.cells id).map Held.parser := by
  rw [grammar, List.getElem?_toArray, List.getElem?_map, Cell.body?]
  cases s.cells[id]? <;> rfl

/-- **A rule can be called exactly if it was defined and is alive**, and then its body is the parser that
it was defined to be. -/
theorem Reaches.callable_iff (h : Reaches s defs) {body : Parser α} :
    (s.grammar[id]?).join = some body ↔
      Alive s defs id ∧ ∃ held, (id, held) ∈ defs ∧ held.parser = body := by
  rw [join_grammar, Option.map_eq_some_iff]
  constructor
  · rintro ⟨held, given, same⟩
    obtain ⟨defined, counted⟩ := (h.sound.bodied id held).1 given
    exact ⟨h.sound.pos_iff_alive.1 counted, held, defined, same⟩
  · rintro ⟨alive, held, defined, same⟩
    exact ⟨held, (h.sound.bodied id held).2 ⟨defined, h.sound.pos_iff_alive.2 alive⟩, same⟩

/-- A call of the rule is a misuse: it was never defined, or it is not alive any more. -/
def Misused (s : Shelf α) (defs : List (RuleId × Held α)) (id : RuleId) : Prop :=
  (∀ held, (id, held) ∉ defs) ∨ ¬ Alive s defs id

/-- A rule cannot be called exactly if calling it is a misuse. -/
theorem Reaches.not_callable_iff (h : Reaches s defs) :
    (s.grammar[id]?).join = none ↔ Misused s defs id := by
  rw [Option.eq_none_iff_forall_ne_some]
  constructor
  · intro none
    by_cases alive : Alive s defs id
    · exact .inl fun held defined => none _ (h.callable_iff.2 ⟨alive, held, defined, rfl⟩)
    · exact .inr alive
  · rintro misused body given
    obtain ⟨alive, held, defined, -⟩ := h.callable_iff.1 given
    exact misused.elim (fun undefined => undefined held defined) fun dead => dead alive

/-- A body does not keep its own rule alive, although it may refer to it. -/
theorem Reaches.not_keeps_own (h : Reaches s defs) {held : Held α} (defined : (id, held) ∈ defs) :
    id ∉ held.keeps :=
  fun own => absurd (h.sound.layered.idxOf_lt defined own).2 (Nat.lt_irrefl _)

/-- **References keep nothing alive**: a program that holds nothing else can call no rule, whatever the
bodies of the rules refer to. -/
theorem not_alive_of_references (hs : ∀ h x, s.handle? h = some x → x.keeps = []) :
    ¬ Alive s defs id := by
  intro alive
  induction alive with
  | held hx keeps => exact absurd (hs _ _ hx ▸ keeps) List.not_mem_nil
  | inside _ _ _ ih => exact ih

end Shelf

end LazyPeg
