import LazyPeg.Proofs.Pattern.Alternation
import LazyPeg.Proofs.Pattern.Stretches

/-!
# What is read into a pattern

A reader of alternatives gathers parts, one after the other (`Continues`), and makes a pattern of them when
it stops.  Three properties follow from what one step does.

* What is gathered stays in the pattern, so that the pattern is nested as deeply as any of it
  (`maxDepth_le_of_reads?`).
* The bounds of repetitions are in order (`proper_of_reads?`), and flags do not change them
  (`proper_of_meaning?`).
* The pattern has a meaning only if what was gathered before has one (`isSome_after?_of_reads?`).
-/
namespace LazyPeg.Pattern

/-! ## 1. One part more -/

/-- A part that is read at once. -/
inductive Ast.Single : Ast → Prop
  | primitive (x : Primitive) : Single x.ast
  | bracketed (negated : Bool) (set : ClassSet) : Single (.bracketed negated set)
  | flags (changes : FlagChanges) : Single (.flags changes)

/-- What a reader of alternatives has gathered, before and after one step.  `n` is the bound for the
alternatives in a group. -/
inductive Continues (n : Nat) : (branches items branches' items' : List Ast) → Prop
  | bar (branches items : List Ast) :
      Continues n branches items (Ast.ofItems items.reverse :: branches) []
  | single (branches items : List Ast) {a : Ast} (h : a.Single) :
      Continues n branches items branches (a :: items)
  | group (branches items : List Ast) (changes : FlagChanges) {a : Ast} {verbose : Bool}
      {names : List (List Char)} {cs rest : List Char} {y : Bool × List (List Char)}
      (h : reads? n [] [] verbose names cs = some ((a, y), rest)) :
      Continues n branches items branches (.group changes a :: items)
  | repeated (branches : List Ast) {items items' : List Ast} {least : Nat} {most : Option Nat}
      (proper : most.all (least ≤ ·)) (h : repeatLast? least most items = some items') :
      Continues n branches items branches items'

section
variable {n : Nat} {branches items : List Ast} {verbose : Bool} {names : List (List Char)}
  {cs rest : List Char} {y : Ast × Bool × List (List Char)}

theorem exists_continues_of_inGroup? {changes : FlagChanges} {inside : List (List Char)}
    (h : inGroup? n branches items verbose changes inside cs = some (y, rest)) :
    ∃ branches' items' verbose' names' cs', Continues n branches items branches' items' ∧
      reads? n branches' items' verbose' names' cs' = some (y, rest) := by
  obtain ⟨⟨⟨a, z⟩, mid⟩, read, h⟩ := Option.bind_eq_some_iff.1 h
  dsimp only at h
  split at h
  · exact ⟨_, _, _, _, _, .group branches items changes read, h⟩
  · cases h

/-- A reader of alternatives goes on in one of these ways. -/
theorem exists_continues_of_fromPart? (h : fromPart? n branches items verbose names cs = some (y, rest)) :
    ∃ branches' items' verbose' names' cs', Continues n branches items branches' items' ∧
      reads? n branches' items' verbose' names' cs' = some (y, rest) := by
  unfold fromPart? at h
  split at h
  · exact ⟨_, _, _, _, _, .bar branches items, h⟩
  · obtain ⟨⟨a, mid⟩, read, h⟩ := Option.bind_eq_some_iff.1 h
    rw [class?_eq] at read
    obtain ⟨head, -, read⟩ := Option.bind_eq_some_iff.1 read
    obtain ⟨set, -, read⟩ := Option.bind_eq_some_iff.1 read
    cases read
    exact ⟨_, _, _, _, _, .single branches items (.bracketed head.1.1 set.1), h⟩
  · obtain ⟨items', repeated, h⟩ := Option.bind_eq_some_iff.1 h
    exact ⟨_, _, _, _, _, .repeated branches rfl repeated, h⟩
  · obtain ⟨items', repeated, h⟩ := Option.bind_eq_some_iff.1 h
    exact ⟨_, _, _, _, _, .repeated branches rfl repeated, h⟩
  · obtain ⟨items', repeated, h⟩ := Option.bind_eq_some_iff.1 h
    exact ⟨_, _, _, _, _, .repeated branches rfl repeated, h⟩
  · obtain ⟨⟨bounds, mid⟩, read, h⟩ := Option.bind_eq_some_iff.1 h
    obtain ⟨items', repeated, h⟩ := Option.bind_eq_some_iff.1 h
    exact ⟨_, _, _, _, _, .repeated branches (all_le_of_bounds? verbose read) repeated, h⟩
  · obtain ⟨⟨opening, mid⟩, -, h⟩ := Option.bind_eq_some_iff.1 h
    cases opening with
    | flags changes => exact ⟨_, _, _, _, _, .single branches items (.flags changes), h⟩
    | group changes => exact exists_continues_of_inGroup? h
    | named name =>
      dsimp only [opened?] at h
      split at h
      · cases h
      · exact exists_continues_of_inGroup? h
  · obtain ⟨⟨x, mid⟩, read, h⟩ := Option.bind_eq_some_iff.1 h
    exact ⟨_, _, _, _, _, .single branches items (.primitive x), h⟩

/-- The alternatives are those that were gathered, or some that are gathered in another step. -/
theorem reads?_cases (h : reads? (n + 1) branches items verbose names cs = some (y, rest)) :
    y.1 = done branches items ∨
      ∃ branches' items' verbose' names' cs', Continues n branches items branches' items' ∧
        reads? n branches' items' verbose' names' cs' = some (y, rest) := by
  rw [reads?_succ] at h
  unfold fromSettled? at h
  split at h
  · cases h
    exact .inl rfl
  · cases h
    exact .inl rfl
  · exact .inr (exists_continues_of_fromPart? h)

end

/-! ## 2. Nesting -/

theorem maxDepth_append (as bs : List Ast) :
    Ast.maxDepth (as ++ bs) = max (Ast.maxDepth as) (Ast.maxDepth bs) := by
  induction as with
  | nil => simp [Ast.maxDepth]
  | cons a as ih => simp [Ast.maxDepth, ih, Nat.max_assoc]

theorem maxDepth_reverse (as : List Ast) : Ast.maxDepth as.reverse = Ast.maxDepth as := by
  induction as with
  | nil => rfl
  | cons a as ih => simp [Ast.maxDepth, maxDepth_append, ih, Nat.max_comm]

theorem maxDepth_le_ofItems (items : List Ast) : Ast.maxDepth items ≤ (Ast.ofItems items).depth := by
  rcases items with _ | ⟨a, _ | ⟨b, items⟩⟩
  · exact Nat.le_refl 0
  · simp [Ast.maxDepth, Ast.ofItems]
  · simp [Ast.ofItems, Ast.depth]

theorem maxDepth_le_ofBranches (branches : List Ast) :
    Ast.maxDepth branches ≤ (Ast.ofBranches branches).depth := by
  rcases branches with _ | ⟨a, _ | ⟨b, branches⟩⟩
  · exact Nat.zero_le _
  · simp [Ast.maxDepth, Ast.ofBranches]
  · simp [Ast.ofBranches, Ast.depth]

/-- One step loses no depth. -/
theorem Continues.maxDepth_le {n : Nat} {branches items branches' items' : List Ast}
    (h : Continues n branches items branches' items') :
    max (Ast.maxDepth branches) (Ast.maxDepth items) ≤
      max (Ast.maxDepth branches') (Ast.maxDepth items') := by
  cases h with
  | bar =>
    have := maxDepth_le_ofItems items.reverse
    rw [maxDepth_reverse] at this
    simp only [Ast.maxDepth]
    omega
  | single | group =>
    simp only [Ast.maxDepth]
    omega
  | repeated proper h =>
    unfold repeatLast? at h
    split at h
    · cases h
    · cases h
    · cases h
      simp only [Ast.maxDepth, Ast.depth]
      omega

/-- **A pattern is nested as deeply as what was gathered before.** -/
theorem maxDepth_le_of_reads? {n : Nat} {branches items : List Ast} {verbose : Bool}
    {names : List (List Char)} {cs rest : List Char} {y : Ast × Bool × List (List Char)}
    (h : reads? n branches items verbose names cs = some (y, rest)) :
    max (Ast.maxDepth branches) (Ast.maxDepth items) ≤ y.1.depth := by
  induction n generalizing branches items verbose names cs with
  | zero => cases h
  | succ n ih =>
    rcases reads?_cases h with last | ⟨branches', items', verbose', names', cs', step, h⟩
    · have whole := maxDepth_le_ofBranches (Ast.ofItems items.reverse :: branches).reverse
      have branch := maxDepth_le_ofItems items.reverse
      rw [maxDepth_reverse] at whole branch
      rw [last, done]
      simp only [Ast.maxDepth] at whole
      omega
    · exact Nat.le_trans step.maxDepth_le (ih h)

/-! ## 3. Bounds of repetitions -/

mutual

/-- The bounds of repetitions are in order. -/
def Ast.Proper : Ast → Prop
  | .repetition least most a => (∀ m ∈ most, least ≤ m) ∧ a.Proper
  | .group _ a => a.Proper
  | .alternation branches => Ast.AllProper branches
  | .concat items => Ast.AllProper items
  | _ => True

/-- The bounds of repetitions are in order in several patterns. -/
def Ast.AllProper : List Ast → Prop
  | [] => True
  | a :: as => a.Proper ∧ Ast.AllProper as

end

theorem allProper_iff {as : List Ast} : Ast.AllProper as ↔ ∀ a ∈ as, a.Proper := by
  induction as with
  | nil => simp [Ast.AllProper]
  | cons a as ih => simp [Ast.AllProper, ih]

theorem proper_ofItems {items : List Ast} (h : ∀ a ∈ items, a.Proper) : (Ast.ofItems items).Proper := by
  rcases items with _ | ⟨a, _ | ⟨b, items⟩⟩
  · trivial
  · exact h a List.mem_cons_self
  · exact allProper_iff.2 h

theorem proper_ofBranches {branches : List Ast} (h : ∀ a ∈ branches, a.Proper) :
    (Ast.ofBranches branches).Proper := by
  rcases branches with _ | ⟨a, _ | ⟨b, branches⟩⟩
  · trivial
  · exact h a List.mem_cons_self
  · exact allProper_iff.2 h

theorem Ast.Single.proper {a : Ast} (h : a.Single) : a.Proper := by
  cases h with
  | primitive x => cases x <;> trivial
  | bracketed => trivial
  | flags => trivial

/-- One step keeps the bounds in order, if the alternatives in a group do. -/
theorem Continues.proper {n : Nat} {branches items branches' items' : List Ast}
    (h : Continues n branches items branches' items')
    (inner : ∀ {verbose names cs y rest}, reads? n [] [] verbose names cs = some (y, rest) → y.1.Proper)
    (hb : ∀ a ∈ branches, a.Proper) (hi : ∀ a ∈ items, a.Proper) :
    (∀ a ∈ branches', a.Proper) ∧ ∀ a ∈ items', a.Proper := by
  cases h with
  | bar =>
    have branch : (Ast.ofItems items.reverse).Proper :=
      proper_ofItems fun a ha => hi a (List.mem_reverse.1 ha)
    exact ⟨List.forall_mem_cons.2 ⟨branch, hb⟩, nofun⟩
  | single h => exact ⟨hb, List.forall_mem_cons.2 ⟨h.proper, hi⟩⟩
  | group _ h => exact ⟨hb, List.forall_mem_cons.2 ⟨inner h, hi⟩⟩
  | repeated proper h =>
    unfold repeatLast? at h
    split at h
    · cases h
    · cases h
    · cases h
      obtain ⟨last, hi⟩ := List.forall_mem_cons.1 hi
      exact ⟨hb, List.forall_mem_cons.2 ⟨⟨by simpa [Option.all_eq_true] using proper, last⟩, hi⟩⟩

/-- **The bounds of repetitions are in order in whatever is read.** -/
theorem proper_of_reads? {n : Nat} {branches items : List Ast} {verbose : Bool}
    {names : List (List Char)} {cs rest : List Char} {y : Ast × Bool × List (List Char)}
    (h : reads? n branches items verbose names cs = some (y, rest))
    (hb : ∀ a ∈ branches, a.Proper) (hi : ∀ a ∈ items, a.Proper) : y.1.Proper := by
  induction n generalizing branches items verbose names cs y rest with
  | zero => cases h
  | succ n ih =>
    rcases reads?_cases h with last | ⟨branches', items', verbose', names', cs', step, h⟩
    · rw [last]
      refine proper_ofBranches fun a ha => ?_
      rcases List.mem_cons.1 (List.mem_reverse.1 ha) with rfl | ha
      · exact proper_ofItems fun a ha => hi a (List.mem_reverse.1 ha)
      · exact hb a ha
    · obtain ⟨hb, hi⟩ := step.proper (fun h => ih h nofun nofun) hb hi
      exact ih h hb hi

/-- A set of characters has no repetitions. -/
theorem proper_of_bind_set {o : Option CharSet} {f f' : Flags} {p : Pattern}
    (h : (o.bind fun s => some (Pattern.set s, f)) = some (p, f')) : p.Proper := by
  obtain ⟨s, -, same⟩ := Option.bind_eq_some_iff.1 h
  cases same
  trivial

mutual

/-- The meaning of a pattern has bounds in order, too. -/
theorem proper_of_meaning? {f f' : Flags} {p : Pattern} : (a : Ast) → a.Proper →
    a.meaning? f = some (p, f') → p.Proper
  | .empty, _, h => by cases h; trivial
  | .flags _, _, h => by cases h; trivial
  | .symbol s, _, h => by
    obtain ⟨q, hq, same⟩ := Option.bind_eq_some_iff.1 h
    cases same
    unfold Symbol.meaning? at hq
    split at hq
    · cases hq
    · cases hq
      trivial
  | .dot, _, h => proper_of_bind_set h
  | .assertion _, _, h => by cases h; trivial
  | .property _ _, _, h => proper_of_bind_set h
  | .short _ _, _, h => proper_of_bind_set h
  | .bracketed _ _, _, h => by
    obtain ⟨_, -, h⟩ := Option.bind_eq_some_iff.1 h
    exact proper_of_bind_set h
  | .repetition _ _ a, proper, h => by
    obtain ⟨⟨q, _⟩, hq, same⟩ := Option.bind_eq_some_iff.1 h
    cases same
    exact ⟨proper.1, proper_of_meaning? a proper.2 hq⟩
  | .group _ a, proper, h => by
    obtain ⟨⟨q, _⟩, hq, same⟩ := Option.bind_eq_some_iff.1 h
    cases same
    exact proper_of_meaning? a proper hq
  | .alternation branches, proper, h => proper_of_branchesMeaning? branches proper h
  | .concat items, proper, h => proper_of_itemsMeaning? items proper h

theorem proper_of_itemsMeaning? {f f' : Flags} {p : Pattern} : (items : List Ast) → Ast.AllProper items →
    Ast.itemsMeaning? f items = some (p, f') → p.Proper
  | [], _, h => by cases h; trivial
  | a :: items, proper, h => by
    obtain ⟨⟨q, _⟩, hq, h⟩ := Option.bind_eq_some_iff.1 h
    obtain ⟨⟨q', _⟩, hq', same⟩ := Option.bind_eq_some_iff.1 h
    cases same
    exact ⟨proper_of_meaning? a proper.1 hq, proper_of_itemsMeaning? items proper.2 hq'⟩

theorem proper_of_branchesMeaning? {f f' : Flags} {p : Pattern} : (branches : List Ast) →
    Ast.AllProper branches → Ast.branchesMeaning? f branches = some (p, f') → p.Proper
  | [], _, h => by cases h; trivial
  | a :: branches, proper, h => by
    obtain ⟨⟨q, _⟩, hq, h⟩ := Option.bind_eq_some_iff.1 h
    obtain ⟨⟨q', _⟩, hq', same⟩ := Option.bind_eq_some_iff.1 h
    cases same
    exact ⟨proper_of_meaning? a proper.1 hq, proper_of_branchesMeaning? branches proper.2 hq'⟩

end

/-! ## 4. What has a meaning -/

/-- The flags behind a pattern, if it has a meaning. -/
def Ast.after? (f : Flags) (a : Ast) : Option Flags := (a.meaning? f).map (·.2)

section
variable (f : Flags)

theorem after?_items (items : List Ast) :
    (Ast.itemsMeaning? f items).map (·.2) = items.foldlM Ast.after? f := by
  induction items generalizing f with
  | nil => rfl
  | cons a items ih =>
    rw [List.foldlM_cons, Ast.itemsMeaning?, Ast.after?]
    cases a.meaning? f with
    | none => rfl
    | some y =>
      refine Eq.trans ?_ (ih y.2)
      simp only [Option.bind_eq_bind, Option.bind_some]
      cases Ast.itemsMeaning? y.2 items <;> rfl

theorem after?_branches (branches : List Ast) :
    (Ast.branchesMeaning? f branches).map (·.2) = branches.foldlM Ast.after? f := by
  induction branches generalizing f with
  | nil => rfl
  | cons a branches ih =>
    rw [List.foldlM_cons, Ast.branchesMeaning?, Ast.after?]
    cases a.meaning? f with
    | none => rfl
    | some y =>
      refine Eq.trans ?_ (ih y.2)
      simp only [Option.bind_eq_bind, Option.bind_some]
      cases Ast.branchesMeaning? y.2 branches <;> rfl

theorem after?_ofItems (items : List Ast) : (Ast.ofItems items).after? f = items.foldlM Ast.after? f := by
  rcases items with _ | ⟨a, _ | ⟨b, items⟩⟩
  · rfl
  · exact (bind_pure _).symm
  · exact after?_items f (a :: b :: items)

theorem after?_ofBranches (branches : List Ast) :
    (Ast.ofBranches branches).after? f = branches.foldlM Ast.after? f := by
  rcases branches with _ | ⟨a, _ | ⟨b, branches⟩⟩
  · rfl
  · exact (bind_pure _).symm
  · exact after?_branches f (a :: b :: branches)

theorem after?_repetition (least : Nat) (most : Option Nat) (a : Ast) :
    (Ast.repetition least most a).after? f = a.after? f := by
  rw [Ast.after?, Ast.meaning?, Ast.after?]
  cases a.meaning? f <;> rfl

theorem after?_group (changes : FlagChanges) (a : Ast) :
    (Ast.group changes a).after? f = (a.after? (f.change changes)).map fun _ => f := by
  rw [Ast.after?, Ast.meaning?, Ast.after?]
  cases a.meaning? (f.change changes) <;> rfl

/-- The flags go from one part to the next, and from the last part of a branch to the next branch. -/
theorem after?_done (branches items : List Ast) : (done branches items).after? f =
    (branches.reverse.foldlM Ast.after? f).bind fun f => items.reverse.foldlM Ast.after? f := by
  rw [done, after?_ofBranches, List.reverse_cons, List.foldlM_append]
  refine congrArg (Option.bind _) (funext fun f => ?_)
  rw [List.foldlM_cons, after?_ofItems]
  exact bind_pure _

end

/-- In one step nothing gets a meaning that had none. -/
theorem Continues.after?_eq_none {n : Nat} {branches items branches' items' : List Ast} {f : Flags}
    (h : Continues n branches items branches' items') (vain : (done branches items).after? f = none) :
    (done branches' items').after? f = none := by
  rw [after?_done] at vain ⊢
  -- A part that is added comes last.
  have more (a : Ast) : ((branches.reverse.foldlM Ast.after? f).bind fun f =>
      (a :: items).reverse.foldlM Ast.after? f) = none := by
    simp only [List.reverse_cons, List.foldlM_append]
    exact Option.bind_assoc .. ▸ congrArg (Option.bind · _) vain
  cases h with
  | bar =>
    rw [List.reverse_cons, List.foldlM_append]
    simp only [List.foldlM_cons, after?_ofItems, List.foldlM_nil, bind_pure]
    exact congrArg (Option.bind · _) vain
  | single => exact more _
  | group => exact more _
  | repeated proper h =>
    unfold repeatLast? at h
    split at h
    · cases h
    · cases h
    · cases h
      simpa [after?_repetition] using vain

/-- **A pattern has a meaning only if what was gathered before has one.** -/
theorem isSome_after?_of_reads? {n : Nat} {branches items : List Ast} {verbose : Bool}
    {names : List (List Char)} {cs rest : List Char} {y : Ast × Bool × List (List Char)} {f : Flags}
    (h : reads? n branches items verbose names cs = some (y, rest)) (hy : (y.1.after? f).isSome) :
    ((done branches items).after? f).isSome := by
  induction n generalizing branches items verbose names cs with
  | zero => cases h
  | succ n ih =>
    rcases reads?_cases h with last | ⟨branches', items', verbose', names', cs', step, h⟩
    · exact last ▸ hy
    · refine Option.isSome_iff_ne_none.2 fun vain => ?_
      exact Option.isSome_iff_ne_none.1 (ih h) (step.after?_eq_none vain)

end LazyPeg.Pattern
