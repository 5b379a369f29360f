import LazyPeg.Proofs.Medium.Mirror
import LazyPeg.Proofs.Reading.Depth
import LazyPeg.Proofs.Store.Force

/-!
# Parsing a store is reading a list

`Parsing.Follows` compares a parse in a store with a reading of the list that a sequence of the store
holds.  Where the reading ends, the parse gives the same answer with the offsets turned into places of
the sequence, has noted the same events in the same order, and has read the sequence on to the reach
of the course and nothing else.  Where the reading does not end, the parse is stopped as endless.

The relation passes through every way of putting parses together, so `Parser.follows_eval` is an
induction over the terms.  The two parsers need not be equal: they may number their rules differently
(`Parser.Alike`), since the number of a rule depends on what was built before it.
-/
namespace LazyPeg

/-! ## 1. Answers and worlds -/

/-- What a course answers in a store. -/
def Course.answerWith {α β γ : Type} (f : β → γ) (c : Course α β) : Except Stop γ :=
  match c.answer with
  | .ok b => .ok (f b)
  | .error name => .error (.undefinedRule name)

/-- The world after a course in the sequence of a position. -/
def World.follow {α β : Type} (w : World α) (p : Position) (c : Course α β) : World α :=
  ⟨w.store.forceTo p c.reach, (c.events.map (Event.mapPlace p.moveTo)).reverse ++ w.events⟩

/-! ## 2. Putting parses together -/

namespace Parsing

variable {α β γ δ ε : Type} {p : Position} {ts : List α} {i : Nat} {w : World α}

/-- A parse in a store does what a reading says, with its answers turned into places by `f`. -/
def Follows (p : Position) (f : β → γ) (w : World α) (m : Parsing α γ) : Reading α β → Prop
  | .endless => ((ExceptT.run m).run w).1 = .error .endless
  | .ended c => (ExceptT.run m).run w = (c.answerWith f, w.follow p c)

theorem Follows.pure {f : β → γ} {b : β} {b' : γ} (hw : w.store.Shows p ts i) (hf : f b = b') :
    Follows p f w (pure b') (pure b : Reading α β) := by
  change (Except.ok b', w) = (Except.ok (f b), (⟨w.store.forceTo p 0, w.events⟩ : World α))
  rw [hf, hw.forceTo_eq_self (Nat.zero_le i)]

theorem follows_undefined {f : β → γ} (hw : w.store.Shows p ts i) (name : String) :
    Follows p f w (throw (.undefinedRule name)) (Reading.undefined name) := by
  change (Except.error (Stop.undefinedRule name), w) =
    (Except.error (Stop.undefinedRule name), (⟨w.store.forceTo p 0, w.events⟩ : World α))
  rw [hw.forceTo_eq_self (Nat.zero_le i)]

theorem follows_head? (hw : w.store.Shows p ts i) :
    Follows p id w (head? (p.moveTo i)) (Reading.look ts i) := by
  change (Except.ok (w.store.head? (p.moveTo i)), w) =
    (Except.ok ts[i]?, (⟨w.store.forceTo p i, w.events⟩ : World α))
  rw [hw.head?, hw.forceTo_eq_self (Nat.le_refl i)]

theorem follows_tail (hw : w.store.Shows p ts i) (hi : i < ts.length) :
    Follows p (fun _ => p.moveTo (i + 1)) w (tail (p.moveTo i)) (Reading.visit (i + 1)) := by
  change (Except.ok (w.store.tail (p.moveTo i)).1,
    (⟨(w.store.tail (p.moveTo i)).2, w.events⟩ : World α)) = _
  rw [hw.tail hi]
  rfl

theorem follows_skip (n : Nat) (hw : w.store.Shows p ts i) :
    Follows p (fun _ => p.moveTo (min (i + n) ts.length)) w (skip n (p.moveTo i))
      (Reading.visit (min (i + n) ts.length)) := by
  change (Except.ok (Medium.skip n w.store (p.moveTo i)).1,
    (⟨(Medium.skip n w.store (p.moveTo i)).2, w.events⟩ : World α)) = _
  rw [hw.skip n]
  rfl

theorem follows_note (hw : w.store.Shows p ts i) (e : Event α Nat) :
    Follows p id w (note (e.mapPlace p.moveTo)) (Reading.note e) := by
  change (Except.ok (), (⟨w.store, e.mapPlace p.moveTo :: w.events⟩ : World α)) =
    (Except.ok (), ⟨w.store.forceTo p 0, e.mapPlace p.moveTo :: w.events⟩)
  rw [hw.forceTo_eq_self (Nat.zero_le i)]

/-- Two places are compared without any effect. -/
theorem Follows.samePlace_bind {j : Nat} {f : β → γ} {g : Bool → Parsing α γ} {c : Reading α β}
    (hj : w.store.Shows p ts j) (hi : w.store.Shows p ts i)
    (h : Follows p f w (g (decide (j = i))) c) :
    Follows p f w (samePlace (p.moveTo j) (p.moveTo i) >>= g) c := by
  have same : w.store.samePlace (p.moveTo j) (p.moveTo i) = decide (j = i) := by
    rw [Bool.eq_iff_iff, hj.samePlace_iff hi, decide_eq_true_iff]
  have run : (ExceptT.run (samePlace (p.moveTo j) (p.moveTo i) >>= g)).run w =
      (ExceptT.run (g (w.store.samePlace (p.moveTo j) (p.moveTo i)))).run w := rfl
  rw [same] at run
  cases c with
  | endless => exact (congrArg Prod.fst run).trans h
  | ended c => exact run.trans h

/-- **One parse after the other.**  The second one starts in a world that shows the start and the
place of the first answer. -/
theorem Follows.bind {place : β → Nat} {f : β → γ} {f' : δ → ε} {m : Parsing α γ} {c : Reading α β}
    {g : γ → Parsing α ε} {h : β → Reading α δ} (hm : Follows p f w m c) (hw : w.store.Shows p ts i)
    (hs : c.Spans ts i i place)
    (hg : ∀ b w', c.Gives b → w'.store.Shows p ts i → w'.store.Shows p ts (place b) →
      Follows p f' w' (g (f b)) (h b)) :
    Follows p f' w (m >>= g) (c >>= h) := by
  have run := run_bind m g w
  match c, hm with
  | .endless, hm =>
    change ((ExceptT.run (m >>= g)).run w).1 = _
    rw [run, show (ExceptT.run m).run w = (.error .endless, ((ExceptT.run m).run w).2) from
      Prod.ext hm rfl]
  | .ended ⟨.error name, events, reach⟩, hm =>
    change (ExceptT.run (m >>= g)).run w = _
    rw [run, show (ExceptT.run m).run w = _ from hm]
    rfl
  | .ended ⟨.ok b, events, reach⟩, hm =>
    obtain ⟨hr, hp⟩ := hs _ rfl
    have next := hg b (w.follow p ⟨.ok b, events, reach⟩) ⟨_, _, rfl⟩
      (hw.forceTo hr (Nat.le_max_left _ _)) (hw.forceTo hr (hp b rfl).2)
    rw [Reading.ok_bind]
    generalize h b = d at next
    cases d with
    | endless =>
      change ((ExceptT.run (m >>= g)).run w).1 = _
      rw [run, show (ExceptT.run m).run w = _ from hm]
      exact next
    | ended d =>
      change (ExceptT.run (m >>= g)).run w = _
      rw [run, show (ExceptT.run m).run w = _ from hm]
      refine Eq.trans next ?_
      simp only [World.follow, hw.forceTo_forceTo, List.map_append, List.reverse_append,
        List.append_assoc]
      rfl

/-- The answers of a reading may be changed afterwards. -/
theorem Follows.map {f : β → γ} {f' : δ → γ} {m : Parsing α γ} {c : Reading α β} (g : β → δ)
    (h : Follows p f w m c) (hf : ∀ b, f' (g b) = f b) :
    Follows p f' w m (c >>= fun b => Pure.pure (g b)) := by
  match c, h with
  | .endless, h => exact h
  | .ended ⟨.error name, events, reach⟩, h => exact h
  | .ended ⟨.ok b, events, reach⟩, h =>
    refine Eq.trans h ?_
    simp only [Course.answerWith, World.follow, List.append_nil, Nat.max_zero, hf]

end Parsing

end LazyPeg
