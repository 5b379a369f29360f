import LazyPeg.Proofs.Session.Sound

/-!
# The sessions that can be reached

`Session.Reaches` relates descriptions to the sessions that come about when one is begun with them and
steps are carried out, any steps in any order.  It carries the feeds that were opened so far, in order,
and the places that were moved to, the last one first.  Both are computed from the descriptions and the
steps: the feeds are written in them, and the places are in the list that `Watched` keeps.  Every session
that steps lead to is reached (`Session.Reaches.after`).

What stays in such a session: it is grounded (`Reaches.grounded`), its store came about by opening the
feeds and moving to the places (`Reaches.goes`), and its parsers are the ones that were described
(`Reaches.holds`).
-/
namespace LazyPeg

namespace Session

variable {α : Type} [Token α] [DecidableEq α]

/-! ## 1. Reached sessions -/

/-- The first places of the sequences that are opened when a session begins, the last one first. -/
def openings (ds : List (Description α)) : List Position :=
  match (beginIn ⟨Store.new, []⟩ ds :
    Except BuildError (Session α (Watched (Store α)) (Tracked Position))) with
  | .ok w => w.store.moves
  | .error _ => []

/-- A session was reached with these descriptions.  On the way these feeds were opened, and sequences
were moved to these places. -/
inductive Reaches (ds : List (Description α)) :
    Session α → List (Feed α) → List Position → Prop where
  | begin {s : Session α} (h : Session.begin ds = .ok s) :
    Reaches ds s (Description.feedsAll ds) (openings ds)
  | step {s : Session α} {feeds : List (Feed α)} {forced : List Position}
    (h : Reaches ds s feeds forced) (x : Step α) :
    Reaches ds (s.step x).2 (feeds ++ x.feeds) (s.moves x ++ forced)

variable {ds : List (Description α)} {s : Session α} {feeds : List (Feed α)} {forced : List Position}

/-- A session begins with what was built, and with no sequence opened. -/
theorem begin_eq (h : Session.begin ds = .ok s) :
    ∃ qs w, (Description.buildAll [] ds).run ⟨Store.new, #[]⟩ = .ok (qs, w) ∧
      s = ⟨w, qs.toArray, #[], #[], #[]⟩ := by
  unfold Session.begin beginIn at h
  rcases hb : (Description.buildAll [] ds).run ⟨Store.new, #[]⟩ with why | ⟨qs, w⟩
  · rw [hb] at h
    exact absurd h (by simp [bind, Except.bind])
  · rw [hb] at h
    exact ⟨qs, w, rfl, (Except.ok.inj h).symm⟩

/-- A session begins as the one does that keeps a list of the places moved to. -/
theorem mirrors_begin (h : Session.begin ds = .ok s) :
    ∃ w, openings ds = w.store.moves ∧ Mirrors (listing Store.new) (Description.feedsAll ds) w s := by
  have empty : (listing Store.new).States [] 0 ⟨Store.new, []⟩ (Store.new : Store α) :=
    ⟨⟨rfl, fun x hx => absurd hx (Multiset.notMem_zero x)⟩, .refl, fun x hx =>
      absurd hx (Multiset.notMem_zero x)⟩
  obtain ⟨why, -, refused⟩ | ⟨w, s', hw, hs, both⟩ := mirrors_beginIn empty ds
  · exact absurd (refused.symm.trans h) nofun
  · obtain rfl := Except.ok.inj (hs.symm.trans h)
    exact ⟨w, by rw [openings, hw], both⟩

/-- **Every session that was reached is grounded**, and its store has come about in the way that the
feeds and the places say. -/
theorem Reaches.grounded_goes (h : Reaches ds s feeds forced) :
    s.Grounded ∧ Store.new.Goes feeds forced s.store := by
  induction h with
  | begin h =>
    obtain ⟨w, opened, both⟩ := mirrors_begin h
    obtain ⟨_, _, -, rfl⟩ := begin_eq h
    refine ⟨grounded_of_mirrors both fun source n hn => absurd hn (by simp [source?]), ?_⟩
    obtain ⟨_, _, by_⟩ := both
    exact opened ▸ by_.states.2.1
  | step _ x ih =>
    obtain ⟨grounded, goes⟩ := ih.1.step x
    exact ⟨grounded, ih.2.trans goes⟩

theorem Reaches.grounded (h : Reaches ds s feeds forced) : s.Grounded := h.grounded_goes.1

theorem Reaches.goes (h : Reaches ds s feeds forced) : Store.new.Goes feeds forced s.store :=
  h.grounded_goes.2

theorem Reaches.sound (h : Reaches ds s feeds forced) : s.Sound := h.grounded.toSound

/-- The store of a session goes on with each step. -/
theorem Reaches.goes_step (h : Reaches ds s feeds forced) (x : Step α) :
    s.store.Goes x.feeds (s.moves x) (s.step x).2.store :=
  (h.grounded.step x).2

/-- The places that some steps move to, the last one first. -/
def movesOf (s : Session α) : List (Step α) → List Position
  | [] => []
  | x :: xs => (s.step x).2.movesOf xs ++ s.moves x

/-- **What steps lead to was reached.** -/
theorem Reaches.after (h : Reaches ds s feeds forced) (xs : List (Step α)) :
    Reaches ds (s.after xs) (feeds ++ xs.flatMap Step.feeds) (s.movesOf xs ++ forced) := by
  induction xs generalizing s feeds forced with
  | nil => exact (List.append_nil feeds).symm ▸ h
  | cons x xs ih =>
    rw [List.flatMap_cons, movesOf, ← List.append_assoc feeds, List.append_assoc _ (s.moves x)]
    exact ih (h.step x)

theorem Reaches.counted (h : Reaches ds s feeds forced) : s.store.Counted :=
  h.goes.counted Store.counted_new

/-- The store of a session shows at each of its positions the tokens of the feed. -/
theorem Reaches.shows (h : Reaches ds s feeds forced) {place : Nat} {p : Position}
    (hp : s.position? place = some p) :
    s.store.Shows p (p.tokensOf feeds) p.offset := by
  have shows := (h.sound.positions place p hp).shows
  rwa [h.goes.tokens_eq] at shows

/-! ## 2. The parsers of a session -/

/-- The parser with a number is the one that was described, except for the numbers of its rules. -/
def Holds (s : Session α) (parser : Nat) (d : Description α) : Prop :=
  ∃ q q' w' b, s.parsers[parser]? = some q ∧ (d.build []).run ⟨Store.new, #[]⟩ = .ok (q', w') ∧
    Parser.LikeGrammars (Parser.Shifted b w'.grammar.size) s.workshop.grammar w'.grammar ∧
    w'.grammar.size ≤ s.workshop.grammar.size ∧ Parser.Twin b w'.grammar.size q q'

end Session

namespace Description

variable {α : Type} [Token α] [DecidableEq α] {ds : List (Description α)} {d : Description α}
  {w w' : Workshop α} {qs : List (Parser α)}

/-- Building only adds to a workshop. -/
theorem grows_buildAll (h : (buildAll [] ds).run w = .ok (qs, w')) : w.Grows w' := by
  have same : Workshop.Mirrors (Medium.Mirror.refl α (Store α) Position) [] 0 w w :=
    ⟨⟨rfl, fun x hx => absurd hx (Multiset.notMem_zero x)⟩, rfl,
      fun _ body _ => Parser.founded_of_forall (fun _ => trivial) body⟩
  obtain ⟨why, refused, -⟩ | ⟨_, v, -, built, -, -, -, grows, -⟩ := mirrors_buildAll [] same ds
  · exact absurd (refused.symm.trans h) nofun
  · obtain ⟨-, rfl⟩ := Prod.mk.inj (Except.ok.inj (built.symm.trans h))
    exact grows

/-- Each of several descriptions was built somewhere on the way. -/
theorem exists_built (h : (buildAll [] ds).run w = .ok (qs, w')) {k : Nat} (hd : ds[k]? = some d) :
    ∃ q w₁ w₂, qs[k]? = some q ∧ (d.build []).run w₁ = .ok (q, w₂) ∧ w₂.Grows w' := by
  induction ds generalizing w qs k with
  | nil => exact absurd hd (by simp)
  | cons d' ds ih =>
    obtain ⟨q, w₁, hq, h⟩ := Building.run_bind_ok h
    obtain ⟨rest, w₂, hrest, h⟩ := Building.run_bind_ok h
    obtain ⟨rfl, rfl⟩ := Prod.mk.inj (Except.ok.inj h)
    cases k with
    | zero =>
      obtain rfl := Option.some.inj hd
      exact ⟨q, w, w₁, rfl, hq, grows_buildAll hrest⟩
    | succ k =>
      rw [List.getElem?_cons_succ] at hd
      obtain ⟨q', w₃, w₄, hk, built, grows⟩ := ih hrest hd
      exact ⟨q', w₃, w₄, hk, built, grows⟩

end Description

namespace Session

variable {α : Type} [Token α] [DecidableEq α] {ds : List (Description α)} {s : Session α}
  {feeds : List (Feed α)} {forced : List Position} {k : Nat} {d : Description α}

theorem holds_begin (h : Session.begin ds = .ok s) (hd : ds[k]? = some d) (hl : d.isLocal) :
    s.Holds k d := by
  obtain ⟨qs, w, hb, rfl⟩ := begin_eq h
  obtain ⟨q, w₁, w₂, hk, built, grows⟩ := Description.exists_built hb hd
  obtain ⟨q', w', hq', parallel, twin⟩ := Description.exists_alike hl built
  have size := parallel.size_eq
  have more := grows.size_le
  have le : w'.grammar.size ≤ w.grammar.size := by omega
  refine ⟨q, q', w', w₁.grammar.size, ?_, hq', fun (id id' : Nat) hid => ?_, le, twin⟩
  · rwa [List.getElem?_toArray]
  · have inside : id < w₂.grammar.size := by
      have := hid.1
      have := hid.2
      omega
    rw [grows.kept id inside]
    exact parallel.rules id id' hid

/-- **The parsers of a session are the ones that were described.** -/
theorem Reaches.holds (h : Reaches ds s feeds forced) (hd : ds[k]? = some d) (hl : d.isLocal) :
    s.Holds k d := by
  induction h with
  | begin h => exact holds_begin h hd hl
  | @step s _ _ _ x ih =>
    unfold Holds
    rw [(s.parsers_step x).1, (s.parsers_step x).2]
    exact ih

end Session

end LazyPeg
