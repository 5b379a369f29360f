import Mathlib.Data.Multiset.Basic
import LazyPeg.Diagnostic
import LazyPeg.Proofs.Reading.Bounds

/-!
# Media that mirror each other

Two media keep the same sequences, each in its own way.  A `Medium.Mirror` says how their states and
places go together, and that every operation keeps it so: what the one answers, the other answers too.

A parse does everything by the operations of its medium, and so it comes to the same in both
(`Parser.mirrors_parse`, `Parser.mirrors_run`): the outcomes stand at places that go together, and so do
the events.  `Parsing.Mirrors` says this of two steps of parsing and passes through every way of putting
them together.  All that a parser needs for it is that the places it knows by names are known in both
media (`Parser.Founded`), which is so for every parser that was built.

A mirror also keeps account of what has happened: the feeds that sequences were opened on, in order, and
the places that are held.  A place that is not held may be gone as soon as another one is dropped, so
places stay only as long as nothing is dropped (`Medium.Relation.Onward`).
-/
namespace LazyPeg

/-- The feeds that a sequence is opened on: one, or none for the sequence without tokens. -/
def Input.feeds {α : Type} : Input α → List (Feed α)
  | .feed f => [f]
  | .empty => []

/-! ## 1. Mirrors -/

namespace Medium

/-- How the states and the places of two media go together. -/
structure Relation (α σ σ' π π' : Type) where
  /-- The states go together, with sequences that were opened on these feeds, in order, and with these
  places held, as often as they stand here. -/
  States : List (Feed α) → Multiset (π × π') → σ → σ' → Prop
  /-- The places go together in these states. -/
  Places : σ → σ' → π → π' → Prop
  /-- A parser may know a place of both states by this name. -/
  Names : σ → σ' → Position → Prop

/-- What stays as long as nothing is dropped. -/
structure Relation.Onward {α σ σ' π π' : Type} (R : Relation α σ σ' π π') (m : σ) (m' : σ') (n : σ)
    (n' : σ') : Prop where
  places : ∀ {p p'}, R.Places m m' p p' → R.Places n n' p p'
  names : ∀ {name}, R.Names m m' name → R.Names n n' name

/-- Two media of which every operation does the same in both. -/
structure Mirror (α σ σ' π π' : Type) [Medium α σ π] [Medium α σ' π'] extends
    Relation α σ σ' π π' where
  start : ∀ {feeds held m m'}, States feeds held m m' → ∀ input : Input α,
    States (feeds ++ input.feeds) held (Medium.start m input).2 (Medium.start m' input).2 ∧
      toRelation.Onward m m' (Medium.start m input).2 (Medium.start m' input).2 ∧
      Places (Medium.start m input).2 (Medium.start m' input).2 (Medium.start m input).1
        (Medium.start m' input).1
  startNamed : ∀ {feeds held m m'}, States feeds held m m' → ∀ input : Input α,
    States (feeds ++ input.feeds) held (Medium.startNamed m input).2 (Medium.startNamed m' input).2 ∧
      toRelation.Onward m m' (Medium.startNamed m input).2 (Medium.startNamed m' input).2 ∧
      (Medium.startNamed m input).1 = (Medium.startNamed m' input).1 ∧
      Names (Medium.startNamed m input).2 (Medium.startNamed m' input).2 (Medium.startNamed m input).1
  named : ∀ {feeds held m m' name}, States feeds held m m' → Names m m' name →
    Places m m' (Medium.named m name) (Medium.named m' name)
  head? : ∀ {feeds held m m' p p'}, States feeds held m m' → Places m m' p p' →
    Medium.head? m p = Medium.head? m' p'
  offset : ∀ {feeds held m m' p p'}, States feeds held m m' → Places m m' p p' →
    Medium.offset m p = Medium.offset m' p'
  tail : ∀ {feeds held m m' p p'}, States feeds held m m' → Places m m' p p' →
    States feeds held (Medium.tail m p).2 (Medium.tail m' p').2 ∧
      toRelation.Onward m m' (Medium.tail m p).2 (Medium.tail m' p').2 ∧
      Places (Medium.tail m p).2 (Medium.tail m' p').2 (Medium.tail m p).1 (Medium.tail m' p').1
  samePlace : ∀ {feeds held m m' p p' q q'}, States feeds held m m' → Places m m' p p' →
    Places m m' q q' → Medium.samePlace m p q = Medium.samePlace m' p' q'
  /-- A place that is held is there. -/
  held : ∀ {feeds held m m' x}, States feeds held m m' → x ∈ held → Places m m' x.1 x.2
  hold : ∀ {feeds held m m' p p'}, States feeds held m m' → Places m m' p p' →
    States feeds ((p, p') ::ₘ held) (Medium.hold m p) (Medium.hold m' p') ∧
      toRelation.Onward m m' (Medium.hold m p) (Medium.hold m' p')
  /-- What is dropped was held.  Names are for good. -/
  drop : ∀ {feeds held m m' p p'}, States feeds ((p, p') ::ₘ held) m m' →
    States feeds held (Medium.drop m p) (Medium.drop m' p') ∧
      ∀ {name}, Names m m' name → Names (Medium.drop m p) (Medium.drop m' p') name
  opened : ∀ {feeds held m m'}, States feeds held m m' → Medium.opened m = Medium.opened m'
  places : ∀ {feeds held m m'}, States feeds held m m' → Medium.places m = Medium.places m'
  pulls : ∀ {feeds held m m'}, States feeds held m m' → ∀ source,
    Medium.pulls m source = Medium.pulls m' source
  status? : ∀ {feeds held m m'}, States feeds held m m' → ∀ source,
    Medium.status? m source = Medium.status? m' source
  takeFault : ∀ {feeds held m m'}, States feeds held m m' → ∀ source,
    States feeds held (Medium.takeFault m source).2 (Medium.takeFault m' source).2 ∧
      toRelation.Onward m m' (Medium.takeFault m source).2 (Medium.takeFault m' source).2 ∧
      (Medium.takeFault m source).1 = (Medium.takeFault m' source).1

section Onward

variable {α σ σ' π π' : Type} {R : Relation α σ σ' π π'} {m n o : σ} {m' n' o' : σ'}

theorem Relation.Onward.refl (R : Relation α σ σ' π π') (m : σ) (m' : σ') : R.Onward m m' m m' :=
  ⟨fun h => h, fun h => h⟩

theorem Relation.Onward.trans (h : R.Onward m m' n n') (h' : R.Onward n n' o o') : R.Onward m m' o o' :=
  ⟨fun hp => h'.places (h.places hp), fun hn => h'.names (h.names hn)⟩

end Onward

end Medium

/-! ## 2. Outcomes and events -/

section Places

variable {α π ρ : Type}

/-- The outcome at other places. -/
def Outcome.mapPlace (f : π → ρ) : Outcome α π → Outcome α ρ
  | .success v next => .success v (f next)
  | .failure reason place => .failure reason (f place)

/-- The event at other places. -/
def Event.mapPlace (f : π → ρ) : Event α π → Event α ρ
  | .observed tag outcome => .observed tag (outcome.mapPlace f)
  | .continued values => .continued values
  | .traced name outcome => .traced name (outcome.mapPlace f)

@[simp] theorem Outcome.place_mapPlace (f : π → ρ) (r : Outcome α π) :
    (r.mapPlace f).place = f r.place := by
  cases r <;> rfl

theorem Outcome.mapPlace_mapValue (f : π → ρ) (g : Value α → Value α) (r : Outcome α π) :
    (r.mapValue g).mapPlace f = (r.mapPlace f).mapValue g := by
  cases r <;> rfl

theorem Outcome.describe_mapPlace [Token α] (f : π → String) (r : Outcome α π) :
    (r.mapPlace f).describe id = r.describe f := by
  cases r <;> rfl

end Places

section Alike

variable {α π π' ρ : Type} {R S : π → π' → Prop} {f : π → ρ} {f' : π' → ρ}

/-- Two outcomes differ in their places only, and these go together. -/
inductive Outcome.Mirrors (R : π → π' → Prop) : Outcome α π → Outcome α π' → Prop
  | success (v : Value α) {next : π} {next' : π'} (h : R next next') :
    Mirrors R (.success v next) (.success v next')
  | failure (reason : Reason) {place : π} {place' : π'} (h : R place place') :
    Mirrors R (.failure reason place) (.failure reason place')

/-- Two events differ in their places only, and these go together. -/
inductive Event.Mirrors (R : π → π' → Prop) : Event α π → Event α π' → Prop
  | observed (tag : Literal) {r : Outcome α π} {r' : Outcome α π'} (h : Outcome.Mirrors R r r') :
    Mirrors R (.observed tag r) (.observed tag r')
  | continued (values : List (Value α)) : Mirrors R (.continued values) (.continued values)
  | traced (name : String) {r : Outcome α π} {r' : Outcome α π'} (h : Outcome.Mirrors R r r') :
    Mirrors R (.traced name r) (.traced name r')

theorem Outcome.Mirrors.place {r : Outcome α π} {r' : Outcome α π'} (h : Mirrors R r r') :
    R r.place r'.place := by
  cases h <;> assumption

theorem Outcome.Mirrors.mapValue {r : Outcome α π} {r' : Outcome α π'} (h : Mirrors R r r')
    (f : Value α → Value α) : Mirrors R (r.mapValue f) (r'.mapValue f) := by
  cases h with
  | success v h => exact .success (f v) h
  | failure reason h => exact .failure reason h

theorem Outcome.Mirrors.mono (hRS : ∀ {p p'}, R p p' → S p p') {r : Outcome α π} {r' : Outcome α π'}
    (h : Mirrors R r r') : Mirrors S r r' := by
  cases h with
  | success v h => exact .success v (hRS h)
  | failure reason h => exact .failure reason (hRS h)

theorem Event.Mirrors.mono (hRS : ∀ {p p'}, R p p' → S p p') {e : Event α π} {e' : Event α π'}
    (h : Mirrors R e e') : Mirrors S e e' := by
  cases h with
  | observed tag h => exact .observed tag (h.mono hRS)
  | continued values => exact .continued values
  | traced name h => exact .traced name (h.mono hRS)

/-- What places have in common is what outcomes and events at these places have in common. -/
theorem Outcome.Mirrors.mapPlace_eq (hR : ∀ p p', R p p' → f p = f' p') {r : Outcome α π}
    {r' : Outcome α π'} (h : Mirrors R r r') : r.mapPlace f = r'.mapPlace f' := by
  cases h with
  | success v h => exact congrArg (Outcome.success v) (hR _ _ h)
  | failure reason h => exact congrArg (Outcome.failure reason) (hR _ _ h)

theorem Event.Mirrors.mapPlace_eq (hR : ∀ p p', R p p' → f p = f' p') {e : Event α π}
    {e' : Event α π'} (h : Mirrors R e e') : e.mapPlace f = e'.mapPlace f' := by
  cases h with
  | observed tag h => exact congrArg (Event.observed tag) (h.mapPlace_eq hR)
  | continued values => rfl
  | traced name h => exact congrArg (Event.traced name) (h.mapPlace_eq hR)

theorem Event.map_mapPlace_eq (hR : ∀ p p', R p p' → f p = f' p') {es : List (Event α π)}
    {es' : List (Event α π')} (h : List.Forall₂ (Event.Mirrors R) es es') :
    es.map (Event.mapPlace f) = es'.map (Event.mapPlace f') := by
  induction h with
  | nil => rfl
  | cons h _ ih => rw [List.map_cons, List.map_cons, h.mapPlace_eq hR, ih]

end Alike

/-! ## 3. Putting parses together -/

namespace Parsing

variable {α σ σ' π π' : Type} [Medium α σ π] [Medium α σ' π'] {M : Medium.Mirror α σ σ' π π'}
  {feeds : List (Feed α)} {held : Multiset (π × π')} {w v : World α σ π} {w' v' : World α σ' π'}
  {p q : π} {p' q' : π'}

/-- Two parses have come equally far: their media mirror each other, and the same was noted. -/
structure Worlds (M : Medium.Mirror α σ σ' π π') (feeds : List (Feed α)) (held : Multiset (π × π'))
    (w : World α σ π) (w' : World α σ' π') : Prop where
  states : M.States feeds held w.store w'.store
  events : List.Forall₂ (Event.Mirrors (M.Places w.store w'.store)) w.events w'.events

/-- Where a parse has moved on in both media, what was noted is the same as before. -/
theorem Worlds.goOn (h : Worlds M feeds held w w') {n : σ} {n' : σ'} (states : M.States feeds held n n')
    (on : M.Onward w.store w'.store n n') : Worlds M feeds held ⟨n, w.events⟩ ⟨n', w'.events⟩ :=
  ⟨states, h.events.imp fun _ _ same => same.mono on.places⟩

/-- Two answers are alike, or both parses were stopped for the same reason. -/
inductive Answers {β β' : Type} (alike : β → β' → Prop) : Except Stop β → Except Stop β' → Prop
  | ok {b : β} {b' : β'} (h : alike b b') : Answers alike (.ok b) (.ok b')
  | error (why : Stop) : Answers alike (.error why) (.error why)

variable {β β' γ γ' : Type} {alike : σ → σ' → β → β' → Prop} {alike' : σ → σ' → γ → γ' → Prop}

/-- Two parses come equally far from these worlds, and with answers that are alike. -/
structure Mirrors (M : Medium.Mirror α σ σ' π π') (feeds : List (Feed α)) (held : Multiset (π × π'))
    (w : World α σ π) (w' : World α σ' π') (alike : σ → σ' → β → β' → Prop) (m : ParsingIn α σ π β)
    (m' : ParsingIn α σ' π' β') : Prop where
  worlds : Worlds M feeds held ((ExceptT.run m).run w).2 ((ExceptT.run m').run w').2
  onward : M.Onward w.store w'.store ((ExceptT.run m).run w).2.store ((ExceptT.run m').run w').2.store
  answers : Answers (alike ((ExceptT.run m).run w).2.store ((ExceptT.run m').run w').2.store)
    ((ExceptT.run m).run w).1 ((ExceptT.run m').run w').1

theorem Mirrors.pure {b : β} {b' : β'} (hw : Worlds M feeds held w w')
    (h : alike w.store w'.store b b') : Mirrors M feeds held w w' alike (pure b) (pure b') :=
  ⟨hw, .refl _ _ _, .ok h⟩

theorem mirrors_throw (hw : Worlds M feeds held w w') (why : Stop) :
    Mirrors M feeds held w w' alike (throw why) (throw why) :=
  ⟨hw, .refl _ _ _, .error why⟩

/-- The second parses start in the worlds that the first ones have left. -/
theorem Mirrors.bind {m : ParsingIn α σ π β} {m' : ParsingIn α σ' π' β'} {f : β → ParsingIn α σ π γ}
    {f' : β' → ParsingIn α σ' π' γ'} (h : Mirrors M feeds held w w' alike m m')
    (hf : ∀ b b' v v', Worlds M feeds held v v' → M.Onward w.store w'.store v.store v'.store →
      alike v.store v'.store b b' → Mirrors M feeds held v v' alike' (f b) (f' b')) :
    Mirrors M feeds held w w' alike' (m >>= f) (m' >>= f') := by
  obtain ⟨worlds, on, answers⟩ := h
  have left := run_bind m f w
  have right := run_bind m' f' w'
  rcases hm : (ExceptT.run m).run w with ⟨answer, v⟩
  rcases hm' : (ExceptT.run m').run w' with ⟨answer', v'⟩
  rw [hm] at left
  rw [hm'] at right
  rw [hm, hm'] at worlds on answers
  cases answers with
  | error why =>
    constructor
    · rwa [left, right]
    · rwa [left, right]
    · rw [left, right]
      exact .error why
  | ok same =>
    obtain ⟨worlds', on', answers'⟩ := hf _ _ v v' worlds on same
    constructor
    · rwa [left, right]
    · rw [left, right]
      exact on.trans on'
    · rwa [left, right]

/-! ### Operations -/

theorem mirrors_head? (hw : Worlds M feeds held w w') (hp : M.Places w.store w'.store p p') :
    Mirrors M feeds held w w' (fun _ _ => Eq) (head? p) (head? p') :=
  ⟨hw, .refl _ _ _, .ok (M.head? hw.states hp)⟩

theorem mirrors_offset (hw : Worlds M feeds held w w') (hp : M.Places w.store w'.store p p') :
    Mirrors M feeds held w w' (fun _ _ => Eq) (offset p) (offset p') :=
  ⟨hw, .refl _ _ _, .ok (M.offset hw.states hp)⟩

theorem mirrors_setOut (hw : Worlds M feeds held w w') (hp : M.Places w.store w'.store p p')
    {origin : Option Position} (ho : ∀ name ∈ origin, M.Names w.store w'.store name) :
    Mirrors M feeds held w w' M.Places (setOut p origin) (setOut p' origin) := by
  cases origin with
  | none => exact .pure hw hp
  | some name => exact ⟨hw, .refl _ _ _, .ok (M.named hw.states (ho name rfl))⟩

theorem mirrors_tail (hw : Worlds M feeds held w w') (hp : M.Places w.store w'.store p p') :
    Mirrors M feeds held w w' M.Places (tail p) (tail p') := by
  obtain ⟨states, on, places⟩ := M.tail hw.states hp
  exact ⟨hw.goOn states on, on, .ok places⟩

theorem mirrors_samePlace (hw : Worlds M feeds held w w') (hp : M.Places w.store w'.store p p')
    (hq : M.Places w.store w'.store q q') :
    Mirrors M feeds held w w' (fun _ _ => Eq) (samePlace p q) (samePlace p' q') :=
  ⟨hw, .refl _ _ _, .ok (M.samePlace hw.states hp hq)⟩

theorem mirrors_note (hw : Worlds M feeds held w w') {e : Event α π} {e' : Event α π'}
    (h : Event.Mirrors (M.Places w.store w'.store) e e') :
    Mirrors M feeds held w w' (fun _ _ => Eq) (note e) (note e') :=
  ⟨⟨hw.states, .cons h hw.events⟩, .refl _ _ _, .ok rfl⟩

end Parsing

/-! ## 4. Walks and loops -/

namespace Medium

variable {α σ σ' π π' : Type} [Medium α σ π] [Medium α σ' π'] (M : Mirror α σ σ' π π')
  {feeds : List (Feed α)} {held : Multiset (π × π')} {m : σ} {m' : σ'} {p : π} {p' : π'}

theorem Mirror.isEnd (h : M.States feeds held m m') (hp : M.Places m m' p p') :
    Medium.isEnd m p = Medium.isEnd m' p' :=
  congrArg Option.isNone (M.head? h hp)

theorem Mirror.describe [Token α] (h : M.States feeds held m m') (hp : M.Places m m' p p') :
    Medium.describe m p = Medium.describe m' p' := by
  simp only [Medium.describe, M.head? h hp, M.offset h hp]

/-- Walks lead to places that go together. -/
theorem Mirror.skip (n : Nat) (h : M.States feeds held m m') (hp : M.Places m m' p p') :
    M.States feeds held (Medium.skip n m p).2 (Medium.skip n m' p').2 ∧
      M.Onward m m' (Medium.skip n m p).2 (Medium.skip n m' p').2 ∧
      M.Places (Medium.skip n m p).2 (Medium.skip n m' p').2 (Medium.skip n m p).1
        (Medium.skip n m' p').1 := by
  induction n generalizing m m' p p' with
  | zero => exact ⟨h, .refl _ _ _, hp⟩
  | succ n ih =>
    obtain ⟨states, on, places⟩ := M.tail h hp
    obtain ⟨states', on', places'⟩ := ih states places
    exact ⟨states', on.trans on', places'⟩

theorem Mirror.takeOnto (n : Nat) (taken : List α) (h : M.States feeds held m m')
    (hp : M.Places m m' p p') :
    (Medium.takeOnto n m p taken).1 = (Medium.takeOnto n m' p' taken).1 ∧
      M.States feeds held (Medium.takeOnto n m p taken).2 (Medium.takeOnto n m' p' taken).2 ∧
      M.Onward m m' (Medium.takeOnto n m p taken).2 (Medium.takeOnto n m' p' taken).2 := by
  induction n generalizing m m' p p' taken with
  | zero => exact ⟨rfl, h, .refl _ _ _⟩
  | succ n ih =>
    unfold Medium.takeOnto
    rw [M.head? h hp]
    cases Medium.head? m' p' with
    | none => exact ⟨rfl, h, .refl _ _ _⟩
    | some t =>
      obtain ⟨states, on, places⟩ := M.tail h hp
      obtain ⟨same, states', on'⟩ := ih (t :: taken) states places
      exact ⟨same, states', on.trans on'⟩

theorem Mirror.countUpTo (limit counted : Nat) (h : M.States feeds held m m')
    (hp : M.Places m m' p p') :
    (Medium.countUpTo limit m p counted).1 = (Medium.countUpTo limit m' p' counted).1 ∧
      M.States feeds held (Medium.countUpTo limit m p counted).2
        (Medium.countUpTo limit m' p' counted).2 ∧
      M.Onward m m' (Medium.countUpTo limit m p counted).2
        (Medium.countUpTo limit m' p' counted).2 := by
  induction limit generalizing m m' p p' counted with
  | zero => exact ⟨rfl, h, .refl _ _ _⟩
  | succ limit ih =>
    unfold Medium.countUpTo
    rw [M.isEnd h hp]
    split
    · exact ⟨rfl, h, .refl _ _ _⟩
    · obtain ⟨states, on, places⟩ := M.tail h hp
      obtain ⟨same, states', on'⟩ := ih (counted + 1) states places
      exact ⟨same, states', on.trans on'⟩

theorem Mirror.take (n : Nat) (h : M.States feeds held m m') (hp : M.Places m m' p p') :
    (Medium.take n m p).1 = (Medium.take n m' p').1 ∧
      M.States feeds held (Medium.take n m p).2 (Medium.take n m' p').2 ∧
      M.Onward m m' (Medium.take n m p).2 (Medium.take n m' p').2 :=
  M.takeOnto n [] h hp

theorem Mirror.count (h : M.States feeds held m m') (hp : M.Places m m' p p') :
    (Medium.count m p).1 = (Medium.count m' p').1 ∧
      M.States feeds held (Medium.count m p).2 (Medium.count m' p').2 ∧
      M.Onward m m' (Medium.count m p).2 (Medium.count m' p').2 := by
  unfold Medium.count
  rw [M.places h]
  exact M.countUpTo (Medium.places m') 0 h hp

end Medium

namespace Parsing

variable {α σ σ' π π' : Type} [Medium α σ π] [Medium α σ' π'] {M : Medium.Mirror α σ σ' π π'}
  {feeds : List (Feed α)} {held : Multiset (π × π')} {w : World α σ π} {w' : World α σ' π'}
  {p : π} {p' : π'} {m : σ} {m' : σ'}

theorem mirrors_skip (n : Nat) (hw : Worlds M feeds held w w') (hp : M.Places w.store w'.store p p') :
    Mirrors M feeds held w w' M.Places (skip n p) (skip n p') := by
  obtain ⟨states, on, places⟩ := M.skip n hw.states hp
  exact ⟨hw.goOn states on, on, .ok places⟩

/-- Both are there, at places that go together, or neither is. -/
inductive Reached (R : π → π' → Prop) : Option π → Option π' → Prop
  | none : Reached R none none
  | some {p : π} {p' : π'} (h : R p p') : Reached R (some p) (some p')

theorem mirrors_matchRun [DecidableEq α] (items : List α) (hw : Worlds M feeds held w w')
    (hp : M.Places w.store w'.store p p') :
    Mirrors M feeds held w w' (fun m m' => Reached (M.Places m m')) (matchRun items p)
      (matchRun items p') := by
  induction items generalizing w w' p p' with
  | nil => exact .pure hw (.some hp)
  | cons item items ih =>
    refine (mirrors_head? hw hp).bind fun t t' v v' hv on same => ?_
    subst same
    cases t with
    | none => exact .pure hv .none
    | some t =>
      simp only
      split
      · exact (mirrors_tail hv (on.places hp)).bind fun _ _ _ _ hu _ there => ih hu there
      · exact .pure hv .none

/-- Rows of values with the places behind them. -/
def Rows (R : π → π' → Prop) (row : List (Value α) × π) (row' : List (Value α) × π') : Prop :=
  row.1 = row'.1 ∧ R row.2 row'.2

theorem mirrors_repeatMatch {step : π → ParsingIn α σ π (Result α π)}
    {step' : π' → ParsingIn α σ' π' (Result α π')}
    (hstep : ∀ w w' p p', M.Onward m m' w.store w'.store → Worlds M feeds held w w' →
      M.Places w.store w'.store p p' →
      Mirrors M feeds held w w' (fun m m' => Outcome.Mirrors (M.Places m m')) (step p) (step' p'))
    (least room collected : Nat) (values : List (Value α)) (on : M.Onward m m' w.store w'.store)
    (hw : Worlds M feeds held w w') (hp : M.Places w.store w'.store p p') :
    Mirrors M feeds held w w' (fun m m' => Rows (M.Places m m'))
      (repeatMatch step least room collected values p)
      (repeatMatch step' least room collected values p') := by
  induction room generalizing collected values p p' w w' with
  | zero => exact .pure hw ⟨rfl, hp⟩
  | succ room ih =>
    refine (hstep w w' p p' on hw hp).bind fun r r' v v' hv on₁ same => ?_
    cases same with
    | failure reason there => exact .pure hv ⟨rfl, on₁.places hp⟩
    | success value there =>
      refine (mirrors_samePlace hv there (on₁.places hp)).bind fun stays stays' u u' hu on₂ same => ?_
      subst same
      split
      · exact .pure hu ⟨rfl, on₂.places there⟩
      · exact ih _ _ ((on.trans on₁).trans on₂) hu (on₂.places there)

theorem mirrors_countLines (toChar : α → Char) (distance line column : Nat)
    (hw : Worlds M feeds held w w') (hp : M.Places w.store w'.store p p') :
    Mirrors M feeds held w w' (fun _ _ => Eq) (countLines toChar distance p line column)
      (countLines toChar distance p' line column) := by
  induction distance generalizing w w' p p' line column with
  | zero => exact .pure hw rfl
  | succ distance ih =>
    refine (mirrors_head? hw hp).bind fun t t' v v' hv on same => ?_
    subst same
    cases t with
    | none => exact .pure hv rfl
    | some t =>
      refine (mirrors_tail hv (on.places hp)).bind fun next next' u u' hu _ there => ?_
      split
      · exact ih _ _ hu there
      · exact ih _ _ hu there

theorem mirrors_lineColumn? [Token α] {start place : π} {start' place' : π'}
    (hw : Worlds M feeds held w w') (hs : M.Places w.store w'.store start start')
    (hp : M.Places w.store w'.store place place') :
    Mirrors M feeds held w w' (fun _ _ => Eq) (lineColumn? start place)
      (lineColumn? start' place') := by
  unfold lineColumn?
  split
  · exact .pure hw rfl
  · refine (mirrors_offset hw hp).bind fun far far' v v' hv on same => ?_
    subst same
    refine (mirrors_offset hv (on.places hs)).bind fun near near' u u' hu on' same => ?_
    subst same
    exact mirrors_countLines _ _ _ _ hu ((on.trans on').places hs)

theorem mirrors_report [Token α] (filename : String) (reason : Reason) {start place : π}
    {start' place' : π'} (hw : Worlds M feeds held w w') (hs : M.Places w.store w'.store start start')
    (hp : M.Places w.store w'.store place place') :
    Mirrors M feeds held w w' (fun _ _ => Eq) (report filename start place reason)
      (report filename start' place' reason) := by
  refine (mirrors_head? hw hp).bind fun found found' v v' hv on same => ?_
  subst same
  refine (mirrors_lineColumn? hv (on.places hs) (on.places hp)).bind fun at_ at_' u u' hu on' same => ?_
  subst same
  refine (mirrors_offset hu ((on.trans on').places hp)).bind fun o o' _ _ ho _ same => ?_
  subst same
  exact .pure ho rfl

end Parsing

/-! ## 5. Terms -/

namespace Parser

variable {α : Type}

mutual

/-- The places that a parser knows by names are known. -/
def Founded (known : Position → Prop) : Parser α → Prop
  | jump _ origin _ _ => ∀ name ∈ origin, known name
  | map _ q => q.Founded known
  | named _ q => q.Founded known
  | group _ qs => FoundedAll known qs
  | choice qs => FoundedAll known qs
  | many _ q => q.Founded known
  | optional q => q.Founded known
  | peek q => q.Founded known
  | not q => q.Founded known
  | bind _ qs continuation => FoundedAll known qs ∧ ∀ values, (continuation values).Founded known
  | observed _ q => q.Founded known
  | traced q => q.Founded known
  | _ => True

/-- The places that several parsers know by names are known. -/
def FoundedAll (known : Position → Prop) : List (Parser α) → Prop
  | [] => True
  | q :: qs => q.Founded known ∧ FoundedAll known qs

end

variable {known known' : Position → Prop}

theorem foundedAll_iff {qs : List (Parser α)} : FoundedAll known qs ↔ ∀ q ∈ qs, q.Founded known := by
  induction qs with
  | nil => exact ⟨fun _ _ hq => absurd hq List.not_mem_nil, fun _ => trivial⟩
  | cons q qs ih => rw [FoundedAll, ih, List.forall_mem_cons]

/-- Parsers stay founded where what is known stays so. -/
theorem Founded.mono (h : ∀ {name}, known name → known' name) {q : Parser α} (hq : q.Founded known) :
    q.Founded known' := by
  have rows {qs : List (Parser α)} (ih : ∀ q ∈ qs, q.Founded known → q.Founded known')
      (hqs : FoundedAll known qs) : FoundedAll known' qs :=
    foundedAll_iff.2 fun q hq => ih q hq (foundedAll_iff.1 hqs q hq)
  induction q with
  | jump name origin count verdict => exact fun name hname => h (hq name hname)
  | map f q ih => exact ih hq
  | named name q ih => exact ih hq
  | group label qs ih => exact rows ih hq
  | choice qs ih => exact rows ih hq
  | many style q ih => exact ih hq
  | optional q ih => exact ih hq
  | peek q ih => exact ih hq
  | not q ih => exact ih hq
  | bind noted qs k ihs ihk => exact ⟨rows ihs hq.1, fun values => ihk values (hq.2 values)⟩
  | observed tag q ih => exact ih hq
  | traced q ih => exact ih hq
  | _ => trivial

/-- Where every name is known, every parser is founded. -/
theorem founded_of_forall (h : ∀ name, known name) (q : Parser α) : q.Founded known := by
  induction q with
  | jump name origin count verdict => exact fun name _ => h name
  | map f q ih => exact ih
  | named name q ih => exact ih
  | group label qs ih => exact foundedAll_iff.2 ih
  | choice qs ih => exact foundedAll_iff.2 ih
  | many style q ih => exact ih
  | optional q ih => exact ih
  | peek q ih => exact ih
  | not q ih => exact ih
  | bind noted qs k ihs ihk => exact ⟨foundedAll_iff.2 ihs, ihk⟩
  | observed tag q ih => exact ih
  | traced q ih => exact ih
  | _ => trivial

/-- The bodies of all rules are founded. -/
def FoundedRules (known : Position → Prop) (grammar : Grammar α) : Prop :=
  ∀ (id : RuleId) (body : Parser α), (grammar[id]?).join = some body → body.Founded known

theorem FoundedRules.mono {grammar : Grammar α} (hg : FoundedRules known grammar)
    (h : ∀ {name}, known name → known' name) : FoundedRules known' grammar :=
  fun id body hbody => (hg id body hbody).mono h

variable {σ σ' π π' : Type} [Token α] [DecidableEq α] [Medium α σ π] [Medium α σ' π']
  {M : Medium.Mirror α σ σ' π π'} {feeds : List (Feed α)} {held : Multiset (π × π')} {m : σ} {m' : σ'}
  {w : World α σ π} {w' : World α σ' π'} {p : π} {p' : π'}
  {call : RuleId → String → π → ParsingIn α σ π (Result α π)}
  {call' : RuleId → String → π' → ParsingIn α σ' π' (Result α π')}

/-- Two evaluations do the same from places that go together, in all worlds that go on from two
states. -/
def Mirrors (M : Medium.Mirror α σ σ' π π') (feeds : List (Feed α)) (held : Multiset (π × π')) (m : σ)
    (m' : σ') (e : π → ParsingIn α σ π (Result α π)) (e' : π' → ParsingIn α σ' π' (Result α π')) :
    Prop :=
  ∀ w w' p p', M.Onward m m' w.store w'.store → Parsing.Worlds M feeds held w w' →
    M.Places w.store w'.store p p' →
    Parsing.Mirrors M feeds held w w' (fun m m' => Outcome.Mirrors (M.Places m m')) (e p) (e' p')

/-- The rows of values are alike, or the same parser has failed. -/
inductive RowsAlike (R : π → π' → Prop) : Except String (List (Value α) × π) →
    Except String (List (Value α) × π') → Prop
  | ok (values : List (Value α)) {next : π} {next' : π'} (h : R next next') :
    RowsAlike R (.ok (values, next)) (.ok (values, next'))
  | error (name : String) : RowsAlike R (.error name) (.error name)

theorem mirrors_evalAll {qs : List (Parser α)}
    (hqs : ∀ q ∈ qs, Mirrors M feeds held m m' (q.eval call) (q.eval call'))
    (on : M.Onward m m' w.store w'.store) (hw : Parsing.Worlds M feeds held w w')
    (hp : M.Places w.store w'.store p p') :
    Parsing.Mirrors M feeds held w w' (fun m m' => RowsAlike (M.Places m m')) (evalAll call qs p)
      (evalAll call' qs p') := by
  induction qs generalizing w w' p p' with
  | nil => exact .pure hw (.ok [] hp)
  | cons q qs ih =>
    obtain ⟨hq, hqs⟩ := List.forall_mem_cons.1 hqs
    refine (hq w w' p p' on hw hp).bind fun r r' v v' hv on₁ same => ?_
    cases same with
    | failure reason there => exact .pure hv (.error q.name)
    | success value there =>
      refine (ih hqs (on.trans on₁) hv there).bind fun row row' u u' hu _ same => ?_
      cases same with
      | error name => exact .pure hu (.error name)
      | ok values there' => exact .pure hu (.ok (value :: values) there')

/-- The first matches are alike, or nothing matches in both. -/
inductive FirstAlike (R : π → π' → Prop) : Option (Result α π) → Option (Result α π') → Prop
  | none : FirstAlike R none none
  | some {r : Result α π} {r' : Result α π'} (h : Outcome.Mirrors R r r') :
    FirstAlike R (some r) (some r')

theorem mirrors_evalFirst {qs : List (Parser α)}
    (hqs : ∀ q ∈ qs, Mirrors M feeds held m m' (q.eval call) (q.eval call'))
    (on : M.Onward m m' w.store w'.store) (hw : Parsing.Worlds M feeds held w w')
    (hp : M.Places w.store w'.store p p') :
    Parsing.Mirrors M feeds held w w' (fun m m' => FirstAlike (M.Places m m')) (evalFirst call qs p)
      (evalFirst call' qs p') := by
  induction qs generalizing w w' with
  | nil => exact .pure hw .none
  | cons q qs ih =>
    obtain ⟨hq, hqs⟩ := List.forall_mem_cons.1 hqs
    refine (hq w w' p p' on hw hp).bind fun r r' v v' hv on₁ same => ?_
    cases same with
    | failure reason there => exact ih hqs (on.trans on₁) hv (on₁.places hp)
    | success value there => exact .pure hv (.some (.success value there))

/-- **A term does the same in both media**, if this is so of rules. -/
theorem mirrors_eval (hcall : ∀ id name, Mirrors M feeds held m m' (call id name) (call' id name))
    {q : Parser α} (hq : q.Founded (M.Names m m')) :
    Mirrors M feeds held m m' (q.eval call) (q.eval call') := by
  have rows {qs : List (Parser α)}
      (ih : ∀ q ∈ qs, q.Founded (M.Names m m') → Mirrors M feeds held m m' (q.eval call) (q.eval call'))
      (hqs : FoundedAll (M.Names m m') qs) :
      ∀ q ∈ qs, Mirrors M feeds held m m' (q.eval call) (q.eval call') :=
    fun q hq => ih q hq (foundedAll_iff.1 hqs q hq)
  induction q with
  | endOfInput =>
    intro w w' p p' on hw hp
    refine (Parsing.mirrors_head? hw hp).bind fun t t' v v' hv on₁ same => ?_
    subst same
    cases t with
    | none => exact .pure hv (.success _ (on₁.places hp))
    | some t => exact .pure hv (.failure _ (on₁.places hp))
  | satisfy name accepts =>
    intro w w' p p' on hw hp
    refine (Parsing.mirrors_head? hw hp).bind fun t t' v v' hv on₁ same => ?_
    subst same
    cases t with
    | none => exact .pure hv (.failure _ (on₁.places hp))
    | some t =>
      simp only
      split
      · refine (Parsing.mirrors_tail hv (on₁.places hp)).bind fun next next' u u' hu _ there => ?_
        exact .pure hu (.success _ there)
      · exact .pure hv (.failure _ (on₁.places hp))
  | token items =>
    intro w w' p p' on hw hp
    refine (Parsing.mirrors_matchRun items hw hp).bind fun next next' v v' hv on₁ same => ?_
    cases same with
    | none => exact .pure hv (.failure _ (on₁.places hp))
    | some there => exact .pure hv (.success _ there)
  | result value => exact fun w w' p p' on hw hp => .pure hw (.success _ hp)
  | expected message => exact fun w w' p p' on hw hp => .pure hw (.failure _ hp)
  | offset =>
    intro w w' p p' on hw hp
    refine (Parsing.mirrors_offset hw hp).bind fun n n' v v' hv on₁ same => ?_
    subst same
    exact .pure hv (.success _ (on₁.places hp))
  | jump name origin count verdict =>
    intro w w' p p' on hw hp
    have known : ∀ name ∈ origin, M.Names w.store w'.store name := fun name hname =>
      on.names (hq name hname)
    refine (Parsing.mirrors_setOut hw hp known).bind fun start start' v v' hv _ begun => ?_
    refine (Parsing.mirrors_skip count hv begun).bind fun next next' u u' hu _ there => ?_
    cases verdict with
    | success => exact .pure hu (.success _ there)
    | failure kind message => exact .pure hu (.failure _ there)
  | map f q ih =>
    intro w w' p p' on hw hp
    exact (ih hq w w' p p' on hw hp).bind fun r r' v v' hv _ same => .pure hv (same.mapValue f)
  | named name q ih => exact ih hq
  | group label qs ih =>
    intro w w' p p' on hw hp
    refine (mirrors_evalAll (rows ih hq) on hw hp).bind fun row row' v v' hv on₁ same => ?_
    cases same with
    | error name => exact .pure hv (.failure _ (on₁.places hp))
    | ok values there => exact .pure hv (.success _ there)
  | choice qs ih =>
    intro w w' p p' on hw hp
    refine (mirrors_evalFirst (rows ih hq) on hw hp).bind fun first first' v v' hv on₁ same => ?_
    cases same with
    | none => exact .pure hv (.failure _ (on₁.places hp))
    | some same => exact .pure hv same
  | many style q ih =>
    intro w w' p p' on hw hp
    refine (Parsing.mirrors_repeatMatch (ih hq) style.least style.most 0 [] on hw hp).bind ?_
    rintro ⟨values, next⟩ ⟨values', next'⟩ v v' hv on₁ ⟨same, there⟩
    obtain rfl : values = values' := same
    simp only
    split
    · exact .pure hv (.failure _ (on₁.places hp))
    · exact .pure hv (.success _ there)
  | optional q ih =>
    intro w w' p p' on hw hp
    refine (ih hq w w' p p' on hw hp).bind fun r r' v v' hv on₁ same => ?_
    cases same with
    | success value there => exact .pure hv (.success _ there)
    | failure reason there => exact .pure hv (.success _ (on₁.places hp))
  | peek q ih =>
    intro w w' p p' on hw hp
    refine (ih hq w w' p p' on hw hp).bind fun r r' v v' hv on₁ same => ?_
    cases same with
    | success value there => exact .pure hv (.success _ (on₁.places hp))
    | failure reason there => exact .pure hv (.failure _ there)
  | not q ih =>
    intro w w' p p' on hw hp
    refine (ih hq w w' p p' on hw hp).bind fun r r' v v' hv on₁ same => ?_
    cases same with
    | success value there => exact .pure hv (.failure _ (on₁.places hp))
    | failure reason there =>
      refine (Parsing.mirrors_head? hv (on₁.places hp)).bind fun t t' u u' hu on₂ same => ?_
      subst same
      cases t with
      | some t => exact .pure hu (.success _ (on₂.places (on₁.places hp)))
      | none => exact .pure hu (.failure _ (on₂.places (on₁.places hp)))
  | bind noted qs k ihs ihk =>
    intro w w' p p' on hw hp
    rw [eval, eval]
    refine (mirrors_evalAll (rows ihs hq.1) on hw hp).bind fun row row' v v' hv on₁ same => ?_
    cases same with
    | error name => exact .pure hv (.failure _ (on₁.places hp))
    | ok values there =>
      cases noted with
      | false => exact ihk values (hq.2 values) v v' _ _ (on.trans on₁) hv there
      | true =>
        refine (Parsing.mirrors_note hv (.continued values)).bind fun _ _ u u' hu on₂ _ => ?_
        exact ihk values (hq.2 values) u u' _ _ ((on.trans on₁).trans on₂) hu (on₂.places there)
  | observed tag q ih =>
    intro w w' p p' on hw hp
    refine (ih hq w w' p p' on hw hp).bind fun r r' v v' hv _ same => ?_
    refine (Parsing.mirrors_note hv (.observed tag same)).bind fun _ _ u u' hu on₂ _ => ?_
    exact .pure hu (same.mono on₂.places)
  | traced q ih =>
    intro w w' p p' on hw hp
    refine (ih hq w w' p p' on hw hp).bind fun r r' v v' hv _ same => ?_
    refine (Parsing.mirrors_note hv (.traced q.name same)).bind fun _ _ u u' hu on₂ _ => ?_
    exact .pure hu (same.mono on₂.places)
  | rule id name => exact hcall id name

/-! ## 6. Rules and whole inputs -/

variable {grammar : Grammar α} {q : Parser α}

theorem mirrors_evalDepth (hg : FoundedRules (M.Names m m') grammar) (depth : Nat)
    (hq : q.Founded (M.Names m m')) :
    Mirrors M feeds held m m' (q.evalDepth grammar depth) (q.evalDepth grammar depth) := by
  induction depth generalizing q with
  | zero =>
    refine mirrors_eval (fun id name w w' p p' _ hw _ => ?_) hq
    split
    · exact Parsing.mirrors_throw hw _
    · exact Parsing.mirrors_throw hw _
  | succ depth ih =>
    refine mirrors_eval (fun id name w w' p p' on hw hp => ?_) hq
    split
    next body hbody => exact ih (hg id body hbody) w w' p p' on hw hp
    next => exact Parsing.mirrors_throw hw _

/-- **A parse does the same in both media.** -/
theorem mirrors_parse (hg : FoundedRules (M.Names w.store w'.store) grammar)
    (hq : q.Founded (M.Names w.store w'.store)) (hw : Parsing.Worlds M feeds held w w')
    (hp : M.Places w.store w'.store p p') :
    Parsing.Mirrors M feeds held w w' (fun m m' => Outcome.Mirrors (M.Places m m')) (q.parse grammar p)
      (q.parse grammar p') := by
  have depth : enoughDepth grammar w = enoughDepth grammar w' := by
    rw [enoughDepth, enoughDepth, M.places hw.states]
  obtain ⟨worlds, on, answers⟩ :=
    mirrors_evalDepth hg (enoughDepth grammar w) hq w w' p p' (.refl _ _ _) hw hp
  constructor
  · rwa [run_parse, run_parse, ← depth]
  · rwa [run_parse, run_parse, ← depth]
  · rwa [run_parse, run_parse, ← depth]

/-- **Matching a whole input does the same in both media.** -/
theorem mirrors_run (filename : String) (hg : FoundedRules (M.Names w.store w'.store) grammar)
    (hq : q.Founded (M.Names w.store w'.store)) (hw : Parsing.Worlds M feeds held w w')
    (hp : M.Places w.store w'.store p p') :
    Parsing.Mirrors M feeds held w w' (fun _ _ => Eq) (q.run grammar filename p)
      (q.run grammar filename p') := by
  refine (mirrors_parse hg hq hw hp).bind fun r r' v v' hv on same => ?_
  have reported (reason : Reason) {u : World α σ π} {u' : World α σ' π'} {place : π} {place' : π'}
      (hu : Parsing.Worlds M feeds held u u') (hs : M.Places u.store u'.store p p')
      (there : M.Places u.store u'.store place place') :
      Parsing.Mirrors M feeds held u u' (fun _ _ => Eq)
        (do return Except.error (← Parsing.report filename p place reason))
        (do return (Except.error (← Parsing.report filename p' place' reason) :
          Except Diagnostic (Value α))) := by
    refine (Parsing.mirrors_report filename reason hu hs there).bind fun d d' _ _ hd _ same => ?_
    subst same
    exact .pure hd rfl
  cases same with
  | failure reason there => exact reported reason hv (on.places hp) there
  | success value there =>
    refine (Parsing.mirrors_head? hv there).bind fun t t' u u' hu on₁ same => ?_
    subst same
    cases t with
    | none => exact .pure hu rfl
    | some t => exact reported _ hu (on₁.places (on.places hp)) (on₁.places there)

end Parser

end LazyPeg
