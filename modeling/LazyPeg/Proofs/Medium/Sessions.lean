import Mathlib.Data.List.ReduceOption
import LazyPeg.Proofs.Medium.Building
import LazyPeg.Session

/-!
# Sessions in media that mirror each other

A session holds on to its positions and to the places of its results, each as often as it has noted it.
Two sessions mirror each other if they hold places that go together, and if they agree on everything
else (`Session.Mirrors`).  Sessions that begin with the same descriptions do (`Session.mirrors_begin`),
and **every step answers the same in both, and they mirror each other after it**
(`Session.Mirrors.step`).  An answer is a reply of which each place is given by its offset
(`Session.answer`).
-/
namespace LazyPeg

/-- The feeds that a step opens. -/
def Step.feeds {α : Type} : Step α → List (Feed α)
  | .start (.feed feed) => [feed]
  | _ => []

theorem Step.feeds_start {α : Type} (input : Input α) : (Step.start input).feeds = input.feeds := by
  cases input <;> rfl

theorem Step.feeds_eq_nil {α : Type} {x : Step α} (hx : ∀ input, x ≠ .start input) : x.feeds = [] := by
  cases x with
  | start input => exact absurd rfl (hx input)
  | _ => rfl

/-- The reply at other places. -/
def Reply.mapPlace {α π ρ : Type} (f : π → ρ) : Reply α π → Reply α ρ
  | .started n source => .started n source
  | .place n => .place n
  | .token t => .token t
  | .number n => .number n
  | .flag b => .flag b
  | .text s => .text s
  | .fault message => .fault message
  | .tokens ts => .tokens ts
  | .parsed n k outcome events => .parsed n k (outcome.mapPlace f) (events.map (Event.mapPlace f))
  | .accepted value events => .accepted value (events.map (Event.mapPlace f))
  | .rejected d events => .rejected d (events.map (Event.mapPlace f))
  | .stopped why events => .stopped why (events.map (Event.mapPlace f))
  | .result outcome => .result (outcome.mapPlace f)
  | .refused => .refused

namespace Session

/-! ## 1. Parts of a session -/

section Parts

variable {α σ π : Type} [Medium α σ π]

/-- The sequences of a session. -/
abbrev store (s : Session α σ π) : σ := s.workshop.store

/-- The session with other sequences. -/
def withStore (s : Session α σ π) (st : σ) : Session α σ π :=
  { s with workshop := { s.workshop with store := st } }

omit [Medium α σ π] in
theorem onStore_eq {β : Type} (f : σ → β × σ) (s : Session α σ π) :
    s.onStore f = ((f s.store).1, s.withStore (f s.store).2) := rfl

omit [Medium α σ π] in
theorem perform_eq {β : Type} (m : ParsingIn α σ π β) (s : Session α σ π) :
    s.perform m = (((ExceptT.run m).run ⟨s.store, []⟩).1,
      ((ExceptT.run m).run ⟨s.store, []⟩).2.events.reverse,
      s.withStore ((ExceptT.run m).run ⟨s.store, []⟩).2.store) := rfl

theorem position?_note (p : π) (s : Session α σ π) (place : Nat) :
    (s.note p).2.position? place =
      if place = s.positions.size then some p else s.position? place := by
  simp only [note, position?, Array.getElem?_push]
  split <;> rfl

/-- Where a position is forgotten, its place is let go of. -/
theorem forget_of_some {s : Session α σ π} {place : Nat} {p : π} (h : s.position? place = some p) :
    s.forget place = { s.withStore (Medium.drop s.store p) with
      positions := s.positions.setIfInBounds place none } := by
  unfold position? at h
  simp only [forget, h, withStore]

/-- A position that is not there holds no place. -/
theorem forget_of_none {s : Session α σ π} {place : Nat} (h : s.position? place = none) :
    s.forget place = { s with positions := s.positions.setIfInBounds place none } := by
  unfold position? at h
  simp only [forget, h]

variable [Token α] [DecidableEq α] {s : Session α σ π} {place other : Nat} {p q : π}

/-! ### Steps at a position -/

theorem step_head (hp : s.position? place = some p) :
    s.step (.head place) = (.token (Medium.head? s.store p), s) := by
  simp only [step, look, atPlace, hp]

theorem step_offset (hp : s.position? place = some p) :
    s.step (.offset place) = (.number (Medium.offset s.store p), s) := by
  simp only [step, look, atPlace, hp]

theorem step_samePlace (hp : s.position? place = some p) (hq : s.position? other = some q) :
    s.step (.samePlace place other) = (.flag (Medium.samePlace s.store p q), s) := by
  simp only [step, look, atPlace, hp, hq]

theorem step_skip (hp : s.position? place = some p) (n : Nat) :
    s.step (.tail place n) = (.place s.positions.size,
      ((s.withStore (Medium.skip n s.store p).2).note (Medium.skip n s.store p).1).2) := by
  simp only [step, atPlace, hp, onStore_eq]
  rfl

theorem step_take (hp : s.position? place = some p) (n : Nat) :
    s.step (.take place n) =
      (.tokens (Medium.take n s.store p).1, s.withStore (Medium.take n s.store p).2) := by
  simp only [step, atPlace, hp, onStore_eq]

theorem step_count (hp : s.position? place = some p) :
    s.step (.count place) = (.number (Medium.count s.store p).1, s.withStore (Medium.count s.store p).2) := by
  simp only [step, atPlace, hp, onStore_eq]

/-- What a step answers, with the offset of each place for the place. -/
def answer (s : Session α σ π) (x : Step α) : Reply α Nat :=
  (s.step x).1.mapPlace (Medium.offset (s.step x).2.store)

end Parts

/-! ## 2. Sessions that mirror each other -/

variable {α σ σ' π π' : Type} [Medium α σ π] [Medium α σ' π'] {M : Medium.Mirror α σ σ' π π'}
  {feeds : List (Feed α)} {marks : List (Option (π × π'))} {outcomes : List (Result α (π × π'))}
  {s t : Session α σ π} {s' t' : Session α σ' π'} {p : π} {p' : π'}

/-- The places that are held, once for each position and for each result. -/
def heldBy (marks : List (Option (π × π'))) (outcomes : List (Result α (π × π'))) :
    Multiset (π × π') :=
  (marks.reduceOption ++ outcomes.map Outcome.place : List (π × π'))

/-- Two sessions hold these pairs of positions and results, one of each pair, and agree on everything
else. -/
structure MirrorsBy (M : Medium.Mirror α σ σ' π π') (feeds : List (Feed α))
    (marks : List (Option (π × π'))) (outcomes : List (Result α (π × π'))) (s : Session α σ π)
    (s' : Session α σ' π') : Prop where
  workshop : Workshop.Mirrors M feeds (heldBy marks outcomes) s.workshop s'.workshop
  parsers : s.parsers = s'.parsers
  founded : ∀ q ∈ s.parsers, q.Founded (M.Names s.store s'.store)
  positions : s.positions = (marks.map (Option.map Prod.fst)).toArray
  positions' : s'.positions = (marks.map (Option.map Prod.snd)).toArray
  results : s.results = (outcomes.map (Outcome.mapPlace Prod.fst)).toArray
  results' : s'.results = (outcomes.map (Outcome.mapPlace Prod.snd)).toArray
  sources : s.sources = s'.sources

/-- Two sessions do the same, each in its medium. -/
def Mirrors (M : Medium.Mirror α σ σ' π π') (feeds : List (Feed α)) (s : Session α σ π)
    (s' : Session α σ' π') : Prop :=
  ∃ marks outcomes, MirrorsBy M feeds marks outcomes s s'

namespace MirrorsBy

theorem states (h : MirrorsBy M feeds marks outcomes s s') :
    M.States feeds (heldBy marks outcomes) s.store s'.store :=
  h.workshop.states

/-- A position is there in both sessions, or in neither. -/
theorem position? (h : MirrorsBy M feeds marks outcomes s s') (place : Nat) :
    s.position? place = (marks[place]?).join.map Prod.fst ∧
      s'.position? place = (marks[place]?).join.map Prod.snd := by
  simp only [Session.position?, h.positions, h.positions', List.getElem?_toArray, List.getElem?_map]
  rcases marks[place]? with _ | _ | x
  · exact ⟨rfl, rfl⟩
  · exact ⟨rfl, rfl⟩
  · exact ⟨rfl, rfl⟩

/-- Positions with one number go together. -/
theorem places_position (h : MirrorsBy M feeds marks outcomes s s') {place : Nat} {x : π × π'}
    (hx : (marks[place]?).join = some x) : M.Places s.store s'.store x.1 x.2 := by
  refine M.held h.states (Multiset.mem_coe.2 (List.mem_append_left _ ?_))
  exact List.reduceOption_mem_iff.2 (List.mem_of_getElem? (Option.join_eq_some_iff.1 hx))

/-- Results with one number are alike. -/
theorem alike_result (h : MirrorsBy M feeds marks outcomes s s') (result : Nat) :
    (s.results[result]? = none ∧ s'.results[result]? = none) ∨
      ∃ r r', s.results[result]? = some r ∧ s'.results[result]? = some r' ∧
        Outcome.Mirrors (M.Places s.store s'.store) r r' := by
  simp only [h.results, h.results', List.getElem?_toArray, List.getElem?_map]
  cases hr : outcomes[result]? with
  | none => exact .inl ⟨rfl, rfl⟩
  | some r =>
    have there : M.Places s.store s'.store r.place.1 r.place.2 :=
      M.held h.states (Multiset.mem_coe.2 (List.mem_append_right _
        (List.mem_map_of_mem (List.mem_of_getElem? hr))))
    refine .inr ⟨_, _, rfl, rfl, ?_⟩
    cases r with
    | success v next => exact .success v there
    | failure reason place => exact .failure reason there

theorem size_positions (h : MirrorsBy M feeds marks outcomes s s') :
    s.positions.size = s'.positions.size := by
  simp only [h.positions, h.positions', List.size_toArray, List.length_map]

theorem size_results (h : MirrorsBy M feeds marks outcomes s s') :
    s.results.size = s'.results.size := by
  simp only [h.results, h.results', List.size_toArray, List.length_map]

/-- Both sessions go on in their media. -/
theorem goOn (h : MirrorsBy M feeds marks outcomes s s') {feeds' : List (Feed α)} {m : σ} {m' : σ'}
    (states : M.States feeds' (heldBy marks outcomes) m m') (on : M.Onward s.store s'.store m m') :
    MirrorsBy M feeds' marks outcomes (s.withStore m) (s'.withStore m') :=
  ⟨⟨states, h.workshop.grammar, h.workshop.founded.mono on.names⟩, h.parsers,
    fun q hq => (h.founded q hq).mono on.names, h.positions, h.positions', h.results, h.results',
    h.sources⟩

/-- Both sessions note a position. -/
theorem note (h : MirrorsBy M feeds marks outcomes s s') (hp : M.Places s.store s'.store p p') :
    MirrorsBy M feeds (marks ++ [some (p, p')]) outcomes (s.note p).2 (s'.note p').2 ∧
      M.Onward s.store s'.store (s.note p).2.store (s'.note p').2.store := by
  obtain ⟨states, on⟩ := M.hold h.states hp
  have held : heldBy (marks ++ [some (p, p')]) outcomes = (p, p') ::ₘ heldBy marks outcomes := by
    refine Multiset.coe_eq_coe.2 ?_
    rw [List.reduceOption_append, List.reduceOption_singleton, Option.toList_some, List.append_assoc]
    exact List.perm_middle
  refine ⟨⟨⟨held ▸ states, h.workshop.grammar, h.workshop.founded.mono on.names⟩, h.parsers,
    fun q hq => (h.founded q hq).mono on.names, ?_, ?_, h.results, h.results', h.sources⟩, on⟩
  · change s.positions.push (some p) = _
    rw [h.positions, List.push_toArray, List.map_append]
    rfl
  · change s'.positions.push (some p') = _
    rw [h.positions', List.push_toArray, List.map_append]
    rfl

/-- Both sessions note a result. -/
theorem addResult (h : MirrorsBy M feeds marks outcomes s s') {r : Result α π} {r' : Result α π'}
    (hr : Outcome.Mirrors (M.Places s.store s'.store) r r') :
    ∃ b, MirrorsBy M feeds marks (outcomes ++ [b]) (s.addResult r) (s'.addResult r') ∧
      M.Onward s.store s'.store (s.addResult r).store (s'.addResult r').store := by
  obtain ⟨states, on⟩ := M.hold h.states hr.place
  obtain ⟨b, rfl, rfl⟩ : ∃ b : Result α (π × π'), b.mapPlace Prod.fst = r ∧ b.mapPlace Prod.snd = r' := by
    cases hr with
    | @success v next next' _ => exact ⟨.success v (next, next'), rfl, rfl⟩
    | @failure reason place place' _ => exact ⟨.failure reason (place, place'), rfl, rfl⟩
  rw [Outcome.place_mapPlace, Outcome.place_mapPlace] at states
  have held : heldBy marks (outcomes ++ [b]) = b.place ::ₘ heldBy marks outcomes := by
    refine Multiset.coe_eq_coe.2 ?_
    rw [List.map_append, ← List.append_assoc]
    exact List.perm_append_singleton _ _
  refine ⟨b, ⟨⟨?_, h.workshop.grammar, h.workshop.founded.mono on.names⟩, h.parsers,
    fun q hq => (h.founded q hq).mono on.names, h.positions, h.positions', ?_, ?_, h.sources⟩, on⟩
  · rw [held]
    change M.States feeds _ (Medium.hold s.store (b.mapPlace Prod.fst).place)
      (Medium.hold s'.store (b.mapPlace Prod.snd).place)
    rwa [Outcome.place_mapPlace, Outcome.place_mapPlace]
  · change s.results.push (b.mapPlace Prod.fst) = _
    rw [h.results, List.push_toArray, List.map_append]
    rfl
  · change s'.results.push (b.mapPlace Prod.snd) = _
    rw [h.results', List.push_toArray, List.map_append]
    rfl

omit [Medium α σ π] [Medium α σ' π'] in
/-- Of a position that is forgotten one hold is given up. -/
theorem heldBy_set {place : Nat} {x : π × π'} (hx : marks[place]? = some (some x)) :
    heldBy marks outcomes = x ::ₘ heldBy (marks.set place none) outcomes := by
  refine Multiset.coe_eq_coe.2 ?_
  induction marks generalizing place with
  | nil => exact absurd hx (by simp)
  | cons mark marks ih =>
    cases place with
    | zero =>
      obtain rfl := Option.some.inj hx
      exact .refl _
    | succ place =>
      rw [List.set_cons_succ]
      cases mark with
      | none => exact ih hx
      | some y => exact ((ih hx).cons y).trans (.swap x y _)

/-- Both sessions forget a position. -/
theorem forget (h : MirrorsBy M feeds marks outcomes s s') (place : Nat) :
    MirrorsBy M feeds (marks.set place none) outcomes (s.forget place) (s'.forget place) := by
  obtain ⟨hs, hs'⟩ := h.position? place
  have positions : s.positions.setIfInBounds place none =
      ((marks.set place none).map (Option.map Prod.fst)).toArray := by
    rw [h.positions, List.setIfInBounds_toArray, List.map_set]
    rfl
  have positions' : s'.positions.setIfInBounds place none =
      ((marks.set place none).map (Option.map Prod.snd)).toArray := by
    rw [h.positions', List.setIfInBounds_toArray, List.map_set]
    rfl
  cases hx : (marks[place]?).join with
  | none =>
    rw [hx, Option.map_none] at hs hs'
    rw [forget_of_none hs, forget_of_none hs']
    have same : marks.set place none = marks := by
      refine List.ext_getElem? fun n => ?_
      rw [List.getElem?_set]
      split
      next here =>
        subst here
        split
        next inside =>
          rw [List.getElem?_eq_getElem inside] at hx ⊢
          exact congrArg some hx.symm
        next outside => exact (List.getElem?_eq_none (Nat.le_of_not_lt outside)).symm
      next => rfl
    refine ⟨?_, h.parsers, h.founded, positions, positions', h.results, h.results', h.sources⟩
    rw [same]
    exact h.workshop
  | some x =>
    rw [hx, Option.map_some] at hs hs'
    rw [forget_of_some hs, forget_of_some hs']
    have states := h.states
    rw [heldBy_set (Option.join_eq_some_iff.1 hx)] at states
    obtain ⟨states, known⟩ := M.drop states
    exact ⟨⟨states, h.workshop.grammar, h.workshop.founded.mono known⟩, h.parsers,
      fun q hq => (h.founded q hq).mono known, positions, positions', h.results, h.results', h.sources⟩

end MirrorsBy

/-! ## 3. Steps on sequences -/

/-- Two steps answer the same, and the sessions mirror each other after them. -/
def Coincide (M : Medium.Mirror α σ σ' π π') (feeds : List (Feed α)) (x : Reply α π × Session α σ π)
    (x' : Reply α π' × Session α σ' π') : Prop :=
  x.1.mapPlace (Medium.offset x.2.store) = x'.1.mapPlace (Medium.offset x'.2.store) ∧
    Mirrors M feeds x.2 x'.2

namespace MirrorsBy

theorem mirrors (h : MirrorsBy M feeds marks outcomes s s') : Mirrors M feeds s s' :=
  ⟨marks, outcomes, h⟩

/-- A reply without places may be given in both sessions. -/
theorem coincide (h : MirrorsBy M feeds marks outcomes s s') {r : Reply α π} {r' : Reply α π'}
    (same : ∀ (f : π → Nat) (f' : π' → Nat), r.mapPlace f = r'.mapPlace f') :
    Coincide M feeds (r, s) (r', s') :=
  ⟨same _ _, h.mirrors⟩

/-- What is done at a position is done at places that go together. -/
theorem atPlace (h : MirrorsBy M feeds marks outcomes s s') (place : Nat)
    {f : π → Session α σ π → Reply α π × Session α σ π}
    {f' : π' → Session α σ' π' → Reply α π' × Session α σ' π'}
    (hf : ∀ p p', M.Places s.store s'.store p p' → Coincide M feeds (f p s) (f' p' s')) :
    Coincide M feeds (s.atPlace place f) (s'.atPlace place f') := by
  obtain ⟨hs, hs'⟩ := h.position? place
  unfold Session.atPlace
  rw [hs, hs']
  cases hx : (marks[place]?).join with
  | none => exact h.coincide fun _ _ => rfl
  | some x => exact hf x.1 x.2 (h.places_position hx)

/-- What is looked up at a position is the same. -/
theorem look (h : MirrorsBy M feeds marks outcomes s s') (place : Nat) {f : σ → π → Reply α π}
    {f' : σ' → π' → Reply α π'}
    (hf : ∀ p p', M.Places s.store s'.store p p' → ∀ (g : π → Nat) (g' : π' → Nat),
      (f s.store p).mapPlace g = (f' s'.store p').mapPlace g') :
    Coincide M feeds (s.look place f) (s'.look place f') :=
  h.atPlace place fun p p' hp => h.coincide (hf p p' hp)

theorem atSource (h : MirrorsBy M feeds marks outcomes s s') (source : Nat) {empty : Reply α π}
    {empty' : Reply α π'}
    (hempty : ∀ (g : π → Nat) (g' : π' → Nat), empty.mapPlace g = empty'.mapPlace g')
    {f : Nat → Session α σ π → Reply α π × Session α σ π}
    {f' : Nat → Session α σ' π' → Reply α π' × Session α σ' π'}
    (hf : ∀ n, Coincide M feeds (f n s) (f' n s')) :
    Coincide M feeds (s.atSource source empty f) (s'.atSource source empty' f') := by
  unfold Session.atSource
  rw [h.sources]
  split
  · exact hf _
  · exact h.coincide hempty
  · exact h.coincide fun _ _ => rfl

/-- A position is noted under the same number. -/
theorem replyPlace (h : MirrorsBy M feeds marks outcomes s s') (hp : M.Places s.store s'.store p p') :
    Coincide M feeds (.place (s.note p).1, (s.note p).2) (.place (s'.note p').1, (s'.note p').2) :=
  ⟨congrArg Reply.place h.size_positions, (h.note hp).1.mirrors⟩

/-- A sequence that was opened gets a number. -/
theorem addSource (h : MirrorsBy M feeds marks outcomes s s') {number number' : Option Nat}
    (same : number = number') :
    MirrorsBy M feeds marks outcomes { s with sources := s.sources.push number }
      { s' with sources := s'.sources.push number' } :=
  ⟨h.workshop, h.parsers, h.founded, h.positions, h.positions', h.results, h.results',
    same ▸ congrArg (Array.push · number) h.sources⟩

theorem start (h : MirrorsBy M feeds marks outcomes s s') (input : Input α) :
    Coincide M (feeds ++ input.feeds) (s.start input) (s'.start input) := by
  obtain ⟨states, on, there⟩ := M.start h.states input
  obtain ⟨noted, -⟩ := (h.goOn states on).note there
  have reply : (Reply.started s.positions.size s.sources.size : Reply α Nat) =
      .started s'.positions.size s'.sources.size := by
    rw [h.size_positions, h.sources]
  cases input with
  | feed f => exact ⟨reply, (noted.addSource (congrArg some (M.opened h.states))).mirrors⟩
  | empty => exact ⟨reply, (noted.addSource rfl).mirrors⟩

end MirrorsBy

/-! ## 4. Steps with parsers -/

section Steps

variable [Token α] [DecidableEq α] {q : Parser α}

namespace MirrorsBy

omit [Token α] [DecidableEq α] in
/-- The worlds in which a parse begins. -/
theorem worlds (h : MirrorsBy M feeds marks outcomes s s') :
    Parsing.Worlds M feeds (heldBy marks outcomes) ⟨s.store, []⟩ ⟨s'.store, []⟩ :=
  ⟨h.states, .nil⟩

theorem parse (h : MirrorsBy M feeds marks outcomes s s') (hq : q.Founded (M.Names s.store s'.store))
    (hp : M.Places s.store s'.store p p') : Coincide M feeds (s.parse q p) (s'.parse q p') := by
  obtain ⟨worlds, on, answers⟩ := Parser.mirrors_parse h.workshop.founded hq h.worlds hp
  have moved := h.goOn worlds.states on
  simp only [Session.parse, perform_eq, ← h.workshop.grammar]
  generalize (ExceptT.run (q.parse s.workshop.grammar p)).run ⟨s.store, []⟩ = ended
    at worlds on answers moved
  generalize (ExceptT.run (q.parse s.workshop.grammar p')).run ⟨s'.store, []⟩ = ended'
    at worlds on answers moved
  obtain ⟨answer, v⟩ := ended
  obtain ⟨answer', v'⟩ := ended'
  cases answers with
  | error why =>
    refine ⟨congrArg (Reply.stopped why) ?_, moved.mirrors⟩
    exact Event.map_mapPlace_eq (fun _ _ hr => M.offset worlds.states hr)
      (List.rel_reverse worlds.events)
  | @ok r r' same =>
    obtain ⟨noted, on₁⟩ := moved.note same.place
    obtain ⟨b, added, on₂⟩ := noted.addResult (same.mono on₁.places)
    have offsets : ∀ p p', M.Places v.store v'.store p p' → _ = _ := fun p p' hp =>
      M.offset added.states ((on₁.trans on₂).places hp)
    refine ⟨?_, added.mirrors⟩
    have outcome := same.mapPlace_eq offsets
    have events := Event.map_mapPlace_eq offsets (List.rel_reverse worlds.events)
    change Reply.parsed s.positions.size s.results.size _ _ =
      Reply.parsed s'.positions.size s'.results.size _ _
    rw [h.size_positions, h.size_results, outcome, events]

theorem run (h : MirrorsBy M feeds marks outcomes s s') (hq : q.Founded (M.Names s.store s'.store))
    (filename : String) (hp : M.Places s.store s'.store p p') :
    Coincide M feeds (s.run q filename p) (s'.run q filename p') := by
  obtain ⟨worlds, on, answers⟩ := Parser.mirrors_run filename h.workshop.founded hq h.worlds hp
  have moved := h.goOn worlds.states on
  simp only [Session.run, perform_eq, ← h.workshop.grammar]
  generalize (ExceptT.run (q.run s.workshop.grammar filename p)).run ⟨s.store, []⟩ = ended
    at worlds on answers moved
  generalize (ExceptT.run (q.run s.workshop.grammar filename p')).run ⟨s'.store, []⟩ = ended'
    at worlds on answers moved
  obtain ⟨answer, v⟩ := ended
  obtain ⟨answer', v'⟩ := ended'
  have events := Event.map_mapPlace_eq (fun _ _ hr => M.offset worlds.states hr)
    (List.rel_reverse worlds.events)
  cases answers with
  | error why => exact ⟨congrArg (Reply.stopped why) events, moved.mirrors⟩
  | @ok r r' same =>
    subst same
    cases r with
    | ok value => exact ⟨congrArg (Reply.accepted value) events, moved.mirrors⟩
    | error d => exact ⟨congrArg (Reply.rejected d) events, moved.mirrors⟩

omit [Token α] in
/-- Results are compared and shown by their places. -/
theorem agrees_eq (h : MirrorsBy M feeds marks outcomes s s') {r t : Result α π} {r' t' : Result α π'}
    (hr : Outcome.Mirrors (M.Places s.store s'.store) r r')
    (ht : Outcome.Mirrors (M.Places s.store s'.store) t t') :
    r.agrees (Medium.samePlace s.store) t = r'.agrees (Medium.samePlace s'.store) t' := by
  cases hr with
  | success v hp =>
    cases ht with
    | success w hp' => simp only [Outcome.agrees, M.samePlace h.states hp hp']
    | failure reason hp' => rfl
  | failure reason hp =>
    cases ht with
    | success w hp' => rfl
    | failure reason hp' => simp only [Outcome.agrees, M.samePlace h.states hp hp']

omit [DecidableEq α] in
theorem describe_eq (h : MirrorsBy M feeds marks outcomes s s') {r : Result α π} {r' : Result α π'}
    (hr : Outcome.Mirrors (M.Places s.store s'.store) r r') :
    r.describe (Medium.describe s.store) = r'.describe (Medium.describe s'.store) := by
  have same := hr.mapPlace_eq fun _ _ hp => M.describe h.states hp
  rw [← Outcome.describe_mapPlace _ r, same, Outcome.describe_mapPlace]

/-- Every step that opens no sequence does the same in both media. -/
theorem stay (h : MirrorsBy M feeds marks outcomes s s') {x : Step α} (hx : ∀ input, x ≠ .start input) :
    Coincide M feeds (s.step x) (s'.step x) := by
  cases x with
  | start input => exact absurd rfl (hx input)
  | tail place count =>
    refine h.atPlace place fun p p' hp => ?_
    obtain ⟨states, on, there⟩ := M.skip count h.states hp
    exact (h.goOn states on).replyPlace there
  | clone place =>
    exact h.atPlace place fun p p' hp => h.replyPlace hp
  | head place =>
    exact h.look place fun p p' hp _ _ => congrArg Reply.token (M.head? h.states hp)
  | offset place =>
    exact h.look place fun p p' hp _ _ => congrArg Reply.number (M.offset h.states hp)
  | isEnd place =>
    exact h.look place fun p p' hp _ _ => congrArg Reply.flag (M.isEnd h.states hp)
  | describe place =>
    exact h.look place fun p p' hp _ _ => congrArg Reply.text (M.describe h.states hp)
  | samePlace place other =>
    refine h.atPlace place fun p p' hp => h.look other fun q q' hq _ _ => ?_
    exact congrArg Reply.flag (M.samePlace h.states hp hq)
  | take place count =>
    refine h.atPlace place fun p p' hp => ?_
    obtain ⟨same, states, on⟩ := M.take count h.states hp
    exact ⟨congrArg Reply.tokens same, (h.goOn states on).mirrors⟩
  | count place =>
    refine h.atPlace place fun p p' hp => ?_
    obtain ⟨same, states, on⟩ := M.count h.states hp
    exact ⟨congrArg Reply.number same, (h.goOn states on).mirrors⟩
  | drop place =>
    refine ⟨congrArg Reply.flag ?_, (h.forget place).mirrors⟩
    rw [(h.position? place).1, (h.position? place).2, Option.isSome_map, Option.isSome_map]
  | pulls source =>
    refine h.atSource source (fun _ _ => rfl) fun n => h.coincide fun _ _ => ?_
    exact congrArg Reply.number (M.pulls h.states n)
  | isOk source =>
    refine h.atSource source (fun _ _ => rfl) fun n => h.coincide fun _ _ => ?_
    exact congrArg (fun fault : Option (Option String) => Reply.flag fault.join.isNone)
      (M.status? h.states n)
  | takeFault source =>
    refine h.atSource source (fun _ _ => rfl) fun n => ?_
    obtain ⟨states, on, same⟩ := M.takeFault h.states n
    exact ⟨congrArg Reply.fault same, (h.goOn states on).mirrors⟩
  | describeStatus source =>
    refine h.atSource source (fun _ _ => rfl) fun n => h.coincide fun _ _ => ?_
    rw [show Medium.status? s.workshop.store n = _ from M.status? h.states n]
    cases Medium.status? s'.workshop.store n <;> rfl
  | parse place parser =>
    refine h.atPlace place fun p p' hp => ?_
    rw [← h.parsers]
    cases hq : s.parsers[parser]? with
    | some q => exact h.parse (h.founded q (Array.mem_of_getElem? hq)) hp
    | none => exact h.coincide fun _ _ => rfl
  | run place parser filename =>
    refine h.atPlace place fun p p' hp => ?_
    rw [← h.parsers]
    cases hq : s.parsers[parser]? with
    | some q => exact h.run (h.founded q (Array.mem_of_getElem? hq)) filename hp
    | none => exact h.coincide fun _ _ => rfl
  | sameResult result other =>
    simp only [Session.step]
    obtain ⟨hr, hr'⟩ | ⟨r, r', hr, hr', same⟩ := h.alike_result result
    · rw [hr, hr']
      exact h.coincide fun _ _ => rfl
    obtain ⟨ht, ht'⟩ | ⟨t, t', ht, ht', same'⟩ := h.alike_result other
    · rw [hr, hr', ht, ht']
      exact h.coincide fun _ _ => rfl
    rw [hr, hr', ht, ht']
    exact h.coincide fun _ _ => congrArg Reply.flag (h.agrees_eq same same')
  | describeResult result =>
    simp only [Session.step]
    obtain ⟨hr, hr'⟩ | ⟨r, r', hr, hr', same⟩ := h.alike_result result
    · rw [hr, hr']
      exact h.coincide fun _ _ => rfl
    rw [hr, hr']
    exact h.coincide fun _ _ => congrArg Reply.text (h.describe_eq same)
  | wrapResult result =>
    simp only [Session.step]
    obtain ⟨hr, hr'⟩ | ⟨r, r', hr, hr', same⟩ := h.alike_result result
    · rw [hr, hr']
      exact h.coincide fun _ _ => rfl
    rw [hr, hr']
    refine ⟨congrArg Reply.result ?_, h.mirrors⟩
    exact (same.mapValue .wrapped).mapPlace_eq fun _ _ hp => M.offset h.states hp

/-- **Every step does the same in both media.** -/
theorem step (h : MirrorsBy M feeds marks outcomes s s') (x : Step α) :
    Coincide M (feeds ++ x.feeds) (s.step x) (s'.step x) := by
  by_cases opens : ∃ input, x = .start input
  · obtain ⟨input, rfl⟩ := opens
    rw [Step.feeds_start]
    exact h.start input
  · have stays : ∀ input, x ≠ .start input := fun input same => opens ⟨input, same⟩
    rw [Step.feeds_eq_nil stays, List.append_nil]
    exact h.stay stays

end MirrorsBy

/-- **A step answers the same in both sessions**, and they mirror each other after it. -/
theorem Mirrors.step (h : Mirrors M feeds s s') (x : Step α) :
    s.answer x = s'.answer x ∧ Mirrors M (feeds ++ x.feeds) (s.step x).2 (s'.step x).2 := by
  obtain ⟨marks, outcomes, h⟩ := h
  exact h.step x

/-! ## 5. Whole sessions -/

/-- The session after some steps. -/
def after (s : Session α σ π) (xs : List (Step α)) : Session α σ π :=
  xs.foldl (fun s x => (s.step x).2) s

/-- What a session answers to some steps, one after the other. -/
def answerAll (s : Session α σ π) : List (Step α) → List (Reply α Nat)
  | [] => []
  | x :: xs => s.answer x :: (s.step x).2.answerAll xs

theorem Mirrors.after (h : Mirrors M feeds s s') (xs : List (Step α)) :
    Mirrors M (feeds ++ xs.flatMap Step.feeds) (s.after xs) (s'.after xs) := by
  induction xs generalizing feeds s s' with
  | nil => exact (List.append_nil feeds).symm ▸ h
  | cons x xs ih =>
    rw [List.flatMap_cons, ← List.append_assoc]
    exact ih (h.step x).2

theorem Mirrors.answerAll (h : Mirrors M feeds s s') (xs : List (Step α)) :
    s.answerAll xs = s'.answerAll xs := by
  induction xs generalizing feeds s s' with
  | nil => rfl
  | cons x xs ih =>
    obtain ⟨same, next⟩ := h.step x
    rw [Session.answerAll, Session.answerAll, same, ih next]

/-- **Sessions begin the same in both media**, with the same parsers or for the same fault not at all. -/
theorem mirrors_beginIn {empty : σ} {empty' : σ'} (h : M.States [] 0 empty empty')
    (ds : List (Description α)) :
    (∃ why, beginIn empty ds = .error why ∧ beginIn empty' ds = .error why) ∨
      ∃ s s', beginIn empty ds = .ok s ∧ beginIn empty' ds = .ok s' ∧
        Mirrors M (Description.feedsAll ds) s s' := by
  have none : Workshop.Mirrors M [] 0 ⟨empty, #[]⟩ ⟨empty', #[]⟩ :=
    ⟨h, rfl, fun id body hbody => absurd hbody (by simp)⟩
  obtain ⟨why, hb, hb'⟩ | ⟨qs, w, w', hb, hb', both, -, -, hqs⟩ :=
    Description.mirrors_buildAll [] none ds
  · refine .inl ⟨why, ?_, ?_⟩
    · simp only [beginIn, hb]
      rfl
    · simp only [beginIn, hb']
      rfl
  · refine .inr ⟨⟨w, qs.toArray, #[], #[], #[]⟩, ⟨w', qs.toArray, #[], #[], #[]⟩, ?_, ?_, [], [], ?_⟩
    · simp only [beginIn, hb]
      rfl
    · simp only [beginIn, hb']
      rfl
    · refine ⟨both, rfl, fun q hq => ?_, rfl, rfl, rfl, rfl, rfl⟩
      exact Parser.foundedAll_iff.1 hqs q (List.mem_toArray.1 hq)

/-- Where a session begins in the one medium, it begins in the other. -/
theorem exists_mirrors_of_begin {empty : σ} {empty' : σ'} {ds : List (Description α)}
    (start : M.States [] 0 empty empty') (h : beginIn empty ds = .ok s) :
    ∃ s', beginIn empty' ds = .ok s' ∧ Mirrors M (Description.feedsAll ds) s s' := by
  obtain ⟨why, refused, -⟩ | ⟨s₁, s', begun, begun', both⟩ := mirrors_beginIn start ds
  · exact absurd (refused.symm.trans h) nofun
  · obtain rfl := Except.ok.inj (begun.symm.trans h)
    exact ⟨s', begun', both⟩

end Steps

end Session

end LazyPeg
