import LazyPeg.Proofs.Building.Alike
import LazyPeg.Proofs.Medium.Watched

/-!
# What holds in every session

A session is sound if each of its positions was reached, its parsers and rules jump only to places that
were reached, and its sequences are in the store (`Session.Sound`).  It is grounded if its results stand
at places that were reached as well.  A session is grounded when it begins, and **every step keeps it so
and moves to the places that it says** (`Session.Grounded.step`), however the steps are mixed: a grounded
session does the same as the session that keeps a list of the places moved to.

`Session.Reaches` is the relation between descriptions and the sessions that can be reached with them.
It carries the feeds that were opened, in order, and the places that were moved to, as
`Store.Goes` does.
-/
namespace LazyPeg

/-- The bodies of all rules jump only to places that were reached. -/
def Workshop.Founded {α : Type} (w : Workshop α) : Prop := Parser.FoundedRules w.store.Reached w.grammar

namespace Session

/-! ## 1. What no step changes -/

section Fixed

variable {α σ π : Type} [Token α] [DecidableEq α] [Medium α σ π] {s : Session α σ π}

/-- The rules and the parsers of a session, and the numbers of its sequences. -/
def fixed (s : Session α σ π) : Parser.Grammar α × Array (Parser α) × Array (Option Nat) :=
  (s.workshop.grammar, s.parsers, s.sources)

omit [Token α] [DecidableEq α] [Medium α σ π] in
theorem fixed_atPlace (place : Nat) {f : π → Session α σ π → Reply α π × Session α σ π}
    (hf : ∀ p, (f p s).2.fixed = s.fixed) : (s.atPlace place f).2.fixed = s.fixed := by
  unfold atPlace
  split
  · exact hf _
  · rfl

omit [Token α] [DecidableEq α] [Medium α σ π] in
theorem fixed_atSource (source : Nat) (empty : Reply α π)
    {f : Nat → Session α σ π → Reply α π × Session α σ π} (hf : ∀ n, (f n s).2.fixed = s.fixed) :
    (s.atSource source empty f).2.fixed = s.fixed := by
  unfold atSource
  split
  · exact hf _
  · rfl
  · rfl

omit [Token α] [DecidableEq α] in
theorem fixed_forget (s : Session α σ π) (place : Nat) : (s.forget place).fixed = s.fixed := by
  cases h : s.position? place with
  | none =>
    rw [forget_of_none h]
    rfl
  | some p =>
    rw [forget_of_some h]
    rfl

theorem fixed_parse (q : Parser α) (p : π) (s : Session α σ π) : (s.parse q p).2.fixed = s.fixed := by
  simp only [parse, perform_eq]
  split <;> rfl

theorem fixed_run (q : Parser α) (filename : String) (p : π) (s : Session α σ π) :
    (s.run q filename p).2.fixed = s.fixed := by
  simp only [run, perform_eq]
  split <;> rfl

/-- Only where a sequence is opened there is a new number. -/
theorem fixed_step {x : Step α} (hx : ∀ input, x ≠ .start input) : (s.step x).2.fixed = s.fixed := by
  cases x with
  | start input => exact absurd rfl (hx input)
  | samePlace place other => exact fixed_atPlace place fun p => fixed_atPlace other fun _ => rfl
  | drop place => exact fixed_forget s place
  | pulls source => exact fixed_atSource source _ fun _ => rfl
  | isOk source => exact fixed_atSource source _ fun _ => rfl
  | takeFault source => exact fixed_atSource source _ fun _ => rfl
  | describeStatus source => exact fixed_atSource source _ fun _ => rfl
  | parse place parser =>
    refine fixed_atPlace place fun p => ?_
    split
    · exact fixed_parse _ p s
    · rfl
  | run place parser filename =>
    refine fixed_atPlace place fun p => ?_
    split
    · exact fixed_run _ filename p s
    · rfl
  | sameResult result other =>
    simp only [step]
    split <;> rfl
  | describeResult result =>
    simp only [step]
    split <;> rfl
  | wrapResult result =>
    simp only [step]
    split <;> rfl
  | _ => exact fixed_atPlace _ fun _ => rfl

/-- **No step changes a parser or a rule.** -/
theorem parsers_step (s : Session α σ π) (x : Step α) :
    (s.step x).2.workshop.grammar = s.workshop.grammar ∧ (s.step x).2.parsers = s.parsers := by
  by_cases opens : ∃ input, x = .start input
  · obtain ⟨input, rfl⟩ := opens
    cases input <;> exact ⟨rfl, rfl⟩
  · have fixed := fixed_step (s := s) fun input same => opens ⟨input, same⟩
    exact ⟨congrArg Prod.fst fixed, congrArg (·.2.1) fixed⟩

end Fixed

/-! ## 2. Soundness -/

variable {α : Type} {s s' : Session α} {feeds : List (Feed α)} {forced : List Position} {p : Position}
  {st : Store α}

/-- The positions of a session and all places that its parsers jump to were reached, and its sequences
are in the store. -/
structure Sound (s : Session α) : Prop where
  founded : s.workshop.Founded
  parsers : ∀ (parser : Nat) (q : Parser α), s.parsers[parser]? = some q → q.Founded s.store.Reached
  positions : ∀ (place : Nat) (p : Position), s.position? place = some p → s.store.Reached p
  sources : ∀ source n : Nat, s.source? source = some n → n < s.store.sources.size

/-- The places of the results were reached as well. -/
structure Grounded (s : Session α) : Prop extends Sound s where
  results : ∀ (result : Nat) (r : Result α), s.results[result]? = some r → s.store.Reached r.place

/-- How a session that keeps a list of the places moved to goes together with one that does not. -/
abbrev listing (base : Store α) : Medium.Mirror α (Watched (Store α)) (Store α) (Tracked Position) Position :=
  (Medium.Mirror.refl α (Store α) Position).watched base

/-- A session is grounded if it goes together with one that keeps a list, and its sequences are in the
store. -/
theorem grounded_of_mirrors {base : Store α} {t : Session α (Watched (Store α)) (Tracked Position)}
    (h : Mirrors (listing base) feeds t s)
    (sources : ∀ source n : Nat, s.source? source = some n → n < s.store.sources.size) : s.Grounded := by
  obtain ⟨marks, outcomes, h⟩ := h
  have rules : Parser.FoundedRules s.store.Reached s.workshop.grammar :=
    h.workshop.grammar ▸ h.workshop.founded.mono fun hname => hname.2
  refine ⟨⟨rules, fun parser q hq => ?_, fun place p hp => ?_, sources⟩,
    fun result r hr => ?_⟩
  · rw [← h.parsers] at hq
    exact (h.founded q (Array.mem_of_getElem? hq)).mono fun hname => hname.2
  · rw [(h.position? place).2] at hp
    obtain ⟨x, hx, rfl⟩ := Option.map_eq_some_iff.1 hp
    exact (h.places_position hx).2.2
  · obtain ⟨-, none⟩ | ⟨_, r', -, hr', same⟩ := h.alike_result result
    · exact absurd (none.symm.trans hr) nofun
    · obtain rfl := Option.some.inj (hr'.symm.trans hr)
      exact same.place.2.2

/-- The session that keeps a list begins with none, and goes together with the session. -/
theorem Grounded.mirrors (h : s.Grounded) : Mirrors (listing s.store) [] s.watched s := by
  let mark (p : Position) : Tracked Position × Position := (⟨p, p⟩, p)
  refine ⟨s.positions.toList.map (Option.map mark), s.results.toList.map (Outcome.mapPlace mark), ?_⟩
  have here : ∀ x ∈ heldBy (s.positions.toList.map (Option.map mark))
      (s.results.toList.map (Outcome.mapPlace mark)),
      ∃ p, x = mark p ∧ s.store.Reached p := by
    intro x hx
    rcases List.mem_append.1 (Multiset.mem_coe.1 hx) with hx | hx
    · obtain ⟨mark', hmark, same⟩ := List.mem_map.1 (List.reduceOption_mem_iff.1 hx)
      obtain ⟨p, rfl, rfl⟩ := Option.map_eq_some_iff.1 same
      obtain ⟨place, hplace⟩ := List.getElem?_of_mem hmark
      refine ⟨p, rfl, h.positions place p ?_⟩
      rw [position?, ← Array.getElem?_toList, hplace]
      rfl
    · obtain ⟨b, hb, rfl⟩ := List.mem_map.1 hx
      obtain ⟨r, hr, rfl⟩ := List.mem_map.1 hb
      obtain ⟨result, hresult⟩ := List.getElem?_of_mem hr
      refine ⟨r.place, Outcome.place_mapPlace mark r, h.results result r ?_⟩
      rw [← Array.getElem?_toList, hresult]
  refine ⟨⟨⟨⟨rfl, fun x hx => ?_⟩, .refl, fun x hx => ?_⟩, rfl,
    h.founded.mono fun hname => ⟨trivial, hname⟩⟩, rfl, fun q hq => ?_, ?_, ?_, ?_, ?_, rfl⟩
  · obtain ⟨y, hy, rfl⟩ := Multiset.mem_map.1 hx
    obtain ⟨p, rfl, -⟩ := here y hy
    rfl
  · obtain ⟨p, rfl, reached⟩ := here x hx
    exact ⟨rfl, reached⟩
  · obtain ⟨parser, hparser⟩ := Array.getElem?_of_mem hq
    exact (h.parsers parser q hparser).mono fun hname => ⟨trivial, hname⟩
  · simp only [watched, List.map_map, ← List.map_toArray, Array.toArray_toList]
    refine congrArg (Array.map · s.positions) (funext fun p => ?_)
    cases p <;> rfl
  · simp only [List.map_map, ← List.map_toArray, Array.toArray_toList]
    refine (Array.map_id s.positions).symm.trans (congrArg (Array.map · s.positions) (funext fun p => ?_))
    cases p <;> rfl
  · simp only [watched, List.map_map, ← List.map_toArray, Array.toArray_toList]
    refine congrArg (Array.map · s.results) (funext fun r => ?_)
    cases r <;> rfl
  · simp only [List.map_map, ← List.map_toArray, Array.toArray_toList]
    refine (Array.map_id s.results).symm.trans (congrArg (Array.map · s.results) (funext fun r => ?_))
    cases r <;> rfl

section Steps

variable [Token α] [DecidableEq α]

/-- **Every step keeps a session grounded.**  It opens the feeds that it names, and moves to the places
of its list. -/
theorem Grounded.step (h : s.Grounded) (x : Step α) :
    (s.step x).2.Grounded ∧ s.store.Goes x.feeds (s.moves x) (s.step x).2.store := by
  obtain ⟨-, after⟩ := h.mirrors.step x
  have goes : s.store.Goes x.feeds (s.moves x) (s.step x).2.store := by
    obtain ⟨_, _, by_⟩ := after
    exact by_.states.2.1
  refine ⟨grounded_of_mirrors after fun source n hn => ?_, goes⟩
  have size : (s.step x).2.store.sources.size = _ := goes.size_eq
  by_cases opens : ∃ input, x = .start input
  · obtain ⟨input, rfl⟩ := opens
    have numbered (number : Option Nat) (hnumber : ∀ n ∈ number, n < (s.step (.start input)).2.store.sources.size)
        (sources : (s.step (.start input)).2.sources = s.sources.push number) :
        n < (s.step (.start input)).2.store.sources.size := by
      rw [source?, sources, Array.getElem?_push] at hn
      split at hn
      · exact hnumber n hn
      · have := h.sources source n hn
        omega
    cases input with
    | empty => exact numbered none (fun _ hn => absurd hn nofun) rfl
    | feed f =>
      refine numbered (some s.store.sources.size) (fun n hn => ?_) rfl
      obtain rfl := Option.some.inj hn
      rw [size]
      exact Nat.lt_succ_self _
  · have fixed := fixed_step (s := s) fun input same => opens ⟨input, same⟩
    rw [source?, show (s.step x).2.sources = s.sources from congrArg (·.2.2) fixed] at hn
    have := h.sources source n hn
    omega

end Steps

end Session

end LazyPeg
