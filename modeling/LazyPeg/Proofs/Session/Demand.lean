import LazyPeg.Proofs.Session.Parse

/-!
# How far a parse reads

A course says how far it has looked, and from this alone follows how often the feed is asked: the
*demand* of a course is one more than the largest offset that it looked at or moved to.  A parse lifts
the number of questions to its demand and leaves it where it is if it was higher
(`Session.pulls_afterCourse`).

* §2: the demand does not depend on what was done before, and where no more is demanded than was before,
  nothing is read at all (`Session.parse_demand`).
* §3: two scripts of answers that agree as far as the demand of the first cannot be told apart
  (`Session.parse_prefix`), since a reading looks at no token beyond its reach (`Parser.Reads.carry`).
-/
namespace LazyPeg

/-! ## 1. Demand -/

/-- How often a feed has to be asked for a course that starts at an offset. -/
def Course.demand {α β : Type} (c : Course α β) (i : Nat) : Nat := 1 + max i c.reach

namespace Session

variable {α : Type} [Token α] [DecidableEq α] {s : Session α} {place parser : Nat} {p : Position}
  {d : Description α} {ts : List α} {c : Course α (Outcome α Nat)}

omit [Token α] [DecidableEq α] in
theorem store_afterCourse (s : Session α) (p : Position) (c : Course α (Outcome α Nat)) :
    (s.afterCourse p c).store = s.store.forceTo p c.reach := by
  unfold afterCourse
  cases c.answer <;> rfl

omit [Token α] [DecidableEq α] in
/-- A parse lifts the number of questions to its demand. -/
theorem pulls_afterCourse (hs : s.store.Counted) (hp : s.store.Shows p ts p.offset)
    (hc : c.reach ≤ ts.length) (n : Nat) :
    (s.afterCourse p c).store.pulls n =
      (p.offsetIn n).elim (s.store.pulls n) fun i => max (s.store.pulls n) (c.demand i) := by
  rw [store_afterCourse, Store.pulls_forceTo hs hp hc]
  cases p with
  | empty => exact Nat.max_zero _
  | mark source offset =>
    have here : offset < s.store.pulls source := hs.offset_lt_pulls hp.reached
    simp only [Store.asked, Position.moveTo, Position.offsetIn]
    split
    next same =>
      subst same
      simp only [Option.elim_some, Course.demand]
      omega
    next => exact Nat.max_zero _

end Session

/-! ## 2. Every session -/

namespace Session

variable {α : Type} [Token α] [DecidableEq α] {s : Session α} {place parser : Nat} {p : Position}
  {d : Description α} {c : Course α (Outcome α Nat)} {ds : List (Description α)}
  {feeds : List (Feed α)} {forced : List Position}

/-- What was read stays read, and shows the same tokens at every later time. -/
theorem Reaches.shows_after (h : Reaches ds s feeds forced) {ts : List α} {i : Nat}
    (hp : s.store.Shows p ts i) (xs : List (Step α)) : (s.after xs).store.Shows p ts i := by
  induction xs generalizing s feeds forced with
  | nil => exact hp
  | cons x xs ih =>
    have goes := h.goes_step x
    refine ih (h.step x) ⟨?_, goes.reached hp.reached, hp.le_length⟩
    rw [← Store.sequence_moveTo _ p i, goes.sequence_eq_of_reached hp.reached, Store.sequence_moveTo,
      hp.tokens]

/-- Where the places that a course looks at were reached, a parse reads nothing and answers as its
reading does. -/
theorem Reaches.parse_of_reached (h : Reaches ds s feeds forced) (hp : s.position? place = some p)
    (hd : ds[parser]? = some d) (hl : d.isLocal) {ts : List α} {far : Nat}
    (hts : s.store.Shows p ts far) (hc : d.Reads ts p.offset c) (le : c.reach ≤ far) :
    (s.step (.parse place parser)).2.store = s.store ∧
      (s.step (.parse place parser)).1 = c.reply p s.positions.size s.results.size := by
  have here := (h.sound.positions place p hp).shows
  rw [hts.tokens] at here
  rw [step_parse (h.holds hd hl) hp here hc]
  exact ⟨(store_afterCourse s p c).trans (hts.forceTo_eq_self le), rfl⟩

/-- **Exact accounting.**  The demand of a course depends on the description, the tokens and the offset
only, and is at most one question for each token and one for the end.  Whatever was done before, a parse
lifts the number of questions of its own sequence to the demand and changes no other.  Whatever is done
afterwards, every parse in this sequence that demands no more, above all the same one again, reads
nothing and answers as its reading does. -/
theorem parse_demand (h : Reaches ds s feeds forced) (hp : s.position? place = some p)
    (hd : ds[parser]? = some d) (hl : d.isLocal) (hc : d.Reads (p.tokensOf feeds) p.offset c) :
    c.demand p.offset ≤ (p.tokensOf feeds).length + 1 ∧
    (∀ n, (s.step (.parse place parser)).2.store.pulls n =
      (p.offsetIn n).elim (s.store.pulls n) fun i => max (s.store.pulls n) (c.demand i)) ∧
    ∀ (xs : List (Step α)) (s' : Session α), s' = (s.step (.parse place parser)).2.after xs →
      ∀ (place' parser' : Nat) (p' : Position) (d' : Description α) (c' : Course α (Outcome α Nat)),
        s'.position? place' = some p' → p'.moveTo 0 = p.moveTo 0 →
        ds[parser']? = some d' → d'.isLocal → d'.Reads (p.tokensOf feeds) p'.offset c' →
        c'.demand p'.offset ≤ c.demand p.offset →
          (s'.step (.parse place' parser')).2.store = s'.store ∧
          (s'.step (.parse place' parser')).1 = c'.reply p' s'.positions.size s'.results.size := by
  have shows := h.shows hp
  have step := step_parse (h.holds hd hl) hp shows hc
  obtain ⟨q, w, -, reads⟩ := id hc
  have reach := reads.reach_le shows.le_length
  have le := shows.le_length
  refine ⟨by unfold Course.demand; omega, fun n => ?_, ?_⟩
  · rw [step]
    exact pulls_afterCourse h.counted shows reach n
  · rintro xs s' rfl place' parser' p' d' c' hp' same hd' hl' hc' demand
    have first := h.step (.parse place parser)
    have later := first.after xs
    -- the place that the first parse has looked at last is still reached
    have far : (s.step (.parse place parser)).2.store.Shows p (p.tokensOf feeds)
        (max p.offset c.reach) := by
      rw [step, store_afterCourse]
      exact shows.forceTo reach (Nat.le_refl _)
    have there := (first.shows_after far xs).of_same same.symm
    refine later.parse_of_reached hp' hd' hl' there hc' ?_
    unfold Course.demand at demand
    omega

/-- The first of two letters, where the second is behind it. -/
def aBeforeB : Description Char := .seq [.eq 'a', .peek (.eq 'b')]

/-- Of three letters the first parse asks for the token behind the one that it has looked at.  A later
one at the second letter asks for nothing more. -/
theorem parse_demand_aBeforeB :
    ∃ s feeds forced, Reaches [aBeforeB, .any] s feeds forced ∧ s.position? 0 = some (.mark 0 0) ∧
      s.store.pulls 0 = 1 ∧ (s.step (.parse 0 0)).2.store.pulls 0 = 3 ∧
      ∃ s', s' = (s.step (.parse 0 0)).2.after [.tail 0 1, .drop 0] ∧
        (s'.step (.parse 2 1)).2.store = s'.store ∧
        (s'.step (.parse 2 1)).1 = .parsed 3 1 (.success (.token 'b') (.mark 0 2)) [] := by
  have begun : Reaches [aBeforeB, .any] _ [] [] := .begin rfl
  have opened := begun.step (.start (.feed (.items ['a', 'b', 'c'])))
  have first : aBeforeB.Reads ['a', 'b', 'c'] 0 ⟨.ok (.success (.token 'b') 1), [], 2⟩ :=
    ⟨_, _, rfl, 0, rfl⟩
  have second : Description.any.Reads ['a', 'b', 'c'] 1 ⟨.ok (.success (.token 'b') 2), [], 2⟩ :=
    ⟨_, _, rfl, 0, rfl⟩
  obtain ⟨-, pulls, later⟩ :=
    @parse_demand _ _ _ _ 0 0 (.mark 0 0) aBeforeB _ _ _ _ opened rfl rfl rfl first
  obtain ⟨still, reply⟩ := later [.tail 0 1, .drop 0] _ rfl 2 1 (.mark 0 1) .any _ rfl rfl rfl rfl second
    (by decide)
  exact ⟨_, _, _, opened, rfl, rfl, pulls 0, _, rfl, still, reply⟩

end Session

/-! ## 3. Scripts of answers -/

/-- Scripts that agree on their first answers give the same tokens there.  Behind its last answer a
script answers that there is no token. -/
theorem Feed.getElem?_tokens_answers {α : Type} {script script' : List (Option α)} {n : Nat}
    (h : ∀ k ≤ n, (script[k]?).join = (script'[k]?).join) :
    (answers script).tokens[n]? = (answers script').tokens[n]? := by
  have first := h 0 (Nat.zero_le n)
  rcases script with _ | ⟨_ | t, script⟩ <;> rcases script' with _ | ⟨_ | t', script'⟩
  case cons.some.cons.some =>
    obtain rfl : t = t' := by simpa using first
    cases n with
    | zero => rfl
    | succ n =>
      have rest := getElem?_tokens_answers (n := n) fun k hk => by simpa using h (k + 1) (by omega)
      simpa [tokens] using rest
  all_goals simp_all [tokens]

namespace Session

variable {α : Type} [Token α] [DecidableEq α] {s s' : Session α} {parser parser' : Nat}
  {d : Description α} {c : Course α (Outcome α Nat)} {ds ds' : List (Description α)}
  {feeds feeds' : List (Feed α)} {forced forced' : List Position} {script script' : List (Option α)}

/-- Open a sequence over a script, parse at its beginning, and ask how often the script was asked: the
two replies. -/
def parseScript (s : Session α) (script : List (Option α)) (parser : Nat) : Reply α × Reply α :=
  let opened := (s.step (.start (.feed (.answers script)))).2
  let parsed := opened.step (.parse s.positions.size parser)
  (parsed.1, (parsed.2.step (.pulls s.sources.size)).1)

theorem step_pulls {source n : Nat} (h : s.sources[source]? = some (some n)) :
    s.step (.pulls source) = (.number (s.store.pulls n), s) := by
  simp only [Session.step, Session.atSource, h]
  rfl

omit [Token α] [DecidableEq α] in
theorem sources_afterCourse (s : Session α) (p : Position) (c : Course α (Outcome α Nat)) :
    (s.afterCourse p c).sources = s.sources := by
  unfold afterCourse
  cases c.answer <;> rfl

/-- What a session with a newly opened sequence holds at the beginning of it. -/
theorem Reaches.opened (h : Reaches ds s feeds forced) (feed : Feed α) :
    ∃ s₁ forced₁, s₁ = (s.step (.start (.feed feed))).2 ∧
      Reaches ds s₁ (feeds ++ [feed]) forced₁ ∧
      s₁.position? s.positions.size = some (.mark s.store.sources.size 0) ∧
      s₁.store.Shows (.mark s.store.sources.size 0) feed.tokens 0 ∧
      s₁.store.pulls s.store.sources.size = 1 ∧
      s₁.sources[s.sources.size]? = some (some s.store.sources.size) ∧
      s₁.positions.size = s.positions.size + 1 ∧ s₁.results = s.results := by
  have reached := h.step (.start (.feed feed))
  have placed : (s.step (.start (.feed feed))).2.position? s.positions.size =
      some (.mark s.store.sources.size 0) := (position?_note _ _ _).trans (if_pos rfl)
  have shows : (s.store.add feed).2.Shows (s.store.add feed).1 feed.tokens 0 :=
    s.store.sequence_add feed ▸ (s.store.reached_add feed).shows
  have pulls : (s.store.add feed).2.pulls s.store.sources.size = 1 := by
    have before : s.store.pulls s.store.sources.size = 0 := by simp [Store.pulls]
    rw [Store.pulls_add, before]
    simp [Store.asked, Store.add, Position.offsetIn]
  exact ⟨_, _, rfl, reached, placed, shows, pulls, Array.getElem?_push_size, Array.size_push _, rfl⟩

/-- **A parse at the beginning of a script** replies as its reading does and asks the script as often as
its demand says. -/
theorem Reaches.parseScript_eq (h : Reaches ds s feeds forced) (hd : ds[parser]? = some d)
    (hl : d.isLocal) (hc : d.Reads (Feed.answers script).tokens 0 c) :
    s.parseScript script parser =
      (c.reply (.mark s.store.sources.size 0) (s.positions.size + 1) s.results.size,
        .number (c.demand 0)) := by
  obtain ⟨s₁, forced₁, rfl, reached, placed, shows, pulls, source, size, results⟩ :=
    h.opened (.answers script)
  obtain ⟨q, w, -, reads⟩ := id hc
  have step := step_parse (reached.holds hd hl) placed shows hc
  have asked := pulls_afterCourse reached.counted shows (reads.reach_le (Nat.zero_le _))
    s.store.sources.size
  simp only [Position.offsetIn, if_true, Option.elim_some, pulls] at asked
  have demanded : max 1 (c.demand 0) = c.demand 0 := by unfold Course.demand; omega
  refine Prod.ext ?_ ?_
  · refine (congrArg Prod.fst step).trans ?_
    rw [size, results]
  · change (Session.step (Session.step _ (.parse _ _)).2 (.pulls _)).1 = _
    rw [step, step_pulls ((congrArg (·[s.sources.size]?) (sources_afterCourse _ _ c)).trans source),
      asked, demanded]

theorem Reaches.parseScript_endless (h : Reaches ds s feeds forced) (hd : ds[parser]? = some d)
    (hl : d.isLocal) (hc : ∀ c, ¬ d.Reads (Feed.answers script).tokens 0 c) :
    ∃ events, (s.parseScript script parser).1 = .stopped .endless events := by
  obtain ⟨s₁, forced₁, rfl, reached, placed, shows, -⟩ := h.opened (.answers script)
  exact step_parse_endless (reached.holds hd hl) placed shows hc

/-- **A parse is local to what it has read.**  Let a parse at the beginning of a script end, and let the
script have been asked `n` times then.  At the beginning of every script with the same first `n` answers,
in whatever session, the same parser ends with the same outcome and the same events, and has asked `n`
times. -/
theorem parse_prefix (h : Reaches ds s feeds forced) (h' : Reaches ds' s' feeds' forced')
    (hd : ds[parser]? = some d) (hd' : ds'[parser']? = some d) (hl : d.isLocal) {n : Nat}
    (ends : ∀ events, (s.parseScript script parser).1 ≠ .stopped .endless events)
    (asked : (s.parseScript script parser).2 = .number n)
    (agree : ∀ k < n, (script[k]?).join = (script'[k]?).join) :
    ∃ c : Course α (Outcome α Nat), (s.parseScript script parser).1 =
        c.reply (.mark s.store.sources.size 0) (s.positions.size + 1) s.results.size ∧
      s'.parseScript script' parser' =
        (c.reply (.mark s'.store.sources.size 0) (s'.positions.size + 1) s'.results.size,
          .number n) := by
  obtain ⟨c, hc⟩ : ∃ c, d.Reads (Feed.answers script).tokens 0 c := by
    by_contra none
    obtain ⟨events, stopped⟩ := h.parseScript_endless hd hl fun c hc => none ⟨c, hc⟩
    exact ends events stopped
  have first := h.parseScript_eq hd hl hc
  rw [first] at asked
  obtain rfl : c.demand 0 = n := Reply.number.inj asked
  have same (o : Nat) (ho : o ≤ c.reach) :
      (Feed.answers script).tokens[o]? = (Feed.answers script').tokens[o]? :=
    Feed.getElem?_tokens_answers fun k hk => agree k (by unfold Course.demand; omega)
  obtain ⟨q, w, built, reads⟩ := hc
  have second := h'.parseScript_eq hd' hl ⟨q, w, built, reads.carry (Nat.zero_le _) same⟩
  exact ⟨c, congrArg Prod.fst first, second⟩

/-- Of two scripts that differ in the fourth answer, neither is asked for it. -/
theorem parse_prefix_aBeforeB :
    ∃ s feeds forced, Reaches [aBeforeB] s feeds forced ∧
      s.parseScript [some 'a', some 'b', some 'c', some 'd'] 0 =
        (.parsed 1 0 (.success (.token 'b') (.mark 0 1)) [], .number 3) ∧
      s.parseScript [some 'a', some 'b', some 'c', none, some 'e'] 0 =
        (.parsed 1 0 (.success (.token 'b') (.mark 0 1)) [], .number 3) := by
  have begun : Reaches [aBeforeB] _ [] [] := .begin rfl
  have reads : aBeforeB.Reads (Feed.answers [some 'a', some 'b', some 'c', some 'd']).tokens 0
      ⟨.ok (.success (.token 'b') 1), [], 2⟩ := ⟨_, _, rfl, 0, rfl⟩
  have described : [aBeforeB][0]? = some aBeforeB := rfl
  have first := begun.parseScript_eq described rfl reads
  have agree : ∀ k < 3, ([some 'a', some 'b', some 'c', some 'd'][k]?).join =
      ([some 'a', some 'b', some 'c', none, some 'e'][k]?).join := by decide
  obtain ⟨c, reply, second⟩ := parse_prefix begun begun described described rfl
    (fun events => by rw [first]; simp [Course.reply]) (congrArg Prod.snd first) agree
  refine ⟨_, _, _, begun, first, second.trans ?_⟩
  rw [← reply]
  exact first

end Session

end LazyPeg
