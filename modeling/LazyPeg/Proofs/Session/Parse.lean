import LazyPeg.Proofs.Session.Reaches

/-!
# A parse in a session

What a session answers to a parse is what a pure reading of the token list says.  The list is the one
that the feed of the sequence gives before it first answers that there is none; how much of it was read,
by whom and in which order has no say.

* §1 is the step itself: `Session.step_parse` gives the reply and the whole session after it, and
  `Session.step_parse_endless` is the case of a reading without end.
* §2 puts it together for every session that was reached (`Session.parse_eq_reading`): outcome, value,
  message, place, remaining tokens, and the events in their order.
-/
namespace LazyPeg

/-! ## 1. The step -/

/-- What a session replies to a parse with a course, in the sequence of a position. -/
def Course.reply {α : Type} (p : Position) (place result : Nat) (c : Course α (Outcome α Nat)) :
    Reply α :=
  match c.answer with
  | .ok r => .parsed place result (r.mapPlace p.moveTo) (c.events.map (Event.mapPlace p.moveTo))
  | .error name => .stopped (.undefinedRule name) (c.events.map (Event.mapPlace p.moveTo))

/-- A course that is replied as a result has come to it. -/
theorem Course.reply_eq_parsed {α : Type} {p : Position} {place result n m : Nat}
    {c : Course α (Outcome α Nat)} {r : Result α} {events : List (Event α Position)}
    (h : c.reply p place result = .parsed n m r events) :
    n = place ∧ m = result ∧
      ∃ r', c.answer = .ok r' ∧ r = r'.mapPlace p.moveTo ∧ events = c.events.map (Event.mapPlace p.moveTo) := by
  cases ha : c.answer with
  | error name => simp [reply, ha] at h
  | ok r' =>
    obtain ⟨rfl, rfl, outcome, noted⟩ : place = n ∧ result = m ∧ r'.mapPlace p.moveTo = r ∧ _ := by
      simpa [reply, ha] using h
    exact ⟨rfl, rfl, r', rfl, outcome.symm, noted.symm⟩

namespace Session

variable {α : Type} [Token α] [DecidableEq α] {s : Session α} {place parser : Nat} {p : Position}
  {d : Description α} {ts : List α} {c : Course α (Outcome α Nat)}

/-- The session after a parse with a course: the sequence was read on to the reach, and an outcome is
noted together with its position. -/
def afterCourse (s : Session α) (p : Position) (c : Course α (Outcome α Nat)) : Session α :=
  let moved := s.withStore (s.store.forceTo p c.reach)
  match c.answer with
  | .ok r =>
    { (moved.note (p.moveTo r.place)).2 with results := s.results.push (r.mapPlace p.moveTo) }
  | .error _ => moved

theorem step_parse_eq (hp : s.position? place = some p) {q : Parser α}
    (hq : s.parsers[parser]? = some q) : s.step (.parse place parser) = s.parse q p := by
  simp only [Session.step, Session.atPlace, hp, hq]

/-- Parsers that do the same whatever calls of rules do have one reply. -/
theorem parse_eq_of_eval {q q' : Parser α}
    (h : ∀ call : RuleId → String → Position → Parsing α (Result α), q.eval call p = q'.eval call p) :
    s.parse q p = s.parse q' p := by
  have same (depth : Nat) :
      (q.evalDepth s.workshop.grammar depth p : Parsing α _) =
        q'.evalDepth s.workshop.grammar depth p := by
    cases depth <;> exact h _
  simp only [Session.parse, Parser.parse, same]

/-- A session in which a parse runs like a course replies with it. -/
theorem parse_of_run {q : Parser α}
    (run : (ExceptT.run (q.parse s.workshop.grammar p)).run ⟨s.store, []⟩ =
      (c.answerWith (Outcome.mapPlace p.moveTo), World.follow ⟨s.store, []⟩ p c)) :
    s.parse q p = (c.reply p s.positions.size s.results.size, s.afterCourse p c) := by
  simp only [Session.parse, perform_eq, run, World.follow, List.append_nil, List.reverse_reverse,
    Course.answerWith, Course.reply, afterCourse]
  cases c.answer with
  | ok r =>
    simp only [Outcome.place_mapPlace]
    rfl
  | error name => rfl

/-- A session in which a parse is stopped replies with the stop. -/
theorem parse_of_stop {q : Parser α} {why : Stop}
    (run : ((ExceptT.run (q.parse s.workshop.grammar p)).run ⟨s.store, []⟩).1 = .error why) :
    ∃ events, (s.parse q p).1 = .stopped why events := by
  simp only [Session.parse, perform_eq, run]
  exact ⟨_, rfl⟩

/-- **A parse whose reading ends.** -/
theorem step_parse (h : s.Holds parser d) (hp : s.position? place = some p)
    (hts : s.store.Shows p ts p.offset) (hc : d.Reads ts p.offset c) :
    s.step (.parse place parser) =
      (c.reply p s.positions.size s.results.size, s.afterCourse p c) := by
  obtain ⟨q, q', w', b, hq, built, rules, size, twin⟩ := h
  obtain ⟨q'', w'', built', reads⟩ := hc
  obtain ⟨rfl, rfl⟩ := Prod.mk.inj (Except.ok.inj (built.symm.trans built'))
  have run := Parser.parse_of_reads (w := ⟨s.store, []⟩) rules size twin hts reads
  rw [Position.moveTo_offset] at run
  rw [step_parse_eq hp hq]
  exact parse_of_run run

/-- A parse whose reading does not end. -/
theorem step_parse_endless (h : s.Holds parser d) (hp : s.position? place = some p)
    (hts : s.store.Shows p ts p.offset) (hc : ∀ c, ¬ d.Reads ts p.offset c) :
    ∃ events, (s.step (.parse place parser)).1 = .stopped .endless events := by
  obtain ⟨q, q', w', b, hq, built, rules, size, twin⟩ := h
  have none (c : Course α (Outcome α Nat)) : ¬ q'.Reads w'.grammar ts p.offset c :=
    fun reads => hc c ⟨q', w', built, reads⟩
  have run := Parser.parse_endless (w := ⟨s.store, []⟩) rules twin hts none
  rw [Position.moveTo_offset] at run
  rw [step_parse_eq hp hq]
  exact parse_of_stop run

/-! ## 2. Every session -/

section Reached

variable {ds : List (Description α)} {feeds : List (Feed α)} {forced : List Position}

/-- After a parse that came to an outcome, its place is noted, and the tokens from there on are those
of the list. -/
theorem afterCourse_place (hp : s.store.Shows p ts p.offset) (hc : d.Reads ts p.offset c)
    {r : Outcome α Nat} (hr : c.answer = .ok r) :
    (s.afterCourse p c).position? s.positions.size = some (p.moveTo r.place) ∧
      (p.moveTo r.place).offset = r.place ∧
      ∀ n, ((s.afterCourse p c).step (.take s.positions.size n)).1 =
        .tokens ((ts.drop r.place).take n) := by
  obtain ⟨q, w, -, reads⟩ := hc
  have noted : (s.afterCourse p c).position? s.positions.size = some (p.moveTo r.place) := by
    simp only [afterCourse, hr]
    exact (position?_note _ _ _).trans (if_pos rfl)
  have moved : (s.store.forceTo p c.reach).Shows p ts r.place :=
    hp.forceTo (reads.reach_le hp.le_length) (reads.place_mem hp.le_length hr).2
  refine ⟨noted, moved.offset_moveTo, fun n => ?_⟩
  have store : (s.afterCourse p c).store = s.store.forceTo p c.reach := by
    simp only [afterCourse, hr]
    rfl
  simp only [Session.step, Session.atPlace, noted, onStore_eq, store]
  rw [Store.take_eq n moved.reached, Store.sequence_moveTo, moved.tokens, moved.offset_moveTo]

/-- In a session a parse replies as the reading of the tokens of the feed says. -/
theorem Reaches.parse_eq (h : Reaches ds s feeds forced) (hp : s.position? place = some p)
    (hd : ds[parser]? = some d) (hl : d.isLocal) (hc : d.Reads (p.tokensOf feeds) p.offset c) :
    s.step (.parse place parser) =
      (c.reply p s.positions.size s.results.size, s.afterCourse p c) :=
  step_parse (h.holds hd hl) hp (h.shows hp) hc

/-- A parse that came to a result has a course with that answer. -/
theorem Reaches.reads_of_parsed (h : Reaches ds s feeds forced) (hp : s.position? place = some p)
    (hd : ds[parser]? = some d) (hl : d.isLocal) {n m : Nat} {r : Result α}
    {events : List (Event α Position)}
    (hr : (s.step (.parse place parser)).1 = .parsed n m r events) :
    ∃ c r', d.Reads (p.tokensOf feeds) p.offset c ∧ c.answer = .ok r' ∧
      r = r'.mapPlace p.moveTo ∧ events = c.events.map (Event.mapPlace p.moveTo) := by
  obtain ⟨c, hc⟩ : ∃ c, d.Reads (p.tokensOf feeds) p.offset c := by
    by_contra none
    obtain ⟨events', stopped⟩ :=
      step_parse_endless (h.holds hd hl) hp (h.shows hp) fun c hc => none ⟨c, hc⟩
    exact absurd (stopped.symm.trans hr) nofun
  rw [h.parse_eq hp hd hl hc] at hr
  obtain ⟨-, -, r', answer⟩ := Course.reply_eq_parsed hr
  exact ⟨c, r', hc, answer⟩

/-- **Parsing a sequence is reading a list.**  In every session, whatever was done in it before, a
parse at a position answers as the reading of the token list from the offset of the position does: the
same outcome, the same events in the same order, the same tokens left.  It is stopped as endless exactly
if the reading does not end. -/
theorem parse_eq_reading (h : Reaches ds s feeds forced) (hp : s.position? place = some p)
    (hd : ds[parser]? = some d) (hl : d.isLocal) :
    (∀ c, d.Reads (p.tokensOf feeds) p.offset c →
      (s.step (.parse place parser)).1 = c.reply p s.positions.size s.results.size ∧
      ∀ r, c.answer = .ok r →
        (s.step (.parse place parser)).2.position? s.positions.size = some (p.moveTo r.place) ∧
        (p.moveTo r.place).offset = r.place ∧
        ∀ n, ((s.step (.parse place parser)).2.step (.take s.positions.size n)).1 =
          .tokens (((p.tokensOf feeds).drop r.place).take n)) ∧
    ((∃ events, (s.step (.parse place parser)).1 = .stopped .endless events) ↔
      ∀ c, ¬ d.Reads (p.tokensOf feeds) p.offset c) := by
  have holds := h.holds hd hl
  have shows := h.shows hp
  refine ⟨fun c hc => ?_, fun ⟨events, stopped⟩ c hc => ?_, step_parse_endless holds hp shows⟩
  · rw [step_parse holds hp shows hc]
    exact ⟨rfl, fun r hr => afterCourse_place shows hc hr⟩
  · rw [step_parse holds hp shows hc] at stopped
    cases hr : c.answer <;> simp [Course.reply, hr] at stopped

end Reached

/-! ### One session -/

/-- Any characters up to the end, one after the other, each of them shown to a continuation that calls
the rule again. -/
def oneByOne : Description Char :=
  .recursive "rest" .defined
    (.choice [.bind true [.any] (.always (.call "rest")), .peek .endOfInput])

/-- Over answers that go on after the first one without a token, the parse ends where they have ended
before. -/
theorem parse_eq_reading_oneByOne :
    ∃ s feeds forced, Reaches [oneByOne] s feeds forced ∧ s.position? 0 = some (.mark 0 0) ∧
      feeds = [.answers [some 'a', some 'b', none, some 'c']] ∧
      (s.step (.parse 0 0)).1 = .parsed 1 0 (.success .endOfInput (.mark 0 2))
        [.continued [.token 'a'], .continued [.token 'b']] ∧
      ((s.step (.parse 0 0)).2.step (.take 1 5)).1 = .tokens [] := by
  have begun : Reaches [oneByOne] _ [] [] := .begin rfl
  have opened := begun.step (.start (.feed (.answers [some 'a', some 'b', none, some 'c'])))
  have reads : oneByOne.Reads ['a', 'b'] 0 ⟨.ok (.success .endOfInput 2),
      [.continued [.token 'a'], .continued [.token 'b']], 2⟩ := by
    refine ⟨_, _, rfl, 3, ?_⟩
    simp [Parser.readDepth, Parser.read, Parser.callDepth, Parser.readFirst, Parser.readAll]
    rfl
  have parsed := (@parse_eq_reading _ _ _ _ 0 0 (.mark 0 0) oneByOne _ _ _ opened rfl rfl rfl).1 _ reads
  exact ⟨_, _, _, opened, rfl, rfl, parsed.1, (parsed.2 _ rfl).2.2 5⟩

end Session

end LazyPeg
