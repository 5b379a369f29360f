import LazyPeg.Proofs.Session.Demand
import LazyPeg.Proofs.Session.Memo
import LazyPeg.Proofs.Simulation.Verdict
import LazyPeg.Proofs.Store.Readers

/-!
# Whole inputs in a session

A run in a session replies with the verdict of its reading (`Session.step_run`).  So it makes no
difference to the reply what the tokens come from.  What a reader adds is its status, and that is decided
when a run accepts: **input that was cut off is not mistaken for a complete one**
(`Session.run_reader`).
-/
namespace LazyPeg

/-! ## 1. The step -/

/-- What a session replies to a run with a course, in the sequence of a position. -/
def Course.runReply {α : Type} [Token α] (p : Position) (ts : List α) (filename : String)
    (c : Course α (Outcome α Nat)) : Reply α :=
  let events := c.events.map (Event.mapPlace p.moveTo)
  match c.answerWith (Outcome.verdict ts filename p.offset) with
  | .ok (.ok v) => .accepted v events
  | .ok (.error d) => .rejected d events
  | .error why => .stopped why events

/-- A run accepts what a course has matched up to the end of the input. -/
theorem Course.runReply_eq_accepted {α : Type} [Token α] {p : Position} {ts : List α}
    {c : Course α (Outcome α Nat)} {v : Value α} {events : List (Event α Position)} (filename : String) :
    c.runReply p ts filename = .accepted v events ↔
      c.answer = .ok (.success v ts.length) ∧ c.events.map (Event.mapPlace p.moveTo) = events := by
  rcases ha : c.answer with name | r
  · simp [runReply, answerWith, ha]
  · have last : Except.ok r = Except.ok (ε := String) (.success v ts.length) ↔
        r.verdict ts filename p.offset = .ok v := by
      rw [Except.ok.injEq, Outcome.verdict_eq_ok]
    rw [last]
    rcases hv : r.verdict ts filename p.offset with e | v'
    · simp [runReply, answerWith, ha, hv]
    · simp [runReply, answerWith, ha, hv]

namespace Session

variable {α : Type} [Token α] [DecidableEq α] {s : Session α} {place parser : Nat} {p : Position}
  {d : Description α} {ts : List α} {c : Course α (Outcome α Nat)} {filename : String}

theorem step_run_eq (hp : s.position? place = some p) {q : Parser α}
    (hq : s.parsers[parser]? = some q) :
    s.step (.run place parser filename) = s.run q filename p := by
  simp only [Session.step, Session.atPlace, hp, hq]

/-- **A run whose reading ends** replies with its verdict, and reads the sequence on to the reach. -/
theorem step_run (h : s.Holds parser d) (hp : s.position? place = some p)
    (hts : s.store.Shows p ts p.offset) (hc : d.Reads ts p.offset c) :
    s.step (.run place parser filename) =
      (c.runReply p ts filename, s.withStore (s.store.forceTo p c.reach)) := by
  obtain ⟨q, q', w', b, hq, built, rules, size, twin⟩ := h
  obtain ⟨q'', w'', built', reads⟩ := hc
  obtain ⟨rfl, rfl⟩ := Prod.mk.inj (Except.ok.inj (built.symm.trans built'))
  have run := Parser.run_of_reads (w := ⟨s.store, []⟩) filename rules size twin hts reads
  rw [step_run_eq hp hq]
  simp only [Session.run, perform_eq, run, World.follow, List.append_nil, List.reverse_reverse,
    Course.runReply]
  rcases c.answerWith (Outcome.verdict ts filename p.offset) with why | (d | v) <;> rfl

/-- A run whose reading does not end. -/
theorem step_run_endless (h : s.Holds parser d) (hp : s.position? place = some p)
    (hts : s.store.Shows p ts p.offset) (hc : ∀ c, ¬ d.Reads ts p.offset c) :
    ∃ events, (s.step (.run place parser filename)).1 = .stopped .endless events := by
  obtain ⟨q, q', w', b, hq, built, rules, size, twin⟩ := h
  have none (c : Course α (Outcome α Nat)) : ¬ q'.Reads w'.grammar ts p.offset c :=
    fun reads => hc c ⟨q', w', built, reads⟩
  have run := Parser.run_endless (w := ⟨s.store, []⟩) filename rules twin hts none
  rw [step_run_eq hp hq]
  simp only [Session.run, perform_eq, run]
  exact ⟨_, rfl⟩

/-- An input is accepted only if its end was seen. -/
theorem reach_of_accepted {v : Value α} {events : List (Event α Position)}
    (le : p.offset ≤ ts.length) (hc : d.Reads ts p.offset c)
    (h : c.runReply p ts filename = .accepted v events) :
    c.reach ≤ ts.length ∧ ts.length ≤ max p.offset c.reach := by
  obtain ⟨q, w, -, reads⟩ := hc
  obtain ⟨answer, -⟩ := (Course.runReply_eq_accepted filename).1 h
  exact ⟨reads.reach_le le, (reads.place_mem le answer).2⟩

/-! ## 2. A new sequence -/

/-- Open a sequence, move on by some places, and match the rest of it: the reply, and the session
afterwards. -/
def runAt (s : Session α) (input : Input α) (count parser : Nat) (filename : String) :
    Reply α × Session α :=
  (s.after [.start input, .tail s.positions.size count]).step (.run (s.positions.size + 1) parser filename)

variable {ds : List (Description α)} {feeds : List (Feed α)} {forced : List Position}

/-- What a session holds after a sequence was opened and moved on by some places. -/
theorem Reaches.opened_tail (h : Reaches ds s feeds forced) (feed : Feed α) (count : Nat) :
    ∃ s₁ feeds₁ forced₁, s₁ = s.after [.start (.feed feed), .tail s.positions.size count] ∧
      Reaches ds s₁ feeds₁ forced₁ ∧
      s₁.position? (s.positions.size + 1) =
        some (.mark s.store.sources.size (min count feed.tokens.length)) ∧
      s₁.store.Shows (.mark s.store.sources.size (min count feed.tokens.length)) feed.tokens
        (min count feed.tokens.length) ∧
      s₁.sources[s.sources.size]? = some (some s.store.sources.size) ∧
      ∃ o, s₁.store.sources[s.store.sources.size]? = some ((Source.ofFeed feed).pull.forceTo o) := by
  obtain ⟨s₁, forced₁, rfl, reached, placed, shows, -, source, size, -⟩ := h.opened feed
  have later := reached.after [.tail s.positions.size count]
  have moved := step_tail placed shows count
  simp only [Position.offset, Nat.zero_add] at moved
  have after : (s.step (.start (.feed feed))).2.after [.tail s.positions.size count] = _ :=
    congrArg Prod.snd moved
  rw [after] at later
  refine ⟨_, _, _, after.symm, later, ?_, ?_, source, min count feed.tokens.length, ?_⟩
  · rw [← size]
    exact (position?_note _ _ _).trans (if_pos rfl)
  · exact (shows.forceTo (Nat.min_le_right ..) (Nat.le_max_right ..)).of_same rfl
  · change ((s.store.add feed).2.forceTo (.mark s.store.sources.size 0) _).sources[_]? = _
    rw [Store.forceTo, Store.getElem?_update, if_pos rfl, Store.getElem?_add, if_pos rfl]
    rfl

/-- A run in a new sequence replies with the verdict on the tokens of its feed.  Afterwards the sequence
was read on to the reach. -/
theorem Reaches.runAt_eq (h : Reaches ds s feeds forced) (hd : ds[parser]? = some d) (hl : d.isLocal)
    (feed : Feed α) (count : Nat) (filename : String)
    (hc : d.Reads feed.tokens (min count feed.tokens.length) c) :
    ∃ (s' : Session α) (p : Position) (st : Store α) (o : Nat),
      p = .mark s.store.sources.size (min count feed.tokens.length) ∧
      s.runAt (.feed feed) count parser filename = (c.runReply p feed.tokens filename, s') ∧
      s'.sources[s.sources.size]? = some (some s.store.sources.size) ∧
      s'.store = st.forceTo p c.reach ∧ st.Shows p feed.tokens p.offset ∧
      st.sources[s.store.sources.size]? = some ((Source.ofFeed feed).pull.forceTo o) := by
  obtain ⟨s₁, feeds₁, forced₁, rfl, later, placed, shows, source, o, held⟩ := h.opened_tail feed count
  exact ⟨_, _, _, o, rfl, step_run (later.holds hd hl) placed shows hc, source, rfl, shows, held⟩

theorem Reaches.runAt_endless (h : Reaches ds s feeds forced) (hd : ds[parser]? = some d)
    (hl : d.isLocal) (feed : Feed α) (count : Nat) (filename : String)
    (hc : ∀ c, ¬ d.Reads feed.tokens (min count feed.tokens.length) c) :
    ∃ events, (s.runAt (.feed feed) count parser filename).1 = .stopped .endless events := by
  obtain ⟨s₁, feeds₁, forced₁, rfl, later, placed, shows, -⟩ := h.opened_tail feed count
  exact step_run_endless (later.holds hd hl) placed shows hc

end Session

/-! ## 3. Readers -/

namespace Session

open Reader

variable {ds : List (Description Char)} {s : Session Char} {feeds : List (Feed Char)}
  {forced : List Position} {parser : Nat} {d : Description Char}

theorem step_isOk {α : Type} [Token α] [DecidableEq α] {s : Session α} {source n : Nat}
    (h : s.sources[source]? = some (some n)) :
    s.step (.isOk source) = (.flag (s.store.status? n).join.isNone, s) := by
  simp only [Session.step, Session.atSource, h]
  rfl

theorem step_takeFault {α : Type} [Token α] [DecidableEq α] {s : Session α} {source n : Nat}
    (h : s.sources[source]? = some (some n)) :
    (s.step (.takeFault source)).1 = .fault (s.store.status? n).join := by
  simp only [Session.step, Session.atSource, h]
  rfl

/-- **Input that was cut off is not mistaken for a complete one.**  Let a sequence be opened over a
reader, and match it from any place on.  The reply is the one to the text that the bytes before the
first stop encode: the same value or the same report, and the same events.  When the input is accepted,
the status is decided: it is clean exactly if the stop was the end of the file, and otherwise it gives
out the fault of the stop. -/
theorem run_reader (h : Reaches ds s feeds forced) (hd : ds[parser]? = some d) (hl : d.isLocal)
    (chunks : List Chunk) (count : Nat) (filename : String) :
    let stream : Input Char := .feed (.reader (.ofScript (.ofChunks chunks)) id)
    let text : Input Char := .ofText (String.ofList (Utf8.decode (firstSegment chunks).bytes))
    ((s.runAt stream count parser filename).1 = (s.runAt text count parser filename).1 ∨
      ∃ events events', (s.runAt stream count parser filename).1 = .stopped .endless events ∧
        (s.runAt text count parser filename).1 = .stopped .endless events') ∧
    ∀ v events, (s.runAt stream count parser filename).1 = .accepted v events →
      ((s.runAt stream count parser filename).2.step (.isOk s.sources.size)).1 =
        .flag (firstSegment chunks).fault.isNone ∧
      ((s.runAt stream count parser filename).2.step (.takeFault s.sources.size)).1 =
        .fault (firstSegment chunks).fault := by
  intro stream text
  let reader : Feed Char := .reader (.ofScript (.ofChunks chunks)) id
  let items : Feed Char := .items (String.ofList (Utf8.decode (firstSegment chunks).bytes)).toList
  have same : items.tokens = reader.tokens := by
    rw [Feed.tokens_reader chunks id, List.map_id]
    exact String.toList_ofList
  by_cases ends : ∃ c, d.Reads reader.tokens (min count reader.tokens.length) c
  · obtain ⟨c, hc⟩ := ends
    obtain ⟨s', p, st, o, rfl, streamed, source, read, shows, held⟩ :=
      h.runAt_eq hd hl reader count filename hc
    obtain ⟨s'', p, -, -, rfl, typed, -⟩ := h.runAt_eq hd hl items count filename (by rwa [same])
    have replies : (s.runAt stream count parser filename).1 = (s.runAt text count parser filename).1 := by
      refine (congrArg Prod.fst streamed).trans (Eq.trans ?_ (congrArg Prod.fst typed).symm)
      rw [same]
    refine ⟨.inl replies, fun v events accepted => ?_⟩
    rw [streamed] at accepted ⊢
    obtain ⟨within, all⟩ := reach_of_accepted shows.le_length hc accepted
    have status := Store.status?_of_ended shows within all held
      (((Source.owes_ofFeed chunks id).pull rfl).forceTo o)
    rw [← read] at status
    rw [step_isOk source, step_takeFault source, status]
    exact ⟨rfl, rfl⟩
  · have none := not_exists.1 ends
    obtain ⟨events, stopped⟩ := h.runAt_endless hd hl reader count filename none
    obtain ⟨events', stopped'⟩ := h.runAt_endless hd hl items count filename (by rwa [same])
    refine ⟨.inr ⟨events, events', stopped, stopped'⟩, fun v es accepted => ?_⟩
    exact absurd (stopped.symm.trans accepted) nofun

/-- At most nine letters. -/
def upToNine : Description Char := .many (.between 0 9) .any

/-- Two letters and then a fault. -/
def cutOff : List Chunk := [.data [0x6F, 0x6B], .fault "disk gone"]

/-- All letters that come are accepted, and the status says that more were to come. -/
theorem run_reader_cutOff :
    ∃ s feeds forced, Reaches [upToNine] s feeds forced ∧
      (s.runAt (.feed (.reader (.ofScript (.ofChunks cutOff)) id)) 0 0 "input").1 =
        .accepted (.list [.token 'o', .token 'k']) [] ∧
      ((s.runAt (.feed (.reader (.ofScript (.ofChunks cutOff)) id)) 0 0 "input").2.step (.isOk 0)).1 =
        .flag false ∧
      ((s.runAt (.feed (.reader (.ofScript (.ofChunks cutOff)) id)) 0 0 "input").2.step
        (.takeFault 0)).1 = .fault (some "disk gone") := by
  have begun : Reaches [upToNine] _ [] [] := .begin rfl
  have reads : upToNine.Reads (Feed.reader (.ofScript (.ofChunks cutOff)) id).tokens 0
      ⟨.ok (.success (.list [.token 'o', .token 'k']) 2), [], 2⟩ := ⟨_, _, rfl, 0, rfl⟩
  have described : [upToNine][0]? = some upToNine := rfl
  obtain ⟨s', p, st, o, rfl, ran, -⟩ := begun.runAt_eq described rfl _ 0 "input" reads
  obtain ⟨-, decided⟩ := run_reader begun described rfl cutOff 0 "input"
  have accepted := congrArg Prod.fst ran
  exact ⟨_, _, _, begun, accepted, decided _ _ accepted⟩

end Session

end LazyPeg
