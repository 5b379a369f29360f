import LazyPeg.Proofs.Session.Run

/-!
# What a run reports

`Parser.run` asks that nothing is left behind a match, and so does a parser with the end of the input
behind it.  The two accept the same inputs with the same values.  They differ in what they say of the
others: the second fails at its start, and **a run reports the place that the parse came to**, with its
line and column, and reads nothing more for that (`Session.run_verdict`).
-/
namespace LazyPeg

/-! ## 1. Up to the end of the input -/

namespace Parser

variable {α : Type} [Token α] [DecidableEq α] {ts : List α} {q : Parser α} {i j : Nat}
  {call : RuleId → String → Nat → Reading α (Outcome α Nat)} {events : List (Event α Nat)} {reach : Nat}

theorem read_terminated_of_failure {reason : Reason}
    (h : q.read ts call i = .ended ⟨.ok (.failure reason j), events, reach⟩) :
    (q.terminated .endOfInput).read ts call i =
      .ended ⟨.ok (.failure (.missing q.name) i), events, reach⟩ := by
  simp only [terminated, tuple, Parser.read, readAll, h, Reading.ok_bind, Reading.pure_eq,
    List.append_nil, Nat.max_zero]
  rfl

theorem read_terminated_of_success {v : Value α}
    (h : q.read ts call i = .ended ⟨.ok (.success v j), events, reach⟩) :
    (q.terminated .endOfInput).read ts call i =
      .ended ⟨.ok (if ts[j]? = none then .success v j else .failure (.missing "EOS") i), events,
        max reach j⟩ := by
  cases left : ts[j]? with
  | none =>
    simp only [terminated, tuple, Parser.read, readAll, h, Reading.look, left, Reading.ok_bind,
      Reading.pure_eq, List.append_nil, Nat.max_zero, if_true]
    rfl
  | some t =>
    simp only [terminated, tuple, Parser.read, readAll, h, Reading.look, left, Reading.ok_bind,
      Reading.pure_eq, List.append_nil, Nat.max_zero, reduceCtorEq, if_false]
    rfl

end Parser

namespace Description

variable {α : Type} [Token α] [DecidableEq α] {d : Description α} {ts : List α} {i : Nat}
  {c : Course α (Outcome α Nat)} {r : Outcome α Nat}

/-- A description followed by the end of the input. -/
def toEnd (d : Description α) : Description α := .pair .terminated d .endOfInput

omit [Token α] [DecidableEq α] in
theorem isLocal_toEnd (hl : d.isLocal) : d.toEnd.isLocal := Bool.and_eq_true_iff.2 ⟨hl, rfl⟩

/-- It succeeds where the description does and leaves nothing over, with the same value, and the events
are those of the description. -/
theorem Reads.toEnd (h : d.Reads ts i c) (hr : c.answer = .ok r) :
    ∃ r' reach, d.toEnd.Reads ts i ⟨.ok r', c.events, reach⟩ ∧
      ∀ v j, r' = .success v j ↔ r = .success v j ∧ ts[j]? = none := by
  obtain ⟨q, w, built, depth, read⟩ := h
  obtain ⟨answer, events, reach⟩ := c
  obtain rfl : answer = .ok r := hr
  have both : (d.toEnd.build []).run ⟨Store.new, #[]⟩ = .ok (q.terminated .endOfInput, w) := by
    rw [Description.toEnd, build, Building.run_bind_of_ok built]
    rfl
  cases r with
  | failure reason j =>
    exact ⟨_, _, ⟨_, w, both, depth, Parser.read_terminated_of_failure read⟩, by simp⟩
  | success v j =>
    refine ⟨_, _, ⟨_, w, both, depth, Parser.read_terminated_of_success read⟩, fun v' j' => ?_⟩
    split
    next last =>
      constructor
      · rintro ⟨⟩
        exact ⟨rfl, last⟩
      · exact fun h => h.1
    next more =>
      refine ⟨nofun, ?_⟩
      rintro ⟨⟨⟩, last⟩
      exact absurd last more

end Description

/-! ## 2. Runs -/

namespace Course

variable {α : Type} {p : Position} {c : Course α (Outcome α Nat)} {v : Value α}
  {events : List (Event α Position)}

/-- A parse succeeds with the value that a course has matched. -/
theorem reply_eq_success {place result : Nat} :
    (∃ n m next, c.reply p place result = .parsed n m (.success v next) events) ↔
      (∃ j, c.answer = .ok (.success v j)) ∧ c.events.map (Event.mapPlace p.moveTo) = events := by
  rcases ha : c.answer with name | (⟨v', j⟩ | ⟨reason, j⟩)
  · simp [reply, ha]
  · simp [reply, ha, Outcome.mapPlace]
  · simp [reply, ha, Outcome.mapPlace]

end Course

/-- A report points at offset `j` of some tokens, in an input that was matched from offset `i` on.  If
tokens are characters, the line is one more than the line breaks between the two, and the column one more
than the characters behind the last of them. -/
structure Diagnostic.PointsAt {α : Type} [Token α] (e : Diagnostic) (filename : String) (ts : List α)
    (i j : Nat) : Prop where
  start_le : i ≤ j
  le_length : j ≤ ts.length
  filename_eq : e.filename = filename
  offset_eq : e.offset = j
  lineColumn_eq : e.lineColumn =
    (Token.chars? (α := α)).map fun toChar => placeBehind toChar ((ts.drop i).take (j - i))
  found_eq : e.found = ts[j]?.map Token.quoted

theorem Diagnostic.pointsAt_report {α : Type} [Token α] {ts : List α} {i j : Nat} (filename : String)
    (reason : Reason) (le : i ≤ j) (inside : j ≤ ts.length) :
    (Diagnostic.report ts filename i j reason).PointsAt filename ts i j :=
  ⟨le, inside, rfl, rfl, rfl, rfl⟩

namespace Session

variable {α : Type} [Token α] [DecidableEq α] {ds : List (Description α)} {s : Session α}
  {feeds : List (Feed α)} {forced : List Position} {place parser whole : Nat} {p : Position}
  {d : Description α}

/-- **What a run says.**  Let a parse come to a result.  A run of the same parser at the same place
accepts with a value exactly if the parser followed by the end of the input succeeds with it, and then
with the same events.  Otherwise it reports the place of the result.  If this is a success that has left
something over, the end of the input is what is expected there; the kind and the message of a failure are
handed on.  A run leaves the store as the parse does: the line and the column are counted over tokens
that were read. -/
theorem run_verdict (h : Reaches ds s feeds forced) (hp : s.position? place = some p)
    (hd : ds[parser]? = some d) (hl : d.isLocal) (hw : ds[whole]? = some d.toEnd) {n m : Nat}
    {r : Result α} {events : List (Event α Position)}
    (hr : (s.step (.parse place parser)).1 = .parsed n m r events) (filename : String) :
    (∀ v es, (s.step (.run place parser filename)).1 = .accepted v es ↔
      ∃ n m next, (s.step (.parse place whole)).1 = .parsed n m (.success v next) es) ∧
    ((∃ v, (s.step (.run place parser filename)).1 = .accepted v events) ∨
      ∃ e, (s.step (.run place parser filename)).1 = .rejected e events ∧
        e.PointsAt filename (p.tokensOf feeds) p.offset r.place.offset ∧
        match r with
        | .success _ next => next.offset < (p.tokensOf feeds).length ∧
            e.kind = .expected ∧ e.message = "EOS is expected"
        | .failure reason _ => e.kind = reason.kind ∧ e.message = reason.message) ∧
    (s.step (.run place parser filename)).2.store = (s.step (.parse place parser)).2.store := by
  obtain ⟨c, r', hc, ha, rfl, rfl⟩ := h.reads_of_parsed hp hd hl hr
  have shows := h.shows hp
  have ran : s.step (.run place parser filename) = _ := step_run (h.holds hd hl) hp shows hc
  obtain ⟨q, w, -, reads⟩ := id hc
  obtain ⟨le, seen⟩ := reads.place_mem shows.le_length ha
  have behind := shows.forceTo (reads.reach_le shows.le_length) seen
  have inside : r'.place ≤ (p.tokensOf feeds).length := behind.le_length
  refine ⟨fun v es => ?_, ?_, ?_⟩
  · obtain ⟨r'', reach, hc', ends⟩ := hc.toEnd ha
    have last (j : Nat) (hj : j ≤ (p.tokensOf feeds).length) :
        (p.tokensOf feeds)[j]? = none ↔ j = (p.tokensOf feeds).length := by
      rw [List.getElem?_eq_none_iff]
      omega
    rw [ran, h.parse_eq hp hw (Description.isLocal_toEnd hl) hc', Course.runReply_eq_accepted,
      Course.reply_eq_success, ha]
    refine and_congr_left fun _ => ?_
    simp only [Except.ok.injEq, ends]
    constructor
    · rintro rfl
      exact ⟨_, rfl, (last _ inside).2 rfl⟩
    · rintro ⟨j, rfl, left⟩
      rw [(last j inside).1 left]
  · have offset : (r'.mapPlace p.moveTo).place.offset = r'.place := by
      rw [Outcome.place_mapPlace, behind.offset_moveTo]
    rw [ran, offset]
    cases r' with
    | failure reason j =>
      refine .inr ⟨_, ?_, Diagnostic.pointsAt_report filename reason le inside, rfl, rfl⟩
      simp only [Course.runReply, Course.answerWith, ha, Outcome.verdict, Outcome.place]
    | success v j =>
      rcases Nat.lt_or_eq_of_le inside with more | rfl
      · refine .inr ⟨_, ?_, Diagnostic.pointsAt_report filename
          (.missing (Parser.endOfInput : Parser α).name) le inside, offset ▸ more, rfl, rfl⟩
        have left : j ≠ (p.tokensOf feeds).length := Nat.ne_of_lt more
        simp only [Course.runReply, Course.answerWith, ha, Outcome.verdict, if_neg left, Outcome.place]
      · exact .inl ⟨v, (Course.runReply_eq_accepted filename).2 ⟨ha, rfl⟩⟩
  · rw [ran, h.parse_eq hp hd hl hc, store_afterCourse]
    rfl

/-- Any two characters. -/
def twoCharacters : Description Char := .seq [.any, .any]

/-- The run begins before a line break, and the rest of the next line is left over. -/
theorem run_verdict_twoCharacters :
    ∃ s feeds forced, Reaches [twoCharacters, twoCharacters.toEnd] s feeds forced ∧
      s.position? 1 = some (.mark 0 1) ∧
      (s.step (.parse 1 0)).1 = .parsed 2 0 (.success (.token 'b') (.mark 0 3)) [] ∧
      ∃ e, (s.step (.run 1 0 "letters")).1 = .rejected e [] ∧ e.offset = 3 ∧
        e.lineColumn = some (2, 2) ∧ e.message = "EOS is expected" := by
  have begun : Reaches [twoCharacters, twoCharacters.toEnd] _ [] [] := .begin rfl
  have moved := begun.after [.start (.feed (.items ['a', '\n', 'b', 'c', 'd'])), .tail 0 1]
  have described : [twoCharacters, twoCharacters.toEnd][0]? = some twoCharacters := rfl
  obtain ⟨accepts, ⟨v, accepted⟩ | ⟨e, rejected, points, -, -, message⟩, -⟩ :=
    @run_verdict _ _ _ _ _ _ _ 1 0 1 (.mark 0 1) twoCharacters moved rfl described rfl rfl 2 0
      (.success (.token 'b') (.mark 0 3)) [] rfl "letters"
  · obtain ⟨n, m, next, success⟩ := (accepts v []).1 accepted
    exact absurd success nofun
  · exact ⟨_, _, _, moved, rfl, rfl, e, rejected, points.offset_eq, points.lineColumn_eq, message⟩

end Session

end LazyPeg
