import LazyPeg.Proofs.Building.Nodes
import LazyPeg.Proofs.Reading.Translated
import LazyPeg.Proofs.Session.Run

/-!
# Parsing from a later place

**A parse from a later place in a sequence comes to what it comes to at the start of a sequence of the
tokens that are left there** (`Session.parse_translated`): the same value or the same failure, with the
same tokens left behind it.  Offsets are larger by as much as was left out, and lines and columns, which
are counted from where a run begins, are the same.  All of this needs that the parser does not ask for
its offset.
-/
namespace LazyPeg

/-! ## 1. Descriptions -/

namespace Description

variable {α : Type} [Token α] [DecidableEq α] {d : Description α} {ts : List α} {k i : Nat}
  {c : Course α (Outcome α Nat)}

/-- A description without the offset builds parsers without it. -/
theorem all_of_offset_not_mem (ho : .offset ∉ d.nodes) {store : Store α} {q : Parser α}
    {w : Workshop α} (h : (d.build []).run ⟨store, #[]⟩ = .ok (q, w)) :
    q.All (· ≠ .offset) ∧
      ∀ (id : RuleId) (body : Parser α), (w.grammar[id]?).join = some body → body.All (· ≠ .offset) := by
  obtain ⟨hq, bodies⟩ := all_of_build h
  have other (n : Parser.Node) (hn : Building.Fits [] d.nodes d.misused w n) : n ≠ .offset := by
    rintro rfl
    exact ho hn
  exact ⟨hq.mono other, fun id body hbody => (bodies id body hbody).mono other⟩

/-- A course over the rest of a list is found again in the whole list. -/
theorem Reads.onward (h : d.Reads (ts.drop k) i c) (hk : k ≤ ts.length) (ho : .offset ∉ d.nodes) :
    ∃ reach, d.Reads ts (k + i) (c.onward k reach) := by
  obtain ⟨q, w, built, reads⟩ := h
  obtain ⟨hq, bodies⟩ := all_of_offset_not_mem ho built
  obtain ⟨reach, moved⟩ := reads.onward hk bodies hq
  exact ⟨reach, q, w, built, moved⟩

/-- A reading that ends in the whole list ends over the rest of it. -/
theorem Reads.exists_rest (h : d.Reads ts (k + i) c) (hk : k ≤ ts.length) (ho : .offset ∉ d.nodes) :
    ∃ c', d.Reads (ts.drop k) i c' := by
  obtain ⟨q, w, built, reads⟩ := h
  obtain ⟨hq, bodies⟩ := all_of_offset_not_mem ho built
  obtain ⟨c', rest⟩ := reads.exists_rest hk bodies hq
  exact ⟨c', q, w, built, rest⟩

end Description

/-! ## 2. Replies -/

/-- Two replies to a parse or to a run say the same, except that the places of the second one are `k`
places farther on.  The numbers that a session gives to results and places do not count, and neither do
the events. -/
inductive Reply.Onward {α : Type} (k : Nat) : Reply α → Reply α → Prop where
  | parsed {r r' : Result α} (n n' m m' : Nat) (events events' : List (Event α Position))
    (value : r'.value? = r.value?) (reason : r'.reason? = r.reason?)
    (place : r'.place.offset = k + r.place.offset) :
    Onward k (.parsed n m r events) (.parsed n' m' r' events')
  | accepted (v : Value α) (events events' : List (Event α Position)) :
    Onward k (.accepted v events) (.accepted v events')
  | rejected (e : Diagnostic) (events events' : List (Event α Position)) :
    Onward k (.rejected e events) (.rejected { e with offset := k + e.offset } events')
  | stopped (why : Stop) (events events' : List (Event α Position)) :
    Onward k (.stopped why events) (.stopped why events')

namespace Diagnostic

variable {α : Type} [Token α] {ts : List α} {k i j : Nat}

/-- A report counts lines and columns from where the run began, so it differs by its offset only. -/
theorem report_onward (filename : String) (reason : Reason) :
    report ts filename (k + i) (k + j) reason =
      { report (ts.drop k) filename i j reason with offset := k + j } := by
  simp only [report, List.drop_drop, List.getElem?_drop, Nat.add_sub_add_left]

end Diagnostic

namespace Course

variable {α : Type} {c : Course α (Outcome α Nat)} {p p' : Position} {ts : List α} {k : Nat}

/-- The replies to two parses with courses `k` places apart. -/
theorem reply_onward (n n' m m' reach : Nat)
    (place : ∀ r, c.answer = .ok r → (p'.moveTo (k + r.place)).offset = k + (p.moveTo r.place).offset) :
    (c.reply p n m).Onward k ((c.onward k reach).reply p' n' m') := by
  rcases hc : c.answer with name | r
  · simp only [reply, onward, hc, Except.map]
    exact .stopped _ _ _
  · simp only [reply, onward, hc, Except.map]
    refine .parsed _ _ _ _ _ _ ?_ ?_ ?_
    · cases r <;> rfl
    · cases r <;> rfl
    · rw [Outcome.place_mapPlace, Outcome.place_mapPlace, Outcome.place_mapPlace]
      exact place r hc

/-- The replies to two runs with courses `k` places apart. -/
theorem runReply_onward [Token α] (filename : String) (reach : Nat) (hk : k ≤ ts.length)
    (start : p'.offset = k + p.offset) :
    (c.runReply p (ts.drop k) filename).Onward k ((c.onward k reach).runReply p' ts filename) := by
  have report (reason : Reason) (j : Nat) :
      Diagnostic.report ts filename p'.offset (k + j) reason =
        { Diagnostic.report (ts.drop k) filename p.offset j reason with offset := k + j } :=
    start ▸ Diagnostic.report_onward filename reason
  rcases hc : c.answer with name | (⟨v, j⟩ | ⟨reason, j⟩)
  · simp only [runReply, answerWith, onward, hc, Except.map]
    exact .stopped _ _ _
  · have last : k + j = ts.length ↔ j = (ts.drop k).length := by
      rw [List.length_drop]
      omega
    by_cases all : j = (ts.drop k).length
    · simp only [runReply, answerWith, onward, hc, Except.map, Outcome.mapPlace, Outcome.verdict, last,
        if_pos all]
      exact .accepted _ _ _
    · simp only [runReply, answerWith, onward, hc, Except.map, Outcome.mapPlace, Outcome.verdict, last,
        if_neg all, report]
      exact .rejected _ _ _
  · simp only [runReply, answerWith, onward, hc, Except.map, Outcome.mapPlace, Outcome.verdict, report]
    exact .rejected _ _ _

end Course

/-! ## 3. Sessions -/

namespace Session

variable {α : Type} [Token α] [DecidableEq α] {ds ds' : List (Description α)} {s s' : Session α}
  {feeds feeds' : List (Feed α)} {forced forced' : List Position} {place place' parser parser' : Nat}
  {p p' : Position} {d : Description α} {k : Nat}

/-- **Parsing does not depend on where the tokens stand.**  Of two places, let the one stand in a sequence
that goes on there as the other sequence does `k` places farther on.  Parses with a description that does
not ask for the offset come to the same value or the same failure, with the same tokens left, and runs
accept the same value or report the same; only offsets differ, by `k`. -/
theorem parse_translated (h : Reaches ds s feeds forced) (h' : Reaches ds' s' feeds' forced')
    (hp : s.position? place = some p) (hp' : s'.position? place' = some p')
    (hd : ds[parser]? = some d) (hd' : ds'[parser']? = some d) (hl : d.isLocal) (ho : .offset ∉ d.nodes)
    (tokens : p.tokensOf feeds = (p'.tokensOf feeds').drop k) (start : p'.offset = k + p.offset) :
    Reply.Onward k (s.step (.parse place parser)).1 (s'.step (.parse place' parser')).1 ∧
    (∀ n m r events n' m' r' events',
      (s.step (.parse place parser)).1 = .parsed n m r events →
      (s'.step (.parse place' parser')).1 = .parsed n' m' r' events' → ∀ count,
        ((s'.step (.parse place' parser')).2.step (.take n' count)).1 =
          ((s.step (.parse place parser)).2.step (.take n count)).1) ∧
    ∀ filename, Reply.Onward k (s.step (.run place parser filename)).1
      (s'.step (.run place' parser' filename)).1 := by
  have shows := h.shows hp
  have shows' := h'.shows hp'
  rw [tokens] at shows
  have inside : k ≤ (p'.tokensOf feeds').length := by
    have := shows'.le_length
    omega
  by_cases ends : ∃ c, d.Reads ((p'.tokensOf feeds').drop k) p.offset c
  · obtain ⟨c, hc⟩ := ends
    obtain ⟨reach, hc'⟩ := hc.onward inside ho
    rw [← start] at hc'
    rw [← tokens] at hc
    have parsed := h.parse_eq hp hd hl hc
    have parsed' := h'.parse_eq hp' hd' hl hc'
    have ran (filename : String) : (s.step (.run place parser filename)).1 = _ :=
      congrArg Prod.fst (step_run (h.holds hd hl) hp (h.shows hp) hc)
    have ran' (filename : String) : (s'.step (.run place' parser' filename)).1 = _ :=
      congrArg Prod.fst (step_run (h'.holds hd' hl) hp' shows' hc')
    -- what is known of the place of an outcome and of the tokens behind it, in either sequence
    have behind {r : Outcome α Nat} (hr : c.answer = .ok r) := afterCourse_place (h.shows hp) hc hr
    have behind' {r : Outcome α Nat} (hr : c.answer = .ok r) :=
      afterCourse_place shows' hc' (congrArg (Except.map _) hr)
    refine ⟨?_, ?_, fun filename => ?_⟩
    · rw [parsed, parsed']
      refine Course.reply_onward _ _ _ _ reach fun r hr => ?_
      rw [(behind hr).2.1, ← Outcome.place_mapPlace (k + ·)]
      exact (behind' hr).2.1
    · intro n m r events n' m' r' events' came came' count
      rw [parsed] at came ⊢
      rw [parsed'] at came' ⊢
      rcases hr : c.answer with name | r₀
      · simp [Course.reply, hr] at came
      · obtain ⟨rfl, -⟩ : s.positions.size = n ∧ _ := by simpa [Course.reply, hr] using came
        obtain ⟨rfl, -⟩ : s'.positions.size = n' ∧ _ := by
          simpa [Course.reply, Course.onward, Except.map, hr] using came'
        rw [(behind hr).2.2, (behind' hr).2.2, tokens, Outcome.place_mapPlace, List.drop_drop]
    · rw [ran, ran', tokens]
      exact Course.runReply_onward filename reach inside start
  · have none := not_exists.1 ends
    have none' (c : Course α (Outcome α Nat)) : ¬ d.Reads (p'.tokensOf feeds') p'.offset c := by
      intro hc'
      rw [start] at hc'
      exact ends (hc'.exists_rest inside ho)
    rw [← tokens] at none
    obtain ⟨events, stopped⟩ := step_parse_endless (h.holds hd hl) hp (h.shows hp) none
    obtain ⟨events', stopped'⟩ := step_parse_endless (h'.holds hd' hl) hp' shows' none'
    refine ⟨?_, ?_, fun filename => ?_⟩
    · rw [stopped, stopped']
      exact .stopped _ _ _
    · intro n m r es n' m' r' es' parsed
      cases stopped.symm.trans parsed
    · obtain ⟨events, ran⟩ : ∃ events, (s.step (.run place parser filename)).1 = .stopped .endless events :=
        step_run_endless (h.holds hd hl) hp (h.shows hp) none
      obtain ⟨events', ran'⟩ :
          ∃ events, (s'.step (.run place' parser' filename)).1 = .stopped .endless events :=
        step_run_endless (h'.holds hd' hl) hp' shows' none'
      rw [ran, ran']
      exact .stopped _ _ _

/-- A character in any number of brackets. -/
def bracketed : Description Char :=
  .recursive "bracketed" .defined (.choice [.tuple [.eq '(', .call "bracketed", .eq ')'], .any])

/-- Behind the heading the run begins in line one again, and only the offset tells that there was one. -/
theorem parse_translated_bracketed :
    ∃ s feeds forced, Reaches [bracketed] s feeds forced ∧ s.position? 1 = some (.mark 1 0) ∧
      s.position? 2 = some (.mark 0 2) ∧
      ∃ e, (s.step (.run 1 0 "text")).1 = .rejected e [] ∧ e.offset = 3 ∧ e.lineColumn = some (2, 2) ∧
        Reply.Onward 2 (.rejected e []) (s.step (.run 2 0 "text")).1 := by
  have begun : Reaches [bracketed] _ [] [] := .begin rfl
  have opened := begun.after [.start (.feed (.items ['#', '\n', '(', '\n', ')', 'x'])),
    .start (.feed (.items ['(', '\n', ')', 'x'])), .tail 0 2]
  have described : [bracketed][0]? = some bracketed := rfl
  obtain ⟨-, -, runs⟩ := @parse_translated _ _ _ _ _ _ _ _ _ _ _ 1 2 0 0 (.mark 1 0) (.mark 0 2)
    bracketed 2 opened opened rfl rfl described described rfl (by decide) rfl rfl
  exact ⟨_, _, _, opened, rfl, rfl, _, rfl, rfl, rfl, runs "text"⟩

end Session

end LazyPeg
