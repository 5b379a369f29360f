import LazyPeg.Proofs.Session.Factoring

/-!
# What two parses have in common

Laws of parsers compare two parses that start at one position of one session.

* §1: `Session.ComesTo` is the result of a parse, without its number and its events.  For a local parser
  it is what the reading answers (`comesTo_iff`, `comesTo_success_iff`, `succeeds_iff`, `hasResult_iff`).
* §2: two sessions have asked their sources equally often (`Session.SamePulls`).  After two parses this
  is so if the parses leave the same sequences behind, and they do if their courses look equally far.
* §3: parsers with courses that agree have replies that agree, and read the same (`Session.parse_agree`).
-/
namespace LazyPeg

open LazyPeg.Parser

@[simp] theorem Outcome.isSuccess_mapPlace {α π ρ : Type} (f : π → ρ) (r : Outcome α π) :
    (r.mapPlace f).isSuccess = r.isSuccess := by
  cases r <;> rfl

namespace Session

variable {α : Type} [Token α] [DecidableEq α] {s : Session α} {p : Position} {q q' : Parser α}
  {ts : List α} {c c' : Course α (Outcome α Nat)} {r r' : Result α}

/-! ## 1. Results -/

/-- A parse comes to a result. -/
def ComesTo (s : Session α) (q : Parser α) (p : Position) (r : Result α) : Prop :=
  ∃ place result events, (s.parse q p).1 = .parsed place result r events

/-- A parse has a result. -/
def HasResult (s : Session α) (q : Parser α) (p : Position) : Prop := ∃ r, s.ComesTo q p r

/-- A parse succeeds. -/
def Succeeds (s : Session α) (q : Parser α) (p : Position) : Prop :=
  ∃ v next, s.ComesTo q p (.success v next)

theorem comesTo_iff (hq : q.Local s.workshop.grammar) (hts : s.store.Shows p ts p.offset) :
    s.ComesTo q p r ↔
      ∃ r', q.Answers s.workshop.grammar ts p.offset r' ∧ r = r'.mapPlace p.moveTo := by
  constructor
  · rintro ⟨_, _, _, hr⟩
    obtain ⟨c, r', reads, answer, same, -⟩ := reads_of_parsed hq hts hr
    exact ⟨r', ⟨c, reads, answer⟩, same⟩
  · rintro ⟨r', ⟨c, reads, answer⟩, rfl⟩
    exact ⟨_, _, _, parse_of_answer hq hts reads answer⟩

/-- A parse succeeds where the parser matches. -/
theorem comesTo_success_iff (hq : q.Local s.workshop.grammar) (hts : s.store.Shows p ts p.offset)
    {v : Value α} {next : Position} :
    s.ComesTo q p (.success v next) ↔
      ∃ j, q.Matches s.workshop.grammar ts p.offset v j ∧ next = p.moveTo j := by
  rw [comesTo_iff hq hts]
  constructor
  · rintro ⟨r', answer, same⟩
    cases r' with
    | success w j =>
      obtain ⟨rfl, rfl⟩ := Outcome.success.inj same
      exact ⟨j, answer, rfl⟩
    | failure reason j => cases same
  · rintro ⟨j, matched, rfl⟩
    exact ⟨_, matched, rfl⟩

theorem succeeds_iff (hq : q.Local s.workshop.grammar) (hts : s.store.Shows p ts p.offset) :
    s.Succeeds q p ↔ ∃ v j, q.Matches s.workshop.grammar ts p.offset v j := by
  constructor
  · rintro ⟨v, next, comes⟩
    obtain ⟨j, matched, -⟩ := (comesTo_success_iff hq hts).1 comes
    exact ⟨v, j, matched⟩
  · rintro ⟨v, j, matched⟩
    exact ⟨v, p.moveTo j, (comesTo_success_iff hq hts).2 ⟨j, matched, rfl⟩⟩

/-- A parse fails where the parser fails. -/
theorem exists_failure_iff (hq : q.Local s.workshop.grammar) (hts : s.store.Shows p ts p.offset) :
    (∃ r, s.ComesTo q p r ∧ r.isSuccess = false) ↔ q.Fails s.workshop.grammar ts p.offset := by
  rw [fails_iff_answers]
  constructor
  · rintro ⟨r, comes, failed⟩
    obtain ⟨r', answer, rfl⟩ := (comesTo_iff hq hts).1 comes
    exact ⟨r', answer, Outcome.isSuccess_mapPlace p.moveTo r' ▸ failed⟩
  · rintro ⟨r', answer, failed⟩
    refine ⟨_, (comesTo_iff hq hts).2 ⟨r', answer, rfl⟩, ?_⟩
    exact (Outcome.isSuccess_mapPlace p.moveTo r').trans failed

/-- A parse has a result where the parser comes to an outcome. -/
theorem hasResult_iff (hq : q.Local s.workshop.grammar) (hts : s.store.Shows p ts p.offset) :
    s.HasResult q p ↔ q.Decides s.workshop.grammar ts p.offset := by
  rw [decides_iff_parsed hq hts]
  constructor
  · rintro ⟨r, place, result, events, hr⟩
    exact ⟨place, result, r, events, hr⟩
  · rintro ⟨place, result, r, events, hr⟩
    exact ⟨r, place, result, events, hr⟩

/-- A parse defines no rule. -/
theorem grammar_parse (q : Parser α) (p : Position) (s : Session α) :
    (s.parse q p).2.workshop.grammar = s.workshop.grammar := by
  simp only [Session.parse, perform_eq]
  split <;> rfl

/-- Behind a success the sequence goes on with what is left. -/
theorem ComesTo.shows (hq : q.Local s.workshop.grammar) (hts : s.store.Shows p ts p.offset)
    {v : Value α} {next : Position} (h : s.ComesTo q p (.success v next)) :
    (s.parse q p).2.store.Shows next ts next.offset ∧
      q.Matches s.workshop.grammar ts p.offset v next.offset := by
  obtain ⟨j, ⟨c, hc, ha⟩, rfl⟩ := (comesTo_success_iff hq hts).1 h
  have moved : (s.store.forceTo p c.reach).Shows p ts j :=
    hts.forceTo (hc.reach_le hts.le_length) (hc.place_mem hts.le_length ha).2
  rw [parse_of_reads hq hts hc, store_afterCourse, moved.offset_moveTo]
  exact ⟨moved.of_same (Position.moveTo_moveTo p j 0).symm, c, hc, ha⟩

/-! ## 2. Pulls -/

/-- In two sessions every source was asked equally often. -/
def SamePulls (s s' : Session α) : Prop :=
  ∀ source, (s.step (.pulls source)).1 = (s'.step (.pulls source)).1

/-- A parse opens no source. -/
theorem sources_parse (q : Parser α) (p : Position) (s : Session α) : (s.parse q p).2.sources = s.sources := by
  simp only [Session.parse, perform_eq]
  split <;> rfl

/-- Where two parses leave the same sequences behind, every source was asked as often for the one as for
the other. -/
theorem samePulls_of_store (h : (s.parse q p).2.store = (s.parse q' p).2.store) :
    SamePulls (s.parse q p).2 (s.parse q' p).2 := by
  intro source
  simp only [Session.step, Session.atSource, sources_parse]
  rcases s.sources[source]? with _ | _ | n
  · rfl
  · rfl
  · exact congrArg (fun st : Store α => Reply.number (st.pulls n)) h

/-- Parses with courses that look equally far leave the same sequences behind. -/
theorem store_parse_eq (hq : q.Local s.workshop.grammar) (hq' : q'.Local s.workshop.grammar)
    (hts : s.store.Shows p ts p.offset) (hc : q.Reads s.workshop.grammar ts p.offset c)
    (hc' : q'.Reads s.workshop.grammar ts p.offset c') (reach : c.reach = c'.reach) :
    (s.parse q p).2.store = (s.parse q' p).2.store := by
  rw [parse_of_reads hq hts hc, parse_of_reads hq' hts hc']
  simp only [store_afterCourse, reach]

/-- So it is if for each course of the one parser the other one has a course that looks equally far, unless
the one does not end. -/
theorem samePulls_of_reads (hq : q.Local s.workshop.grammar) (hq' : q'.Local s.workshop.grammar)
    (hts : s.store.Shows p ts p.offset)
    (h : ∀ c, q.Reads s.workshop.grammar ts p.offset c →
      ∃ c', q'.Reads s.workshop.grammar ts p.offset c' ∧ c.reach = c'.reach)
    (ends : ∀ events, (s.parse q p).1 ≠ .stopped .endless events) :
    SamePulls (s.parse q p).2 (s.parse q' p).2 := by
  by_cases reads : ∃ c, q.Reads s.workshop.grammar ts p.offset c
  · obtain ⟨c, hc⟩ := reads
    obtain ⟨c', hc', reach⟩ := h c hc
    exact samePulls_of_store (store_parse_eq hq hq' hts hc hc' reach)
  · obtain ⟨events, stopped⟩ := parse_of_endless hq hts (not_exists.1 reads)
    exact absurd stopped (ends events)

end Session

/-! ## 3. Agreement -/

/-- What agrees behind everything that a parse gives agrees together with that parse. -/
theorem Reading.Agree.bind {α β : Type} {i : Nat} {c : Reading α β}
    {f g : β → Reading α (Outcome α Nat)} (h : ∀ b, c.Gives b → (f b).Agree i (g b)) :
    (c >>= f).Agree i (c >>= g) := by
  rcases c with _ | ⟨name | b, events, reach⟩
  · exact .endless
  · exact .ended (.undefined name _ _ rfl)
  · have agree := h b ⟨events, reach, rfl⟩
    rw [Reading.ok_bind, Reading.ok_bind]
    cases hf : f b with
    | endless =>
      rw [hf] at agree
      cases hg : g b with
      | endless => exact .endless
      | ended d =>
        rw [hg] at agree
        cases agree
    | ended c =>
      rw [hf] at agree
      cases hg : g b with
      | endless =>
        rw [hg] at agree
        cases agree
      | ended d =>
        rw [hg] at agree
        cases agree with
        | ended same =>
          cases same with
          | undefined name _ _ far => exact .ended (.undefined name _ _ (by rw [far]))
          | outcome same _ _ far => exact .ended (.outcome same _ _ (by rw [far]))

namespace Session

variable {α : Type} [Token α] [DecidableEq α] {s : Session α} {p : Position} {q q' : Parser α}
  {ts : List α}

/-- **Parsers that agree at every depth of calls.**  Their replies agree, and unless they do not end, they
read the same. -/
theorem parse_agree (hq : q.Local s.workshop.grammar) (hq' : q'.Local s.workshop.grammar)
    (hts : s.store.Shows p ts p.offset)
    (h : ∀ depth, (q.readDepth s.workshop.grammar ts depth p.offset).Agree p.offset
      (q'.readDepth s.workshop.grammar ts depth p.offset)) :
    (s.parse q p).1.Agree p (s.parse q' p).1 ∧
      ((∀ events, (s.parse q p).1 ≠ .stopped .endless events) →
        SamePulls (s.parse q p).2 (s.parse q' p).2) := by
  rcases exists_agree h with ⟨c, d, hc, hd, agree⟩ | ⟨none, none'⟩
  · constructor
    · rw [parse_of_reads hq hts hc, parse_of_reads hq' hts hd]
      exact agree.reply _ _
    · intro _
      exact samePulls_of_store (store_parse_eq hq hq' hts hc hd agree.reach_eq)
  · obtain ⟨events, stopped⟩ := parse_of_endless hq hts none
    obtain ⟨events', stopped'⟩ := parse_of_endless hq' hts none'
    constructor
    · rw [stopped, stopped']
      exact .stopped .endless events events'
    · intro ends
      exact absurd stopped (ends events)

end Session

end LazyPeg
