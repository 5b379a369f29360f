import LazyPeg.Proofs.Session.Demand
import LazyPeg.Proofs.Session.Local

/-!
# Left factoring

Two alternatives that begin with the same parser may be factored: `p q | p r` and `p (q | r)` come to the
same success, or both fail as expected where they were started.  The one that is not factored may match
`p` twice, and then the events of `p` appear twice, but the second time nothing is read: the courses of the
two have the same reach (`Parser.agree_factored`).  So in a session they leave the same sequences behind
(`Session.parse_factored`).
-/
namespace LazyPeg

/-! ## 1. Agreement -/

/-- The same success, or failures as expected at one place. -/
inductive Outcome.Agree {α π : Type} (start : π) : Outcome α π → Outcome α π → Prop where
  | success (v : Value α) (next : π) : Agree start (.success v next) (.success v next)
  | failure {reason reason' : Reason} (h : reason.kind = .expected) (h' : reason'.kind = .expected) :
    Agree start (.failure reason start) (.failure reason' start)

/-- Courses that look equally far, and come to outcomes that agree or are stopped at the same rule.
Their events may differ. -/
inductive Course.Agree {α : Type} (i : Nat) :
    Course α (Outcome α Nat) → Course α (Outcome α Nat) → Prop where
  | undefined (name : String) (events events' : List (Event α Nat)) {reach reach' : Nat}
    (h : reach = reach') : Agree i ⟨.error name, events, reach⟩ ⟨.error name, events', reach'⟩
  | outcome {r r' : Outcome α Nat} (hr : r.Agree i r') (events events' : List (Event α Nat))
    {reach reach' : Nat} (h : reach = reach') :
    Agree i ⟨.ok r, events, reach⟩ ⟨.ok r', events', reach'⟩

/-- Readings with courses that agree, or without end. -/
inductive Reading.Agree {α : Type} (i : Nat) :
    Reading α (Outcome α Nat) → Reading α (Outcome α Nat) → Prop where
  | endless : Agree i endless endless
  | ended {c c' : Course α (Outcome α Nat)} (h : c.Agree i c') : Agree i (ended c) (ended c')

/-- Results that agree, or stops for the same reason. -/
inductive Reply.Agree {α : Type} (p : Position) : Reply α → Reply α → Prop where
  | parsed (place result : Nat) {r r' : Result α} (h : r.Agree p r')
    (events events' : List (Event α Position)) :
    Agree p (.parsed place result r events) (.parsed place result r' events')
  | stopped (why : Stop) (events events' : List (Event α Position)) :
    Agree p (.stopped why events) (.stopped why events')

theorem Outcome.Agree.mapPlace {α π ρ : Type} {start : π} {r r' : Outcome α π} (h : r.Agree start r')
    (f : π → ρ) : (r.mapPlace f).Agree (f start) (r'.mapPlace f) := by
  cases h with
  | success v next => exact .success v (f next)
  | failure h h' => exact .failure h h'

theorem Reply.Agree.success {α : Type} {p next : Position} {place result : Nat} {v : Value α}
    {events : List (Event α Position)} {reply : Reply α}
    (h : Agree p (.parsed place result (.success v next) events) reply) :
    ∃ events', reply = .parsed place result (.success v next) events' := by
  cases h with
  | parsed _ _ same _ events' =>
    cases same with
    | success _ _ => exact ⟨events', rfl⟩

theorem Course.Agree.reach_eq {α : Type} {i : Nat} {c c' : Course α (Outcome α Nat)}
    (h : c.Agree i c') : c.reach = c'.reach := by
  cases h with
  | undefined _ _ _ h => exact h
  | outcome _ _ _ h => exact h

theorem Course.Agree.reply {α : Type} {p : Position} {c c' : Course α (Outcome α Nat)}
    (h : c.Agree p.offset c') (place result : Nat) :
    (c.reply p place result).Agree p (c'.reply p place result) := by
  cases h with
  | undefined name => exact .stopped _ _ _
  | outcome hr =>
    have placed := hr.mapPlace p.moveTo
    rw [Position.moveTo_offset] at placed
    exact .parsed place result placed _ _

/-! ## 2. Readings -/

namespace Parser

variable {α : Type} [Token α] [DecidableEq α] (ts : List α)
  (call : RuleId → String → Nat → Reading α (Outcome α Nat)) (p q r : Parser α) (i : Nat)

theorem read_seq_pair : (seq [p, q]).read ts call i = (do
    match ← p.read ts call i with
    | .failure .. => return .failure (.missing p.name) i
    | .success _ j =>
      match ← q.read ts call j with
      | .failure .. => return .failure (.missing q.name) i
      | .success w k => return .success w k) := by
  rw [seq, read, read, readAll]
  rcases p.read ts call i with _ | ⟨name | ⟨v, j⟩ | ⟨reason, j⟩, events, reach⟩
  · rfl
  · rfl
  · simp only [readAll, Reading.ok_bind]
    rcases q.read ts call j with _ | ⟨name | ⟨w, k⟩ | ⟨reason, k⟩, events', reach'⟩
    · rfl
    · rfl
    · simp [Reading.ok_bind, Reading.pure_eq, Outcome.mapValue, lastItem]
    · simp [Reading.ok_bind, Reading.pure_eq, Outcome.mapValue]
  · simp [Reading.ok_bind, Reading.pure_eq, Outcome.mapValue]

theorem read_choice_pair : (choice [p, q]).read ts call i = (do
    match ← p.read ts call i with
    | .success v j => return .success v j
    | .failure .. =>
      match ← q.read ts call i with
      | .success w k => return .success w k
      | .failure .. => return .failure (.noneOf (names [p, q])) i) := by
  rw [read, readFirst]
  rcases p.read ts call i with _ | ⟨name | ⟨v, j⟩ | ⟨reason, j⟩, events, reach⟩
  · rfl
  · rfl
  · simp [Reading.ok_bind, Reading.pure_eq]
  · simp only [readFirst, Reading.ok_bind]
    rcases q.read ts call i with _ | ⟨name | ⟨w, k⟩ | ⟨reason, k⟩, events', reach'⟩
    · rfl
    · rfl
    · simp [Reading.ok_bind, Reading.pure_eq]
    · simp [Reading.ok_bind, Reading.pure_eq]

/-- **Left factoring.**  Where the first alternative fails behind `p`, the second one matches `p` once more
and comes to the same place, so that `r` is started where it is started in the factored parser. -/
theorem agree_factored :
    ((choice [seq [p, q], seq [p, r]]).read ts call i).Agree i
      ((seq [p, choice [q, r]]).read ts call i) := by
  rw [read_choice_pair, read_seq_pair, read_seq_pair, read_seq_pair]
  rcases p.read ts call i with _ | ⟨name | ⟨v, j⟩ | ⟨reason, j⟩, events, reach⟩
  · exact .endless
  · exact .ended (.undefined name _ _ rfl)
  · simp only [Reading.ok_bind, read_choice_pair]
    rcases q.read ts call j with _ | ⟨name | ⟨w, k⟩ | ⟨reason, k⟩, events', reach'⟩
    · exact .endless
    · exact .ended (.undefined name _ _ rfl)
    · exact .ended (.outcome (.success w k) _ _ (by simp))
    · simp only [Reading.ok_bind, Reading.pure_eq]
      rcases r.read ts call j with _ | ⟨name | ⟨w, l⟩ | ⟨reason, l⟩, events'', reach''⟩
      · exact .endless
      · simp only [Reading.error_bind]
        exact .ended (.undefined name _ _ (by omega))
      · simp only [Reading.ok_bind]
        exact .ended (.outcome (.success w l) _ _ (by omega))
      · simp only [Reading.ok_bind]
        exact .ended (.outcome (.failure rfl rfl) _ _ (by omega))
  · simp only [Reading.ok_bind, Reading.pure_eq]
    exact .ended (.outcome (.failure rfl rfl) _ _ (by omega))

variable {ts} {q r} {i} {grammar : Grammar α}

/-- Of two parsers that agree at every depth both have a course, or none. -/
theorem exists_agree (h : ∀ depth,
      (q.readDepth grammar ts depth i).Agree i (r.readDepth grammar ts depth i)) :
    (∃ c d, q.Reads grammar ts i c ∧ r.Reads grammar ts i d ∧ c.Agree i d) ∨
      (∀ c, ¬ q.Reads grammar ts i c) ∧ ∀ d, ¬ r.Reads grammar ts i d := by
  by_cases ends : ∃ depth c, q.readDepth grammar ts depth i = .ended c
  · obtain ⟨depth, c, hc⟩ := ends
    have same := h depth
    rw [hc] at same
    cases hd : r.readDepth grammar ts depth i with
    | endless =>
      rw [hd] at same
      exact absurd same nofun
    | ended d =>
      rw [hd] at same
      cases same with
      | ended agree => exact .inl ⟨c, d, ⟨depth, hc⟩, ⟨depth, hd⟩, agree⟩
  · refine .inr ⟨fun c ⟨depth, hc⟩ => ends ⟨depth, c, hc⟩, fun d ⟨depth, hd⟩ => ?_⟩
    have same := h depth
    rw [hd] at same
    cases hc : q.readDepth grammar ts depth i with
    | endless =>
      rw [hc] at same
      exact absurd same nofun
    | ended c => exact ends ⟨depth, c, hc⟩

end Parser

/-! ## 3. Sessions -/

namespace Session

open LazyPeg.Parser

variable {α : Type} [Token α] [DecidableEq α] {s : Session α} {place : Nat} {p : Position}
  {first second third : Parser α}

/-- **Left factoring is sound and reads nothing twice.**  The two parsers have one success, or both fail
as expected where they were started, or both are stopped for the same reason.  Unless they do not end,
they leave all sequences alike, and so every source was asked as often for the one as for the other. -/
theorem parse_factored (h : s.Sound) (hp : s.position? place = some p)
    (h₁ : first.Local s.workshop.grammar) (h₂ : second.Local s.workshop.grammar)
    (h₃ : third.Local s.workshop.grammar) :
    let left := s.parse (choice [seq [first, second], seq [first, third]]) p
    let right := s.parse (seq [first, choice [second, third]]) p
    left.1.Agree p right.1 ∧
      ((∀ events, left.1 ≠ .stopped .endless events) →
        left.2.store = right.2.store ∧
          ∀ source, (left.2.step (.pulls source)).1 = (right.2.step (.pulls source)).1) := by
  have hts := h.shows hp
  have localLeft : (choice [seq [first, second], seq [first, third]]).Local s.workshop.grammar :=
    .choice (.cons (.map _ (.group _ (.cons h₁ (.cons h₂ .nil))))
      (.cons (.map _ (.group _ (.cons h₁ (.cons h₃ .nil)))) .nil))
  have localRight : (seq [first, choice [second, third]]).Local s.workshop.grammar :=
    .map _ (.group _ (.cons h₁ (.cons (.choice (.cons h₂ (.cons h₃ .nil))) .nil)))
  rcases exists_agree fun depth => agree_factored (s.store.sequence p)
      (callDepth s.workshop.grammar (s.store.sequence p) depth) first second third p.offset with
    ⟨c, d, hc, hd, agree⟩ | ⟨noLeft, noRight⟩
  · simp only [parse_of_reads localLeft hts hc, parse_of_reads localRight hts hd]
    have store : (s.afterCourse p c).store = (s.afterCourse p d).store := by
      rw [store_afterCourse, store_afterCourse, agree.reach_eq]
    refine ⟨agree.reply _ _, fun _ => ⟨store, fun source => ?_⟩⟩
    simp only [Session.step, Session.atSource, sources_afterCourse]
    rcases s.sources[source]? with _ | _ | n
    · rfl
    · rfl
    · exact congrArg (fun st : Store α => Reply.number (st.pulls n)) store
  · obtain ⟨events, stopped⟩ := parse_of_endless localLeft hts noLeft
    obtain ⟨events', stopped'⟩ := parse_of_endless localRight hts noRight
    constructor
    · simp only [stopped, stopped']
      exact .stopped .endless events events'
    · intro ends
      exact absurd stopped (ends events)

/-- The first alternative fails at its second letter.  So the first letter is matched twice where it was
not factored out, and both parsers have pulled the sequence three times. -/
theorem parse_factored_letters :
    ∃ (s : Session Char) (first second third : Parser Char), s.Sound ∧
      s.position? 0 = some (.mark 0 0) ∧ first.Local s.workshop.grammar ∧
      second.Local s.workshop.grammar ∧ third.Local s.workshop.grammar ∧
      (s.parse (choice [seq [first, second], seq [first, third]]) (.mark 0 0)).1 =
        .parsed 1 0 (.success (.token 'b') (.mark 0 2))
          (List.replicate 2 (.observed (.text "letter") (.success (.token 'a') (.mark 0 1)))) ∧
      (∃ events, (s.parse (seq [first, choice [second, third]]) (.mark 0 0)).1 =
        .parsed 1 0 (.success (.token 'b') (.mark 0 2)) events) ∧
      ((s.parse (choice [seq [first, second], seq [first, third]]) (.mark 0 0)).2.step
        (.pulls 0)).1 = .number 3 ∧
      ((s.parse (seq [first, choice [second, third]]) (.mark 0 0)).2.step (.pulls 0)).1 =
        .number 3 := by
  have begun : Reaches [.observed (.text "letter") .any, .eq 'x', .eq 'b'] _ [] [] := .begin rfl
  have opened := begun.step (.start (.feed (.items ['a', 'b', 'c'])))
  obtain ⟨first, h₁, local₁⟩ := (@Reaches.holds _ _ _ _ _ _ _ 0 _ opened rfl rfl).isLocal
  obtain rfl := Option.some.inj h₁
  obtain ⟨second, h₂, local₂⟩ := (@Reaches.holds _ _ _ _ _ _ _ 1 _ opened rfl rfl).isLocal
  obtain rfl := Option.some.inj h₂
  obtain ⟨third, h₃, local₃⟩ := (@Reaches.holds _ _ _ _ _ _ _ 2 _ opened rfl rfl).isLocal
  obtain rfl := Option.some.inj h₃
  obtain ⟨agree, alike⟩ :=
    @parse_factored _ _ _ _ 0 (.mark 0 0) _ _ _ opened.sound rfl local₁ local₂ local₃
  refine ⟨_, _, _, _, opened.sound, rfl, local₁, local₂, local₃, rfl, ?_, rfl, ?_⟩
  · exact Reply.Agree.success agree
  · exact ((alike nofun).2 0).symm

end Session

end LazyPeg
