import LazyPeg.Proofs.Reading.Nested
import LazyPeg.Proofs.Session.Local
import LazyPeg.Proofs.Session.Report

/-!
# Nested parentheses in a session

A run of the rule for nested parentheses accepts exactly the words of that kind, with the number of levels,
and says of any other input where it ends to be one (`Session.run_nested`).

* §1 is about runs of any local parser: what they accept, and what they report otherwise, is said by the
  reading.  So it is with parses (`Session.parse_of_reads`).
* §2 is about the rule.  What a word is, and that the rule matches nothing else, is in `Reading.Nested`.
-/
namespace LazyPeg

open LazyPeg.Parser

/-! ## 1. Runs of local parsers -/

namespace Session

variable {α : Type} [Token α] [DecidableEq α] {s : Session α} {p : Position} {q : Parser α} {ts : List α}
  {c : Course α (Outcome α Nat)} {r : Outcome α Nat} {v : Value α}

/-- **A run of a local parser gives the verdict of its reading.** -/
theorem run_of_reads (filename : String) (hq : q.Local s.workshop.grammar)
    (hts : s.store.Shows p ts p.offset) (hc : q.Reads s.workshop.grammar ts p.offset c) :
    (s.run q filename p).1 = c.runReply p ts filename := by
  have run := Parser.run_of_reads (w := ⟨s.store, []⟩) filename
    (Parser.sealed_localRule s.workshop.grammar).likeGrammars (Nat.le_refl _) hq hts hc
  simp only [Session.run, perform_eq, run, World.follow, List.append_nil, List.reverse_reverse,
    Course.runReply]
  rcases c.answerWith (Outcome.verdict ts filename p.offset) with why | (d | v) <;> rfl

/-- A run whose reading does not end. -/
theorem run_of_endless (filename : String) (hq : q.Local s.workshop.grammar)
    (hts : s.store.Shows p ts p.offset) (hc : ∀ c, ¬ q.Reads s.workshop.grammar ts p.offset c) :
    ∃ events, (s.run q filename p).1 = .stopped .endless events := by
  have run := Parser.run_endless (w := ⟨s.store, []⟩) filename
    (Parser.sealed_localRule s.workshop.grammar).likeGrammars hq hts hc
  simp only [Session.run, perform_eq, run]
  exact ⟨_, rfl⟩

/-- A run accepts what is matched up to the end. -/
theorem exists_accepted_iff (filename : String) (hq : q.Local s.workshop.grammar)
    (hts : s.store.Shows p ts p.offset) :
    (∃ events, (s.run q filename p).1 = .accepted v events) ↔
      q.Matches s.workshop.grammar ts p.offset v ts.length := by
  constructor
  · rintro ⟨events, accepted⟩
    by_cases ends : ∃ c, q.Reads s.workshop.grammar ts p.offset c
    · obtain ⟨c, hc⟩ := ends
      rw [run_of_reads filename hq hts hc] at accepted
      exact ⟨c, hc, ((Course.runReply_eq_accepted filename).1 accepted).1⟩
    · obtain ⟨events', stopped⟩ := run_of_endless filename hq hts (not_exists.1 ends)
      cases stopped.symm.trans accepted
  · rintro ⟨c, hc, ha⟩
    rw [run_of_reads filename hq hts hc]
    exact ⟨_, (Course.runReply_eq_accepted filename).2 ⟨ha, rfl⟩⟩

/-- It rejects an outcome with a report. -/
theorem exists_rejected (filename : String) (hq : q.Local s.workshop.grammar)
    (hts : s.store.Shows p ts p.offset) (answer : q.Answers s.workshop.grammar ts p.offset r)
    {e : Diagnostic} (report : r.verdict ts filename p.offset = .error e) :
    ∃ events, (s.run q filename p).1 = .rejected e events := by
  obtain ⟨c, hc, ha⟩ := answer
  refine ⟨c.events.map (Event.mapPlace p.moveTo), ?_⟩
  rw [run_of_reads filename hq hts hc]
  simp only [Course.runReply, Course.answerWith, ha, report]

end Session

/-! ## 2. The rule -/

/-- The rule calls no other rule, and does not leave its sequence. -/
theorem Parser.KeepsTo.nested {grammar : Grammar Char} {id : RuleId} {zero : Value Char} (name : String)
    (defined : (grammar[id]?).join = some (nestedParens id name zero)) : (rule id name).Local grammar := by
  refine .rule name ⟨rfl, fun id' => id' = id, ?_, rfl⟩
  rintro id' body rfl hbody
  obtain rfl := Option.some.inj (defined.symm.trans hbody)
  have again : (rule id' name : Parser Char).KeepsTo fun id => id = id' := .rule name ⟨rfl, rfl⟩
  have opened : ((rule id' name).preceded (eq '(')).KeepsTo fun id => id = id' :=
    KeepsTo.seqPair (.satisfy _ _) again
  have closed : (((rule id' name).preceded (eq '(')).terminated (eq ')')).KeepsTo fun id => id = id' :=
    .map _ (KeepsTo.tuplePair opened (.satisfy _ _))
  exact .choice (.cons (.map _ closed) (.cons (.map _ (.satisfy _ _)) .nil))

namespace Session

variable {s : Session Char} {place : Nat} {p : Position} {id : RuleId} {name : String}
  {zero : Value Char}

/-- **Nested parentheses.**  Let a rule match itself between parentheses, or else an `x`, counting its levels
from `zero` on, and run it in any session, at any position, on what the sequence holds from there on.

* The run accepts the input exactly if it is a number of opening parentheses, an `x` and as many closing
  ones, and then with as many levels.
* If the input does not begin with such a word, the run says that something else is expected at its start,
  however deep the levels were that were tried.
* If it begins with one and goes on, the end of the input is expected behind the word.  There is only one
  such word. -/
theorem run_nested (h : s.Sound) (hp : s.position? place = some p)
    (defined : (s.workshop.grammar[id]?).join = some (nestedParens id name zero)) (filename : String) :
    let ts := s.store.sequence p
    let input := ts.drop p.offset
    let reply := (s.run (rule id name) filename p).1
    (∀ v, (∃ events, reply = .accepted v events) ↔
      ∃ n, input = nestedWord n ∧ v = Value.increment^[n] zero) ∧
    ((∀ n, ¬ nestedWord n <+: input) → ∃ e events, reply = .rejected e events ∧ e.kind = .expected ∧
      e.PointsAt filename ts p.offset p.offset) ∧
    (∀ n, nestedWord n <+: input → input ≠ nestedWord n → ∃ e events, reply = .rejected e events ∧
      e.kind = .expected ∧ e.message = "EOS is expected" ∧
      e.PointsAt filename ts p.offset (p.offset + (nestedWord n).length)) ∧
    (∀ m n, nestedWord m <+: input → nestedWord n <+: input → m = n) ∧
    ∀ n, Value.increment^[n] (.number 0 : Value Char) = .number n := by
  intro ts input reply
  have hts := h.shows hp
  have inside := hts.le_length
  have isLocal : (rule id name).Local s.workshop.grammar := .nested name defined
  refine ⟨fun v => ?_, fun none => ?_, fun n here other => ?_, fun m n => nestedWord_unique, ?_⟩
  · rw [exists_accepted_iff filename isLocal hts, matches_nested_iff defined inside]
    constructor
    · rintro ⟨n, here, rfl, last⟩
      exact ⟨n, (drop_eq_iff inside).2 ⟨here, last⟩, rfl⟩
    · rintro ⟨n, whole, rfl⟩
      obtain ⟨here, last⟩ := (drop_eq_iff inside).1 whole
      exact ⟨n, here, rfl, last⟩
  · obtain ⟨c, reason, j, reads, answer⟩ := fails_nested defined inside none
    obtain ⟨kind, rfl⟩ := eq_of_answers_failure_nested defined inside ⟨c, reads, answer⟩
    obtain ⟨events, rejected⟩ := exists_rejected filename isLocal hts ⟨c, reads, answer⟩ rfl
    exact ⟨_, events, rejected, kind, Diagnostic.pointsAt_report filename reason le_rfl inside⟩
  · have matched := matches_nested defined here
    have more : p.offset + (nestedWord n).length ≠ ts.length :=
      fun last => other ((drop_eq_iff inside).2 ⟨here, last.symm⟩)
    obtain ⟨events, rejected⟩ := exists_rejected filename isLocal hts matched (if_neg more)
    exact ⟨_, events, rejected, rfl, rfl,
      Diagnostic.pointsAt_report filename _ (Nat.le_add_right _ _) (matched.le_length inside)⟩
  · intro n
    rw [Value.iterate_increment_number, Int.zero_add]

/-- Two levels are accepted.  If a parenthesis is missing, the start is reported, and if something is left
over, its place. -/
theorem run_nested_letters :
    ∃ s : Session Char, s.Sound ∧ s.position? 0 = some (.mark 0 0) ∧
      s.position? 1 = some (.mark 1 0) ∧ s.position? 2 = some (.mark 2 0) ∧
      (s.workshop.grammar[0]?).join = some (nestedParens 0 "nested" (.constant (.number 0 0))) ∧
      (∃ events, (s.run (rule 0 "nested") "letters" (.mark 0 0)).1 = .accepted (.number 2) events) ∧
      (∃ e events, (s.run (rule 0 "nested") "letters" (.mark 1 0)).1 = .rejected e events ∧
        e.offset = 0) ∧
      ∃ e events, (s.run (rule 0 "nested") "letters" (.mark 2 0)).1 = .rejected e events ∧
        e.offset = 3 ∧ e.message = "EOS is expected" := by
  have begun : Reaches (α := Char) [.recursive "nested" .defined (.choice
    [.change .increment (.pair .terminated (.pair .preceded (.call "nested") (.eq '(')) (.eq ')')),
      .constant (.number 0 0) (.eq 'x')])] _ [] [] := .begin rfl
  have opened := begun.after [.start (.feed (.items ['(', '(', 'x', ')', ')'])),
    .start (.feed (.items ['(', '(', 'x', ')'])), .start (.feed (.items ['(', 'x', ')', 'x']))]
  have runs (k : Nat) (hk : Session.position? _ k = some (Position.mark k 0)) :=
    @run_nested _ k (Position.mark k 0) 0 "nested" (.constant (.number 0 0)) opened.sound hk rfl "letters"
  have absent : ∀ n, ¬ nestedWord n <+: ['(', '(', 'x', ')'] := by
    rintro (_ | _ | n) here
    · exact absurd here (by decide)
    · exact absurd here (by decide)
    · have short := here.length_le
      simp only [length_nestedWord, List.length_cons, List.length_nil] at short
      omega
  obtain ⟨accepts, -⟩ := runs 0 rfl
  obtain ⟨-, missing, -⟩ := runs 1 rfl
  obtain ⟨-, -, more, -⟩ := runs 2 rfl
  obtain ⟨e, events, rejected, -, start⟩ := missing absent
  obtain ⟨e', events', rejected', -, message, behind⟩ := more 1 ⟨['x'], rfl⟩ (by decide)
  exact ⟨_, opened.sound, rfl, rfl, rfl, rfl, (accepts _).2 ⟨2, rfl, rfl⟩,
    ⟨e, events, rejected, start.offset_eq⟩, e', events', rejected', behind.offset_eq, message⟩

end Session

end LazyPeg
