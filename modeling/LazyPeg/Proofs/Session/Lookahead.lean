import LazyPeg.Proofs.Reading.Lookahead
import LazyPeg.Proofs.Session.Agreement

/-!
# Lookahead in a session

`peek` and `not` of a local parser, in any session and at any position (`Session.parse_lookahead`): where
they succeed, that they consume nothing, and what a row of one of them and the parser itself comes to.
-/
namespace LazyPeg

open LazyPeg.Parser

theorem Parser.KeepsTo.lookahead {α : Type} {rules : RuleId → Prop} {q r : Parser α}
    (hq : q.KeepsTo rules) (hr : q.Lookahead r) : r.KeepsTo rules := by
  induction hr with
  | peek => exact .peek hq
  | not => exact .not hq
  | peekOf _ ih => exact .peek ih
  | notOf _ ih => exact .not ih

namespace Session

variable {α : Type} [Token α] [DecidableEq α] {s : Session α} {place : Nat} {p : Position}
  {q r : Parser α} {ts : List α}

/-- A lookahead has a result where the parser has one. -/
theorem hasResult_peek_iff (hq : q.Local s.workshop.grammar) (hts : s.store.Shows p ts p.offset) :
    s.HasResult (peek q) p ↔ s.HasResult q p := by
  have peeks : (peek q).Local s.workshop.grammar := .peek hq
  rw [hasResult_iff peeks hts, hasResult_iff hq hts, decides_peek_iff hts.le_length]

theorem hasResult_not_iff (hq : q.Local s.workshop.grammar) (hts : s.store.Shows p ts p.offset) :
    s.HasResult (Parser.not q) p ↔ s.HasResult q p := by
  have negates : (Parser.not q).Local s.workshop.grammar := .not hq
  rw [hasResult_iff negates hts, hasResult_iff hq hts, decides_not_iff hts.le_length]

/-- **Lookahead is pure.**

* Whatever lookaheads stand around a parser, where they succeed they lead to where they were started.
* `peek` and `not` have a result exactly where the parser has one.  At a token exactly one of the two then
  succeeds, and the negation of the negation succeeds exactly where the parser does.  At the end of the
  input a negation fails as unexpected.
* Behind a lookahead to itself a parser comes to the same successes, and unless it does not end, it reads
  the same.  Behind its negation it never succeeds. -/
theorem parse_lookahead (h : s.Sound) (hp : s.position? place = some p)
    (hq : q.Local s.workshop.grammar) :
    (∀ r, q.Lookahead r → ∀ v next, s.ComesTo r p (.success v next) → next = p) ∧
    (s.HasResult (peek q) p ↔ s.HasResult q p) ∧
    (s.HasResult (Parser.not q) p ↔ s.HasResult q p) ∧
    (∀ t, s.store.head? p = some t →
      (s.HasResult q p → (s.Succeeds (peek q) p ↔ ¬ s.Succeeds (Parser.not q) p)) ∧
      (s.Succeeds (Parser.not (Parser.not q)) p ↔ s.Succeeds q p)) ∧
    (s.store.head? p = none → ∀ r, s.ComesTo (Parser.not q) p r →
      ∃ reason, r = .failure reason p ∧ reason.kind = .unexpected) ∧
    (∀ v next, s.ComesTo (seq [peek q, q]) p (.success v next) ↔ s.ComesTo q p (.success v next)) ∧
    ((∀ events, (s.parse q p).1 ≠ .stopped .endless events) →
      SamePulls (s.parse q p).2 (s.parse (seq [peek q, q]) p).2) ∧
    ¬ s.Succeeds (seq [Parser.not q, q]) p := by
  have hts := h.shows hp
  have inside := hts.le_length
  have head : s.store.head? p = (s.store.sequence p)[p.offset]? := hts.head?_here
  have peeks : (peek q).Local s.workshop.grammar := .peek hq
  have negates : (Parser.not q).Local s.workshop.grammar := .not hq
  have twice : (Parser.not (Parser.not q)).Local s.workshop.grammar := .not negates
  refine ⟨?_, hasResult_peek_iff hq hts, hasResult_not_iff hq hts, ?_, ?_, ?_, ?_, ?_⟩
  · intro r hr v next comes
    obtain ⟨j, matched, rfl⟩ := (comesTo_success_iff (hq.lookahead hr) hts).1 comes
    rw [hr.stays inside matched, Position.moveTo_offset]
  · intro t ht
    rw [head] at ht
    rw [hasResult_iff hq hts, succeeds_iff peeks hts, succeeds_iff negates hts, succeeds_iff twice hts,
      succeeds_iff hq hts]
    exact ⟨exists_matches_peek_iff_not inside ht, exists_matches_not_not_iff inside ht⟩
  · intro none r comes
    rw [head] at none
    obtain ⟨r', answer, rfl⟩ := (comesTo_iff negates hts).1 comes
    obtain ⟨r'', -, rfl⟩ := (answers_not_iff inside).1 answer
    rw [none]
    obtain ⟨reason, same, kind⟩ := Outcome.negate_none q.name p.offset r''
    exact ⟨reason, by rw [same, Outcome.mapPlace, Position.moveTo_offset], kind⟩
  · intro v next
    rw [comesTo_success_iff (peeks.seqPair hq) hts, comesTo_success_iff hq hts]
    simp only [matches_seq_peek_iff]
  · refine samePulls_of_reads hq (peeks.seqPair hq) hts fun d hd => ?_
    exact ⟨_, reads_seq_peek_iff.2 ⟨d, hd, rfl⟩, (d.reach_lookedAhead _ _).symm⟩
  · rw [succeeds_iff (negates.seqPair hq) hts]
    rintro ⟨v, j, matched⟩
    exact not_matches_seq_not inside matched

/-- Two letters are looked at twice and read once. -/
theorem parse_lookahead_letters :
    ∃ (s : Session Char) (q : Parser Char), s.Sound ∧ s.position? 0 = some (.mark 0 0) ∧
      q.Local s.workshop.grammar ∧
      s.ComesTo (seq [peek q, q]) (.mark 0 0) (.success (.token 'b') (.mark 0 2)) ∧
      ((s.parse (seq [peek q, q]) (.mark 0 0)).2.step (.pulls 0)).1 = .number 3 ∧
      ¬ s.Succeeds (Parser.not q) (.mark 0 0) := by
  have begun : Reaches [.seq [.eq 'a', .eq 'b']] _ [] [] := .begin rfl
  have opened := begun.step (.start (.feed (.items ['a', 'b', 'c'])))
  obtain ⟨q, hq, isLocal⟩ := (@Reaches.holds _ _ _ _ _ _ _ 0 _ opened rfl rfl).isLocal
  obtain rfl := Option.some.inj hq
  obtain ⟨-, -, -, token, -, row, pulls, -⟩ :=
    @parse_lookahead _ _ _ _ 0 (.mark 0 0) _ opened.sound rfl isLocal
  refine ⟨_, _, opened.sound, rfl, isLocal, (row _ _).2 ⟨_, _, _, rfl⟩, (pulls nofun 0).symm, ?_⟩
  exact ((token 'a' rfl).1 ⟨_, _, _, _, rfl⟩).1 ⟨_, _, _, _, _, rfl⟩

end Session

end LazyPeg
