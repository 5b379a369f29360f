import LazyPeg.Proofs.Reading.Recursion
import LazyPeg.Proofs.Session.Agreement

/-!
# Recursion and iteration in a session

A rule that matches a parser and then itself, or else nothing, and the repetition of that parser, in any
session and at any position (`Session.parse_recursion`).
-/
namespace LazyPeg

open LazyPeg.Parser

/-- A rule whose body calls no other rule but itself and those that a parser calls is as local as the
parser. -/
theorem Parser.KeepsTo.recursion {α : Type} {grammar : Grammar α} {q : Parser α} {id : RuleId}
    {last : Value α} (hq : q.Local grammar) (name : String)
    (defined : (grammar[id]?).join = some (orNothing q id name last)) : (rule id name).Local grammar := by
  refine .rule name ⟨rfl, fun id' => LocalRule grammar id' ∨ id' = id, ?_, .inr rfl⟩
  rintro id' body (hid | rfl) hbody
  · exact (sealed_localRule grammar id' body hid hbody).mono fun _ => .inl
  · obtain rfl := Option.some.inj (defined.symm.trans hbody)
    have again : (rule id' name : Parser α).KeepsTo fun id => LocalRule grammar id ∨ id = id' :=
      .rule name ⟨rfl, .inr rfl⟩
    exact .choice (.cons (KeepsTo.tuplePair (hq.mono fun _ => .inl) again) (.cons (.result last) .nil))

namespace Session

variable {α : Type} [Token α] [DecidableEq α] {s : Session α} {place : Nat} {p : Position}
  {q : Parser α} {id : RuleId} {name : String} {last : Value α} {ts : List α}

/-- **Recursion is iteration.**  Let a rule match a parser that consumes, and then the rule itself, or else
nothing.

* The rule comes to a result exactly where a repetition of the parser does, and then both succeed.  They
  have the same next position, and the tuples of the rule, one in another, have the items of the list in
  the same order.
* Unless the rule does not end, every source was asked as often for it as for the repetition.
* The rule succeeds if the parser comes to an outcome from the position on.

What a repetition has collected is counted in a machine word, so fewer than `unlimited` tokens may be
left. -/
theorem parse_recursion (h : s.Sound) (hp : s.position? place = some p)
    (hq : q.Local s.workshop.grammar) (consumes : q.Consumes s.workshop.grammar)
    (defined : (s.workshop.grammar[id]?).join = some (choice [tuple [q, rule id name], result last]))
    (fits : (s.store.sequence p).length < p.offset + unlimited) :
    (∀ r, s.ComesTo (rule id name) p r ↔ ∃ items next,
      s.ComesTo (many .any q) p (.success (.list items) next) ∧
        r = .success (nestTuples last items) next) ∧
    ((∀ events, (s.parse (rule id name) p).1 ≠ .stopped .endless events) →
      SamePulls (s.parse (rule id name) p).2 (s.parse (many .any q) p).2) ∧
    ((∀ j, p.offset ≤ j → j ≤ (s.store.sequence p).length →
        q.Decides s.workshop.grammar (s.store.sequence p) j) →
      s.Succeeds (rule id name) p) := by
  have hts := h.shows hp
  have inside := hts.le_length
  have recursive : (rule id name).Local s.workshop.grammar := .recursion hq name defined
  have iterated : (many .any q).Local s.workshop.grammar := .many .any hq
  refine ⟨?_, ?_, ?_⟩
  · intro r
    rw [comesTo_iff recursive hts]
    simp only [comesTo_success_iff iterated hts, answers_recursion_iff defined consumes inside fits]
    constructor
    · rintro ⟨_, ⟨items, k, matched, rfl⟩, rfl⟩
      exact ⟨items, p.moveTo k, ⟨k, matched, rfl⟩, rfl⟩
    · rintro ⟨items, _, ⟨k, matched, rfl⟩, rfl⟩
      exact ⟨_, ⟨items, k, matched, rfl⟩, rfl⟩
  · refine samePulls_of_reads recursive iterated hts fun c hc => ?_
    obtain ⟨d, hd, rfl⟩ := (reads_recursion_iff defined consumes inside fits).1 hc
    exact ⟨d, hd, rfl⟩
  · intro decides
    obtain ⟨items, k, matched⟩ := exists_matches_many_of_decides inside decides
    exact (succeeds_iff recursive hts).2
      ⟨_, k, (answers_recursion_iff defined consumes inside fits).2 ⟨items, k, matched, rfl⟩⟩

/-- Two letters by recursion, where a third token stands that ends it. -/
theorem parse_recursion_letters :
    ∃ (s : Session Char) (q : Parser Char), s.Sound ∧ s.position? 0 = some (.mark 0 0) ∧
      q.Local s.workshop.grammar ∧ q.Consumes s.workshop.grammar ∧
      (s.workshop.grammar[0]?).join =
        some (choice [tuple [q, rule 0 "letters"], result (.constant .null)]) ∧
      (s.store.sequence (.mark 0 0)).length < 0 + unlimited ∧
      s.ComesTo (rule 0 "letters") (.mark 0 0) (.success
        (.tuple [.token 'a', .tuple [.token 'a', .constant .null]]) (.mark 0 2)) ∧
      ((s.parse (many .any q) (.mark 0 0)).2.step (.pulls 0)).1 = .number 3 := by
  have begun : Reaches [.eq 'a',
      .recursive "letters" .defined (.choice [.tuple [.eq 'a', .call "letters"], .result .null])]
    _ [] [] := .begin rfl
  have opened := begun.step (.start (.feed (.items ['a', 'a', 'b'])))
  obtain ⟨q, hq, isLocal⟩ := (@Reaches.holds _ _ _ _ _ _ _ 0 _ opened rfl rfl).isLocal
  obtain rfl := Option.some.inj hq
  have fits : ['a', 'a', 'b'].length < 0 + unlimited := by decide
  obtain ⟨results, pulls, -⟩ := @parse_recursion _ _ _ _ 0 (.mark 0 0) _ 0 "letters" (.constant .null)
    opened.sound rfl isLocal (consumes_satisfy _ _ _) rfl fits
  refine ⟨_, _, opened.sound, rfl, isLocal, consumes_satisfy _ _ _, rfl, fits, ?_, ?_⟩
  · exact (results _).2 ⟨[.token 'a', .token 'a'], _, ⟨_, _, _, rfl⟩, rfl⟩
  · exact (pulls nofun 0).symm

end Session

end LazyPeg
