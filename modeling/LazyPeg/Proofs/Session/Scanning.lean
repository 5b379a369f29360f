import LazyPeg.Proofs.Reading.Scanning
import LazyPeg.Proofs.Session.Agreement

/-!
# Scanning in a session

`Parser.scan` of a local parser, in any session and at any position, and the search for a run of tokens
(`Session.parse_scan`).
-/
namespace LazyPeg

open LazyPeg.Parser

theorem Parser.KeepsTo.scan {α : Type} [Token α] {rules : RuleId → Prop} {q : Parser α}
    (hq : q.KeepsTo rules) : q.scan.KeepsTo rules :=
  .many _ (KeepsTo.seqPair (.not hq) (.satisfy _ _))

namespace Session

variable {α : Type} [Token α] [DecidableEq α] {s : Session α} {place : Nat} {p : Position} {q : Parser α}

/-- **Scanning up to a match.**

* A scan from a position succeeds with exactly the tokens up to the first offset where the parser matches,
  or up to the end of the input if it matches nowhere, and goes on from there.
* It has a result only where there is such an offset, and there is one if every try comes to an outcome:
  the parser is tried at each offset that no match comes before.
* A search for items, which is a scan up to them and then the items, always has a result.  It succeeds if
  and only if the items stand somewhere in what is left, and then it stops right behind their leftmost
  occurrence.

The tokens that were skipped are counted in a machine word, so fewer than `unlimited` may be left. -/
theorem parse_scan (h : s.Sound) (hp : s.position? place = some p) (hq : q.Local s.workshop.grammar)
    (fits : (s.store.sequence p).length < p.offset + unlimited) :
    (∀ j, q.FirstAt s.workshop.grammar (s.store.sequence p) p.offset j →
      s.ComesTo (many .any (seq [Parser.not q, any])) p (.success
        (.list ((((s.store.sequence p).drop p.offset).take (j - p.offset)).map .token)) (p.moveTo j))) ∧
    (s.HasResult (many .any (seq [Parser.not q, any])) p →
      ∃ j, q.FirstAt s.workshop.grammar (s.store.sequence p) p.offset j) ∧
    ((∀ k, p.offset ≤ k → k ≤ (s.store.sequence p).length →
        (∀ l, p.offset ≤ l → l < k →
          ¬ ∃ v m, q.Matches s.workshop.grammar (s.store.sequence p) l v m) →
        q.Decides s.workshop.grammar (s.store.sequence p) k) →
      ∃ j, q.FirstAt s.workshop.grammar (s.store.sequence p) p.offset j) ∧
    ∀ items : List α,
      let search := tuple [many .any (seq [Parser.not (token items), any]), token items]
      s.HasResult search p ∧
      (s.Succeeds search p ↔ items <:+: (s.store.sequence p).drop p.offset) ∧
      ∀ v next, s.ComesTo search p (.success v next) →
        ∃ j, Leftmost (s.store.sequence p) items p.offset j ∧ next = p.moveTo (j + items.length) ∧
          v = .tuple [.list ((((s.store.sequence p).drop p.offset).take (j - p.offset)).map .token),
            .list (items.map .token)] := by
  have hts := h.shows hp
  have inside := hts.le_length
  refine ⟨?_, ?_, exists_firstAt inside, ?_⟩
  · intro j first
    exact (comesTo_success_iff hq.scan hts).2 ⟨j, first.matches_scan inside fits, rfl⟩
  · intro result
    exact exists_firstAt_of_decides inside fits ((hasResult_iff hq.scan hts).1 result)
  · intro items search
    have run : (token items).Local s.workshop.grammar := .token items
    have searches : search.Local s.workshop.grammar := run.scan.tuplePair run
    refine ⟨(hasResult_iff searches hts).2 (decides_search items inside fits), ?_, ?_⟩
    · rw [succeeds_iff searches hts, ← exists_leftmost_iff inside]
      constructor
      · rintro ⟨v, k, matched⟩
        obtain ⟨j, leftmost, -⟩ := (matches_search_iff inside fits).1 matched
        exact ⟨j, leftmost⟩
      · rintro ⟨j, leftmost⟩
        exact ⟨_, _, (matches_search_iff inside fits).2 ⟨j, leftmost, rfl, rfl⟩⟩
    · intro v next comes
      obtain ⟨k, matched, rfl⟩ := (comesTo_success_iff searches hts).1 comes
      obtain ⟨j, leftmost, rfl, rfl⟩ := (matches_search_iff inside fits).1 matched
      exact ⟨j, leftmost, rfl, rfl⟩

/-- Two letters stand where the second try for them begins in the middle of the first one. -/
theorem parse_scan_overlap :
    ∃ (s : Session Char) (q : Parser Char), s.Sound ∧ s.position? 0 = some (.mark 0 0) ∧
      q.Local s.workshop.grammar ∧ (s.store.sequence (.mark 0 0)).length < 0 + unlimited ∧
      q.FirstAt s.workshop.grammar (s.store.sequence (.mark 0 0)) 0 1 ∧
      s.ComesTo (many .any (seq [Parser.not q, any])) (.mark 0 0)
        (.success (.list [.token 'a']) (.mark 0 1)) ∧
      s.Succeeds (tuple [many .any (seq [Parser.not (token ['a', 'b']), any]), token ['a', 'b']])
        (.mark 0 0) := by
  have begun : Reaches [.token ['a', 'b']] _ [] [] := .begin rfl
  have opened := begun.step (.start (.feed (.items ['a', 'a', 'b'])))
  obtain ⟨q, hq, isLocal⟩ := (@Reaches.holds _ _ _ _ _ _ _ 0 _ opened rfl rfl).isLocal
  obtain rfl := Option.some.inj hq
  have fits : ['a', 'a', 'b'].length < 0 + unlimited := by decide
  have first : (token ['a', 'b']).FirstAt #[] ['a', 'a', 'b'] 0 1 := by
    refine (firstAt_token_iff (by decide)).2 ⟨by decide, by decide, by decide, fun k _ lt => ?_⟩
    obtain rfl := Nat.lt_one_iff.1 lt
    decide
  obtain ⟨scans, -, -, searches⟩ := @parse_scan _ _ _ _ 0 (.mark 0 0) _ opened.sound rfl isLocal fits
  refine ⟨_, _, opened.sound, rfl, isLocal, fits, first, scans 1 first, ?_⟩
  exact (searches ['a', 'b']).2.1.2 ⟨['a'], [], rfl⟩

end Session

end LazyPeg
