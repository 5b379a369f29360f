import LazyPeg.Proofs.Reading.Separated
import LazyPeg.Proofs.Session.Local

/-!
# Separated lists in a session

A list of local items with local separators, in any session and at any position: its values, where it
ends, when it succeeds, and that the list that may be empty is the same one, or empty
(`Session.parse_separated`).  The items behind the first are those of `Parser.Further`.
-/
namespace LazyPeg

theorem Outcome.mapPlace_orEmpty {α π ρ : Type} (f : π → ρ) (start : π) (r : Outcome α π) :
    (r.orEmpty start).mapPlace f = (r.mapPlace f).orEmpty (f start) := by
  cases r <;> rfl

theorem Outcome.isSuccess_orEmpty {α π : Type} (start : π) (r : Outcome α π) :
    (r.orEmpty start).isSuccess := by
  cases r <;> rfl

namespace Session

open LazyPeg.Parser

variable {α : Type} [Token α] [DecidableEq α] {s : Session α} {place : Nat} {p : Position}
  {q separator : Parser α} {ts : List α}

/-- The list that may be empty has a result exactly if the other one has, with the same events. -/
theorem parse_sepBy0_iff (hq : q.Local s.workshop.grammar) (hs : separator.Local s.workshop.grammar)
    (hts : s.store.Shows p ts p.offset) {a b : Nat} {r : Result α} {events : List (Event α Position)} :
    (s.parse (sepBy0 q separator) p).1 = .parsed a b r events ↔
      ∃ r', (s.parse (sepBy1 q separator) p).1 = .parsed a b r' events ∧ r = r'.orEmpty p := by
  have list0 : (sepBy0 q separator).Local s.workshop.grammar := alike_pair .sepBy0 hq hs
  have list1 : (sepBy1 q separator).Local s.workshop.grammar := alike_sepBy1 hq hs
  by_cases ends : ∃ d, (sepBy1 q separator).Reads s.workshop.grammar ts p.offset d
  · obtain ⟨d, hd⟩ := ends
    rw [parse_of_reads list0 hts (reads_sepBy0_iff.2 ⟨d, hd, rfl⟩), parse_of_reads list1 hts hd]
    obtain ⟨name | r'', noted, reach⟩ := d
    · simp [Course.reply, Except.map]
    · simp only [Course.reply, Except.map, Outcome.mapPlace_orEmpty, Position.moveTo_offset,
        Reply.parsed.injEq]
      constructor
      · rintro ⟨rfl, rfl, rfl, rfl⟩
        exact ⟨_, ⟨rfl, rfl, rfl, rfl⟩, rfl⟩
      · rintro ⟨r', ⟨rfl, rfl, rfl, rfl⟩, rfl⟩
        exact ⟨rfl, rfl, rfl, rfl⟩
  · have none (c : Course α (Outcome α Nat)) :
        ¬ (sepBy0 q separator).Reads s.workshop.grammar ts p.offset c := fun hc =>
      ends ((reads_sepBy0_iff.1 hc).imp fun d hd => hd.1)
    obtain ⟨events₀, stopped₀⟩ := parse_of_endless list0 hts none
    obtain ⟨events₁, stopped₁⟩ := parse_of_endless list1 hts (not_exists.1 ends)
    constructor
    · intro hr
      cases stopped₀.symm.trans hr
    · rintro ⟨r', hr, -⟩
      cases stopped₁.symm.trans hr

/-- **Separated lists.**  Where an item matches, the list of at least one item has its value and those of
the items that follow, in their order and without the separators, and it goes on behind the last of them;
where no item matches, it fails as expected.  Nothing else is replied: it succeeds exactly if the item
does.

The list that may be empty has a result exactly if the other one has: the same success, and in place of a
failure the empty list, with nothing consumed, so it never fails.  Both have a result if items and
separators come to an outcome from the position on.

What a repetition has collected is counted in a machine word, so fewer than `unlimited` tokens may be
left. -/
theorem parse_separated (h : s.Sound) (hp : s.position? place = some p)
    (hq : q.Local s.workshop.grammar) (hs : separator.Local s.workshop.grammar)
    (fits : (s.store.sequence p).length < p.offset + unlimited) :
    (∀ v j vs k, q.Matches s.workshop.grammar (s.store.sequence p) p.offset v j →
      Further s.workshop.grammar (s.store.sequence p) q separator j vs k →
      ∃ events, (s.parse (sepBy1 q separator) p).1 = .parsed s.positions.size s.results.size
        (.success (.list (v :: vs)) (p.moveTo k)) events) ∧
    (q.Fails s.workshop.grammar (s.store.sequence p) p.offset →
      ∃ events, (s.parse (sepBy1 q separator) p).1 = .parsed s.positions.size s.results.size
        (.failure (.missing q.name) p) events) ∧
    (∀ a b r events, (s.parse (sepBy1 q separator) p).1 = .parsed a b r events →
      (∃ v j vs k, q.Matches s.workshop.grammar (s.store.sequence p) p.offset v j ∧
          Further s.workshop.grammar (s.store.sequence p) q separator j vs k) ∨
        q.Fails s.workshop.grammar (s.store.sequence p) p.offset) ∧
    (∀ a b r events, (s.parse (sepBy1 q separator) p).1 = .parsed a b r events →
      (r.isSuccess ↔ ∃ n m v next events, (s.parse q p).1 = .parsed n m (.success v next) events)) ∧
    (∀ a b r events, (s.parse (sepBy0 q separator) p).1 = .parsed a b r events ↔
      ∃ r', (s.parse (sepBy1 q separator) p).1 = .parsed a b r' events ∧ r = r'.orEmpty p) ∧
    (∀ a b r events, (s.parse (sepBy0 q separator) p).1 = .parsed a b r events → r.isSuccess) ∧
    ((∀ j, p.offset ≤ j → j ≤ (s.store.sequence p).length →
        q.Decides s.workshop.grammar (s.store.sequence p) j ∧
          separator.Decides s.workshop.grammar (s.store.sequence p) j) →
      ∃ a b r events, (s.parse (sepBy1 q separator) p).1 = .parsed a b r events) := by
  have hts := h.shows hp
  have inside := hts.le_length
  have list : (sepBy1 q separator).Local s.workshop.grammar := alike_sepBy1 hq hs
  have collects : ∀ v j vs k, q.Matches s.workshop.grammar (s.store.sequence p) p.offset v j →
      Further s.workshop.grammar (s.store.sequence p) q separator j vs k →
      ∃ events, (s.parse (sepBy1 q separator) p).1 = .parsed s.positions.size s.results.size
        (.success (.list (v :: vs)) (p.moveTo k)) events := by
    intro v j vs k first rest
    obtain ⟨c, hc, ha⟩ := matches_sepBy1 fits inside first rest
    exact ⟨_, parse_of_answer list hts hc ha⟩
  have fails : q.Fails s.workshop.grammar (s.store.sequence p) p.offset →
      ∃ events, (s.parse (sepBy1 q separator) p).1 = .parsed s.positions.size s.results.size
        (.failure (.missing q.name) p) events := by
    intro none
    obtain ⟨c, hc, ha⟩ := reads_sepBy1_of_fails inside none separator
    have reply := parse_of_answer list hts hc ha
    rw [Outcome.mapPlace, Position.moveTo_offset] at reply
    exact ⟨_, reply⟩
  have cases : ∀ a b r events, (s.parse (sepBy1 q separator) p).1 = .parsed a b r events →
      (∃ v j vs k, q.Matches s.workshop.grammar (s.store.sequence p) p.offset v j ∧
          Further s.workshop.grammar (s.store.sequence p) q separator j vs k) ∨
        q.Fails s.workshop.grammar (s.store.sequence p) p.offset := by
    intro a b r events hr
    exact sepBy1_cases fits inside ((decides_iff_parsed list hts).2 ⟨a, b, r, events, hr⟩)
  refine ⟨collects, fails, cases, ?_, fun a b r events => parse_sepBy0_iff hq hs hts, ?_, ?_⟩
  · intro a b r events hr
    rw [← exists_matches_iff hq hts]
    rcases cases a b r events hr with ⟨v, j, vs, k, first, rest⟩ | none
    · obtain ⟨events', reply⟩ := collects v j vs k first rest
      obtain ⟨-, -, rfl, -⟩ := Reply.parsed.inj (hr.symm.trans reply)
      exact iff_of_true rfl ⟨v, j, first⟩
    · obtain ⟨events', reply⟩ := fails none
      obtain ⟨-, -, rfl, -⟩ := Reply.parsed.inj (hr.symm.trans reply)
      refine iff_of_false Bool.false_ne_true ?_
      rintro ⟨v, j, first⟩
      exact first.not_fails inside none
  · intro a b r events hr
    obtain ⟨r', -, rfl⟩ := (parse_sepBy0_iff hq hs hts).1 hr
    exact Outcome.isSuccess_orEmpty p r'
  · intro decides
    rcases decides_iff.1 (decides p.offset (Nat.le_refl _) inside).1 with ⟨v, j, first⟩ | none
    · have on := first.le inside
      obtain ⟨vs, k, rest⟩ := exists_further_of_decides (first.le_length inside)
        (fun l hl hts => (decides l (Nat.le_trans on hl) hts).2)
        (fun l hl hts => (decides l (Nat.le_trans on hl) hts).1)
      obtain ⟨events, reply⟩ := collects v j vs k first rest
      exact ⟨_, _, _, events, reply⟩
    · obtain ⟨events, reply⟩ := fails none
      exact ⟨_, _, _, events, reply⟩

/-- Letters with commas between them: the last comma is followed by no letter, and is left in the input. -/
theorem parse_separated_letters :
    ∃ (s : Session Char) (q separator : Parser Char), s.Sound ∧ s.position? 0 = some (.mark 0 0) ∧
      q.Local s.workshop.grammar ∧ separator.Local s.workshop.grammar ∧
      s.store.sequence (.mark 0 0) = ['a', ',', 'a', ',', 'b'] ∧
      (s.store.sequence (.mark 0 0)).length < 0 + unlimited ∧
      q.Matches s.workshop.grammar (s.store.sequence (.mark 0 0)) 0 (.token 'a') 1 ∧
      Further s.workshop.grammar (s.store.sequence (.mark 0 0)) q separator 1 [.token 'a'] 3 ∧
      ∃ events, (s.parse (sepBy1 q separator) (.mark 0 0)).1 =
        .parsed 1 0 (.success (.list [.token 'a', .token 'a']) (.mark 0 3)) events := by
  have begun : Reaches [.eq 'a', .eq ','] _ [] [] := .begin rfl
  have opened := begun.step (.start (.feed (.items ['a', ',', 'a', ',', 'b'])))
  obtain ⟨q, hq, item⟩ := (@Reaches.holds _ _ _ _ _ _ _ 0 _ opened rfl rfl).isLocal
  obtain rfl := Option.some.inj hq
  obtain ⟨separator, hs, separates⟩ := (@Reaches.holds _ _ _ _ _ _ _ 1 _ opened rfl rfl).isLocal
  obtain rfl := Option.some.inj hs
  have letter (i : Nat) (hi : ['a', ',', 'a', ',', 'b'][i]? = some 'a') :
      (eq 'a').Matches #[] ['a', ',', 'a', ',', 'b'] i (.token 'a') (i + 1) :=
    (matches_iff_takes (Nat.zero_le 0) (Nat.le_of_lt (List.getElem?_eq_some_iff.1 hi).1)).2 (takes_eq hi)
  have comma (i : Nat) (hi : ['a', ',', 'a', ',', 'b'][i]? = some ',') :
      (eq ',').Matches #[] ['a', ',', 'a', ',', 'b'] i (.token ',') (i + 1) :=
    (matches_iff_takes (Nat.zero_le 0) (Nat.le_of_lt (List.getElem?_eq_some_iff.1 hi).1)).2 (takes_eq hi)
  have noLetter : (eq 'a').Fails #[] ['a', ',', 'a', ',', 'b'] 4 :=
    (fails_iff_refuses (Nat.zero_le 0) (by decide)).2 (refuses_eq (by decide))
  have further : Further #[] ['a', ',', 'a', ',', 'b'] (eq 'a') (eq ',') 1 [.token 'a'] 3 :=
    .more (comma 1 rfl) (letter 2 rfl) (by decide) (.noItem (comma 3 rfl) noLetter)
  have fits : ['a', ',', 'a', ',', 'b'].length < 0 + unlimited := by decide
  have parsed := (@parse_separated _ _ _ _ 0 (.mark 0 0) _ _ opened.sound rfl item separates fits).1
    (.token 'a') 1 _ 3 (letter 0 rfl) further
  exact ⟨_, _, _, opened.sound, rfl, item, separates, rfl, fits, letter 0 rfl, further, parsed⟩

end Session

end LazyPeg
