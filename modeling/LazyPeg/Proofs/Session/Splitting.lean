import LazyPeg.Proofs.Reading.Splitting
import LazyPeg.Proofs.Session.Agreement

/-!
# Laws of repetition in a session

* §1: `many` is an option of `many1`, for every parser and with every effect of the parse.
* §2: `many_between` is `repeat` and then what is left of it, for a local parser that consumes
  (`Parser.agree_many_split`).
* §3 has them in a session, together with what becomes of a parser behind its own repetition
  (`Session.parse_split`).
-/
namespace LazyPeg

/-! ## 1. A repetition as an option -/

namespace Parsing

variable {α : Type} {step : Position → Parsing α (Result α)}

/-- What the loop had collected before stands in front of what it still collects. -/
theorem repeatMatch_eq (least room collected : Nat) (values : List (Value α)) (p : Position) :
    repeatMatch step least room collected values p = (do
      let (more, next) ← repeatMatch step least room collected [] p
      return (values.reverse ++ more, next)) := by
  induction room generalizing collected values p with
  | zero => simp [repeatMatch]
  | succ room ih =>
    simp only [repeatMatch, bind_assoc]
    refine bind_congr fun r => ?_
    cases r with
    | failure reason place => simp
    | success v next =>
      simp only [bind_assoc]
      refine bind_congr fun stays => ?_
      split
      · simp
      · rw [ih _ (v :: values), ih _ [v]]
        simp

/-- A match that moves nowhere ends the loop if no match is needed or one, so these two make no
difference. -/
theorem repeatMatch_one (room collected : Nat) (values : List (Value α)) (p : Position) :
    repeatMatch step 1 room collected values p = repeatMatch step 0 room collected values p := by
  induction room generalizing collected values p with
  | zero => rfl
  | succ room ih => simp only [repeatMatch, ih, Nat.le_add_left]

end Parsing

namespace Parser

variable {α : Type} [Token α] [DecidableEq α]

/-- **A repetition is an option of one that needs a match**, with the empty list where there is none. -/
theorem eval_many_any (call : RuleId → String → Position → Parsing α (Result α)) (q : Parser α)
    (p : Position) :
    (many .any q).eval call p = (map orEmptyList (optional (many .some q))).eval call p := by
  -- the first round of the loop shows whether there is a match
  have room : unlimited = (unlimited - 1) + 1 := rfl
  simp only [eval, Repetition.least, Repetition.most, Parsing.repeatMatch_one, bind_assoc]
  rw [room]
  simp only [Parsing.repeatMatch, bind_assoc]
  refine bind_congr fun r => ?_
  cases r with
  | failure reason place => simp [Outcome.mapValue, orEmptyList]
  | success v next =>
    simp only [bind_assoc]
    refine bind_congr fun stays => ?_
    split
    · simp [Outcome.mapValue, orEmptyList]
    · rw [Parsing.repeatMatch_eq]
      simp [Outcome.mapValue, orEmptyList]

/-! ## 2. Two repetitions in a row -/

variable {ts : List α} {call : RuleId → String → Nat → Reading α (Outcome α Nat)} {q : Parser α}
  {i k m n : Nat}

/-- **Repeating a parser that moves on is repeating it `k` times and then up to the bounds that are
left.** -/
theorem agree_many_split (moves : Reading.Moves ts (q.read ts call)) (hi : i ≤ ts.length) (hk : k ≤ m)
    (hm : m ≤ n) :
    ((many (.between m n) q).read ts call i).Agree i
      ((map joinLists (tuple [many (.exactly k) q, many (.between (m - k) (n - k)) q])).read ts call i) := by
  obtain ⟨rest, rfl⟩ := Nat.exists_eq_add_of_le (Nat.le_trans hk hm)
  rw [read, read_tuple_pair, read_many_exactly, read_many_between, read_many_between,
    Nat.add_sub_cancel_left, Reading.repeated_add moves hi, Reading.repeated_need moves hi k m k]
  simp only [Reading.bind_assoc]
  refine .bind fun row hrow => ?_
  have most := Reading.length_le_of_repeated hrow
  by_cases few : row.1.length < k
  · -- both fail, the one since it has too few matches in all
    have fewer : row.1.length < m := Nat.lt_of_lt_of_le few hk
    simp only [few, fewer, if_true, Reading.pure_bind, Outcome.mapValue]
    exact .ended (.outcome (.failure rfl rfl) _ _ rfl)
  · have inside := Reading.le_length_of_repeated moves hi hrow
    simp only [few, if_false, read_many_between, Reading.bind_assoc, Reading.pure_bind]
    rw [Reading.repeated_need moves inside rest m (m - k)]
    refine .bind fun more _ => ?_
    have counts : (row.1 ++ more.1).length < m ↔ more.1.length < m - k := by
      rw [List.length_append]
      omega
    by_cases less : more.1.length < m - k
    · simp only [counts, less, if_true, Reading.pure_bind, Outcome.mapValue]
      exact .ended (.outcome (.failure rfl rfl) _ _ rfl)
    · simp only [counts, less, if_false, Reading.pure_bind, Outcome.mapValue]
      exact .ended (.outcome (.success _ _) _ _ rfl)

end Parser

/-! ## 3. In a session -/

namespace Session

open LazyPeg.Parser

variable {α : Type} [Token α] [DecidableEq α] {s : Session α} {place : Nat} {p : Position}
  {q : Parser α} {ts : List α}

/-- Behind its own repetition a parser that consumes fails, in the session that the repetition has left. -/
theorem fails_after_many (hq : q.Local s.workshop.grammar) (hts : s.store.Shows p ts p.offset)
    (consumes : q.Consumes s.workshop.grammar) (fits : ts.length < p.offset + unlimited) {v : Value α}
    {next : Position} (comes : s.ComesTo (many .any q) p (.success v next)) :
    ∃ r, (s.parse (many .any q) p).2.ComesTo q next r ∧ r.isSuccess = false := by
  have repeated : (many .any q).Local s.workshop.grammar := .many .any hq
  obtain ⟨there, matched⟩ := comes.shows repeated hts
  have fails := consumes.fails_behind_many hts.le_length fits matched
  have same := grammar_parse (many .any q) p s
  rw [← same] at hq fails
  exact (exists_failure_iff hq there).2 fails

/-- **Laws of repetition.**

* A repetition is an option of one that needs a match, read as the empty list where there is none.  This
  holds for every parser, also where it matches nothing, and the two parses are the same in all respects.
* For a parser that consumes, `many_between` is `repeat` and then what is left of the bounds, with the
  lists joined: they come to the same success, or both fail as expected where they were started, or both
  are stopped for the same reason.  Unless they do not end, they read the same.
* Behind its own repetition a parser that consumes fails, so the two in a row never succeed.

What a repetition has collected is counted in a machine word.  For the last law, fewer than `unlimited`
tokens may be left. -/
theorem parse_split (h : s.Sound) (hp : s.position? place = some p) (hq : q.Local s.workshop.grammar) :
    s.parse (many .any q) p = s.parse (map orEmptyList (optional (many .some q))) p ∧
    (q.Consumes s.workshop.grammar →
      (∀ k m n, k ≤ m → m ≤ n →
        let whole := s.parse (many (.between m n) q) p
        let parts := s.parse
          (map joinLists (tuple [many (.exactly k) q, many (.between (m - k) (n - k)) q])) p
        whole.1.Agree p parts.1 ∧
          ((∀ events, whole.1 ≠ .stopped .endless events) → SamePulls whole.2 parts.2)) ∧
      ((s.store.sequence p).length < p.offset + unlimited →
        (∀ v next, s.ComesTo (many .any q) p (.success v next) →
          ∃ r, (s.parse (many .any q) p).2.ComesTo q next r ∧ r.isSuccess = false) ∧
        ¬ s.Succeeds (seq [many .any q, q]) p)) := by
  have hts := h.shows hp
  have inside := hts.le_length
  have repeated (style : Repetition) : (many style q).Local s.workshop.grammar := .many style hq
  refine ⟨parse_eq_of_eval fun call => eval_many_any call q p, fun consumes => ⟨?_, fun fits => ⟨?_, ?_⟩⟩⟩
  · intro k m n hk hm whole parts
    have rows : (map joinLists (tuple [many (.exactly k) q, many (.between (m - k) (n - k)) q])).Local
        s.workshop.grammar := .map _ ((repeated _).tuplePair (repeated _))
    exact parse_agree (repeated _) rows hts fun depth =>
      agree_many_split (consumes.moves depth) inside hk hm
  · intro v next comes
    exact fails_after_many hq hts consumes fits comes
  · rw [succeeds_iff ((repeated _).seqPair hq) hts]
    rintro ⟨v, j, row⟩
    obtain ⟨w, k, first, second⟩ := (matches_seq_pair_iff inside).1 row
    exact second.not_fails (first.le_length inside) (consumes.fails_behind_many inside fits first)

/-- Two letters, of which the first is matched by the first part, and then as many of the others as the
bounds allow. -/
theorem parse_split_letters :
    ∃ (s : Session Char) (q : Parser Char), s.Sound ∧ s.position? 0 = some (.mark 0 0) ∧
      q.Local s.workshop.grammar ∧ q.Consumes s.workshop.grammar ∧
      (s.store.sequence (.mark 0 0)).length < 0 + unlimited ∧
      (∃ events, (s.parse (map joinLists
          (tuple [many (.exactly 1) q, many (.between (2 - 1) (3 - 1)) q])) (.mark 0 0)).1 =
        .parsed 1 0 (.success (.list [.token 'a', .token 'a']) (.mark 0 2)) events) ∧
      (∃ r, (s.parse (many .any q) (.mark 0 0)).2.ComesTo q (.mark 0 2) r ∧ r.isSuccess = false) := by
  have begun : Reaches [.eq 'a'] _ [] [] := .begin rfl
  have opened := begun.step (.start (.feed (.items ['a', 'a', 'b'])))
  obtain ⟨q, hq, isLocal⟩ := (@Reaches.holds _ _ _ _ _ _ _ 0 _ opened rfl rfl).isLocal
  obtain rfl := Option.some.inj hq
  have consumes : (eq 'a').Consumes #[] := consumes_satisfy _ _ _
  have fits : ['a', 'a', 'b'].length < 0 + unlimited := by decide
  obtain ⟨-, laws⟩ := @parse_split _ _ _ _ 0 (.mark 0 0) _ opened.sound rfl isLocal
  obtain ⟨splits, behind⟩ := laws consumes
  refine ⟨_, _, opened.sound, rfl, isLocal, consumes, fits, ?_, ?_⟩
  · exact Reply.Agree.success (splits 1 2 3 (by decide) (by decide)).1
  · exact (behind fits).1 _ _ ⟨_, _, _, rfl⟩

end Session

end LazyPeg
