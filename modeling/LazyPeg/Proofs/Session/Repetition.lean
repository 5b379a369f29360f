import LazyPeg.Proofs.Reading.Repetition
import LazyPeg.Proofs.Session.Local

/-!
# Repetitions in a session

A repetition of a local parser, in any session and at any position: what it answers, how often it tries,
and that the other ways to ask for a repetition are instances (`Session.parse_repeated`).  The matches, and
the place where they stop, are those of `Parser.Repeats`.
-/
namespace LazyPeg

namespace Parser

variable {α : Type} [Token α] [DecidableEq α] {grammar : Grammar α} {ts : List α} {q : Parser α}
  {least most k : Nat} {i : Nat → Nat} {v : Nat → Value α}

theorem Repeats.le_most (h : q.Repeats grammar ts least most i v k) : k ≤ most := by
  by_contra more
  exact h.goesOn most (Nat.lt_of_not_le more) (.inl (Nat.le_refl most))

/-- A repetition that may go on stops at a failure, or where the parser matches nothing. -/
theorem Repeats.maximal (h : q.Repeats grammar ts least most i v k) (room : k < most) :
    q.Fails grammar ts (i k) ∨ ∃ w, q.Matches grammar ts (i k) w (i k) := by
  rcases h.stops with full | fails | ⟨enough, still⟩
  · exact absurd room (Nat.not_lt.2 full)
  · exact .inl fails
  · have last := h.matched (k - 1) (by omega)
    rw [show k - 1 + 1 = k by omega, ← still] at last
    exact .inr ⟨_, last⟩

end Parser

namespace Session

open LazyPeg.Parser

variable {α : Type} [Token α] [DecidableEq α] {s : Session α} {place : Nat} {p : Position}
  {q : Parser α} {ts : List α} {style : Repetition} {i : Nat → Nat} {v : Nat → Value α} {k : Nat}

/-- Repetitions with the same bounds have one reply, whatever they are called. -/
theorem parse_many_eq {style' : Repetition} (least : style.least = style'.least)
    (most : style.most = style'.most) : s.parse (many style q) p = s.parse (many style' q) p :=
  parse_eq_of_eval fun call => by simp only [eval, least, most]

/-- A session replies to a repetition as `Repeats` says, with the events of all tries. -/
theorem parse_of_repeats (style : Repetition) (hq : q.Local s.workshop.grammar)
    (hts : s.store.Shows p ts p.offset) (hi : i 0 = p.offset)
    (h : q.Repeats s.workshop.grammar ts style.least style.most i v k) :
    ∃ tries, q.Tries s.workshop.grammar ts style.most i k tries ∧
      (s.parse (many style q) p).1 = .parsed s.positions.size s.results.size
        (if style.least ≤ k then .success (.list ((List.range k).map v)) (p.moveTo (i k))
          else .failure (.tooFew style.least q.name) p)
        ((tries.flatMap Course.events).map (Event.mapPlace p.moveTo)) := by
  have start : i 0 ≤ ts.length := hi ▸ hts.le_length
  obtain ⟨tries, reach, htries, reads⟩ := h.reads_many start
  rw [hi] at reads
  have repeated : (many style q).Local s.workshop.grammar := .many style hq
  refine ⟨tries, htries, ?_⟩
  rw [parse_of_reads repeated hts reads]
  by_cases enough : style.least ≤ k
  · simp only [Course.reply, enough, if_true, Outcome.mapPlace]
  · simp only [Course.reply, enough, if_false, Outcome.mapPlace, Position.moveTo_offset]

/-- **Repetition in full.**  Let a parser match `k` times in a row from a position on, and let `k` be the
first number of matches after which the most matches are made, or no match follows, or there are enough
matches and the last one moved nowhere.  Then a repetition from that position succeeds with the values of
these matches, and goes on behind them, if they are enough; otherwise it fails as expected, where it began.

The parser is tried once for each match, and once more exactly if the repetition stops because of a failure;
an observer around the parser sees these tries and no others.

Nothing else is replied: every result of a repetition comes about in this way, and a repetition of a parser
that comes to an outcome from the position on has a result. -/
theorem parse_repeated (h : s.Sound) (hp : s.position? place = some p)
    (hq : q.Local s.workshop.grammar) (m n : Nat) :
    (∀ i v k, i 0 = p.offset → q.Repeats s.workshop.grammar (s.store.sequence p) m n i v k →
      ∃ tries, q.Tries s.workshop.grammar (s.store.sequence p) n i k tries ∧
        tries.length ≤ max ((s.store.sequence p).length - p.offset + 1) m ∧
        ∃ r, r = (if m ≤ k then .success (.list ((List.range k).map v)) (p.moveTo (i k))
            else .failure (.tooFew m q.name) p) ∧
          (s.parse (many (.between m n) q) p).1 = .parsed s.positions.size s.results.size r
            ((tries.flatMap Course.events).map (Event.mapPlace p.moveTo)) ∧
          ∀ tag, (s.parse (many (.between m n) (observed tag q)) p).1 =
            .parsed s.positions.size s.results.size r
              ((tries.flatMap fun c => (c.observedAs tag).events).map (Event.mapPlace p.moveTo))) ∧
    (∀ a b r events, (s.parse (many (.between m n) q) p).1 = .parsed a b r events →
      ∃ i v k, i 0 = p.offset ∧ q.Repeats s.workshop.grammar (s.store.sequence p) m n i v k) ∧
    ((∀ j, p.offset ≤ j → j ≤ (s.store.sequence p).length →
        q.Decides s.workshop.grammar (s.store.sequence p) j) →
      ∃ i v k, i 0 = p.offset ∧ q.Repeats s.workshop.grammar (s.store.sequence p) m n i v k) ∧
    (∀ a b v next events, (s.parse (many (.between m n) q) p).1 = .parsed a b (.success v next) events →
      ∃ values j, v = .list values ∧ next = p.moveTo j ∧ m ≤ values.length ∧ values.length ≤ n ∧
        (values.length < n → q.Fails s.workshop.grammar (s.store.sequence p) j ∨
          ∃ w, q.Matches s.workshop.grammar (s.store.sequence p) j w j)) ∧
    ((Reason.tooFew m q.name).kind = .expected ∧
      (Reason.tooFew m q.name).message = "At least " ++ toString m ++ " of " ++ q.name) ∧
    s.parse (many .any q) p = s.parse (many (.between 0 unlimited) q) p ∧
    s.parse (many .some q) p = s.parse (many (.between 1 unlimited) q) p ∧
    s.parse (many (.exactly n) q) p = s.parse (many (.between n n) q) p := by
  have hts := h.shows hp
  have comes_about : ∀ a b r events, (s.parse (many (.between m n) q) p).1 = .parsed a b r events →
      ∃ i v k, i 0 = p.offset ∧ q.Repeats s.workshop.grammar (s.store.sequence p) m n i v k := by
    intro a b r events hr
    have repeated : (many (.between m n) q).Local s.workshop.grammar := .many _ hq
    obtain ⟨c, r', reads, answer, -⟩ := reads_of_parsed repeated hts hr
    exact exists_repeats_of_reads hts.le_length reads answer
  refine ⟨?_, comes_about, ?_, ?_, ⟨rfl, rfl⟩, parse_many_eq rfl rfl, parse_many_eq rfl rfl,
    parse_many_eq rfl rfl⟩
  · intro i v k hi hr
    have start : i 0 ≤ (s.store.sequence p).length := hi ▸ hts.le_length
    obtain ⟨tries, htries, reply⟩ := parse_of_repeats (.between m n) hq hts hi hr
    have bound := htries.length_le hr start
    rw [hi] at bound
    refine ⟨tries, htries, bound, _, rfl, reply, fun tag => ?_⟩
    have seen : (observed tag q).Local s.workshop.grammar := .observed tag hq
    obtain ⟨tries', htries', reply'⟩ :=
      parse_of_repeats (.between m n) seen hts hi (hr.observed tag)
    obtain rfl := htries'.unique (htries.observed tag) (hr.observed tag) start
    rw [List.flatMap_map] at reply'
    exact reply'
  · exact fun decides => exists_repeats_of_decides hts.le_length decides m n
  · intro a b value next events hr
    obtain ⟨i, v, k, hi, repeats⟩ := comes_about _ _ _ _ hr
    obtain ⟨tries, -, reply⟩ := parse_of_repeats (.between m n) hq hts hi repeats
    rw [reply] at hr
    by_cases enough : m ≤ k
    · simp only [Repetition.least, enough, if_true, Reply.parsed.injEq, Outcome.success.injEq] at hr
      obtain ⟨-, -, ⟨rfl, rfl⟩, -⟩ := hr
      have count : ((List.range k).map v).length = k := by rw [List.length_map, List.length_range]
      refine ⟨_, i k, rfl, rfl, ?_⟩
      rw [count]
      exact ⟨enough, repeats.le_most, repeats.maximal⟩
    · simp [Repetition.least, enough] at hr

/-- Two to five times a letter or nothing, where one letter stands: the match of nothing is made, since
two matches are needed, and then the repetition stops. -/
theorem parse_repeated_optional :
    ∃ (s : Session Char) (q : Parser Char) (i : Nat → Nat) (v : Nat → Value Char),
      s.Sound ∧ s.position? 0 = some (.mark 0 0) ∧ q.Local s.workshop.grammar ∧ i 0 = 0 ∧
      q.Repeats s.workshop.grammar (s.store.sequence (.mark 0 0)) 2 5 i v 2 ∧
      ∃ tries events, q.Tries s.workshop.grammar (s.store.sequence (.mark 0 0)) 5 i 2 tries ∧
        (s.parse (many (.between 2 5) q) (.mark 0 0)).1 =
          .parsed 1 0 (.success (.list [.some (.token 'a'), .none]) (.mark 0 1)) events := by
  have begun : Reaches [.optional (.eq 'a')] _ [] [] := .begin rfl
  have opened := begun.step (.start (.feed (.items ['a', 'b'])))
  obtain ⟨q, hq, isLocal⟩ := (@Reaches.holds _ _ _ _ _ _ _ 0 _ opened rfl rfl).isLocal
  obtain rfl := Option.some.inj hq
  have first : (optional (eq 'a')).Matches #[] ['a', 'b'] 0 (.some (.token 'a')) 1 :=
    ⟨⟨_, [], 1⟩, ⟨0, rfl⟩, rfl⟩
  have second : (optional (eq 'a')).Matches #[] ['a', 'b'] 1 .none 1 := ⟨⟨_, [], 1⟩, ⟨0, rfl⟩, rfl⟩
  have repeats : (optional (eq 'a')).Repeats #[] ['a', 'b'] 2 5 (min 1)
      (fun t => if t = 0 then .some (.token 'a') else .none) 2 := by
    refine ⟨fun t ht => ?_, fun t ht => ?_, .inr (.inr ⟨by decide, rfl⟩)⟩
    · match t, ht with
      | 0, _ => exact first
      | 1, _ => exact second
    · match t, ht with
      | 0, _ => exact not_stopsAfter_zero (v := fun _ => .some (.token 'a')) first (by decide)
      | 1, _ =>
        rintro (full | fails | ⟨enough, -⟩)
        · exact absurd full (by decide)
        · exact second.not_fails (by decide) fails
        · exact absurd enough (by decide)
  obtain ⟨tries, htries, -, _, rfl, reply, -⟩ :=
    (@parse_repeated _ _ _ _ 0 (.mark 0 0) _ opened.sound rfl isLocal 2 5).1 _ _ 2 rfl repeats
  exact ⟨_, _, _, _, opened.sound, rfl, isLocal, rfl, repeats, tries, _, htries, reply⟩

end Session

end LazyPeg
