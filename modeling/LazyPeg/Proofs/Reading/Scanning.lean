import LazyPeg.Proofs.Reading.Lookahead
import LazyPeg.Proofs.Reading.Repetition

/-!
# Scanning up to a match

`Parser.scan` skips tokens as long as a parser does not match.  It ends at the first offset where the parser
matches, or at the end of the input if it matches nowhere (`Parser.FirstAt`).

One step of the loop, `Parser.anyBut`, matches where the parser fails and a token is left
(`matches_anyBut_iff`), so a scan is a repetition that moves on by one token each time and stops because of
a failure.  `FirstAt.repeats` and `Repeats.firstAt` go from the place where it ends to the repetition and
back.

§3 is the search for a run of tokens: a scan up to the run, and then the run.  It succeeds where the run
stands in what is left, and finds its leftmost occurrence (`Leftmost`, `matches_search_iff`).
-/
namespace LazyPeg.Parser

variable {α : Type} [Token α]

/-- Match any token where a parser does not match. -/
def anyBut (q : Parser α) : Parser α := seq [Parser.not q, any]

/-- Skip tokens up to a match of a parser. -/
def scan (q : Parser α) : Parser α := many .any (anyBut q)

variable [DecidableEq α] {grammar : Grammar α} {ts : List α} {q : Parser α} {i j k : Nat} {v : Value α}

/-- From `i` on, `j` is the first offset where a parser matches, or the end of the input if it matches
nowhere. -/
structure FirstAt (grammar : Grammar α) (ts : List α) (q : Parser α) (i j : Nat) : Prop where
  le : i ≤ j
  le_length : j ≤ ts.length
  before : ∀ k, i ≤ k → k < j → q.Fails grammar ts k
  here : (∃ v k, q.Matches grammar ts j v k) ∨ q.Fails grammar ts j ∧ j = ts.length

/-! ## 1. Where it ends -/

/-- There is such an offset if every try comes to an outcome.  Behind the first match nothing is tried. -/
theorem exists_firstAt (hi : i ≤ ts.length)
    (tries : ∀ k, i ≤ k → k ≤ ts.length →
      (∀ l, i ≤ l → l < k → ¬ ∃ v m, q.Matches grammar ts l v m) → q.Decides grammar ts k) :
    ∃ j, q.FirstAt grammar ts i j := by
  classical
  -- the first offset where a match is made, or else the end
  have stops : ∃ j, i ≤ j ∧ ((∃ v k, q.Matches grammar ts j v k) ∨ j = ts.length) :=
    ⟨ts.length, hi, .inr rfl⟩
  obtain ⟨le, here⟩ := Nat.find_spec stops
  have inside : Nat.find stops ≤ ts.length := Nat.find_min' stops ⟨hi, .inr rfl⟩
  have none (l : Nat) (hl : i ≤ l) (lt : l < Nat.find stops) : ¬ ∃ v m, q.Matches grammar ts l v m :=
    fun matched => Nat.find_min stops lt ⟨hl, .inl matched⟩
  have fails (k : Nat) (hk : i ≤ k) (le : k ≤ Nat.find stops)
      (not : ¬ ∃ v m, q.Matches grammar ts k v m) : q.Fails grammar ts k := by
    have decides := tries k hk (Nat.le_trans le inside) fun l hl lt =>
      none l hl (Nat.lt_of_lt_of_le lt le)
    exact (decides_iff.1 decides).resolve_left not
  refine ⟨Nat.find stops, le, inside, fun k hk lt => fails k hk (Nat.le_of_lt lt) (none k hk lt), ?_⟩
  by_cases matched : ∃ v k, q.Matches grammar ts (Nat.find stops) v k
  · exact .inl matched
  · exact .inr ⟨fails _ le (Nat.le_refl _) matched, here.resolve_left matched⟩

/-! ## 2. The repetition -/

theorem matches_any_iff (hi : i ≤ ts.length) :
    any.Matches grammar ts i v j ↔ ∃ t, ts[i]? = some t ∧ v = .token t ∧ j = i + 1 := by
  rw [any, matches_satisfy_iff hi]
  simp only [true_and]

/-- A scan goes on where the parser fails and a token is left. -/
theorem matches_anyBut_iff (hi : i ≤ ts.length) :
    (anyBut q).Matches grammar ts i v j ↔
      q.Fails grammar ts i ∧ ∃ t, ts[i]? = some t ∧ v = .token t ∧ j = i + 1 := by
  rw [anyBut, matches_seq_pair_iff hi]
  constructor
  · rintro ⟨w, l, negated, token⟩
    obtain ⟨fails, rfl, -⟩ := (matches_not_iff hi).1 negated
    exact ⟨fails, (matches_any_iff hi).1 token⟩
  · rintro ⟨fails, t, ht, rfl, rfl⟩
    exact ⟨_, i, (matches_not_iff hi).2 ⟨fails, rfl, t, ht, rfl⟩, (matches_any_iff hi).2 ⟨t, ht, rfl, rfl⟩⟩

/-- It stops where the parser matches, and at the end of the input. -/
theorem fails_anyBut_iff (hi : i ≤ ts.length) :
    (anyBut q).Fails grammar ts i ↔
      (∃ v j, q.Matches grammar ts i v j) ∨ q.Fails grammar ts i ∧ ts[i]? = none := by
  rw [anyBut, fails_seq_pair_iff hi, fails_not_iff hi]
  constructor
  · rintro (stops | ⟨w, l, negated, fails⟩)
    · exact stops
    · obtain ⟨-, rfl, t, ht, -⟩ := (matches_not_iff hi).1 negated
      exact absurd fails (Matches.not_fails ((matches_any_iff hi).2 ⟨t, ht, rfl, rfl⟩) hi)
  · exact .inl

/-- The token at an offset, as a value. -/
def tokenAt {α : Type} (ts : List α) (i : Nat) : Value α := ts[i]?.elim .none .token

omit [Token α] [DecidableEq α] in
/-- The tokens from one offset to another are those at the offsets between them. -/
theorem map_tokenAt (hk : i + k ≤ ts.length) :
    (List.range k).map (fun t => tokenAt ts (i + t)) = ((ts.drop i).take k).map .token := by
  refine List.ext_getElem (by simp; omega) fun t ht ht' => ?_
  simp only [List.length_map, List.length_range] at ht
  have inside : i + t < ts.length := by omega
  simp [tokenAt, inside]

/-- Up to the place where a scan ends, each step is a match that moves on by one token. -/
theorem FirstAt.repeats (h : q.FirstAt grammar ts i j) (fits : ts.length < i + unlimited) :
    (anyBut q).Repeats grammar ts 0 unlimited (i + ·) (fun t => tokenAt ts (i + t))
      (j - i) := by
  have inside := h.le_length
  have le := h.le
  have step (t : Nat) (ht : t < j - i) :
      (anyBut q).Matches grammar ts (i + t) (tokenAt ts (i + t)) (i + (t + 1)) := by
    have lt : i + t < ts.length := by omega
    refine (matches_anyBut_iff (Nat.le_of_lt lt)).2 ⟨h.before (i + t) (Nat.le_add_right i t) (by omega), ?_⟩
    exact ⟨ts[i + t], List.getElem?_eq_getElem lt, by simp [tokenAt, lt], rfl⟩
  refine ⟨step, fun t ht => ?_, .inr (.inl ?_)⟩
  · rintro (full | fails | ⟨enough, still⟩)
    · omega
    · exact (step t ht).not_fails (by omega) fails
    · have moved : i + t = i + (t - 1) := still
      omega
  · simp only [Nat.add_sub_cancel' le]
    refine (fails_anyBut_iff inside).2 (h.here.imp_right ?_)
    rintro ⟨fails, last⟩
    exact ⟨fails, List.getElem?_eq_none (Nat.le_of_eq last.symm)⟩

/-- Where the repetition of such steps stops, the scan ends. -/
theorem Repeats.firstAt {offsets : Nat → Nat} {values : Nat → Value α}
    (h : (anyBut q).Repeats grammar ts 0 unlimited offsets values k)
    (hi : offsets 0 ≤ ts.length) (fits : ts.length < offsets 0 + unlimited) :
    q.FirstAt grammar ts (offsets 0) (offsets k) := by
  have step (t : Nat) (ht : t < k) :=
    (matches_anyBut_iff (h.le_length hi (Nat.le_of_lt ht))).1 (h.matched t ht)
  have next (t : Nat) (ht : t < k) : offsets (t + 1) = offsets t + 1 := by
    obtain ⟨-, _, -, -, same⟩ := step t ht
    exact same
  have offset (t : Nat) (ht : t ≤ k) : offsets t = offsets 0 + t := by
    induction t with
    | zero => rfl
    | succ t ih => rw [next t ht, ih (Nat.le_of_succ_le ht), Nat.add_assoc]
  have inside := h.le_length hi (Nat.le_refl k)
  have last := offset k (Nat.le_refl k)
  have fails : (anyBut q).Fails grammar ts (offsets k) := by
    refine h.fails_of_lt hi (fun t ht => ?_) fits
    rw [next t ht]
    exact Nat.lt_succ_self _
  refine ⟨by omega, inside, fun l hl lt => ?_, ((fails_anyBut_iff inside).1 fails).imp_right ?_⟩
  · obtain ⟨t, rfl⟩ := Nat.exists_eq_add_of_le hl
    rw [← offset t (by omega)]
    exact (step t (by omega)).1
  · rintro ⟨fails, none⟩
    exact ⟨fails, Nat.le_antisymm inside (List.getElem?_eq_none_iff.1 none)⟩

/-- **A scan takes all tokens up to the first match**, or up to the end of the input. -/
theorem FirstAt.matches_scan (h : q.FirstAt grammar ts i j) (hi : i ≤ ts.length)
    (fits : ts.length < i + unlimited) :
    (scan q).Matches grammar ts i (.list (((ts.drop i).take (j - i)).map .token)) j := by
  have inside := h.le_length
  have le := h.le
  have repeats : (anyBut q).Repeats grammar ts Repetition.any.least Repetition.any.most
    (i + ·) (fun t => tokenAt ts (i + t)) (j - i) := h.repeats fits
  obtain ⟨tries, reach, -, reads⟩ := repeats.reads_many hi
  rw [map_tokenAt (by omega)] at reads
  simp only [Nat.add_zero, Nat.add_sub_cancel' le] at reads
  exact ⟨_, reads, congrArg Except.ok (if_pos (Nat.zero_le _))⟩

/-- A scan that comes to an outcome has such an offset. -/
theorem exists_firstAt_of_decides (hi : i ≤ ts.length) (fits : ts.length < i + unlimited)
    (h : (scan q).Decides grammar ts i) : ∃ j, q.FirstAt grammar ts i j := by
  obtain ⟨c, r, reads, answer⟩ := h
  obtain ⟨offsets, values, k, rfl, repeats⟩ := exists_repeats_of_reads hi reads answer
  exact ⟨_, Repeats.firstAt repeats hi fits⟩

/-! ## 3. Searching -/

theorem reads_token (items : List α) (i : Nat) :
    (token items).Reads grammar ts i ⟨.ok (if items <+: ts.drop i then
        .success (.list (items.map .token)) (i + items.length)
      else .failure (.missing (token items).name) i), [], i + matched ts items i⟩ := by
  refine ⟨0, ?_⟩
  rw [readDepth, read, Reading.visit, Reading.ok_bind]
  by_cases stands : items <+: ts.drop i
  · simp [stands, Reading.pure_eq]
  · simp [stands, Reading.pure_eq]

theorem matches_token_iff {items : List α} (hi : i ≤ ts.length) :
    (token items).Matches grammar ts i v j ↔
      items <+: ts.drop i ∧ v = .list (items.map .token) ∧ j = i + items.length := by
  constructor
  · rintro ⟨c, hc, ha⟩
    obtain rfl := hc.unique (reads_token items i) hi
    by_cases stands : items <+: ts.drop i
    · simp only [stands, if_true, Except.ok.injEq, Outcome.success.injEq] at ha
      exact ⟨stands, ha.1.symm, ha.2.symm⟩
    · simp [stands] at ha
  · rintro ⟨stands, rfl, rfl⟩
    exact ⟨_, reads_token items i, by simp only [stands, if_true]⟩

theorem fails_token_iff {items : List α} (hi : i ≤ ts.length) :
    (token items).Fails grammar ts i ↔ ¬ items <+: ts.drop i := by
  constructor
  · intro fails stands
    exact ((matches_token_iff hi).2 ⟨stands, rfl, rfl⟩).not_fails hi fails
  · intro stands
    exact ⟨_, .missing (token items).name, i, reads_token items i, by simp only [stands, if_false]⟩

/-- From `i` on, `j` is the first offset where items stand in a list. -/
structure Leftmost {α : Type} (ts items : List α) (i j : Nat) : Prop where
  le : i ≤ j
  le_length : j ≤ ts.length
  here : items <+: ts.drop j
  before : ∀ k, i ≤ k → k < j → ¬ items <+: ts.drop k

omit [Token α] [DecidableEq α] in
/-- Items stand somewhere in what is left of a list exactly if they have a leftmost occurrence there. -/
theorem exists_leftmost_iff {items : List α} (hi : i ≤ ts.length) :
    (∃ j, Leftmost ts items i j) ↔ items <:+: ts.drop i := by
  classical
  constructor
  · rintro ⟨j, le, -, ⟨behind, whole⟩, -⟩
    have parts := List.take_append_drop (j - i) (ts.drop i)
    rw [List.drop_drop, Nat.add_sub_cancel' le, ← whole, ← List.append_assoc] at parts
    exact ⟨_, behind, parts⟩
  · rintro ⟨before, behind, whole⟩
    have stands : ∃ j, i ≤ j ∧ j ≤ ts.length ∧ items <+: ts.drop j := by
      have length := congrArg List.length whole
      simp only [List.length_append, List.length_drop] at length
      refine ⟨i + before.length, Nat.le_add_right i _, by omega, behind, ?_⟩
      rw [← List.drop_drop, ← whole, List.append_assoc, List.drop_left]
    obtain ⟨le, inside, here⟩ := Nat.find_spec stands
    refine ⟨_, le, inside, here, fun k hk lt there => Nat.find_min stands lt ⟨hk, ?_, there⟩⟩
    exact Nat.le_trans (Nat.le_of_lt lt) inside

/-- The first match of a run of tokens is its leftmost occurrence. -/
theorem firstAt_token_iff {items : List α} (here : items <+: ts.drop j) :
    (token items).FirstAt grammar ts i j ↔ Leftmost ts items i j := by
  constructor
  · intro h
    refine ⟨h.le, h.le_length, here, fun k hk lt => ?_⟩
    have inside := Nat.le_trans (Nat.le_of_lt lt) h.le_length
    exact (fails_token_iff inside).1 (h.before k hk lt)
  · intro h
    refine ⟨h.le, h.le_length, fun k hk lt => ?_, .inl ?_⟩
    · have inside := Nat.le_trans (Nat.le_of_lt lt) h.le_length
      exact (fails_token_iff inside).2 (h.before k hk lt)
    · exact ⟨_, _, (matches_token_iff h.le_length).2 ⟨here, rfl, rfl⟩⟩

/-- A run of tokens is tried everywhere with an outcome, so that a scan for it ends. -/
theorem exists_firstAt_token (items : List α) (hi : i ≤ ts.length) :
    ∃ j, (token items).FirstAt grammar ts i j :=
  exists_firstAt hi fun k _ _ _ => ⟨_, _, reads_token items k, rfl⟩

/-- **A search finds the leftmost occurrence**, and stops right behind it. -/
theorem matches_search_iff {items : List α} (hi : i ≤ ts.length) (fits : ts.length < i + unlimited) :
    (tuple [scan (token items), token items]).Matches grammar ts i v k ↔
      ∃ j, Leftmost ts items i j ∧ k = j + items.length ∧
        v = .tuple [.list (((ts.drop i).take (j - i)).map .token), .list (items.map .token)] := by
  rw [tuple, matches_group_pair_iff hi]
  constructor
  · rintro ⟨w, j, w', skipped, found, rfl⟩
    obtain ⟨l, first⟩ : ∃ l, (token items).FirstAt grammar ts i l := exists_firstAt_token items hi
    obtain ⟨rfl, rfl⟩ := skipped.unique (first.matches_scan hi fits) hi
    obtain ⟨here, rfl, rfl⟩ := (matches_token_iff first.le_length).1 found
    exact ⟨j, (firstAt_token_iff here).1 first, rfl, rfl⟩
  · rintro ⟨j, h, rfl, rfl⟩
    have first : (token items).FirstAt grammar ts i j := (firstAt_token_iff h.here).2 h
    exact ⟨_, j, _, first.matches_scan hi fits, (matches_token_iff h.le_length).2 ⟨h.here, rfl, rfl⟩, rfl⟩

/-- Where the items do not stand, a search fails. -/
theorem decides_search (items : List α) (hi : i ≤ ts.length) (fits : ts.length < i + unlimited) :
    (tuple [scan (token items), token items]).Decides grammar ts i := by
  obtain ⟨j, first⟩ : ∃ j, (token items).FirstAt grammar ts i j := exists_firstAt_token items hi
  have skipped := first.matches_scan hi fits
  have inside := first.le_length
  refine decides_iff.2 ?_
  by_cases here : items <+: ts.drop j
  · have found : (token items).Matches grammar ts j _ _ := (matches_token_iff inside).2 ⟨here, rfl, rfl⟩
    exact .inl ⟨_, _, (matches_group_pair_iff hi).2 ⟨_, j, _, skipped, found, rfl⟩⟩
  · exact .inr ((fails_group_pair_iff hi).2 (.inr ⟨_, j, skipped, (fails_token_iff inside).2 here⟩))

end LazyPeg.Parser
