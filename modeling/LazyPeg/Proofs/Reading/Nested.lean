import LazyPeg.Proofs.Reading.Committed
import LazyPeg.Proofs.Reading.Recursion
import LazyPeg.Proofs.Reading.Shortcuts

/-!
# Nested parentheses

A rule that calls itself between parentheses, or else matches an `x`, and counts its levels.
**It matches exactly where some opening parentheses, an `x` and as many closing ones stand**, whatever is
behind them, with the number of levels as value (`Parser.matches_nested_iff`).

* §1 is about the words.  Of the words that stand at an offset there is at most one.
* §2: what one level does, said by what the rule does inside of the parentheses.
* §3: a word is matched, by induction on its levels; and where none stands the rule fails, by induction on
  the tokens that are left.  The second part needs the first one: behind a word that stands inside, the
  closing parenthesis is the only thing that can be missing.
-/
namespace LazyPeg

/-! ## 1. Words -/

/-- Some opening parentheses, an `x`, and as many closing ones. -/
def nestedWord (levels : Nat) : List Char :=
  List.replicate levels '(' ++ 'x' :: List.replicate levels ')'

theorem nestedWord_succ (n : Nat) : nestedWord (n + 1) = '(' :: (nestedWord n ++ [')']) := by
  simp [nestedWord, List.replicate_succ, ← List.replicate_succ']

theorem length_nestedWord (n : Nat) : (nestedWord n).length = 2 * n + 1 := by
  simp [nestedWord]
  omega

theorem append_prefix_drop_iff {α : Type} {ts v w : List α} {i : Nat} :
    v ++ w <+: ts.drop i ↔ v <+: ts.drop i ∧ w <+: ts.drop (i + v.length) := by
  constructor
  · rintro ⟨rest, whole⟩
    rw [List.append_assoc] at whole
    refine ⟨⟨w ++ rest, whole⟩, rest, ?_⟩
    rw [← List.drop_drop, ← whole, List.drop_left]
  · rintro ⟨⟨rest, whole⟩, behind⟩
    rw [← List.drop_drop, ← whole, List.drop_left] at behind
    rw [← whole]
    exact (List.prefix_append_right_inj v).2 behind

/-- A word with one more level stands around a word. -/
theorem nestedWord_succ_prefix_iff {ts : List Char} {i n : Nat} :
    nestedWord (n + 1) <+: ts.drop i ↔ ts[i]? = some '(' ∧ nestedWord n <+: ts.drop (i + 1) ∧
      ts[i + 1 + (nestedWord n).length]? = some ')' := by
  rw [nestedWord_succ, Parser.cons_prefix_drop_iff, append_prefix_drop_iff, Parser.cons_prefix_drop_iff]
  simp

theorem nestedWord_zero_prefix_iff {ts : List Char} {i : Nat} :
    nestedWord 0 <+: ts.drop i ↔ ts[i]? = some 'x' := by
  rw [show nestedWord 0 = ['x'] from rfl, Parser.cons_prefix_drop_iff]
  simp

/-- Of the words that stand at an offset there is one at most. -/
theorem nestedWord_unique {ts : List Char} {i m n : Nat} (hm : nestedWord m <+: ts.drop i)
    (hn : nestedWord n <+: ts.drop i) : m = n := by
  induction m generalizing n i with
  | zero =>
    cases n with
    | zero => rfl
    | succ n => cases (nestedWord_zero_prefix_iff.1 hm).symm.trans (nestedWord_succ_prefix_iff.1 hn).1
  | succ m ih =>
    cases n with
    | zero => cases (nestedWord_succ_prefix_iff.1 hm).1.symm.trans (nestedWord_zero_prefix_iff.1 hn)
    | succ n =>
      have inside := ih (nestedWord_succ_prefix_iff.1 hm).2.1 (nestedWord_succ_prefix_iff.1 hn).2.1
      rw [inside]

/-- What is left of a text is a word if it begins with the word and ends behind it. -/
theorem drop_eq_iff {α : Type} {ts w : List α} {i : Nat} (hi : i ≤ ts.length) :
    ts.drop i = w ↔ w <+: ts.drop i ∧ ts.length = i + w.length := by
  have length := List.length_drop (l := ts) (i := i)
  constructor
  · rintro rfl
    exact ⟨List.prefix_rfl, by omega⟩
  · rintro ⟨here, last⟩
    exact (here.eq_of_length (by omega)).symm

/-- Counted from a number, the levels are added to it. -/
theorem Value.iterate_increment_number {α : Type} (m : Int) (n : Nat) :
    increment^[n] (number m : Value α) = number (m + n) := by
  induction n with
  | zero => simp
  | succ n ih =>
    rw [Function.iterate_succ_apply', ih, increment, Int.natCast_succ, Int.add_assoc]

namespace Parser

/-! ## 2. One level -/

section Tokens

variable {α : Type} [Token α] [DecidableEq α] {grammar : Grammar α} {ts : List α} {i j : Nat} {v : Value α}
  {t : α} {p q : Parser α} {id : RuleId} {name : String} {body : Parser α}

theorem matches_eq_iff (hi : i ≤ ts.length) :
    (eq t).Matches grammar ts i v j ↔ ts[i]? = some t ∧ v = .token t ∧ j = i + 1 := by
  rw [eq, matches_satisfy_iff hi]
  constructor
  · rintro ⟨u, hu, same, rfl, rfl⟩
    obtain rfl := beq_iff_eq.1 same
    exact ⟨hu, rfl, rfl⟩
  · rintro ⟨ht, rfl, rfl⟩
    exact ⟨t, ht, beq_self_eq_true t, rfl, rfl⟩

theorem fails_eq (hi : i ≤ ts.length) (ht : ts[i]? ≠ some t) : (eq t).Fails grammar ts i := by
  refine fails_satisfy hi ?_
  rintro ⟨u, hu, same⟩
  obtain rfl := beq_iff_eq.1 same
  exact ht hu

theorem fails_choice_pair (hi : i ≤ ts.length) (hp : p.Fails grammar ts i) (hq : q.Fails grammar ts i) :
    (choice [p, q]).Fails grammar ts i := by
  have enough := Nat.le_refl (grammar.size * (ts.length + 1))
  refine (fails_iff_refuses enough hi).2 (refuses_choice (List.forall_mem_cons.2 ⟨?_, ?_⟩))
  · exact (fails_iff_refuses enough hi).1 hp
  · exact List.forall_mem_singleton.2 ((fails_iff_refuses enough hi).1 hq)

/-- A choice fails where it was started, since none of its alternatives matches there. -/
theorem eq_of_answers_failure_choice {qs : List (Parser α)} {reason : Reason} (hi : i ≤ ts.length)
    (h : (choice qs).Answers grammar ts i (.failure reason j)) : reason = .noneOf (names qs) ∧ j = i := by
  obtain ⟨found, hfound, h⟩ := Reading.gives_bind.1 ((answers_iff_gives (Nat.le_refl _) hi).1 h)
  cases found with
  | none =>
    obtain ⟨rfl, rfl⟩ := Outcome.failure.inj (Reading.gives_pure_iff.1 h)
    exact ⟨rfl, rfl⟩
  | some r =>
    obtain ⟨-, -, -, v, k, -, -, -, rfl⟩ := readFirst_eq_some hfound
    cases Reading.gives_pure_iff.1 h

/-- A rule answers what its body does. -/
theorem answers_rule_iff (defined : (grammar[id]?).join = some body) (hi : i ≤ ts.length)
    {r : Outcome α Nat} :
    (rule id name).Answers grammar ts i r ↔ body.Answers grammar ts i r := by
  have enough := Nat.le_refl (grammar.size * (ts.length + 1))
  have same : (rule id name).readDepth grammar ts _ i = _ := read_rule defined enough hi
  rw [answers_iff_gives enough hi, answers_iff_gives enough hi, ← readDepth, ← readDepth, same]

theorem fails_rule_iff (defined : (grammar[id]?).join = some body) (hi : i ≤ ts.length) :
    (rule id name).Fails grammar ts i ↔ body.Fails grammar ts i := by
  rw [fails_iff_answers, fails_iff_answers]
  simp only [answers_rule_iff defined hi]

end Tokens

/-- A rule between parentheses, with one more than its value. -/
def oneLevel (id : RuleId) (name : String) : Parser Char :=
  map Value.increment (((rule id name).preceded (eq '(')).terminated (eq ')'))

/-- The body of the rule for nested parentheses. -/
def nestedParens (id : RuleId) (name : String) (zero : Value Char) : Parser Char :=
  choice [oneLevel id name, constant zero (eq 'x')]

variable {grammar : Grammar Char} {ts : List Char} {id : RuleId} {name : String} {zero v : Value Char}
  {i j n : Nat}

/-- A level is what the rule matches inside, with the parentheses around it. -/
theorem matches_oneLevel (opens : ts[i]? = some '(') (inside : (rule id name).Matches grammar ts (i + 1) v j)
    (closes : ts[j]? = some ')') : (oneLevel id name).Matches grammar ts i v.increment (j + 1) := by
  obtain ⟨lt, -⟩ := List.getElem?_eq_some_iff.1 opens
  have hi := Nat.le_of_lt lt
  have hj := inside.le_length lt
  have first : ((rule id name).preceded (eq '(')).Matches grammar ts i v j :=
    (matches_seq_pair_iff hi).2 ⟨_, _, (matches_eq_iff hi).2 ⟨opens, rfl, rfl⟩, inside⟩
  have both : (tuple [(rule id name).preceded (eq '('), eq ')']).Matches grammar ts i _ (j + 1) :=
    (matches_group_pair_iff hi).2 ⟨v, j, _, first, (matches_eq_iff hj).2 ⟨closes, rfl, rfl⟩, rfl⟩
  exact matches_map_iff.2 ⟨v, matches_map_iff.2 ⟨_, both, rfl⟩, rfl⟩

/-- A level is missed where one of the parentheses is missing, or the rule fails inside. -/
theorem fails_oneLevel (hi : i ≤ ts.length)
    (h : ts[i]? = some '(' → (rule id name).Fails grammar ts (i + 1) ∨
      ∃ w k, (rule id name).Matches grammar ts (i + 1) w k ∧ ts[k]? ≠ some ')') :
    (oneLevel id name).Fails grammar ts i := by
  rw [oneLevel, fails_map_iff, terminated, fails_map_iff, tuple, fails_group_pair_iff hi, preceded,
    fails_seq_pair_iff hi]
  by_cases opens : ts[i]? = some '('
  · obtain ⟨inside, -⟩ := List.getElem?_eq_some_iff.1 opens
    have first : (eq '(').Matches grammar ts i _ _ := (matches_eq_iff hi).2 ⟨opens, rfl, rfl⟩
    rcases h opens with fails | ⟨w, k, matched, open_⟩
    · exact .inl (.inr ⟨_, _, first, fails⟩)
    · refine .inr ⟨w, k, (matches_seq_pair_iff hi).2 ⟨_, _, first, matched⟩, ?_⟩
      exact fails_eq (matched.le_length inside) open_
  · exact .inl (.inl (fails_eq hi opens))

/-! ## 3. All levels -/

variable (defined : (grammar[id]?).join = some (nestedParens id name zero))

include defined

/-- **A word is matched, whatever is behind it.** -/
theorem matches_nested (here : nestedWord n <+: ts.drop i) :
    (rule id name).Matches grammar ts i (Value.increment^[n] zero) (i + (nestedWord n).length) := by
  induction n generalizing i with
  | zero =>
    have atom := nestedWord_zero_prefix_iff.1 here
    have hi := Nat.le_of_lt (List.getElem?_eq_some_iff.1 atom).1
    have level : (oneLevel id name).Fails grammar ts i :=
      fails_oneLevel hi fun opens => by cases atom.symm.trans opens
    have last : (constant zero (eq 'x')).Matches grammar ts i zero (i + 1) :=
      matches_map_iff.2 ⟨_, (matches_eq_iff hi).2 ⟨atom, rfl, rfl⟩, rfl⟩
    exact (answers_rule_iff defined hi).2 ((matches_choice_iff hi).2
      ⟨[oneLevel id name], _, [], rfl, List.forall_mem_singleton.2 level, last⟩)
  | succ n ih =>
    obtain ⟨opens, inside, closes⟩ := nestedWord_succ_prefix_iff.1 here
    have hi := Nat.le_of_lt (List.getElem?_eq_some_iff.1 opens).1
    have level : (oneLevel id name).Matches grammar ts i _ _ := matches_oneLevel opens (ih inside) closes
    have behind : i + 1 + (nestedWord n).length + 1 = i + (nestedWord (n + 1)).length := by
      simp only [length_nestedWord]
      omega
    rw [behind, ← Function.iterate_succ_apply' Value.increment] at level
    exact (answers_rule_iff defined hi).2 ((matches_choice_iff hi).2
      ⟨[], _, [constant zero (eq 'x')], rfl, fun q hq => absurd hq List.not_mem_nil, level⟩)

/-- **Where no word stands, the rule fails.** -/
theorem fails_nested (hi : i ≤ ts.length) (none : ∀ n, ¬ nestedWord n <+: ts.drop i) :
    (rule id name).Fails grammar ts i := by
  induction left : ts.length - i using Nat.strong_induction_on generalizing i with
  | h left ih =>
    have level : (oneLevel id name).Fails grammar ts i := by
      refine fails_oneLevel hi fun opens => ?_
      have lt := (List.getElem?_eq_some_iff.1 opens).1
      by_cases inside : ∃ n, nestedWord n <+: ts.drop (i + 1)
      · -- A word inside is not closed, or else a longer one would stand here.
        obtain ⟨n, inside⟩ := inside
        refine .inr ⟨_, _, matches_nested defined inside, fun closes => none (n + 1) ?_⟩
        exact nestedWord_succ_prefix_iff.2 ⟨opens, inside, closes⟩
      · exact .inl (ih (ts.length - (i + 1)) (by omega) lt (not_exists.1 inside) rfl)
    have last : (constant zero (eq 'x')).Fails grammar ts i :=
      fails_map_iff.2 (fails_eq hi fun atom => none 0 (nestedWord_zero_prefix_iff.2 atom))
    exact (fails_rule_iff defined hi).2 (fails_choice_pair hi level last)

/-- What the rule fails with. -/
theorem eq_of_answers_failure_nested {reason : Reason} (hi : i ≤ ts.length)
    (h : (rule id name).Answers grammar ts i (.failure reason j)) :
    reason.kind = .expected ∧ j = i := by
  obtain ⟨rfl, rfl⟩ := eq_of_answers_failure_choice hi ((answers_rule_iff defined hi).1 h)
  exact ⟨rfl, rfl⟩

/-- **The rule matches the words, and nothing else.** -/
theorem matches_nested_iff (hi : i ≤ ts.length) :
    (rule id name).Matches grammar ts i v j ↔
      ∃ n, nestedWord n <+: ts.drop i ∧ v = Value.increment^[n] zero ∧ j = i + (nestedWord n).length := by
  constructor
  · intro matched
    by_cases here : ∃ n, nestedWord n <+: ts.drop i
    · obtain ⟨n, here⟩ := here
      obtain ⟨rfl, rfl⟩ := matched.unique (matches_nested defined here) hi
      exact ⟨n, here, rfl, rfl⟩
    · exact absurd (fails_nested defined hi (not_exists.1 here)) (matched.not_fails hi)
  · rintro ⟨n, here, rfl, rfl⟩
    exact matches_nested defined here

end Parser

end LazyPeg
