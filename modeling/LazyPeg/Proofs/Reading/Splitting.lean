import LazyPeg.Proofs.Reading.Repetition

/-!
# Splitting a repetition

Laws of the loop `Reading.repeated`, and of the repetitions that are made with it.

* §1: parses in a row may be grouped as one likes, and what goes on behind a parse need be known only for
  what the parse gives.
* §2: where every match moves on, the matches that are needed make no difference to the loop
  (`repeated_need`), and it can be cut in two behind any number of matches (`repeated_add`).  A match that
  moves nowhere would stop the whole loop, but of the two parts only the first.
* §3: how repetitions and pairs are read, in terms of §1 and §2.  A parser that consumes has matches that
  move on (`Consumes.moves`), and behind all of them it fails (`Consumes.fails_behind_many`).
-/
namespace LazyPeg

/-! ## 1. One parse after the other -/

namespace Reading

variable {α β γ δ : Type}

protected theorem pure_bind (b : β) (f : β → Reading α γ) : pure b >>= f = f b := by
  rw [pure_eq, ok_bind]
  cases f b <;> simp

protected theorem bind_pure (c : Reading α β) : c >>= pure = c := by
  rcases c with _ | ⟨name | b, events, reach⟩
  · rfl
  · rfl
  · simp [ok_bind, pure_eq]

protected theorem bind_assoc (c : Reading α β) (f : β → Reading α γ) (g : γ → Reading α δ) :
    c >>= f >>= g = c >>= fun b => f b >>= g := by
  rcases c with _ | ⟨name | b, events, reach⟩
  · rfl
  · rfl
  · simp only [ok_bind]
    rcases f b with _ | ⟨name | d, events', reach'⟩
    · rfl
    · rfl
    · simp only [ok_bind]
      cases g d <;> simp [Nat.max_assoc]

/-- What goes on in the same way behind everything that a parse gives is the same. -/
theorem bind_congr_of_gives {c : Reading α β} {f g : β → Reading α γ} (h : ∀ b, c.Gives b → f b = g b) :
    c >>= f = c >>= g := by
  rcases c with _ | ⟨name | b, events, reach⟩
  · rfl
  · rfl
  · simp only [ok_bind, h b ⟨events, reach, rfl⟩]

/-! ## 2. The loop -/

/-- Every match of a step moves on, and stays in the list. -/
def Moves (ts : List α) (step : Nat → Reading α (Outcome α Nat)) : Prop :=
  ∀ i ≤ ts.length, ∀ v j, (step i).Gives (.success v j) → i < j ∧ j ≤ ts.length

variable {ts : List α} {step : Nat → Reading α (Outcome α Nat)} {room need i j : Nat}

/-- The loop collects no more than it has room for. -/
theorem length_le_of_repeated {row : List (Value α) × Nat} (h : (repeated step room need i).Gives row) :
    row.1.length ≤ room := by
  induction room generalizing need i row with
  | zero =>
    obtain rfl := gives_pure_iff.1 h
    exact Nat.le_refl 0
  | succ room ih =>
    obtain ⟨r, -, h⟩ := gives_bind.1 h
    cases r with
    | failure reason k =>
      obtain rfl := gives_pure_iff.1 h
      exact Nat.zero_le _
    | success v k =>
      simp only at h
      split at h
      · obtain rfl := gives_pure_iff.1 h
        exact Nat.succ_le_succ (Nat.zero_le room)
      · obtain ⟨row', hrow, h⟩ := gives_bind.1 h
        obtain rfl := gives_pure_iff.1 h
        exact Nat.succ_le_succ (ih hrow)

/-- One step of the loop behind matches that move on. -/
theorem repeated_succ (moves : Moves ts step) (hi : i ≤ ts.length) (room need : Nat) :
    repeated step (room + 1) need i = step i >>= fun
      | .failure .. => pure ([], i)
      | .success v j => do
        let row ← repeated step room (need - 1) j
        return (v :: row.1, row.2) := by
  rw [repeated]
  refine bind_congr_of_gives fun r hr => ?_
  cases r with
  | failure reason j => rfl
  | success v j =>
    have moved : ¬ (j = i ∧ need ≤ 1) := fun still => absurd (moves i hi v j hr).1 (by omega)
    simp only [moved, if_false]

/-- Where the matches stay in the list, so does the loop. -/
theorem le_length_of_repeated (moves : Moves ts step) (hi : i ≤ ts.length) {row : List (Value α) × Nat}
    (h : (repeated step room need i).Gives row) : row.2 ≤ ts.length := by
  induction room generalizing need i row with
  | zero =>
    obtain rfl := gives_pure_iff.1 h
    exact hi
  | succ room ih =>
    rw [repeated_succ moves hi] at h
    obtain ⟨r, hr, h⟩ := gives_bind.1 h
    cases r with
    | failure reason k =>
      obtain rfl := gives_pure_iff.1 h
      exact hi
    | success v k =>
      obtain ⟨row', hrow, h⟩ := gives_bind.1 h
      obtain rfl := gives_pure_iff.1 h
      change row'.2 ≤ ts.length
      exact ih (moves i hi v k hr).2 hrow

/-- Where every match moves on, the matches that are needed do not matter. -/
theorem repeated_need (moves : Moves ts step) (hi : i ≤ ts.length) (room need need' : Nat) :
    repeated step room need i = repeated step room need' i := by
  induction room generalizing need need' i with
  | zero => rfl
  | succ room ih =>
    rw [repeated_succ moves hi, repeated_succ moves hi]
    refine bind_congr_of_gives fun r hr => ?_
    cases r with
    | failure reason j => rfl
    | success v j => simp only [ih (moves i hi v j hr).2 (need - 1) (need' - 1)]

/-- **Where every match moves on, a loop is the loop over its first matches, and if all of them are made,
the loop over the others.** -/
theorem repeated_add (moves : Moves ts step) (hi : i ≤ ts.length) (first rest need : Nat) :
    repeated step (first + rest) need i = repeated step first need i >>= fun row =>
      if row.1.length < first then pure row else do
        let more ← repeated step rest need row.2
        return (row.1 ++ more.1, more.2) := by
  induction first generalizing i with
  | zero =>
    rw [Nat.zero_add, repeated, Reading.pure_bind, if_neg (Nat.not_lt_zero _)]
    exact (Reading.bind_pure _).symm
  | succ first ih =>
    rw [Nat.add_right_comm, repeated_succ moves hi, repeated_succ moves hi, Reading.bind_assoc]
    refine bind_congr_of_gives fun r hr => ?_
    cases r with
    | failure reason j => exact (Reading.pure_bind _ _).symm
    | success v j =>
      have inside := (moves i hi v j hr).2
      simp only [repeated_need moves inside _ (need - 1) need, ih inside, Reading.bind_assoc]
      refine bind_congr_of_gives fun row _ => ?_
      rw [Reading.pure_bind]
      by_cases few : row.1.length < first
      · simp only [few, List.length_cons, Nat.add_lt_add_iff_right, if_true, Reading.pure_bind]
      · simp only [few, List.length_cons, Nat.add_lt_add_iff_right, if_false, Reading.bind_assoc,
          Reading.pure_bind, List.cons_append]

end Reading

/-! ## 3. Repetitions as parsers -/

namespace Parser

variable {α : Type} [Token α] [DecidableEq α] {ts : List α}
  {call : RuleId → String → Nat → Reading α (Outcome α Nat)} {grammar : Grammar α} {q : Parser α}
  {i j : Nat} {v : Value α}

/-- The items of two lists in a row. -/
def joinLists {α : Type} (v : Value α) : Value α :=
  match v with
  | .tuple [.list items, .list more] => .list (items ++ more)
  | v => v

theorem read_many_between (least most : Nat) (q : Parser α) (i : Nat) :
    (many (.between least most) q).read ts call i =
      Reading.repeated (q.read ts call) most least i >>= fun row =>
        pure (if row.1.length < least then .failure (.tooFew least q.name) i
          else .success (.list row.1) row.2) := by
  rw [read]
  exact Reading.bind_congr_of_gives fun row _ => (apply_ite pure (row.1.length < least) _ _).symm

theorem read_many_exactly (count : Nat) (q : Parser α) (i : Nat) :
    (many (.exactly count) q).read ts call i = (many (.between count count) q).read ts call i := by
  rw [read, read]
  rfl

/-- A pair of parsers is read one after the other. -/
theorem read_tuple_pair (p q : Parser α) (i : Nat) :
    (tuple [p, q]).read ts call i = (do
      match ← p.read ts call i with
      | .failure .. => return .failure (.missing p.name) i
      | .success v j =>
        match ← q.read ts call j with
        | .failure .. => return .failure (.missing q.name) i
        | .success w k => return .success (.tuple [v, w]) k) := by
  rw [tuple, read, readAll, Reading.bind_assoc]
  refine Reading.bind_congr_of_gives fun r _ => ?_
  cases r with
  | failure reason j => rw [Reading.pure_bind]
  | success v j =>
    simp only [readAll, Reading.bind_assoc]
    refine Reading.bind_congr_of_gives fun r' _ => ?_
    cases r' with
    | failure reason k => simp only [Reading.pure_bind]
    | success w k => simp only [Reading.pure_bind]

/-- A parser that consumes moves on with each match, at every depth. -/
theorem Consumes.moves (h : q.Consumes grammar) (depth : Nat) :
    Reading.Moves ts (q.readDepth grammar ts depth) := by
  rintro i hi v j ⟨events, reach, hc⟩
  exact ⟨h ts i _ v j hi ⟨depth, hc⟩ rfl, (spans_readDepth depth q hi).place_le hi ⟨events, reach, hc⟩⟩

theorem Consumes.lt (h : q.Consumes grammar) (hi : i ≤ ts.length) (matched : q.Matches grammar ts i v j) :
    i < j := by
  obtain ⟨c, hc, ha⟩ := matched
  exact h ts i c v j hi hc ha

/-- **Behind all its matches a parser that consumes fails.** -/
theorem Consumes.fails_behind_many (h : q.Consumes grammar) (hi : i ≤ ts.length)
    (fits : ts.length < i + unlimited) (matched : (many .any q).Matches grammar ts i v j) :
    q.Fails grammar ts j := by
  obtain ⟨c, hc, ha⟩ := id matched
  obtain ⟨offsets, values, k, rfl, repeats⟩ := exists_repeats_of_reads hi hc ha
  obtain ⟨tries, reach, -, reads⟩ := repeats.reads_many hi
  obtain ⟨-, rfl⟩ := matched.unique ⟨_, reads, congrArg Except.ok (if_pos (Nat.zero_le k))⟩ hi
  exact repeats.fails_of_lt hi (fun t ht =>
    h.lt (repeats.le_length hi (Nat.le_of_lt ht)) (repeats.matched t ht)) fits

end Parser

end LazyPeg
