import LazyPeg.Reader.Characters

/-!
# Feeds

A feed gives tokens one at a time, each of them once.  It is what a sequence is read from.  Asking a
feed never fails: `none` means that no token comes this time.  Seen from outside a feed is the list of
its `tokens`, those before the first `none` (`next_fst`, `tokens_next`).
-/
namespace LazyPeg

/-- Where the tokens of a sequence come from. -/
inductive Feed (α : Type) where
  /-- The tokens of a list. -/
  | items (rest : List α)
  /-- Answers written down beforehand; after the last of them there is no token. -/
  | answers (rest : List (Option α))
  /-- `current`, then `rounds` times `unit`, then `after`. -/
  | rounds (current unit : List α) (rounds : Nat) (after : List α)
  /-- The characters that a reader's bytes encode. -/
  | reader (r : Reader.CharReader) (ofChar : Char → α)

namespace Feed

variable {α : Type}

/-- Ask for the next token. -/
def next : Feed α → Option α × Feed α
  | items [] => (none, items [])
  | items (t :: rest) => (some t, items rest)
  | answers [] => (none, answers [])
  | answers (answer :: rest) => (answer, answers rest)
  | rounds (t :: current) unit n after => (some t, rounds current unit n after)
  | rounds [] (t :: unit) (n + 1) after => (some t, rounds unit (t :: unit) n after)
  | rounds [] [] _ (t :: after) => (some t, items after)
  | rounds [] _ 0 (t :: after) => (some t, items after)
  | rounds [] _ _ [] => (none, items [])
  | reader r ofChar =>
    let (c, r) := r.next
    (c.map ofChar, reader r ofChar)

/-- An upper bound on the number of tokens still to come. -/
def bound : Feed α → Nat
  | items rest => rest.length
  | answers rest => rest.length
  | rounds current unit n after => current.length + n * unit.length + after.length
  | reader r _ => r.bytesLeft

/-- The tokens that a feed gives before it first answers that there is none. -/
def tokens : Feed α → List α
  | items rest => rest
  | answers rest => (rest.takeWhile Option.isSome).filterMap id
  | rounds current unit n after => current ++ (List.replicate n unit).flatten ++ after
  | reader r ofChar => r.collect.1.map ofChar

/-- A feed gives its tokens one after the other; where they end it answers that there is none. -/
theorem next_fst (f : Feed α) : f.next.1 = f.tokens.head? := by
  fun_cases next f with
  | case4 answer rest => cases answer <;> simp [tokens]
  | case9 unit n more =>
    match unit, n, more with
    | [], n, _ => simp [tokens]
    | t :: unit, 0, _ => simp [tokens]
    | t :: unit, n + 1, more => exact absurd rfl (more t unit n rfl)
  | case10 r ofChar c s hs =>
    rw [tokens, r.collect_eq, hs]
    cases c <;> simp
  | _ => simp [tokens, List.replicate_succ]

/-- What a feed gives after a token are the tokens behind it. -/
theorem tokens_next {f : Feed α} (h : f.next.1.isSome) : f.next.2.tokens = f.tokens.tail := by
  revert h
  fun_cases next f with
  | case4 answer rest => cases answer <;> simp [tokens]
  | case9 => simp
  | case10 r ofChar c s hs =>
    rw [tokens, tokens, r.collect_eq, hs]
    cases c <;> simp
  | _ => simp [tokens, List.replicate_succ]

/-- There are no more tokens than the bound says. -/
theorem length_tokens_le (f : Feed α) : f.tokens.length ≤ f.bound := by
  match f with
  | items rest => simp [tokens, bound]
  | answers rest =>
    exact Nat.le_trans (List.length_filterMap_le _ _) (List.takeWhile_prefix _).length_le
  | rounds current unit n after => simp [tokens, bound, Nat.add_assoc]
  | reader r ofChar => simpa [tokens, bound] using r.length_collect_le

/-- The fault that a reader's status keeps; feeds without a reader have no status. -/
def status? : Feed α → Option (Option String)
  | reader r _ => some r.fault
  | _ => none

/-- Take the fault out of the status. -/
def clearStatus : Feed α → Feed α
  | reader r ofChar => reader r.takeFault.2 ofChar
  | feed => feed

/-- Taking the fault out of the status leaves the tokens as they are. -/
@[simp] theorem tokens_clearStatus (f : Feed α) : f.clearStatus.tokens = f.tokens := by
  match f with
  | items _ => rfl
  | answers _ => rfl
  | rounds .. => rfl
  | reader r ofChar => exact congrArg (List.map ofChar) (r.collect_withFault none)

end Feed

end LazyPeg
