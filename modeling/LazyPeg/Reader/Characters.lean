import LazyPeg.Reader.Script
import LazyPeg.Reader.Utf8

/-!
# Reading characters

`CharReader` decodes the bytes of a reader one character at a time.  Bytes that encode no character
give the replacement character, and a byte that only ends an unfinished group is not used up: it is
looked at before it is taken.  A fault ends the characters like the end of the file does; that it was
a fault is kept in the status, which holds the first fault until it is taken out.

A decoder takes its items one after the other (`takeItem_eq`), and every character uses up a byte
(`bytesLeft_next_lt`).  So taking all characters up to a stop is taking the next one and then the
others (`collect_eq`).  Whether a fault is kept makes no difference to them (`collect_withFault`).
-/
namespace LazyPeg.Reader

/-- A decoder of characters: the bytes, an item that was looked at but not taken, and the first fault
that ended the characters and was not yet taken out. -/
structure CharReader where
  bytes : Buffered
  peeked : Option Item
  fault : Option String
  deriving DecidableEq, Repr

namespace CharReader

/-- A decoder of what a reader gives. -/
def ofScript (script : Script) : CharReader := ⟨⟨script, []⟩, none, none⟩

/-! ## 1. Bytes -/

/-- Take the next item, the one looked at before if there is one. -/
def takeItem (r : CharReader) : Item × CharReader :=
  match r.peeked with
  | some item => (item, { r with peeked := none })
  | none =>
    let (item, bytes) := r.bytes.next
    (item, { r with bytes })

/-- Keep a fault unless one is already kept. -/
def record (r : CharReader) (fault : Option String) : CharReader :=
  { r with fault := r.fault.or fault }

/-- Take the next byte.  Taking a stop records its fault. -/
def takeByte (r : CharReader) : Option UInt8 × CharReader :=
  match r.takeItem with
  | (.byte b, r) => (some b, r)
  | (.stop fault, r) => (none, r.record fault)

/-- Look at the next item without taking it. -/
def peek (r : CharReader) : Item × CharReader :=
  let (item, r) := r.takeItem
  (item, { r with peeked := some item })

/-- Take the next byte if it continues a group. -/
def takeContinuation (r : CharReader) : Option UInt8 × CharReader :=
  match r.peek with
  | (.byte b, r) => if Utf8.isContinuation b then r.takeByte else (none, r)
  | (.stop _, r) => (none, r)

/-- Take `n` continuation bytes, or as many of them as there are.  The answer is the bytes taken if
none was missing. -/
def takeContinuations : Nat → CharReader → Option (List UInt8) × CharReader
  | 0, r => (some [], r)
  | n + 1, r =>
    match r.takeContinuation with
    | (none, r) => (none, r)
    | (some b, r) =>
      let (rest, r) := takeContinuations n r
      (rest.map (b :: ·), r)

/-! ## 2. Characters -/

/-- Take the next character.  The answer is `none` for a stop. -/
def next (r : CharReader) : Option Char × CharReader :=
  match r.takeByte with
  | (none, r) => (none, r)
  | (some first, r) =>
    match Utf8.width? first with
    | none => (some Utf8.replacement, r)
    | some 1 => (some (Char.ofNat first.toNat), r)
    | some width =>
      let (rest, r) := takeContinuations (width - 1) r
      (some ((rest.bind (Utf8.decodeGroup? first)).getD Utf8.replacement), r)

/-! ## 3. What a decoder still gives -/

/-- The items that a decoder has still to take.  After the last of them every item is an end of the
file. -/
def items (r : CharReader) : List Item := r.peeked.toList ++ r.bytes.items

/-- A decoder takes its items one after the other. -/
theorem takeItem_eq (r : CharReader) :
    r.takeItem.1 = r.items.headD (.stop none) ∧ r.takeItem.2.items = r.items.tail := by
  obtain ⟨bytes, _ | item, fault⟩ := r
  case none => simpa [takeItem, items] using bytes.next_eq
  case some => simp [takeItem, items]

theorem peeked_takeItem (r : CharReader) : r.takeItem.2.peeked = none := by
  obtain ⟨bytes, _ | item, fault⟩ := r <;> rfl

/-- How many bytes can still come: an upper bound on the number of characters. -/
def bytesLeft (r : CharReader) : Nat := r.items.countP Item.isByte

theorem bytesLeft_takeItem (r : CharReader) :
    (if r.takeItem.1.isByte then 1 else 0) + r.takeItem.2.bytesLeft = r.bytesLeft := by
  unfold bytesLeft
  rw [r.takeItem_eq.1, r.takeItem_eq.2]
  cases r.items with
  | nil => rfl
  | cons item items => simp [List.countP_cons, Nat.add_comm]

@[simp] theorem bytesLeft_record (r : CharReader) (fault : Option String) :
    (r.record fault).bytesLeft = r.bytesLeft := rfl

theorem bytesLeft_takeByte (r : CharReader) :
    (if r.takeByte.1.isSome then 1 else 0) + r.takeByte.2.bytesLeft = r.bytesLeft := by
  rw [← r.bytesLeft_takeItem]
  unfold takeByte
  split <;> simp_all [Item.isByte]

@[simp] theorem bytesLeft_peek (r : CharReader) : r.peek.2.bytesLeft = r.bytesLeft := by
  rw [← r.bytesLeft_takeItem]
  simp [peek, bytesLeft, items, List.countP_cons, peeked_takeItem, Nat.add_comm]

theorem bytesLeft_takeContinuation_le (r : CharReader) :
    r.takeContinuation.2.bytesLeft ≤ r.bytesLeft := by
  have looked := r.bytesLeft_peek
  unfold takeContinuation
  split
  next b s h =>
    rw [h] at looked
    split
    · rw [← looked, ← s.bytesLeft_takeByte]
      omega
    · simp [looked]
  next fault s h => simp [← looked, h]

theorem bytesLeft_takeContinuations_le (n : Nat) (r : CharReader) :
    (takeContinuations n r).2.bytesLeft ≤ r.bytesLeft := by
  induction n generalizing r with
  | zero => simp [takeContinuations]
  | succ n ih =>
    have first := r.bytesLeft_takeContinuation_le
    unfold takeContinuations
    split
    next s h => simpa [h] using first
    next b s h => exact Nat.le_trans (ih s) (by simpa [h] using first)

/-- A character uses up at least one byte. -/
theorem bytesLeft_next_lt {r : CharReader} (h : r.next.1.isSome) : r.next.2.bytesLeft < r.bytesLeft := by
  have first := r.bytesLeft_takeByte
  unfold next at h ⊢
  split at h
  next => simp at h
  next b s hs =>
    have used : s.bytesLeft < r.bytesLeft := by simp_all; omega
    split
    next => exact used
    next => exact used
    next width hw => exact Nat.lt_of_le_of_lt (bytesLeft_takeContinuations_le _ _) used

/-! ## 4. All characters up to a stop -/

/-- Take characters up to the next stop, at most `limit` of them, after those taken before, which
stand in reverse. -/
def collectUpTo : Nat → CharReader → List Char → List Char × CharReader
  | 0, r, taken => (taken.reverse, r)
  | limit + 1, r, taken =>
    match r.next with
    | (none, r) => (taken.reverse, r)
    | (some c, r) => collectUpTo limit r (c :: taken)

/-- Take all characters up to the next stop. -/
def collect (r : CharReader) : List Char × CharReader :=
  collectUpTo (r.bytesLeft + 1) r []

theorem collectUpTo_eq_append (limit : Nat) (r : CharReader) (taken : List Char) :
    collectUpTo limit r taken =
      (taken.reverse ++ (collectUpTo limit r []).1, (collectUpTo limit r []).2) := by
  induction limit generalizing r taken with
  | zero => simp [collectUpTo]
  | succ limit ih =>
    unfold collectUpTo
    split
    next s hs => simp
    next c s hs =>
      rw [ih s (c :: taken), ih s [c]]
      simp

/-- Every limit above the number of bytes is as good as none. -/
theorem collectUpTo_eq_collect {limit : Nat} {r : CharReader} (h : r.bytesLeft < limit) :
    collectUpTo limit r [] = r.collect := by
  suffices same : ∀ m n (s : CharReader), s.bytesLeft < m → s.bytesLeft < n →
      collectUpTo m s [] = collectUpTo n s [] from same _ _ _ h (Nat.lt_succ_self _)
  intro m
  induction m with
  | zero => intro n s hm; exact absurd hm (Nat.not_lt_zero _)
  | succ m ih =>
    intro n s hm hn
    obtain ⟨n, rfl⟩ := Nat.exists_eq_add_one_of_ne_zero (Nat.ne_zero_of_lt hn)
    unfold collectUpTo
    split
    next => rfl
    next c s' hs =>
      have used := bytesLeft_next_lt (r := s) (by simp [hs])
      simp only [hs] at used
      rw [collectUpTo_eq_append m, collectUpTo_eq_append n, ih n s' (by omega) (by omega)]

/-- The characters up to a stop are the next one and those behind it. -/
theorem collect_eq (r : CharReader) :
    r.collect =
      match r.next with
      | (none, s) => ([], s)
      | (some c, s) => (c :: s.collect.1, s.collect.2) := by
  rw [collect, collectUpTo]
  split
  next s hs => simp
  next c s hs =>
    have used := bytesLeft_next_lt (r := r) (by simp [hs])
    simp only [hs] at used
    rw [collectUpTo_eq_append, collectUpTo_eq_collect used]
    simp

/-- There are no more characters than bytes. -/
theorem length_collect_le (r : CharReader) : r.collect.1.length ≤ r.bytesLeft := by
  induction h : r.bytesLeft using Nat.strongRecOn generalizing r with
  | ind n ih =>
    rw [collect_eq]
    split
    next => simp
    next c s hs =>
      have used := bytesLeft_next_lt (r := r) (by simp [hs])
      simp only [hs, h] at used
      have rest := ih _ used s rfl
      simp only [List.length_cons]
      omega

/-! ## 5. The status -/

/-- No fault is kept. -/
def isOk (r : CharReader) : Bool := r.fault.isNone

/-- Take out the fault that is kept. -/
def takeFault (r : CharReader) : Option String × CharReader :=
  (r.fault, { r with fault := none })

/-- How the status is shown. -/
def showStatus (fault : Option String) : String :=
  match fault with
  | none => "ReadStatus(Ok)"
  | some message => "ReadStatus(Err(" ++ message ++ "))"

/-! ## 6. A kept fault changes no character -/

/-- The fault that is kept has no say in what comes next. -/
theorem takeItem_withFault (r : CharReader) (fault : Option String) :
    ({ r with fault } : CharReader).takeItem = (r.takeItem.1, { r.takeItem.2 with fault }) := by
  obtain ⟨bytes, _ | item, kept⟩ := r <;> rfl

theorem takeByte_withFault (r : CharReader) (fault : Option String) :
    ∃ fault', ({ r with fault } : CharReader).takeByte =
      (r.takeByte.1, { r.takeByte.2 with fault := fault' }) := by
  unfold takeByte
  rw [takeItem_withFault]
  obtain ⟨item | item, s⟩ := r.takeItem
  · exact ⟨fault, rfl⟩
  · exact ⟨_, rfl⟩

theorem takeContinuation_withFault (r : CharReader) (fault : Option String) :
    ∃ fault', ({ r with fault } : CharReader).takeContinuation =
      (r.takeContinuation.1, { r.takeContinuation.2 with fault := fault' }) := by
  unfold takeContinuation peek
  rw [takeItem_withFault]
  obtain ⟨b | stop, s⟩ := r.takeItem
  · simp only
    split
    · exact takeByte_withFault { s with peeked := some (.byte b) } fault
    · exact ⟨fault, rfl⟩
  · exact ⟨fault, rfl⟩

theorem takeContinuations_withFault (n : Nat) (r : CharReader) (fault : Option String) :
    ∃ fault', takeContinuations n { r with fault } =
      ((takeContinuations n r).1, { (takeContinuations n r).2 with fault := fault' }) := by
  induction n generalizing r fault with
  | zero => exact ⟨fault, rfl⟩
  | succ n ih =>
    obtain ⟨fault', h⟩ := r.takeContinuation_withFault fault
    simp only [takeContinuations, h]
    obtain ⟨_ | b, s⟩ := r.takeContinuation
    · exact ⟨fault', rfl⟩
    · obtain ⟨fault'', h'⟩ := ih s fault'
      exact ⟨fault'', by simp only [h']⟩

theorem next_withFault (r : CharReader) (fault : Option String) :
    ∃ fault', ({ r with fault } : CharReader).next = (r.next.1, { r.next.2 with fault := fault' }) := by
  obtain ⟨fault', h⟩ := r.takeByte_withFault fault
  simp only [next, h]
  obtain ⟨_ | first, s⟩ := r.takeByte
  · exact ⟨fault', rfl⟩
  · simp only
    split
    · exact ⟨fault', rfl⟩
    · exact ⟨fault', rfl⟩
    · rename_i width _ _
      obtain ⟨fault'', h'⟩ := takeContinuations_withFault (width - 1) s fault'
      exact ⟨fault'', by simp only [h']⟩

/-- Nor in the characters up to the next stop. -/
theorem collect_withFault (r : CharReader) (fault : Option String) :
    ({ r with fault } : CharReader).collect.1 = r.collect.1 := by
  induction h : r.bytesLeft using Nat.strongRecOn generalizing r fault with
  | ind n ih =>
    obtain ⟨fault', hnext⟩ := r.next_withFault fault
    rw [collect_eq, collect_eq, hnext]
    rcases hn : r.next with ⟨_ | c, s⟩
    · rfl
    · have used := bytesLeft_next_lt (r := r) (by simp [hn])
      simp only [hn, h] at used
      exact congrArg (c :: ·) (ih _ used s fault' rfl)

end CharReader

end LazyPeg.Reader
