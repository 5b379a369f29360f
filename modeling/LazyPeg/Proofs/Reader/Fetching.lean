import LazyPeg.Proofs.Reader.Decoding
import LazyPeg.Proofs.Reader.Segments
import Mathlib.Order.Bounds.Defs

/-!
# Nothing is fetched before it is needed

Whoever reads from a terminal or a socket must not ask for more than he needs, because the question may
never be answered.  A decoder looks at bytes before it takes them, and behind it there is a buffer, so there
are two places where it could ask too early.  It does not: **when a character was found, the reader was
called just often enough for its last byte** (`CharReader.reads_least`).

* §1 says what single calls of a reader give (`Script.returned`), interruptions included.
* §2 is the accounting.  `CharReader.fetched` is what a decoder has at hand after some more calls, and
  `CharReader.Spends` says that it has used up some bytes and has made only the calls for them.  A decoder
  that takes a byte spends it, and what is spent one after the other is spent together.
* §3 goes from bytes to characters.
-/
namespace LazyPeg.Reader

open Utf8 (continuations wanted)

/-! ## 1. Single calls -/

/-- The bytes of an answer. -/
def Answer.bytes : Answer → List UInt8
  | data bytes => bytes
  | fault _ => []

namespace Script

/-- A single call of a reader for at most `limit` bytes: the bytes that it gives, and the chunks that are
left.  A fault, an interruption and the end of the file give no bytes. -/
def call (limit : Nat) : List Chunk → List UInt8 × List Chunk
  | [] => ([], [])
  | .data bytes :: chunks => (bytes.take limit, putBack bytes limit chunks)
  | .fault _ :: chunks => ([], chunks)
  | .interruption _ :: chunks => ([], chunks)

/-- The bytes that the next `n` calls give. -/
def returned (limit : Nat) : Nat → List Chunk → List UInt8
  | 0, _ => []
  | n + 1, chunks => (call limit chunks).1 ++ returned limit n (call limit chunks).2

theorem returned_prefix (limit : Nat) {m n : Nat} (h : m ≤ n) (chunks : List Chunk) :
    returned limit m chunks <+: returned limit n chunks := by
  induction m generalizing n chunks with
  | zero => exact List.nil_prefix
  | succ m ih =>
    obtain ⟨n, rfl⟩ := Nat.exists_eq_add_one_of_ne_zero (Nat.ne_zero_of_lt h)
    exact (List.prefix_append_right_inj _).2 (ih (Nat.le_of_succ_le_succ h) _)

/-- To call a reader until it answers is to make some calls that give nothing, and the one that gives the
answer. -/
theorem readFrom_returned (limit : Nat) (chunks : List Chunk) (reads : Nat) :
    ∃ idle, (readFrom limit chunks reads).2.reads = reads + (idle + 1) ∧
      returned limit idle chunks = [] ∧
      ∀ n, returned limit (idle + 1 + n) chunks =
        (readFrom limit chunks reads).1.bytes ++ returned limit n (readFrom limit chunks reads).2.chunks := by
  have answered {bytes : List UInt8} {rest : List Chunk} (h : call limit chunks = (bytes, rest)) (n : Nat) :
      returned limit (0 + 1 + n) chunks = bytes ++ returned limit n rest := by
    rw [Nat.zero_add, Nat.add_comm, returned, h]
  induction chunks generalizing reads with
  | nil => exact ⟨0, rfl, rfl, answered rfl⟩
  | cons chunk chunks ih =>
    match chunk with
    | .data bytes => exact ⟨0, rfl, rfl, answered rfl⟩
    | .fault message => exact ⟨0, rfl, rfl, answered rfl⟩
    | .interruption message =>
      obtain ⟨idle, calls, nothing, rest⟩ := ih (reads + 1) fun h n => by
        rw [Nat.zero_add, Nat.add_comm, returned, h]
      refine ⟨idle + 1, ?_, nothing, fun n => ?_⟩
      · rw [readFrom, calls]
        omega
      · rw [Nat.add_right_comm, returned]
        exact rest n

end Script

/-- The bytes at hand behind a buffer after `n` more calls of the reader. -/
def Buffered.fetched (r : Buffered) (n : Nat) : List UInt8 :=
  r.buffer ++ Script.returned bufferSize n r.script.chunks

/-! ## 2. What is spent -/

namespace CharReader

variable {r s t : CharReader} {x : UInt8} {c : Char} {g g' rest : List UInt8} {text : List Char}

/-- The bytes at hand after `n` more calls of the reader: one that was looked at, and those behind it. -/
def fetched (r : CharReader) (n : Nat) : List UInt8 := Item.bytes r.peeked.toList ++ r.bytes.fetched n

/-- A decoder has used up the bytes `g`, and made the fewest calls after which they were at hand.  All other
bytes are still there. -/
def Spends (r : CharReader) (g : List UInt8) (s : CharReader) : Prop :=
  ∃ n, s.bytes.script.reads = r.bytes.script.reads + n ∧ IsLeast {k | g <+: r.fetched k} n ∧
    ∀ k, r.fetched (n + k) = g ++ s.fetched k

theorem Spends.refl (r : CharReader) : r.Spends [] r :=
  ⟨0, rfl, ⟨List.nil_prefix, fun k _ => Nat.zero_le k⟩, fun k => by rw [Nat.zero_add, List.nil_append]⟩

theorem Spends.trans (h : r.Spends g s) (h' : s.Spends g' t) : r.Spends (g ++ g') t := by
  obtain ⟨n, calls, ⟨-, least⟩, rest⟩ := h
  obtain ⟨n', calls', ⟨-, least'⟩, rest'⟩ := h'
  have together (k : Nat) : r.fetched (n + n' + k) = g ++ g' ++ t.fetched k := by
    rw [Nat.add_assoc, rest, rest', List.append_assoc]
  refine ⟨n + n', by rw [calls', calls, Nat.add_assoc], ⟨?_, fun k hk => ?_⟩, together⟩
  · exact ⟨t.fetched 0, (together 0).symm⟩
  · -- the calls for the first part come first, and those behind them are for the second part
    obtain ⟨k, rfl⟩ := Nat.exists_eq_add_of_le (least ((List.prefix_append g g').trans hk))
    have both : g ++ g' <+: g ++ s.fetched k := rest k ▸ hk
    exact Nat.add_le_add_left (least' ((List.prefix_append_right_inj g).1 both)) n

/-- What is at hand is spent without a call. -/
theorem spends_of_fetched (calls : s.bytes.script.reads = r.bytes.script.reads)
    (h : ∀ k, r.fetched k = g ++ s.fetched k) : r.Spends g s :=
  ⟨0, calls, ⟨⟨s.fetched 0, (h 0).symm⟩, fun k _ => Nat.zero_le k⟩, fun k => by rw [Nat.zero_add, h]⟩

/-- **To take a byte is to spend it.**  The reader is called only if no byte is at hand, and only until it
gives some. -/
theorem spends_takeItem (h : r.takeItem = (.byte x, s)) : r.Spends [x] s := by
  obtain ⟨⟨⟨chunks, reads⟩, buffer⟩, peeked, kept⟩ := r
  match peeked, buffer with
  | some item, buffer =>
    obtain ⟨rfl, rfl⟩ := Prod.mk.inj h
    exact spends_of_fetched rfl fun _ => rfl
  | none, b :: buffer =>
    obtain ⟨same, rfl⟩ := Prod.mk.inj h
    obtain rfl := Item.byte.inj same
    exact spends_of_fetched rfl fun _ => rfl
  | none, [] =>
    obtain ⟨idle, calls, nothing, rest⟩ := Script.readFrom_returned bufferSize chunks reads
    simp only [takeItem, Buffered.next, Script.read] at h
    rcases hr : Script.readFrom bufferSize chunks reads with ⟨(_ | ⟨b, bytes⟩) | message, script⟩
    · rw [hr] at h
      cases h
    · rw [hr] at h calls rest
      obtain ⟨same, rfl⟩ := Prod.mk.inj h
      obtain rfl := Item.byte.inj same
      refine ⟨idle + 1, calls, ⟨⟨_, (rest 0).symm⟩, fun k hk => ?_⟩, rest⟩
      by_contra early
      have none : Script.returned bufferSize k chunks <+: [] :=
        nothing ▸ Script.returned_prefix bufferSize (Nat.le_of_lt_succ (Nat.lt_of_not_le early)) chunks
      exact List.cons_ne_nil _ _ (List.prefix_nil.1 (hk.trans none))
    · rw [hr] at h
      cases h

theorem spends_takeByte (h : r.takeByte = (some x, s)) : r.Spends [x] s := by
  unfold takeByte at h
  split at h
  next b t hr =>
    obtain ⟨same, rfl⟩ := Prod.mk.inj h
    obtain rfl := Option.some.inj same
    exact spends_takeItem hr
  next => cases h

/-- To take what was looked at is to take it at once. -/
theorem takeItem_peek (r : CharReader) : r.peek.2.takeItem = r.takeItem := by
  have nothing := r.peeked_takeItem
  rcases hr : r.takeItem with ⟨item, s⟩
  rw [hr] at nothing
  obtain ⟨bytes, peeked, kept⟩ := s
  obtain rfl : peeked = none := nothing
  rw [peek, hr]
  rfl

theorem spends_takeContinuation (h : r.takeContinuation = (some x, s)) : r.Spends [x] s := by
  have taken := r.takeItem_peek
  unfold takeContinuation at h
  split at h
  next b t hp =>
    rw [hp] at taken
    split at h
    · exact spends_takeByte (by rwa [takeByte, ← taken])
    · cases h
  next => cases h

theorem spends_takeContinuations {n : Nat} (h : takeContinuations n r = (some g, s)) : r.Spends g s := by
  induction n generalizing r g with
  | zero =>
    obtain ⟨same, rfl⟩ := Prod.mk.inj h
    obtain rfl := Option.some.inj same
    exact .refl r
  | succ n ih =>
    unfold takeContinuations at h
    split at h
    next => cases h
    next b t hb =>
      rcases hrest : takeContinuations n t with ⟨_ | g', u⟩
      · rw [hrest] at h
        cases h
      · rw [hrest] at h
        obtain ⟨same, rfl⟩ := Prod.mk.inj h
        obtain rfl := Option.some.inj same
        exact (spends_takeContinuation hb).trans (ih hrest)

/-! ## 3. Characters -/

/-- For the first byte of a whole group and the bytes behind it, nothing else is asked for. -/
theorem spends_next {first : UInt8} {group : List UInt8} {fault : Option String} {items : List Item}
    (char : Utf8.groupChar? first group = some c)
    (spells : r.Spells ((first :: (group ++ rest)).map .byte ++ .stop fault :: items))
    (h : r.next = (some c, s)) : r.Spends (first :: group) s := by
  obtain ⟨t, ht, behind, -⟩ := Spells.takeByte spells
  have begun := spends_takeByte ht
  rcases Utf8.width?_eq_or first with ⟨hw, -⟩ | ⟨w, -, hw⟩ | hw
  · obtain ⟨rfl, -⟩ : group = [] ∧ _ := by simpa [Utf8.groupChar?, hw] using char
    obtain rfl : t = s := by simpa [next, ht, hw] using (Prod.mk.inj h).2
    exact begun
  · have number : wanted first = w + 1 := by simp [wanted, hw]
    have whole : continuations (w + 1) (group ++ rest) = group :=
      number ▸ Utf8.continuations_of_group char rest
    obtain ⟨⟨len, -⟩, -⟩ := Option.ite_none_right_eq_some.1 (Utf8.groupChar?_of_width hw group ▸ char)
    obtain ⟨u, hu, -⟩ := behind.takeContinuations (w + 1)
    rw [whole, if_pos len] at hu
    rw [next_of_width ht hw, hu] at h
    obtain ⟨-, rfl⟩ := Prod.mk.inj h
    exact begun.trans (spends_takeContinuations hu)
  · simp [Utf8.groupChar?, hw] at char

/-- **A whole character is found, and only its bytes are spent.** -/
theorem exists_next_of_encoding (h : r.upcoming = String.utf8EncodeChar c ++ rest) :
    ∃ s, r.next = (some c, s) ∧ s.upcoming = rest ∧ r.Spends (String.utf8EncodeChar c) s := by
  obtain ⟨first, group, hg⟩ : ∃ first group, String.utf8EncodeChar c = first :: group :=
    List.exists_cons_of_ne_nil String.utf8EncodeChar_ne_nil
  have char : Utf8.groupChar? first group = some c := Utf8.groupChar?_eq_some.2 hg.symm
  have whole := Utf8.continuations_of_group char rest
  obtain ⟨fault, after, spells⟩ := r.exists_spells
  rw [h, hg, List.cons_append] at spells
  obtain ⟨s, hs, behind, -⟩ := Spells.next spells
  rw [whole, char, Option.getD_some] at hs
  rw [whole, List.drop_left] at behind
  exact ⟨s, hs, behind.upcoming_eq, hg ▸ spends_next char spells hs⟩

/-- The characters of a text, one after the other, spend its encoding. -/
theorem collectUpTo_of_encoding (h : r.upcoming = Utf8.encode text ++ rest) :
    ∃ s, collectUpTo text.length r [] = (text, s) ∧ r.Spends (Utf8.encode text) s := by
  induction text generalizing r with
  | nil => exact ⟨r, rfl, .refl r⟩
  | cons c text ih =>
    rw [Utf8.encode, List.flatMap_cons, List.append_assoc] at h
    obtain ⟨s, hs, behind, first⟩ := exists_next_of_encoding h
    obtain ⟨t, ht, others⟩ := ih behind
    refine ⟨t, ?_, first.trans others⟩
    rw [List.length_cons, collectUpTo, hs]
    simp only
    rw [collectUpTo_eq_append, ht]
    rfl

/-- **Nothing is read ahead.**  Let the bytes of a script before its first stop be the encoding of a text.
Right after the first `j` characters were found, the reader was called as often as it takes to get the bytes
of these characters, and no more: of all numbers of calls after which the returned bytes begin with them, it
is the least one.

That holds of every single character and in every state of a decoder, also behind damage and behind other
stops.  If a whole character comes next then it is found, and the reader is called as often as it takes to
have its bytes at hand; if they are at hand it is not called at all. -/
theorem reads_least {chunks : List Chunk} {text : List Char}
    (h : (firstSegment chunks).bytes = Utf8.encode text) :
    (∀ j ≤ text.length, ∃ s, collectUpTo j (ofScript (.ofChunks chunks)) [] = (text.take j, s) ∧
      IsLeast {n | Utf8.encode (text.take j) <+: Script.returned bufferSize n chunks}
        s.bytes.script.reads) ∧
    ∀ (r : CharReader) (c : Char) (rest : List UInt8), r.upcoming = String.utf8EncodeChar c ++ rest →
      ∃ n s, r.next = (some c, s) ∧ s.bytes.script.reads = r.bytes.script.reads + n ∧
        IsLeast {n | String.utf8EncodeChar c <+: r.fetched n} n := by
  constructor
  · intro j le
    obtain ⟨items, spells⟩ := exists_spells_firstSegment chunks
    have upcoming : (ofScript (.ofChunks chunks)).upcoming =
        Utf8.encode (text.take j) ++ Utf8.encode (text.drop j) := by
      rw [spells.upcoming_eq, h, Utf8.encode, Utf8.encode, Utf8.encode, ← List.flatMap_append,
        List.take_append_drop]
    obtain ⟨s, hs, n, calls, least, -⟩ := collectUpTo_of_encoding upcoming
    rw [List.length_take, Nat.min_eq_left le] at hs
    refine ⟨s, hs, ?_⟩
    rw [calls]
    change IsLeast _ (0 + n)
    rw [Nat.zero_add]
    exact least
  · intro r c rest hr
    obtain ⟨s, hs, -, n, calls, least, -⟩ := exists_next_of_encoding hr
    exact ⟨n, s, hs, calls, least⟩

/-- A reader that is interrupted before and within the first character, gives the second one together with
the last bytes of the first, and breaks off behind the third. -/
def piecemeal : List Chunk :=
  [.interruption "again", .data [0xE2], .interruption "again", .data [0x82, 0xAC, 0x62], .data [0x63],
    .fault "broken"]

/-- The decoder behind the first character: one byte is at hand, and none was looked at. -/
def behindEuro : CharReader := ⟨⟨⟨[.data [0x63], .fault "broken"], 4⟩, [0x62]⟩, none, none⟩

/-- The first character takes four calls, and the second one is at hand then.  All three take five calls,
and the fault is not met. -/
theorem reads_least_piecemeal :
    (firstSegment piecemeal).bytes = Utf8.encode ['€', 'b', 'c'] ∧
    collectUpTo 1 (ofScript (.ofChunks piecemeal)) [] = (['€'], behindEuro) ∧
    IsLeast {n | Utf8.encode ['€'] <+: Script.returned bufferSize n piecemeal} 4 ∧
    IsLeast {n | Utf8.encode ['€', 'b', 'c'] <+: Script.returned bufferSize n piecemeal} 5 ∧
    behindEuro.upcoming = String.utf8EncodeChar 'b' ++ [0x63] ∧
    IsLeast {n | String.utf8EncodeChar 'b' <+: behindEuro.fetched n} 0 := by
  have bytes : (firstSegment piecemeal).bytes = Utf8.encode ['€', 'b', 'c'] := by decide
  have first : collectUpTo 1 (ofScript (.ofChunks piecemeal)) [] = (['€'], behindEuro) := by decide
  have upcoming : behindEuro.upcoming = String.utf8EncodeChar 'b' ++ [0x63] := by decide
  obtain ⟨texts, characters⟩ := reads_least bytes
  obtain ⟨r, hr, one⟩ := texts 1 (by decide)
  obtain ⟨-, rfl⟩ := Prod.mk.inj (first.symm.trans hr)
  obtain ⟨s, hs, all⟩ := texts 3 (by decide)
  obtain ⟨-, rfl⟩ := Prod.mk.inj hs
  obtain ⟨n, t, ht, calls, second⟩ := characters behindEuro 'b' [0x63] upcoming
  obtain ⟨-, rfl⟩ := Prod.mk.inj ht
  have none : 4 = 4 + n := calls
  obtain rfl : n = 0 := by omega
  exact ⟨bytes, first, one, all, upcoming, second⟩

end CharReader

end LazyPeg.Reader
