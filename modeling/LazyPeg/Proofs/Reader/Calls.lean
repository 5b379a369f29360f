import LazyPeg.Reader.Characters
import Mathlib.Data.List.Basic

/-!
# How far a reader is called

A decoder reads ahead: it fills its buffer and looks at bytes before it takes them.  But it never calls
its reader beyond a stop that it has not told yet.  `Script.behindStop` is a script as its first stop
leaves it, and `CharReader.atStop` is what becomes of the script when the next stop is told.  No
character changes that (`CharReader.atStop_next_some`), and the stop makes it come true
(`CharReader.script_next_none`).
-/
namespace LazyPeg.Reader

/-! ## 1. Scripts -/

/-- Some chunks as their first stop leaves them, where the reader was called `reads` times before.  A
chunk with bytes is worth one call for every filling of the buffer. -/
def Script.behindStop : List Chunk → Nat → Script
  | [], reads => ⟨[], reads + 1⟩
  | .data [] :: chunks, reads => ⟨chunks, reads + 1⟩
  | .data (_ :: bytes) :: chunks, reads => behindStop chunks (reads + (bytes.length / bufferSize + 1))
  | .fault _ :: chunks, reads => ⟨chunks, reads + 1⟩
  | .interruption _ :: chunks, reads => behindStop chunks (reads + 1)

theorem Script.behindStop_chunks (chunks : List Chunk) (reads : Nat) :
    (behindStop chunks reads).chunks <:+ chunks := by
  fun_induction behindStop chunks reads with
  | case1 => exact List.suffix_rfl
  | case3 _ _ _ _ ih => exact ih.trans (List.suffix_cons ..)
  | case5 _ _ _ ih => exact ih.trans (List.suffix_cons ..)
  | _ => exact List.suffix_cons ..

theorem Script.reads_le_behindStop (chunks : List Chunk) (reads : Nat) :
    reads ≤ (behindStop chunks reads).reads := by
  fun_induction behindStop chunks reads with
  | case3 _ _ _ _ ih => exact Nat.le_trans (Nat.le_add_right ..) ih
  | case5 _ _ _ ih => exact Nat.le_trans (Nat.le_succ _) ih
  | _ => exact Nat.le_succ _

/-- What is left of a chunk is worth the other calls. -/
theorem Script.behindStop_putBack (b : UInt8) (bytes : List UInt8) (chunks : List Chunk) (reads : Nat) :
    behindStop (putBack (b :: bytes) bufferSize chunks) (reads + 1) =
      behindStop (.data (b :: bytes) :: chunks) reads := by
  unfold putBack
  split
  next whole =>
    have one : bytes.length / bufferSize = 0 := Nat.div_eq_of_lt whole
    rw [behindStop, one]
  next more =>
    obtain ⟨c, cs, rest⟩ : ∃ c cs, (b :: bytes).drop bufferSize = c :: cs :=
      List.exists_cons_of_ne_nil (by simpa using more)
    have count : cs.length + 1 = bytes.length + 1 - bufferSize := by
      rw [← List.length_cons, ← rest, List.length_drop, List.length_cons]
    have calls : 1 + (cs.length / bufferSize + 1) = bytes.length / bufferSize + 1 := by
      unfold bufferSize at count more ⊢
      simp only [List.length_cons] at more
      omega
    rw [rest, behindStop, behindStop, Nat.add_assoc, calls]

/-- The bytes of a call leave the stop where it is, and the stop is met by the last call for it. -/
theorem Script.readFrom_behindStop (chunks : List Chunk) (reads : Nat) :
    match readFrom bufferSize chunks reads with
    | (.data (_ :: _), s) => behindStop s.chunks s.reads = behindStop chunks reads
    | (_, s) => s = behindStop chunks reads := by
  induction chunks generalizing reads with
  | nil => rfl
  | cons chunk chunks ih =>
    match chunk with
    | .data [] => rfl
    | .data (b :: bytes) => exact behindStop_putBack b bytes chunks reads
    | .fault message => rfl
    | .interruption message => exact ih (reads + 1)

/-! ## 2. Buffers -/

/-- The script of a reader when the next stop was met. -/
def Buffered.atStop (r : Buffered) : Script := .behindStop r.script.chunks r.script.reads

theorem Buffered.next_atStop (r : Buffered) :
    match r.next with
    | (.byte _, s) => s.atStop = r.atStop
    | (.stop _, s) => s.script = r.atStop := by
  obtain ⟨⟨chunks, reads⟩, _ | ⟨b, rest⟩⟩ := r
  case cons => rfl
  case nil =>
    have called := Script.readFrom_behindStop chunks reads
    simp only [next, Script.read]
    rcases hr : Script.readFrom bufferSize chunks reads with ⟨(_ | ⟨b, rest⟩) | message, s⟩ <;>
      rw [hr] at called <;> exact called

/-! ## 3. Decoders -/

namespace CharReader

variable {r s : CharReader} {x : UInt8} {c : Char} {fault : Option String}

/-- The script of a decoder when the next stop was told.  A stop that was looked at was met before. -/
def atStop (r : CharReader) : Script :=
  match r.peeked with
  | some (.stop _) => r.bytes.script
  | _ => r.bytes.atStop

theorem atStop_takeItem_byte (h : r.takeItem = (.byte x, s)) : s.atStop = r.atStop := by
  obtain ⟨bytes, _ | item, kept⟩ := r
  · have met := bytes.next_atStop
    simp only [takeItem, Prod.mk.injEq] at h
    obtain ⟨byte, rfl⟩ := h
    rcases hn : bytes.next with ⟨item, rest⟩
    rw [hn] at met byte
    subst byte
    exact met
  · obtain ⟨rfl, rfl⟩ := Prod.mk.inj h
    rfl

theorem script_takeItem_stop (h : r.takeItem = (.stop fault, s)) : s.bytes.script = r.atStop := by
  obtain ⟨bytes, _ | item, kept⟩ := r
  · have met := bytes.next_atStop
    simp only [takeItem, Prod.mk.injEq] at h
    obtain ⟨stop, rfl⟩ := h
    rcases hn : bytes.next with ⟨item, rest⟩
    rw [hn] at met stop
    subst stop
    exact met
  · obtain ⟨rfl, rfl⟩ := Prod.mk.inj h
    rfl

/-- To look at a stop is not to call beyond it. -/
theorem atStop_peek (r : CharReader) : r.peek.2.atStop = r.atStop := by
  rcases hr : r.takeItem with ⟨x | fault, s⟩
  · simp only [peek, hr]
    rw [← atStop_takeItem_byte hr, atStop, atStop, ← congrArg (·.2.peeked) hr, r.peeked_takeItem]
  · have met := script_takeItem_stop hr
    simp only [peek, hr]
    exact met

theorem atStop_takeByte_some (h : r.takeByte = (some x, s)) : s.atStop = r.atStop := by
  unfold takeByte at h
  split at h
  next b t hr =>
    obtain ⟨-, rfl⟩ := Prod.mk.inj h
    exact atStop_takeItem_byte hr
  next => exact absurd (Prod.mk.inj h).1 nofun

theorem script_takeByte_none (h : r.takeByte = (none, s)) : s.bytes.script = r.atStop := by
  unfold takeByte at h
  split at h
  next => exact absurd (Prod.mk.inj h).1 nofun
  next fault t hr =>
    have met := script_takeItem_stop hr
    obtain ⟨-, rfl⟩ := Prod.mk.inj h
    exact met

theorem atStop_takeContinuation (r : CharReader) : r.takeContinuation.2.atStop = r.atStop := by
  have looked := r.atStop_peek
  unfold takeContinuation
  split
  next b t hp =>
    rw [hp] at looked
    split
    · -- what was looked at is a byte, and the same byte is taken
      rcases hb : t.takeByte with ⟨_ | y, u⟩
      · have again : t.takeItem.1 = .byte b := by
          simp only [peek, Prod.mk.injEq] at hp
          rw [← hp.2, ← hp.1]
          rfl
        rw [takeByte] at hb
        rcases ht : t.takeItem with ⟨item, v⟩
        rw [ht] at again hb
        subst again
        exact absurd (Prod.mk.inj hb).1 (Option.some_ne_none b)
      · exact (atStop_takeByte_some hb).trans looked
    · exact looked
  next fault t hp =>
    rw [hp] at looked
    exact looked

theorem atStop_takeContinuations (n : Nat) (r : CharReader) :
    (takeContinuations n r).2.atStop = r.atStop := by
  induction n generalizing r with
  | zero => rfl
  | succ n ih =>
    have first := r.atStop_takeContinuation
    unfold takeContinuations
    split
    next s hs => rwa [hs] at first
    next b s hs =>
      rw [hs] at first
      exact (ih s).trans first

/-- **No character calls the reader beyond the next stop.** -/
theorem atStop_next_some (h : r.next = (some c, s)) : s.atStop = r.atStop := by
  unfold next at h
  split at h
  next => exact absurd (Prod.mk.inj h).1 nofun
  next first t ht =>
    have taken := atStop_takeByte_some ht
    split at h <;> obtain ⟨-, rfl⟩ := Prod.mk.inj h
    · exact taken
    · exact taken
    · exact (atStop_takeContinuations _ t).trans taken

/-- **A stop leaves the script as it was to leave it.** -/
theorem script_next_none (h : r.next = (none, s)) : s.bytes.script = r.atStop := by
  unfold next at h
  split at h
  next t ht =>
    obtain ⟨-, rfl⟩ := Prod.mk.inj h
    exact script_takeByte_none ht
  next first t ht => split at h <;> exact absurd (Prod.mk.inj h).1 nofun

/-- The calls for the next stop and those before it, and the chunks behind it. -/
theorem reads_le_atStop (r : CharReader) : r.bytes.script.reads ≤ r.atStop.reads := by
  unfold atStop
  split
  · exact Nat.le_refl _
  · exact Script.reads_le_behindStop ..

theorem chunks_atStop (r : CharReader) : r.atStop.chunks <:+ r.bytes.script.chunks := by
  unfold atStop
  split
  · exact List.suffix_rfl
  · exact Script.behindStop_chunks ..

end CharReader

end LazyPeg.Reader
