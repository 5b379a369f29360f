import LazyPeg.Proofs.Reader.Calls
import LazyPeg.Proofs.Reader.Segments
import LazyPeg.Proofs.Store.History

/-!
# Sequences over readers

What a sequence knows of its reader.  Its tokens are the text of the first segment of the script
(`Feed.tokens_reader`), the reader is never called beyond the first stop (`Source.Within`), and as soon
as the sequence has ended the status keeps the fault of that stop, if it is one
(`Source.Owes.status?`).

Both are invariants of the two things that are done to a sequence: a question to its feed, as long as it
has not ended, and taking the fault out of the status.  `Store.Goes.keeps` carries such an invariant
through a whole history.
-/
namespace LazyPeg

/-! ## 1. What every question keeps -/

namespace Source

variable {α : Type} {s : Source α} {P : Source α → Prop}

theorem force_keeps (pull : ∀ s, P s → s.ended = false → P s.pull) (h : P s) (o : Nat) :
    P (s.force o) := by
  unfold force
  split
  next => exact h
  next late => exact pull s h (ended_of_not_reached (by simpa using late))

theorem forceTo_keeps (pull : ∀ s, P s → s.ended = false → P s.pull) (h : P s) (o : Nat) :
    P (s.forceTo o) := by
  induction o with
  | zero => exact h
  | succ o ih => exact force_keeps pull ih (o + 1)

end Source

namespace Store

variable {α : Type} {st : Store α} {feeds : List (Feed α)} {forced : List Position} {f : Feed α}
  {n : Nat} {P : Source α → Prop}

/-- What holds of one sequence of a store still holds when each sequence was changed in a way that keeps
it. -/
theorem exists_source_update {source : Nat} {g : Source α → Source α} (hg : ∀ s, P s → P (g s))
    (h : ∃ s, st.sources[n]? = some s ∧ P s) : ∃ s, (st.update source g).sources[n]? = some s ∧ P s := by
  obtain ⟨s, hs, hp⟩ := h
  rw [getElem?_update, hs]
  split
  · exact ⟨g s, rfl, hg s hp⟩
  · exact ⟨s, rfl, hp⟩

/-- **An invariant of questions.**  What holds of a sequence of which nothing was read, and is kept by
every question to its feed and by taking out a fault, holds of it in every store. -/
theorem Goes.keeps (h : new.Goes feeds forced st) (hf : feeds[n]? = some f)
    (start : P (Source.ofFeed f)) (pull : ∀ s, P s → s.ended = false → P s.pull)
    (clear : ∀ s, P s → P { s with feed := s.feed.clearStatus }) :
    ∃ s, st.sources[n]? = some s ∧ P s := by
  induction h with
  | refl => exact absurd hf (by simp)
  | @opened feeds _ st' before feed ih =>
    have size : st'.sources.size = feeds.length := before.size_eq.trans (Nat.zero_add _)
    rw [getElem?_add, size]
    split
    next last =>
      subst last
      obtain rfl : feed = f := by simpa using hf
      exact ⟨_, rfl, pull _ start rfl⟩
    next other =>
      have inside : n < feeds.length := by
        have := (List.getElem?_eq_some_iff.1 hf).1
        simp only [List.length_append, List.length_singleton] at this
        omega
      exact ih (by rwa [List.getElem?_append_left inside] at hf)
  | @moved _ _ st' p _ hp ih =>
    rw [tail_eq hp]
    match p with
    | .empty => exact ih hf
    | .mark source offset =>
      exact exists_source_update (fun s hs => Source.forceTo_keeps pull hs _) (ih hf)
  | cleared _ source ih => exact exists_source_update clear (ih hf)

end Store

/-! ## 2. The script -/

section Reader

open Reader

variable {α : Type} {ofChar : Char → α} {s : Source α} {r : CharReader} {chunks : List Chunk}
  {fault : Option String}

/-- **A sequence over a reader holds the text of the first segment.** -/
theorem Feed.tokens_reader (chunks : List Chunk) (ofChar : Char → α) :
    (Feed.reader (.ofScript (.ofChunks chunks)) ofChar).tokens =
      (Utf8.decode (firstSegment chunks).bytes).map ofChar := by
  obtain ⟨items, spells⟩ := exists_spells_firstSegment chunks
  obtain ⟨s, hs, -⟩ := spells.collect
  rw [Feed.tokens, hs]

namespace Source

/-- The reader of a sequence was called up to the stop before which its characters end, and not beyond
it.  When the sequence has ended that stop was told. -/
def Within (final : Script) (ofChar : Char → α) (s : Source α) : Prop :=
  ∃ r, s.feed = .reader r ofChar ∧ if s.ended then r.bytes.script = final else r.atStop = final

theorem Within.pull {final : Script} (h : s.Within final ofChar) (going : s.ended = false) :
    s.pull.Within final ofChar := by
  obtain ⟨r, hr, at_stop⟩ := h
  obtain ⟨feed, seen, ended, pulls⟩ := s
  obtain rfl : ended = false := going
  obtain rfl : feed = .reader r ofChar := hr
  simp only [Bool.false_eq_true, if_false] at at_stop
  subst at_stop
  rcases hn : r.next with ⟨_ | c, r'⟩
  · exact ⟨r', by simp [Source.pull, Feed.next, hn],
      by simpa [Source.pull, Feed.next, hn] using CharReader.script_next_none hn⟩
  · exact ⟨r', by simp [Source.pull, Feed.next, hn],
      by simpa [Source.pull, Feed.next, hn] using CharReader.atStop_next_some hn⟩

theorem Within.clearStatus {final : Script} (h : s.Within final ofChar) :
    ({ s with feed := s.feed.clearStatus } : Source α).Within final ofChar := by
  obtain ⟨r, hr, at_stop⟩ := h
  exact ⟨r.takeFault.2, by rw [hr]; rfl, at_stop⟩

theorem Within.script {final : Script} (h : s.Within final ofChar) :
    ∃ r, s.feed = .reader r ofChar ∧ r.bytes.script.reads ≤ final.reads ∧
      final.chunks <:+ r.bytes.script.chunks := by
  obtain ⟨r, hr, at_stop⟩ := h
  refine ⟨r, hr, ?_⟩
  split at at_stop
  next => exact at_stop ▸ ⟨Nat.le_refl _, List.suffix_rfl⟩
  next => exact at_stop ▸ ⟨r.reads_le_atStop, r.chunks_atStop⟩

/-! ## 3. The status -/

/-- The status of a sequence that ends before a stop: no fault while characters come, and then the fault
of the stop. -/
def Owes (fault : Option String) (ofChar : Char → α) (s : Source α) : Prop :=
  ∃ r, s.feed = .reader r ofChar ∧
    if s.ended then r.fault = fault
    else r.fault = none ∧
      ∃ (bytes : List UInt8) (items : List Item), r.Spells (bytes.map .byte ++ .stop fault :: items)

theorem Owes.pull (h : s.Owes fault ofChar) (going : s.ended = false) : s.pull.Owes fault ofChar := by
  obtain ⟨r, hr, owed⟩ := h
  obtain ⟨feed, seen, ended, pulls⟩ := s
  obtain rfl : ended = false := going
  obtain rfl : feed = .reader r ofChar := hr
  simp only [Bool.false_eq_true, if_false] at owed
  obtain ⟨clean, bytes, items, spells⟩ := owed
  cases bytes with
  | nil =>
    obtain ⟨r', hn, -, status⟩ := CharReader.Spells.next_stop spells
    exact ⟨r', by simp [Source.pull, Feed.next, hn], by simp [Source.pull, Feed.next, hn, status, clean]⟩
  | cons x bytes =>
    obtain ⟨r', hn, rest, status⟩ := CharReader.Spells.next spells
    refine ⟨r', by simp [Source.pull, Feed.next, hn], ?_⟩
    simp only [Source.pull, Feed.next, hn, Option.map_some, Bool.false_eq_true, if_false]
    exact ⟨status.trans clean, _, items, rest⟩

theorem owes_ofFeed (chunks : List Chunk) (ofChar : Char → α) :
    (ofFeed (.reader (.ofScript (.ofChunks chunks)) ofChar)).Owes (firstSegment chunks).fault ofChar := by
  obtain ⟨items, spells⟩ := exists_spells_firstSegment chunks
  exact ⟨_, rfl, rfl, _, _, spells⟩

theorem Owes.forceTo (h : s.Owes fault ofChar) (o : Nat) : (s.forceTo o).Owes fault ofChar :=
  forceTo_keeps (fun _ hs going => hs.pull going) h o

/-- **The end is never seen without its reason.**  If a sequence over a reader has ended, and nobody has
taken out the fault, then the status keeps the fault of the stop before which it ended. -/
theorem Owes.status? (h : s.Owes fault ofChar) (ended : s.ended) : s.feed.status? = some fault := by
  obtain ⟨r, hr, owed⟩ := h
  rw [if_pos ended] at owed
  rw [hr, Feed.status?, owed]

/-- A sequence whose place behind the last token was reached has ended. -/
theorem ended_of_reached_length (h : s.reached s.tokens.length) : s.ended := by
  simp only [reached, Bool.or_eq_true, decide_eq_true_eq] at h
  refine h.resolve_left fun more => ?_
  simp only [tokens, List.length_append, Array.length_toList] at more
  omega

end Source

/-- When all places of a sequence over a reader were reached, its status is decided. -/
theorem Store.status?_of_ended {st : Store α} {n i o : Nat} {ts : List α} {held : Source α}
    (shows : st.Shows (.mark n i) ts i) (ho : o ≤ ts.length) (all : ts.length ≤ max i o)
    (hs : st.sources[n]? = some held) (owes : held.Owes fault ofChar) :
    (st.forceTo (.mark n i) o).status? n = some fault := by
  obtain ⟨s, hs', reached, -⟩ := (shows.forceTo ho all).reached
  have tokens : held.tokens = ts := by simpa [Store.sequence, hs] using shows.tokens
  rw [Store.forceTo, Store.getElem?_update, if_pos rfl, hs, Option.map_some] at hs'
  obtain rfl := Option.some.inj hs'
  rw [← tokens, ← Source.tokens_forceTo o] at reached
  rw [Store.status?, Store.forceTo, Store.getElem?_update, if_pos rfl, hs]
  exact (owes.forceTo o).status? (Source.ended_of_reached_length reached)

end Reader

end LazyPeg
