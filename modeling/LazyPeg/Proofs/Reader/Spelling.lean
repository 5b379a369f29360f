import LazyPeg.Proofs.Reader.Groups
import LazyPeg.Reader.Characters
import Mathlib.Data.List.TakeWhile

/-!
# The text of the bytes to come

A decoder takes one item after the other and makes a text of the bytes between the stops.  Which text
that is can be said without it (`Utf8.decode`), and what the decoder does is said once for every step:
what it answers, and which items are left (`CharReader.Spells`).  **Up to the next stop it finds the text
of the bytes before it** (`CharReader.Spells.collect`).
-/
namespace LazyPeg.Utf8

/-! ## 1. The text of some bytes -/

/-- How many continuation bytes a first byte announces. -/
def wanted (first : UInt8) : Nat := (width? first).elim 0 (· - 1)

/-- The first continuation bytes of some bytes, at most `n`. -/
def continuations (n : Nat) (bytes : List UInt8) : List UInt8 :=
  (bytes.take n).takeWhile isContinuation

/-- The text of some bytes of which the first `used` belong to the character before. -/
def decodeFrom : Nat → List UInt8 → List Char
  | _, [] => []
  | used + 1, _ :: bytes => decodeFrom used bytes
  | 0, first :: bytes =>
    let group := continuations (wanted first) bytes
    (groupChar? first group).getD replacement :: decodeFrom group.length bytes

/-- The text of some bytes.  A group that is no character, and what begins none, is replaced. -/
def decode (bytes : List UInt8) : List Char := decodeFrom 0 bytes

theorem decodeFrom_eq (used : Nat) (bytes : List UInt8) :
    decodeFrom used bytes = decode (bytes.drop used) := by
  induction used generalizing bytes with
  | zero => rfl
  | succ used ih =>
    cases bytes with
    | nil => rfl
    | cons first bytes => exact ih bytes

@[simp] theorem decode_nil : decode [] = [] := rfl

theorem decode_cons (first : UInt8) (bytes : List UInt8) :
    decode (first :: bytes) =
      (groupChar? first (continuations (wanted first) bytes)).getD replacement ::
        decode (bytes.drop (continuations (wanted first) bytes).length) :=
  congrArg (_ :: ·) (decodeFrom_eq _ bytes)

theorem continuations_succ (n : Nat) (b : UInt8) (bytes : List UInt8) :
    continuations (n + 1) (b :: bytes) =
      if isContinuation b then b :: continuations n bytes else [] := by
  rw [continuations, List.take_succ_cons, List.takeWhile_cons]
  rfl

theorem continuations_append_drop (n : Nat) (bytes : List UInt8) :
    continuations n bytes ++ bytes.drop (continuations n bytes).length = bytes :=
  List.prefix_iff_eq_append.1 ((List.takeWhile_prefix _).trans (List.take_prefix n bytes))

theorem length_continuations_le (n : Nat) (bytes : List UInt8) : (continuations n bytes).length ≤ n :=
  Nat.le_trans (List.takeWhile_prefix _).length_le (List.length_take_le n bytes)

theorem all_continuations (n : Nat) (bytes : List UInt8) :
    (continuations n bytes).all isContinuation := List.all_takeWhile

theorem wanted_le (first : UInt8) : wanted first ≤ 3 := by
  rcases width?_eq_or first with ⟨hw, -⟩ | ⟨w, le, hw⟩ | hw
  · simp [wanted, hw]
  · simp only [wanted, hw, Option.elim_some]
    omega
  · simp [wanted, hw]

/-- Of a whole group all bytes are taken. -/
theorem continuations_of_group {first : UInt8} {rest : List UInt8} {c : Char}
    (h : groupChar? first rest = some c) (bytes : List UInt8) :
    continuations (wanted first) (rest ++ bytes) = rest := by
  rcases width?_eq_or first with ⟨hw, -⟩ | ⟨w, -, hw⟩ | hw
  · obtain ⟨rfl, -⟩ : rest = [] ∧ _ := by simpa [groupChar?, hw] using h
    simp [continuations, wanted, hw]
  · rw [groupChar?_of_width hw] at h
    obtain ⟨⟨len, all⟩, -⟩ := Option.ite_none_right_eq_some.1 h
    have number : wanted first = rest.length := by simp [wanted, hw, len]
    rw [continuations, number, List.take_left, List.takeWhile_eq_self_iff]
    exact List.all_eq_true.1 all
  · simp [groupChar?, hw] at h

/-- An encoded text begins with the group of its first character. -/
theorem exists_encode_cons (c : Char) (text : List Char) :
    ∃ first rest, first :: rest = String.utf8EncodeChar c ∧
      encode (c :: text) = first :: (rest ++ encode text) := by
  obtain ⟨first, rest, hg⟩ : ∃ first rest, String.utf8EncodeChar c = first :: rest :=
    List.exists_cons_of_ne_nil String.utf8EncodeChar_ne_nil
  refine ⟨first, rest, hg.symm, ?_⟩
  rw [encode, List.flatMap_cons, hg, List.cons_append]
  rfl

/-- **An encoded text is found again.** -/
theorem decode_encode (text : List Char) : decode (encode text) = text := by
  induction text with
  | nil => rfl
  | cons c text ih =>
    obtain ⟨first, rest, hg, bytes⟩ := exists_encode_cons c text
    have char := groupChar?_eq_some.2 hg
    rw [bytes, decode_cons, continuations_of_group char, char, List.drop_left, ih, Option.getD_some]

/-- **Bytes are the encoding of their text** unless something in it was replaced. -/
theorem encode_decode {bytes : List UInt8} (h : replacement ∉ decode bytes) :
    encode (decode bytes) = bytes := by
  induction hn : bytes.length using Nat.strongRecOn generalizing bytes with
  | ind n ih =>
    cases bytes with
    | nil => rfl
    | cons first bytes =>
      rw [decode_cons, List.mem_cons, not_or] at h
      obtain ⟨c, char⟩ : ∃ c, groupChar? first (continuations (wanted first) bytes) = some c := by
        refine Option.ne_none_iff_exists'.1 fun none => h.1 ?_
        rw [none, Option.getD_none]
      have shorter : (bytes.drop (continuations (wanted first) bytes).length).length < n := by
        simp only [List.length_drop, ← hn, List.length_cons]
        omega
      have rest := ih _ shorter h.2 rfl
      rw [decode_cons, char, Option.getD_some, encode, List.flatMap_cons, ← groupChar?_eq_some.1 char,
        List.cons_append]
      rw [encode] at rest
      rw [rest, continuations_append_drop]

end LazyPeg.Utf8

namespace LazyPeg.Reader

open Utf8 (continuations wanted)

namespace CharReader

variable {r : CharReader} {x : UInt8} {bytes : List UInt8} {item : Item} {items : List Item}
  {fault : Option String}

/-! ## 2. Single steps -/

/-- The items that a decoder still takes, perhaps with some ends of the file behind the last one. -/
def Spells (r : CharReader) (items : List Item) : Prop :=
  ∃ n, r.items ++ List.replicate n (.stop none) = items

theorem fault_takeItem (r : CharReader) : r.takeItem.2.fault = r.fault := by
  obtain ⟨bytes, _ | item, fault⟩ := r <;> rfl

theorem Spells.takeItem (h : r.Spells (item :: items)) :
    ∃ s, r.takeItem = (item, s) ∧ s.Spells items ∧ s.fault = r.fault := by
  obtain ⟨n, hn⟩ := h
  obtain ⟨first, rest⟩ := r.takeItem_eq
  match hr : r.items, n with
  | [], 0 => simp [hr] at hn
  | [], n + 1 =>
    obtain ⟨rfl, behind⟩ := List.cons.inj (hr ▸ hn)
    exact ⟨_, Prod.ext (by rw [first, hr]; rfl) rfl, ⟨n, by rw [rest, hr]; exact behind⟩, r.fault_takeItem⟩
  | item' :: items', n =>
    obtain ⟨rfl, behind⟩ := List.cons.inj (hr ▸ hn)
    exact ⟨_, Prod.ext (by rw [first, hr]; rfl) rfl, ⟨n, by rw [rest, hr]; exact behind⟩, r.fault_takeItem⟩

/-- What was told before leaves ends of the file. -/
theorem Spells.takeItem_nil (h : r.Spells []) :
    ∃ s, r.takeItem = (.stop none, s) ∧ s.Spells [] ∧ s.fault = r.fault := by
  obtain ⟨n, hn⟩ := h
  obtain ⟨none, -⟩ : r.items = [] ∧ n = 0 := by simpa using hn
  obtain ⟨first, rest⟩ := r.takeItem_eq
  exact ⟨r.takeItem.2, Prod.ext (by rw [first, none]; rfl) rfl, ⟨0, by rw [rest, none]; rfl⟩,
    r.fault_takeItem⟩

theorem Spells.takeByte (h : r.Spells (.byte x :: items)) :
    ∃ s, r.takeByte = (some x, s) ∧ s.Spells items ∧ s.fault = r.fault := by
  obtain ⟨s, hs, rest⟩ := h.takeItem
  exact ⟨s, by rw [CharReader.takeByte, hs], rest⟩

/-- What was looked at is still to come. -/
theorem peek_of_takeItem {s : CharReader} (h : r.takeItem = (item, s)) :
    ∃ t, r.peek = (item, t) ∧ t.items = item :: s.items := by
  have nothing : s.peeked = none := by
    rw [← r.peeked_takeItem, h]
  refine ⟨{ s with peeked := some item }, by rw [peek, h], ?_⟩
  simp only [items, nothing, Option.toList_some, Option.toList_none, List.nil_append,
    List.singleton_append]

/-- What was looked at is still to be taken, and its fault is not recorded yet. -/
theorem Spells.peek (h : r.Spells (item :: items)) :
    ∃ s, r.peek = (item, s) ∧ s.Spells (item :: items) ∧ s.fault = r.fault := by
  obtain ⟨t, ht, ⟨n, hn⟩, kept⟩ := h.takeItem
  obtain ⟨s, hs, looked⟩ := peek_of_takeItem ht
  refine ⟨s, hs, ⟨n, by rw [looked, List.cons_append, hn]⟩, ?_⟩
  rw [CharReader.peek, ht] at hs
  exact (congrArg CharReader.fault (Prod.mk.inj hs).2.symm).trans kept

/-- A continuation byte is taken, and anything else is left. -/
theorem Spells.takeContinuation (h : r.Spells (item :: items)) :
    (∃ x s, item = .byte x ∧ Utf8.isContinuation x ∧ r.takeContinuation = (some x, s) ∧ s.Spells items ∧
      s.fault = r.fault) ∨
    (∃ s, (∀ x, item = .byte x → ¬ Utf8.isContinuation x) ∧ r.takeContinuation = (none, s) ∧
      s.Spells (item :: items) ∧ s.fault = r.fault) := by
  obtain ⟨t, ht, looked, kept⟩ := h.peek
  match item with
  | .stop fault => exact .inr ⟨t, by simp, by rw [CharReader.takeContinuation, ht], looked, kept⟩
  | .byte x =>
    by_cases hx : Utf8.isContinuation x
    · obtain ⟨s, hs, rest, kept'⟩ := looked.takeByte
      exact .inl ⟨x, s, rfl, hx, by rw [CharReader.takeContinuation, ht]; simp only [hx, if_true, hs], rest,
        kept'.trans kept⟩
    · exact .inr ⟨t, fun y hy => Item.byte.inj hy ▸ hx,
        by rw [CharReader.takeContinuation, ht]; simp only [hx, if_false, Bool.false_eq_true], looked, kept⟩

/-- Exactly the continuation bytes are taken, and no stop. -/
theorem Spells.takeContinuations (n : Nat)
    (h : r.Spells (bytes.map .byte ++ .stop fault :: items)) :
    ∃ s, CharReader.takeContinuations n r =
        (if (continuations n bytes).length = n then some (continuations n bytes) else none, s) ∧
      s.Spells ((bytes.drop (continuations n bytes).length).map .byte ++ .stop fault :: items) ∧
      s.fault = r.fault := by
  induction n generalizing r bytes with
  | zero => exact ⟨r, rfl, h, rfl⟩
  | succ n ih =>
    cases bytes with
    | nil =>
      obtain ⟨x, s, stop, -⟩ | ⟨s, -, hs, rest⟩ := Spells.takeContinuation h
      · cases stop
      · exact ⟨s, by simp [CharReader.takeContinuations, hs, continuations], rest⟩
    | cons b bytes =>
      rw [Utf8.continuations_succ]
      obtain ⟨x, s, hb, hx, hs, rest, kept⟩ | ⟨s, hx, hs, rest⟩ := Spells.takeContinuation h
      · obtain rfl := Item.byte.inj hb
        obtain ⟨t, ht, rest', kept'⟩ := ih rest
        refine ⟨t, ?_, ?_, kept'.trans kept⟩
        · simp only [CharReader.takeContinuations, hs, ht, hx, if_true, List.length_cons,
            Nat.add_right_cancel_iff]
          split <;> rfl
        · simpa [hx] using rest'
      · refine ⟨s, ?_, ?_⟩
        · simp [CharReader.takeContinuations, hs, hx b rfl]
        · simpa [hx b rfl] using rest

/-- A first byte that announces more bytes asks for them. -/
theorem next_of_width {s : CharReader} {w : Nat} (hr : r.takeByte = (some x, s)) (hw : Utf8.width? x = some (w + 2)) :
    r.next = (some (((takeContinuations (w + 1) s).1.bind (Utf8.decodeGroup? x)).getD
      Utf8.replacement), (takeContinuations (w + 1) s).2) := by
  rw [next, hr]
  simp [hw]

/-- **The next character** is the first one of the bytes before the next stop, and nothing of the stop
is told yet. -/
theorem Spells.next (h : r.Spells ((x :: bytes).map .byte ++ .stop fault :: items)) :
    ∃ s, r.next = (some ((Utf8.groupChar? x (continuations (wanted x) bytes)).getD Utf8.replacement), s) ∧
      s.Spells ((bytes.drop (continuations (wanted x) bytes).length).map .byte ++ .stop fault :: items) ∧
      s.fault = r.fault := by
  obtain ⟨t, ht, rest, kept⟩ := Spells.takeByte h
  rcases Utf8.width?_eq_or x with ⟨hw, -⟩ | ⟨w, -, hw⟩ | hw
  · exact ⟨t, by rw [CharReader.next, ht]; simp [hw, wanted, continuations, Utf8.groupChar?],
      by simpa [wanted, hw, continuations] using rest, kept⟩
  · have number : wanted x = w + 1 := by simp [wanted, hw]
    obtain ⟨s, hs, rest', kept'⟩ := rest.takeContinuations (w + 1)
    rw [number]
    refine ⟨s, ?_, rest', kept'.trans kept⟩
    rw [next_of_width ht hw, hs, Utf8.groupChar?_of_width hw]
    simp only [Utf8.all_continuations, and_true]
    split <;> rfl
  · exact ⟨t, by rw [CharReader.next, ht]; simp [hw, Utf8.groupChar?],
      by simpa [wanted, hw, continuations] using rest, kept⟩

/-- A stop is told once, and its fault is recorded then. -/
theorem Spells.next_stop (h : r.Spells (.stop fault :: items)) :
    ∃ s, r.next = (none, s) ∧ s.Spells items ∧ s.fault = r.fault.or fault := by
  obtain ⟨s, hs, rest, kept⟩ := h.takeItem
  exact ⟨s.record fault, by rw [CharReader.next, CharReader.takeByte, hs], rest, by rw [record, kept]⟩

theorem Spells.next_nil (h : r.Spells []) :
    ∃ s, r.next = (none, s) ∧ s.Spells [] ∧ s.fault = r.fault := by
  obtain ⟨s, hs, rest, kept⟩ := h.takeItem_nil
  exact ⟨s.record none, by rw [CharReader.next, CharReader.takeByte, hs], rest,
    by rw [record, Option.or_none, kept]⟩

/-- **All characters up to a stop** are the text of the bytes before it. -/
theorem Spells.collect (h : r.Spells (bytes.map .byte ++ .stop fault :: items)) :
    ∃ s, r.collect = (Utf8.decode bytes, s) ∧ s.Spells items ∧ s.fault = r.fault.or fault := by
  induction hn : bytes.length using Nat.strongRecOn generalizing r bytes with
  | ind n ih =>
    cases bytes with
    | nil =>
      obtain ⟨s, hs, rest⟩ := Spells.next_stop h
      exact ⟨s, by rw [collect_eq, hs]; rfl, rest⟩
    | cons x bytes =>
      obtain ⟨s, hs, rest, kept⟩ := Spells.next h
      have shorter : (bytes.drop (continuations (wanted x) bytes).length).length < n := by
        simp only [List.length_drop, ← hn, List.length_cons]
        omega
      obtain ⟨t, ht, behind, status⟩ := ih _ shorter rest rfl
      refine ⟨t, ?_, behind, status.trans (by rw [kept])⟩
      rw [collect_eq, hs, Utf8.decode_cons]
      simp only [ht]

end CharReader

end LazyPeg.Reader
