import LazyPeg.Proofs.Reader.Spelling

/-!
# Decoding is faithful

A decoder of characters cuts the bytes up to the next stop into groups, one for every character
(`CharReader.Decodes`): no byte is lost and none is used twice.  A character other than the replacement
character stands for its own encoding, so whatever was damaged shows (`collect_faithful`).

* §1 is the bytes up to the next stop.
* §2 is one character: `next_group` says what it was made of.
* §3 is a whole run.
-/
namespace LazyPeg.Reader

open Utf8 (continuations wanted)

/-! ## 1. Bytes -/

/-- The bytes before the first stop. -/
def Item.bytes : List Item → List UInt8
  | .byte b :: items => b :: Item.bytes items
  | _ => []

theorem Item.bytes_append_stops (items : List Item) (n : Nat) :
    Item.bytes (items ++ List.replicate n (.stop none)) = Item.bytes items := by
  induction items with
  | nil => cases n <;> rfl
  | cons item items ih =>
    cases item with
    | byte b => exact congrArg (b :: ·) ih
    | stop fault => rfl

theorem Item.bytes_append {b : List UInt8} {after : List Item}
    (stops : ∀ item ∈ after.head?, item.isByte = false) : Item.bytes (b.map .byte ++ after) = b := by
  induction b with
  | nil =>
    match after, stops with
    | [], _ => rfl
    | .stop fault :: after, _ => rfl
    | .byte x :: after, stops => cases stops _ rfl
  | cons x b ih => exact congrArg (x :: ·) ih

/-- Behind the bytes there is a stop, perhaps the end of the file behind the last item. -/
theorem Item.exists_stop (items : List Item) :
    ∃ n fault after, items ++ List.replicate n (.stop none) =
      (Item.bytes items).map .byte ++ .stop fault :: after := by
  induction items with
  | nil => exact ⟨1, none, [], rfl⟩
  | cons item items ih =>
    cases item with
    | stop fault => exact ⟨0, fault, items, by simp [Item.bytes]⟩
    | byte b =>
      obtain ⟨n, fault, after, h⟩ := ih
      exact ⟨n, fault, after, congrArg (List.cons (Item.byte b)) h⟩

namespace CharReader

variable {r s : CharReader} {b : List UInt8} {c : Char}

/-- The bytes that come before the next stop. -/
def upcoming (r : CharReader) : List UInt8 := Item.bytes r.items

theorem exists_spells (r : CharReader) :
    ∃ fault after, r.Spells (r.upcoming.map .byte ++ .stop fault :: after) := by
  obtain ⟨n, fault, after, h⟩ := Item.exists_stop r.items
  exact ⟨fault, after, n, h⟩

theorem Spells.upcoming_eq {fault : Option String} {after : List Item}
    (h : r.Spells (b.map .byte ++ .stop fault :: after)) : r.upcoming = b := by
  obtain ⟨n, hn⟩ := h
  rw [upcoming, ← Item.bytes_append_stops r.items n, hn]
  exact Item.bytes_append fun item hitem => by
    obtain rfl := Option.some.inj hitem
    rfl

/-! ## 2. Characters -/

/-- A character and the group of bytes it stands for: one to four of them, and its encoding unless it
is the replacement character. -/
structure Fair (group : Char × List UInt8) : Prop where
  pos : 1 ≤ group.2.length
  le_four : group.2.length ≤ 4
  encoding : group.1 ≠ Utf8.replacement → group.2 = String.utf8EncodeChar group.1

/-- **What a character was made of.**  The bytes that it took are fair to it. -/
theorem next_group (h : r.next = (some c, s)) :
    ∃ g, r.upcoming = g ++ s.upcoming ∧ Fair (c, g) := by
  obtain ⟨fault, after, spells⟩ := r.exists_spells
  cases hb : r.upcoming with
  | nil =>
    rw [hb] at spells
    obtain ⟨t, ht, -⟩ := Spells.next_stop spells
    cases h.symm.trans ht
  | cons x bytes =>
    rw [hb] at spells
    obtain ⟨t, ht, rest, -⟩ := Spells.next spells
    obtain ⟨char, rfl⟩ := Prod.mk.inj (h.symm.trans ht)
    refine ⟨x :: continuations (wanted x) bytes, ?_, ?_⟩
    · rw [rest.upcoming_eq, List.cons_append, Utf8.continuations_append_drop]
    · have short := Utf8.length_continuations_le (wanted x) bytes
      have le := Utf8.wanted_le x
      refine ⟨by simp, by simp only [List.length_cons]; omega, fun known => ?_⟩
      cases hc : Utf8.groupChar? x (continuations (wanted x) bytes) with
      | none =>
        rw [hc] at char
        exact absurd (Option.some.inj char) known
      | some d =>
        rw [hc] at char
        obtain rfl := Option.some.inj char
        exact Utf8.groupChar?_eq_some.1 hc

/-! ## 3. Runs -/

/-- A decoder takes some groups of bytes, a character for each, up to a stop. -/
inductive Decodes : CharReader → List (Char × List UInt8) → CharReader → Prop where
  | stop {r s : CharReader} (h : r.next = (none, s)) : Decodes r [] s
  | step {r s t : CharReader} {c : Char} {g : List UInt8} {groups : List (Char × List UInt8)}
    (h : r.next = (some c, s)) (used : r.upcoming = g ++ s.upcoming) (rest : Decodes s groups t) :
    Decodes r ((c, g) :: groups) t

theorem Decodes.collect_eq {groups : List (Char × List UInt8)} (h : r.Decodes groups s) :
    r.collect = (groups.map Prod.fst, s) := by
  induction h with
  | stop h => rw [CharReader.collect_eq, h]; rfl
  | step h used rest ih =>
    rw [CharReader.collect_eq, h]
    simp only [ih, List.map_cons]

/-- No byte is lost and none is used twice. -/
theorem Decodes.bytes_eq {groups : List (Char × List UInt8)} (h : r.Decodes groups s) :
    groups.flatMap Prod.snd = r.upcoming := by
  induction h with
  | @stop r s h =>
    obtain ⟨fault, after, spells⟩ := r.exists_spells
    cases hb : r.upcoming with
    | nil => rfl
    | cons x b =>
      rw [hb] at spells
      obtain ⟨t, ht, -⟩ := Spells.next spells
      cases h.symm.trans ht
  | step h used rest ih => rw [List.flatMap_cons, ih, used]

/-- **Every decoder runs to a stop**, in fair groups. -/
theorem exists_decodes (r : CharReader) : ∃ groups s, r.Decodes groups s ∧ ∀ g ∈ groups, Fair g := by
  induction hn : r.bytesLeft using Nat.strongRecOn generalizing r with
  | ind n ih =>
    rcases hr : r.next with ⟨_ | c, s⟩
    · exact ⟨[], s, .stop hr, by simp⟩
    · have fewer : s.bytesLeft < n := by
        simpa [hr, hn] using bytesLeft_next_lt (r := r) (by simp [hr])
      obtain ⟨g, used, fair⟩ := next_group hr
      obtain ⟨groups, t, rest, all⟩ := ih _ fewer s rfl
      exact ⟨(c, g) :: groups, t, .step hr used rest, List.forall_mem_cons.2 ⟨fair, all⟩⟩

/-- Fair groups without a replaced one are an encoded text. -/
theorem bytes_eq_encode {groups : List (Char × List UInt8)} (fair : ∀ g ∈ groups, Fair g)
    (known : Utf8.replacement ∉ groups.map Prod.fst) :
    groups.flatMap Prod.snd = Utf8.encode (groups.map Prod.fst) := by
  rw [Utf8.encode, List.flatMap_map]
  refine List.flatMap_congr fun g hg => (fair g hg).encoding ?_
  rintro replaced
  exact known (List.mem_map.2 ⟨g, hg, replaced⟩)

/-- All characters up to the next stop are the text of the bytes before it. -/
theorem collect_eq_decode (r : CharReader) : r.collect.1 = Utf8.decode r.upcoming := by
  obtain ⟨fault, after, spells⟩ := r.exists_spells
  obtain ⟨s, hs, -⟩ := Spells.collect spells
  rw [hs]

/-- **An encoded text is found.** -/
theorem collect_of_encoding {text : List Char} (h : r.upcoming = Utf8.encode text) :
    r.collect.1 = text := by
  rw [collect_eq_decode, h, Utf8.decode_encode]

/-- **Decoding is faithful, and damage shows.**  Let `b` be the bytes that come before the next stop.
They are cut into groups, one for each character that is found, and all groups are fair.  So a text is
found in its encoding, bytes that encode no text leave a replacement character behind, and the
characters that are found encode `b` again exactly if `b` encodes a text at all. -/
theorem collect_faithful {after : List Item} (h : r.items = b.map .byte ++ after)
    (stops : ∀ item ∈ after.head?, item.isByte = false) :
    (∃ groups, r.Decodes groups r.collect.2 ∧ groups.map Prod.fst = r.collect.1 ∧
      groups.flatMap Prod.snd = b ∧ ∀ g ∈ groups, Fair g) ∧
    (∀ text, b = Utf8.encode text → r.collect.1 = text) ∧
    ((¬ ∃ text, b = Utf8.encode text) → Utf8.replacement ∈ r.collect.1) ∧
    (Utf8.encode r.collect.1 = b ↔ ∃ text, b = Utf8.encode text) := by
  have upcoming : r.upcoming = b := (congrArg Item.bytes h).trans (Item.bytes_append stops)
  obtain ⟨groups, s, run, fair⟩ := r.exists_decodes
  have bytes : groups.flatMap Prod.snd = b := run.bytes_eq.trans upcoming
  have found (text : List Char) (ht : b = Utf8.encode text) : r.collect.1 = text :=
    collect_of_encoding (upcoming.trans ht)
  refine ⟨⟨groups, ?_, ?_, bytes, fair⟩, found, fun damaged => ?_, fun again => ⟨_, again.symm⟩, ?_⟩
  · rw [run.collect_eq]
    exact run
  · rw [run.collect_eq]
  · by_contra known
    rw [run.collect_eq] at known
    exact damaged ⟨_, bytes.symm.trans (bytes_eq_encode fair known)⟩
  · rintro ⟨text, ht⟩
    rw [found text ht, ht]

/-- A reader that is interrupted within a character, gives a byte that begins none, and breaks off
within another character. -/
def broken : CharReader :=
  ofScript (.ofChunks [.data [0x61, 0xE2, 0x82], .interruption "again", .data [0xAC, 0xFF, 0xE2, 0x82],
    .fault "broken"])

theorem items_broken : broken.items =
    [0x61, 0xE2, 0x82, 0xAC, 0xFF, 0xE2, 0x82].map .byte ++ [.stop (some "broken")] := by decide

theorem collect_faithful_broken :
    broken.collect.1 = ['a', '€', Utf8.replacement, Utf8.replacement] ∧
      ∃ groups, broken.Decodes groups broken.collect.2 ∧
        groups.map Prod.fst = broken.collect.1 ∧
        groups.flatMap Prod.snd = [0x61, 0xE2, 0x82, 0xAC, 0xFF, 0xE2, 0x82] ∧
        ∀ g ∈ groups, Fair g :=
  ⟨by decide, (collect_faithful items_broken (by decide)).1⟩

end CharReader

end LazyPeg.Reader
