import LazyPeg.Reader.Utf8
import Mathlib.Data.List.Basic
import Mathlib.Tactic.SplitIfs

/-!
# Groups of bytes

A character has one group of bytes, and the decoder knows it: it takes a first byte and continuation
bytes for a character exactly if they are its encoding (`groupChar?_eq_some`).  Everything that is
refused lies outside: a lone continuation byte, a group that is too long for its number, a number that
belongs to no character, and a first byte that announces nothing.
-/
namespace LazyPeg.Utf8

/-! ## 1. Bytes and numbers -/

theorem isContinuation_iff (b : UInt8) : isContinuation b ↔ 0x80 ≤ b.toNat ∧ b.toNat < 0xC0 := by
  have all : ∀ n : Fin 256, isContinuation (UInt8.ofFin n) ↔ 0x80 ≤ n.val ∧ n.val < 0xC0 := by
    decide +kernel
  exact all b.toFin

theorem scalar?_eq_some {least n : Nat} {c : Char} :
    scalar? least n = some c ↔ least ≤ n ∧ c.toNat = n := by
  have number (valid : n.isValidChar) : (Char.ofNat n).toNat = n := by
    rw [Char.ofNat, dif_pos valid]
    rfl
  simp only [scalar?, Option.ite_none_right_eq_some, Option.some.injEq]
  constructor
  · rintro ⟨⟨enough, valid⟩, rfl⟩
    exact ⟨enough, number valid⟩
  · rintro ⟨enough, rfl⟩
    exact ⟨⟨enough, c.valid⟩, Char.ofNat_toNat c⟩

/-- The bytes of the character with number `n`, as numbers. -/
def groupOf (n : Nat) : List Nat :=
  if n < 0x80 then [n]
  else if n < 0x800 then [0xC0 + n / 64, 0x80 + n % 64]
  else if n < 0x10000 then [0xE0 + n / 4096, 0x80 + n / 64 % 64, 0x80 + n % 64]
  else [0xF0 + n / 262144, 0x80 + n / 4096 % 64, 0x80 + n / 64 % 64, 0x80 + n % 64]

theorem toNat_lt (c : Char) : c.toNat < 0x110000 := by
  have valid := c.valid
  simp only [UInt32.isValidChar, Nat.isValidChar] at valid
  simp only [Char.toNat]
  omega

theorem map_toNat_utf8EncodeChar (c : Char) :
    (String.utf8EncodeChar c).map UInt8.toNat = groupOf c.toNat := by
  have below := toNat_lt c
  have number : c.val.toNat = c.toNat := rfl
  simp only [String.utf8EncodeChar, groupOf, number]
  split_ifs <;> simp <;> omega

/-- A list of bytes is the encoding of a character if its numbers are. -/
theorem eq_utf8EncodeChar_iff {g : List UInt8} {c : Char} :
    g = String.utf8EncodeChar c ↔ g.map UInt8.toNat = groupOf c.toNat := by
  rw [← map_toNat_utf8EncodeChar]
  exact (List.map_inj_right fun a b => UInt8.toNat_inj.1).symm

/-! ## 2. Groups of one width -/

theorem eq_groupOf_one {n f : Nat} (hf : f < 0x80) : n = f ↔ [f] = groupOf n := by
  unfold groupOf
  split_ifs <;> simp <;> omega

theorem eq_groupOf_two {n f x : Nat} (hf : 0xC0 ≤ f ∧ f < 0xE0) (hx : 0x80 ≤ x ∧ x < 0xC0) :
    (0x80 ≤ (f - 0xC0) * 64 + (x - 0x80) ∧ n = (f - 0xC0) * 64 + (x - 0x80)) ↔
      [f, x] = groupOf n := by
  unfold groupOf
  split_ifs <;> simp <;> omega

theorem eq_groupOf_three {n f x y : Nat} (hf : 0xE0 ≤ f ∧ f < 0xF0) (hx : 0x80 ≤ x ∧ x < 0xC0)
    (hy : 0x80 ≤ y ∧ y < 0xC0) :
    (0x800 ≤ (f - 0xE0) * 4096 + (x - 0x80) * 64 + (y - 0x80) ∧
      n = (f - 0xE0) * 4096 + (x - 0x80) * 64 + (y - 0x80)) ↔ [f, x, y] = groupOf n := by
  unfold groupOf
  split_ifs <;> simp <;> omega

theorem eq_groupOf_four {n f x y z : Nat} (hf : 0xF0 ≤ f ∧ f < 0xF8) (hx : 0x80 ≤ x ∧ x < 0xC0)
    (hy : 0x80 ≤ y ∧ y < 0xC0) (hz : 0x80 ≤ z ∧ z < 0xC0) :
    (0x10000 ≤ (f - 0xF0) * 262144 + (x - 0x80) * 4096 + (y - 0x80) * 64 + (z - 0x80) ∧
      n = (f - 0xF0) * 262144 + (x - 0x80) * 4096 + (y - 0x80) * 64 + (z - 0x80)) ↔
        [f, x, y, z] = groupOf n := by
  unfold groupOf
  split_ifs <;> simp <;> omega

/-- The first byte of a group says how many bytes follow it. -/
theorem groupOf_shape {n f : Nat} {tail : List Nat} (hn : n < 0x110000) (h : f :: tail = groupOf n) :
    (f < 0x80 ∧ tail = []) ∨
    ((0xC0 ≤ f ∧ f < 0xE0) ∧ ∃ x, tail = [x] ∧ 0x80 ≤ x ∧ x < 0xC0) ∨
    ((0xE0 ≤ f ∧ f < 0xF0) ∧ ∃ x y, tail = [x, y] ∧ (0x80 ≤ x ∧ x < 0xC0) ∧ 0x80 ≤ y ∧ y < 0xC0) ∨
    ((0xF0 ≤ f ∧ f < 0xF8) ∧ ∃ x y z, tail = [x, y, z] ∧ (0x80 ≤ x ∧ x < 0xC0) ∧
      (0x80 ≤ y ∧ y < 0xC0) ∧ 0x80 ≤ z ∧ z < 0xC0) := by
  unfold groupOf at h
  split_ifs at h <;> obtain ⟨rfl, rfl⟩ := List.cons.inj h
  · exact .inl ⟨by omega, rfl⟩
  · exact .inr (.inl ⟨by omega, _, rfl, by omega⟩)
  · exact .inr (.inr (.inl ⟨by omega, _, _, rfl, by omega, by omega⟩))
  · exact .inr (.inr (.inr ⟨by omega, _, _, _, rfl, by omega, by omega, by omega⟩))

/-! ## 3. Groups -/

/-- The character of a whole group, from its first byte and the bytes behind it. -/
def groupChar? (first : UInt8) (rest : List UInt8) : Option Char :=
  match width? first with
  | none => none
  | some 1 => if rest = [] then some (Char.ofNat first.toNat) else none
  | some width =>
    if rest.length = width - 1 ∧ rest.all isContinuation then decodeGroup? first rest else none

/-- What a first byte announces. -/
theorem width?_cases (f : UInt8) :
    (width? f = some 1 ∧ f.toNat < 0x80) ∨
    (width? f = some 2 ∧ 0xC0 ≤ f.toNat ∧ f.toNat < 0xE0) ∨
    (width? f = some 3 ∧ 0xE0 ≤ f.toNat ∧ f.toNat < 0xF0) ∨
    (width? f = some 4 ∧ 0xF0 ≤ f.toNat ∧ f.toNat < 0xF8) ∨
    (width? f = none ∧ (0x80 ≤ f.toNat ∧ f.toNat < 0xC0 ∨ 0xF8 ≤ f.toNat)) := by
  have number : width? f =
      if f.toNat < 0x80 then some 1
      else if f.toNat < 0xC0 then none
      else if f.toNat < 0xE0 then some 2
      else if f.toNat < 0xF0 then some 3
      else if f.toNat < 0xF8 then some 4
      else none := by
    simp only [width?, UInt8.lt_iff_toNat_lt]
    rfl
  rw [number]
  split_ifs <;> simp <;> omega

/-- A first byte stands for itself, announces one to three more bytes, or is none. -/
theorem width?_eq_or (f : UInt8) :
    (width? f = some 1 ∧ f.toNat < 0x80) ∨ (∃ w ≤ 2, width? f = some (w + 2)) ∨ width? f = none := by
  rcases width?_cases f with h | ⟨h, -⟩ | ⟨h, -⟩ | ⟨h, -⟩ | ⟨h, -⟩
  · exact .inl h
  · exact .inr (.inl ⟨0, by decide, h⟩)
  · exact .inr (.inl ⟨1, by decide, h⟩)
  · exact .inr (.inl ⟨2, by decide, h⟩)
  · exact .inr (.inr h)

theorem groupChar?_of_width {f : UInt8} {w : Nat} (hw : width? f = some (w + 2)) (rest : List UInt8) :
    groupChar? f rest =
      if rest.length = w + 1 ∧ rest.all isContinuation then decodeGroup? f rest else none := by
  simp [groupChar?, hw]

variable {f x y z : UInt8} {c : Char}

theorem ofNat_eq_iff (hf : f.toNat < 0x80) :
    Char.ofNat f.toNat = c ↔ [f] = String.utf8EncodeChar c := by
  have valid : f.toNat.isValidChar := .inl (by omega)
  have number : scalar? 0 f.toNat = some c ↔ 0 ≤ f.toNat ∧ c.toNat = f.toNat := scalar?_eq_some
  simp only [scalar?, valid, Nat.zero_le, true_and, if_true, Option.some.injEq] at number
  rw [number, eq_utf8EncodeChar_iff]
  exact eq_groupOf_one hf

theorem decodeGroup?_two (hf : 0xC0 ≤ f.toNat ∧ f.toNat < 0xE0) (hx : isContinuation x) :
    decodeGroup? f [x] = some c ↔ [f, x] = String.utf8EncodeChar c := by
  rw [decodeGroup?, scalar?_eq_some, eq_utf8EncodeChar_iff]
  exact eq_groupOf_two hf ((isContinuation_iff x).1 hx)

theorem decodeGroup?_three (hf : 0xE0 ≤ f.toNat ∧ f.toNat < 0xF0) (hx : isContinuation x)
    (hy : isContinuation y) :
    decodeGroup? f [x, y] = some c ↔ [f, x, y] = String.utf8EncodeChar c := by
  rw [decodeGroup?, scalar?_eq_some, eq_utf8EncodeChar_iff]
  exact eq_groupOf_three hf ((isContinuation_iff x).1 hx) ((isContinuation_iff y).1 hy)

theorem decodeGroup?_four (hf : 0xF0 ≤ f.toNat ∧ f.toNat < 0xF8) (hx : isContinuation x)
    (hy : isContinuation y) (hz : isContinuation z) :
    decodeGroup? f [x, y, z] = some c ↔ [f, x, y, z] = String.utf8EncodeChar c := by
  rw [decodeGroup?, scalar?_eq_some, eq_utf8EncodeChar_iff]
  exact eq_groupOf_four hf ((isContinuation_iff x).1 hx) ((isContinuation_iff y).1 hy)
    ((isContinuation_iff z).1 hz)

/-- What stands behind the first byte of a character. -/
theorem utf8EncodeChar_shape {rest : List UInt8} (h : f :: rest = String.utf8EncodeChar c) :
    (f.toNat < 0x80 ∧ rest = []) ∨
    ((0xC0 ≤ f.toNat ∧ f.toNat < 0xE0) ∧ ∃ x, rest = [x] ∧ isContinuation x) ∨
    ((0xE0 ≤ f.toNat ∧ f.toNat < 0xF0) ∧
      ∃ x y, rest = [x, y] ∧ isContinuation x ∧ isContinuation y) ∨
    ((0xF0 ≤ f.toNat ∧ f.toNat < 0xF8) ∧
      ∃ x y z, rest = [x, y, z] ∧ isContinuation x ∧ isContinuation y ∧ isContinuation z) := by
  have shape := groupOf_shape (toNat_lt c) (eq_utf8EncodeChar_iff.1 h)
  simp only [isContinuation_iff]
  match rest with
  | [] => simpa using shape
  | [x] => simpa using shape
  | [x, y] => simpa [and_assoc] using shape
  | [x, y, z] => simpa [and_assoc] using shape
  | _ :: _ :: _ :: _ :: _ => simp at shape

/-- **A group is read as a character exactly if it is the encoding of that character.** -/
theorem groupChar?_eq_some {rest : List UInt8} :
    groupChar? f rest = some c ↔ f :: rest = String.utf8EncodeChar c := by
  constructor
  · intro h
    rcases width?_cases f with ⟨hw, hf⟩ | ⟨hw, hf⟩ | ⟨hw, hf⟩ | ⟨hw, hf⟩ | ⟨hw, hf⟩
    · obtain ⟨rfl, char⟩ : rest = [] ∧ Char.ofNat f.toNat = c := by simpa [groupChar?, hw] using h
      exact (ofNat_eq_iff hf).1 char
    · rw [groupChar?_of_width hw] at h
      obtain ⟨⟨len, all⟩, h⟩ := Option.ite_none_right_eq_some.1 h
      obtain ⟨x, rfl⟩ := List.length_eq_one_iff.1 len
      exact (decodeGroup?_two hf (by simpa using all)).1 h
    · rw [groupChar?_of_width hw] at h
      obtain ⟨⟨len, all⟩, h⟩ := Option.ite_none_right_eq_some.1 h
      obtain ⟨x, y, rfl⟩ := List.length_eq_two.1 len
      obtain ⟨hx, hy⟩ : isContinuation x ∧ isContinuation y := by simpa using all
      exact (decodeGroup?_three hf hx hy).1 h
    · rw [groupChar?_of_width hw] at h
      obtain ⟨⟨len, all⟩, h⟩ := Option.ite_none_right_eq_some.1 h
      obtain ⟨x, y, z, rfl⟩ := List.length_eq_three.1 len
      obtain ⟨hx, hy, hz⟩ : isContinuation x ∧ isContinuation y ∧ isContinuation z := by
        simpa using all
      exact (decodeGroup?_four hf hx hy hz).1 h
    · simp [groupChar?, hw] at h
  · intro h
    rcases utf8EncodeChar_shape h with ⟨hf, rfl⟩ | ⟨hf, x, rfl, hx⟩ | ⟨hf, x, y, rfl, hx, hy⟩ |
      ⟨hf, x, y, z, rfl, hx, hy, hz⟩
    · have hw : width? f = some 1 := by grind [width?_cases f]
      simp [groupChar?, hw, (ofNat_eq_iff hf).2 h]
    · have hw : width? f = some 2 := by grind [width?_cases f]
      simpa [groupChar?, hw, hx] using (decodeGroup?_two hf hx).2 h
    · have hw : width? f = some 3 := by grind [width?_cases f]
      simpa [groupChar?, hw, hx, hy] using (decodeGroup?_three hf hx hy).2 h
    · have hw : width? f = some 4 := by grind [width?_cases f]
      simpa [groupChar?, hw, hx, hy, hz] using (decodeGroup?_four hf hx hy hz).2 h

end LazyPeg.Utf8
