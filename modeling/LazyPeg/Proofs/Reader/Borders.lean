import LazyPeg.Proofs.Reader.Decoding

/-!
# Borders between characters

A decoder that has lost its way finds it again at the next byte that continues nothing.  What stands
before such a byte, whole or cut off within a character, takes none of the bytes behind it
(`Utf8.continuations_append`), so the text of the bytes is that of the one part and then that of the other
(`Utf8.decode_append`).  An encoded text begins with such a byte, and so **damage ends where a text
begins** (`CharReader.collect_append`).
-/
namespace LazyPeg.Utf8

/-- The first of these bytes, if there is one, continues no character. -/
def BeginsAnew (bytes : List UInt8) : Prop := ∀ x ∈ bytes.head?, isContinuation x = false

/-- An encoded text begins a character. -/
theorem beginsAnew_encode (text : List Char) : BeginsAnew (encode text) := by
  cases text with
  | nil => exact nofun
  | cons c text =>
    obtain ⟨first, rest, hg, bytes⟩ := exists_encode_cons c text
    intro x hx
    rw [bytes] at hx
    obtain rfl := Option.some.inj hx
    rw [Bool.eq_false_iff, ne_eq, isContinuation_iff]
    rcases utf8EncodeChar_shape hg with ⟨hf, -⟩ | ⟨hf, -⟩ | ⟨hf, -⟩ | ⟨hf, -⟩ <;> omega

variable {b c : List UInt8}

/-- No byte behind such a border is taken for the character before it. -/
theorem continuations_append (hc : BeginsAnew c) (n : Nat) (b : List UInt8) :
    continuations n (b ++ c) = continuations n b := by
  induction n generalizing b with
  | zero => rfl
  | succ n ih =>
    cases b with
    | nil =>
      cases c with
      | nil => rfl
      | cons x c =>
        have other : isContinuation x = false := hc x rfl
        rw [List.nil_append, continuations_succ, other]
        rfl
    | cons x b => rw [List.cons_append, continuations_succ, continuations_succ, ih]

theorem length_continuations_le_length (n : Nat) (bytes : List UInt8) :
    (continuations n bytes).length ≤ bytes.length := by
  conv_rhs => rw [← continuations_append_drop n bytes, List.length_append]
  exact Nat.le_add_right _ _

/-- **The text of bytes that meet at a border** is that of the first part and then that of the second. -/
theorem decode_append (hc : BeginsAnew c) : decode (b ++ c) = decode b ++ decode c := by
  induction hn : b.length using Nat.strongRecOn generalizing b with
  | ind n ih =>
    cases b with
    | nil => rfl
    | cons x b =>
      have shorter : (b.drop (continuations (wanted x) b).length).length < n := by
        simp only [List.length_drop, ← hn, List.length_cons]
        omega
      have used := length_continuations_le_length (wanted x) b
      rw [List.cons_append, decode_cons, decode_cons, continuations_append hc,
        List.drop_append_of_le_length used, ih _ shorter rfl, List.cons_append]

end LazyPeg.Utf8

namespace LazyPeg.Reader.CharReader

open Utf8 (BeginsAnew)

/-- **Damage ends where a character begins.**  Let a decoder have before its next stop the bytes of two
others, one after the other.  If the second part is empty, or begins with a byte that continues no
character, then the characters that are found are those of the first decoder and then those of the second.
So whatever stands before an encoded text, the text is found as it is. -/
theorem collect_append (before whole : CharReader) :
    (∀ behind : CharReader, BeginsAnew behind.upcoming →
      whole.upcoming = before.upcoming ++ behind.upcoming →
        whole.collect.1 = before.collect.1 ++ behind.collect.1) ∧
    ∀ text, whole.upcoming = before.upcoming ++ Utf8.encode text →
      whole.collect.1 = before.collect.1 ++ text := by
  constructor
  · intro behind border bytes
    rw [collect_eq_decode, collect_eq_decode, collect_eq_decode, bytes, Utf8.decode_append border]
  · intro text bytes
    rw [collect_eq_decode, collect_eq_decode, bytes, Utf8.decode_append (Utf8.beginsAnew_encode text),
      Utf8.decode_encode]

/-- The first two bytes of a character that is never finished, a letter and a byte that begins nothing. -/
def cutOff : CharReader := ofScript (.ofChunks [.data [0xE2, 0x82, 0x61, 0xFF, 0xF0]])

/-- The same bytes in other chunks, and then a whole character. -/
def resumed : CharReader :=
  ofScript (.ofChunks [.data [0xE2], .interruption "again", .data [0x82, 0x61, 0xFF, 0xF0, 0xE2, 0x82], .data [0xAC]])

/-- The character behind the damage is found, though the byte before it announces three more. -/
theorem collect_append_resumed :
    BeginsAnew (ofScript (.ofChunks [.data [0xE2, 0x82, 0xAC]])).upcoming ∧
    resumed.upcoming = cutOff.upcoming ++ Utf8.encode ['€'] ∧
    cutOff.collect.1 = [Utf8.replacement, 'a', Utf8.replacement, Utf8.replacement] ∧
    resumed.collect.1 = cutOff.collect.1 ++ ['€'] ∧
    resumed.collect.1 =
      cutOff.collect.1 ++ (ofScript (.ofChunks [.data [0xE2, 0x82, 0xAC]])).collect.1 := by
  have border : BeginsAnew (ofScript (.ofChunks [.data [0xE2, 0x82, 0xAC]])).upcoming :=
    Utf8.beginsAnew_encode ['€']
  have bytes : resumed.upcoming = cutOff.upcoming ++ Utf8.encode ['€'] := by decide
  exact ⟨border, bytes, by decide, (collect_append cutOff resumed).2 _ bytes,
    (collect_append cutOff resumed).1 _ border bytes⟩

end LazyPeg.Reader.CharReader
