import LazyPeg.Pattern.Meaning

/-!
# The stretches of a text that a pattern matches

`Pattern.Matches` says which stretches of a text a pattern matches, for texts of any length.  In a text of
one character there are three, and `Pattern.span` computes which of them are matched (`describes_span`).
The bounds of repetitions have to be in order for that (`Pattern.Proper`): a span does not see that no
number is between bounds that are out of order.
-/
namespace LazyPeg.Pattern

/-! ## 1. Stretches -/

/-- The character before a place. -/
def charBefore (text : List Char) : Nat → Option Char
  | 0 => none
  | i + 1 => text[i]?

/-- Some stretches in a row, each of which begins where the one before it ends. -/
def Row (text : List Char) (stretch : Nat → Nat → Prop) : Nat → Nat → Nat → Prop
  | 0, i, j => i = j ∧ i ≤ text.length
  | n + 1, i, k => ∃ j, stretch i j ∧ Row text stretch n j k

/-- A pattern matches the stretch of a text between two places. -/
def Matches (text : List Char) : Pattern → Nat → Nat → Prop
  | empty, i, j => i = j ∧ i ≤ text.length
  | set s, i, j => j = i + 1 ∧ ∃ c, text[i]? = some c ∧ s.contains c.toNat
  | look l, i, j => i = j ∧ i ≤ text.length ∧ l.holds (charBefore text i) text[i]?
  | concat p q, i, k => ∃ j, p.Matches text i j ∧ q.Matches text j k
  | either p q, i, j => p.Matches text i j ∨ q.Matches text i j
  | times least most p, i, j => ∃ n, least ≤ n ∧ (∀ m ∈ most, n ≤ m) ∧ Row text (p.Matches text) n i j

/-- The bounds of repetitions are in order. -/
def Proper : Pattern → Prop
  | concat p q => p.Proper ∧ q.Proper
  | either p q => p.Proper ∧ q.Proper
  | times least most p => (∀ m ∈ most, least ≤ m) ∧ p.Proper
  | _ => True

/-! ## 2. Numbers of matches -/

section
variable {least : Nat} {most : Option Nat} (proper : ∀ m ∈ most, least ≤ m)
include proper

/-- If one match is possible, the bounds leave room for some number of them. -/
theorem exists_count (P : Prop) : (∃ n, least ≤ n ∧ (∀ m ∈ most, n ≤ m) ∧ (n = 0 ∨ P)) ↔
    least = 0 ∨ most ≠ some 0 ∧ P := by
  constructor
  · rintro ⟨n, lower, upper, rfl | holds⟩
    · exact .inl (Nat.le_zero.1 lower)
    · by_cases none : most = some 0
      · exact .inl (Nat.le_zero.1 (proper 0 none))
      · exact .inr ⟨none, holds⟩
  · rintro (rfl | ⟨any, holds⟩)
    · exact ⟨0, Nat.le_refl 0, fun _ _ => Nat.zero_le _, .inl rfl⟩
    · exact ⟨least, Nat.le_refl _, proper, .inr holds⟩

theorem exists_count_pos (A P : Prop) :
    (∃ n, least ≤ n ∧ (∀ m ∈ most, n ≤ m) ∧ n ≠ 0 ∧ A ∧ (n = 1 ∨ P)) ↔
      most ≠ some 0 ∧ A ∧ (least ≤ 1 ∨ P) := by
  constructor
  · rintro ⟨n, lower, upper, some, holds, one⟩
    refine ⟨?_, holds, one.imp_left fun one => by omega⟩
    rintro rfl
    exact some (Nat.le_zero.1 (upper 0 rfl))
  · rintro ⟨any, holds, one⟩
    refine ⟨max least 1, Nat.le_max_left .., fun m hm => ?_, by omega, holds, ?_⟩
    · have pos : m ≠ 0 := by
        rintro rfl
        exact any hm
      have := proper m hm
      omega
    · exact one.imp_left fun one => Nat.max_eq_right one

end

/-! ## 3. Texts of one character -/

/-- A span says which stretches of a text of one character there are. -/
structure Describes (s : Span) (stretch : Nat → Nat → Prop) : Prop where
  inside : ∀ {i j}, stretch i j → i ≤ j ∧ j ≤ 1
  before : stretch 0 0 ↔ s.before
  across : stretch 0 1 ↔ s.across
  after : stretch 1 1 ↔ s.after

namespace Describes

variable {s t : Span} {R S : Nat → Nat → Prop}

theorem concat (hs : Describes s R) (ht : Describes t S) :
    Describes (s.concat t) fun i k => ∃ j, R i j ∧ S j k where
  inside := by
    rintro i k ⟨j, first, second⟩
    exact ⟨Nat.le_trans (hs.inside first).1 (ht.inside second).1, (ht.inside second).2⟩
  before := by
    simp only [Span.concat, Bool.and_eq_true, ← hs.before, ← ht.before]
    constructor
    · rintro ⟨j, first, second⟩
      obtain rfl := Nat.le_zero.1 (ht.inside second).1
      exact ⟨first, second⟩
    · exact fun h => ⟨0, h⟩
  across := by
    simp only [Span.concat, Bool.and_eq_true, Bool.or_eq_true, ← hs.before, ← hs.across, ← ht.across,
      ← ht.after]
    constructor
    · rintro ⟨j, first, second⟩
      obtain rfl | rfl := Nat.le_one_iff_eq_zero_or_eq_one.1 (hs.inside first).2
      · exact .inl ⟨first, second⟩
      · exact .inr ⟨first, second⟩
    · rintro (h | h)
      · exact ⟨0, h⟩
      · exact ⟨1, h⟩
  after := by
    simp only [Span.concat, Bool.and_eq_true, ← hs.after, ← ht.after]
    constructor
    · rintro ⟨j, first, second⟩
      obtain rfl := Nat.le_antisymm (hs.inside first).2 (hs.inside first).1
      exact ⟨first, second⟩
    · exact fun h => ⟨1, h⟩

theorem either (hs : Describes s R) (ht : Describes t S) :
    Describes (s.either t) fun i j => R i j ∨ S i j where
  inside := fun h => h.elim hs.inside ht.inside
  before := by simp [Span.either, hs.before, ht.before]
  across := by simp [Span.either, hs.across, ht.across]
  after := by simp [Span.either, hs.after, ht.after]

/-- The span of a number of matches in a row.  Only one of them can be the character. -/
theorem row (c : Char) (hs : Describes s R) (n : Nat) :
    Describes ⟨n == 0 || s.before, n != 0 && s.across && (n == 1 || s.before || s.after), n == 0 || s.after⟩
      (Row [c] R n) := by
  induction n with
  | zero =>
    refine ⟨?_, by simp [Row], by simp [Row], by simp [Row]⟩
    rintro i j ⟨rfl, inside⟩
    exact ⟨Nat.le_refl i, inside⟩
  | succ n ih =>
    have next : Describes _ (Row [c] R (n + 1)) := hs.concat ih
    suffices same : s.concat ⟨n == 0 || s.before, n != 0 && s.across && (n == 1 || s.before || s.after),
        n == 0 || s.after⟩ = ⟨n + 1 == 0 || s.before,
          n + 1 != 0 && s.across && (n + 1 == 1 || s.before || s.after), n + 1 == 0 || s.after⟩ by
      rw [← same]
      exact next
    rcases s with ⟨before, across, after⟩
    cases n with
    | zero => cases before <;> cases across <;> cases after <;> rfl
    | succ n =>
      -- The number is compared with one only where it makes no difference.
      simp only [Span.concat]
      generalize (n + 1 == 1) = single
      cases before <;> cases across <;> cases after <;> cases single <;> rfl

theorem times (c : Char) (hs : Describes s R) {least : Nat} {most : Option Nat}
    (proper : ∀ m ∈ most, least ≤ m) :
    Describes (s.times least most) fun i j =>
      ∃ n, least ≤ n ∧ (∀ m ∈ most, n ≤ m) ∧ Row [c] R n i j where
  inside := by
    rintro i j ⟨n, -, -, row⟩
    exact (hs.row c n).inside row
  before := by
    simp only [(hs.row c _).before]
    simpa [Span.times] using exists_count proper s.before
  across := by
    simp only [(hs.row c _).across]
    simpa [Span.times, and_assoc, or_assoc] using exists_count_pos proper s.across (s.before ∨ s.after)
  after := by
    simp only [(hs.row c _).after]
    simpa [Span.times] using exists_count proper s.after

end Describes

/-- **A pattern matches the stretches of a character that its span says.** -/
theorem describes_span (c : Char) {p : Pattern} (proper : p.Proper) :
    Describes (p.span c) (p.Matches [c]) := by
  induction p with
  | empty => exact ⟨fun ⟨same, inside⟩ => ⟨Nat.le_of_eq same, same ▸ inside⟩, by simp [Matches, span],
      by simp [Matches, span], by simp [Matches, span]⟩
  | set s =>
    refine ⟨fun h => ?_, by simp [Matches, span], by simp [Matches, span], by simp [Matches, span]⟩
    obtain ⟨rfl, d, here, -⟩ := h
    obtain ⟨inside, -⟩ := List.getElem?_eq_some_iff.1 here
    exact ⟨Nat.le_succ _, inside⟩
  | look l => exact ⟨fun ⟨same, inside, _⟩ => ⟨Nat.le_of_eq same, same ▸ inside⟩,
      by simp [Matches, span, charBefore], by simp [Matches, span], by simp [Matches, span, charBefore]⟩
  | concat p q ihp ihq => exact (ihp proper.1).concat (ihq proper.2)
  | either p q ihp ihq => exact (ihp proper.1).either (ihq proper.2)
  | times least most p ih => exact (ih proper.2).times c proper.1

end LazyPeg.Pattern
