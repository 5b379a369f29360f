import LazyPeg.Pattern.Engine

/-!
# What is known of an engine

Nothing is known here of how an engine reads patterns.  `Engine.Documented` is what its documentation says,
as far as anchored patterns need it: what a search comes to, what the marks for both ends match, that a group
matches what is in it, and where a group closes.

Parentheses are all that can go wrong when a text is put into a group, and they may do so in one way.  Either
the group is closed by the parenthesis that was put behind the text, and then the text is a pattern by
itself.  Or else the text closes the group, and it is none (`Engine.Documented.accepts_anchored_cases`).
-/
namespace LazyPeg.Pattern

/-- A parenthesis, where no other one is behind the last, is the last one or stands before it. -/
theorem close_cases {text tail before behind : List Char} (free : ')' ∉ tail)
    (split : text ++ ')' :: tail = before ++ ')' :: behind) :
    before = text ∨ ∃ rest, text = before ++ ')' :: rest := by
  rcases List.append_eq_append_iff.1 split with ⟨more, rfl, same⟩ | ⟨more, rfl, same⟩
  · rcases more with _ | ⟨c, more⟩
    · exact .inl (List.append_nil _)
    · refine absurd ?_ free
      rw [(List.cons.inj same).2]
      simp
  · rcases more with _ | ⟨c, more⟩
    · exact .inl (List.append_nil _).symm
    · obtain ⟨rfl, -⟩ := List.cons.inj same
      exact .inr ⟨more, rfl⟩

/-- The text of a pattern in a group. -/
def grouped (text : String) : String := "(?:" ++ text ++ ")"

/-- Which stretches of a text the patterns of an engine match, from one place to another. -/
abbrev Meaning := String → List Char → Nat → Nat → Prop

namespace Engine

variable {engine : Engine} {means : Meaning}

/-- A text writes a pattern. -/
def Accepts (engine : Engine) (text : String) : Prop := ∃ regex, engine.new text = .ok regex

/-- What is documented of an engine and of the meaning of its patterns. -/
structure Documented (engine : Engine) (means : Meaning) : Prop where
  /-- A search finds a pattern that matches any stretch. -/
  isMatch_iff : ∀ {text regex}, engine.new text = .ok regex → ∀ c,
    regex.isMatch c ↔ ∃ i j, means text [c] i j
  /-- The mark for the start of a text. -/
  start_iff : ∀ {chars i j}, means "^" chars i j ↔ i = 0 ∧ j = 0
  /-- The mark for the end of a text. -/
  finish_iff : ∀ {chars i j}, means "$" chars i j ↔ i = chars.length ∧ j = chars.length
  /-- A group matches what the pattern in it does. -/
  grouped_iff : ∀ {text}, engine.Accepts text → engine.Accepts (grouped text) → ∀ {chars i j},
    means (grouped text) chars i j ↔ means text chars i j
  /-- Patterns one after the other match stretches one after the other. -/
  anchored_iff : ∀ {text}, engine.Accepts text → engine.Accepts (anchored text) → ∀ {chars i l},
    means (anchored text) chars i l ↔
      ∃ j k, means "^" chars i j ∧ means (grouped text) chars j k ∧ means "$" chars k l
  /-- A group closes, and a pattern stands in it. -/
  exists_close : ∀ {text}, engine.Accepts ("^(?:" ++ text) → ∃ inside behind,
    text = inside ++ ")" ++ behind ∧ engine.Accepts inside ∧ engine.Accepts (grouped inside)
  /-- A parenthesis behind a pattern closes nothing, if it would close a group around that pattern. -/
  not_accepts_close : ∀ {text behind}, engine.Accepts text → engine.Accepts (grouped text) →
    ¬ engine.Accepts (text ++ ")" ++ behind)

/-! ## 1. What is accepted -/

/-- **Where the group around a text closes.**  It closes behind the text, which is then a pattern by
itself.  Or the text closes it, and then the text is none, but what stands before the parenthesis is. -/
theorem Documented.accepts_anchored_cases (h : engine.Documented means) {text : String}
    (accepts : engine.Accepts (anchored text)) :
    engine.Accepts text ∧ engine.Accepts (grouped text) ∨
      ¬ engine.Accepts text ∧ ∃ before behind, text = before ++ ")" ++ behind ∧ engine.Accepts before := by
  have opened : anchored text = "^(?:" ++ (text ++ ")$") := String.append_assoc ..
  obtain ⟨inside, behind, split, alone, group⟩ := h.exists_close (opened ▸ accepts)
  have split : text.toList ++ ')' :: ['$'] = inside.toList ++ ')' :: behind.toList := by
    simpa using congrArg String.toList split
  rcases close_cases (by decide) split with same | ⟨rest, same⟩
  · obtain rfl := String.toList_inj.1 same
    exact .inl ⟨alone, group⟩
  · obtain rfl : text = inside ++ ")" ++ String.ofList rest := String.toList_inj.1 (by simp [same])
    exact .inr ⟨h.not_accepts_close alone group, inside, _, rfl, alone⟩

/-- **An anchored pattern is found in a character that the pattern matches as a whole.** -/
theorem Documented.isMatch_anchored_iff (h : engine.Documented means) {text : String} {regex : Regex}
    (alone : engine.Accepts text) (group : engine.Accepts (grouped text))
    (new : engine.new (anchored text) = .ok regex) (c : Char) :
    regex.isMatch c ↔ means text [c] 0 1 := by
  rw [h.isMatch_iff new]
  constructor
  · rintro ⟨i, l, found⟩
    obtain ⟨j, k, start, inside, finish⟩ := (h.anchored_iff alone ⟨regex, new⟩).1 found
    obtain ⟨-, rfl⟩ := h.start_iff.1 start
    obtain ⟨rfl, -⟩ := h.finish_iff.1 finish
    exact (h.grouped_iff alone group).1 inside
  · intro inside
    exact ⟨0, 1, (h.anchored_iff alone ⟨regex, new⟩).2
      ⟨0, 1, h.start_iff.2 ⟨rfl, rfl⟩, (h.grouped_iff alone group).2 inside, h.finish_iff.2 ⟨rfl, rfl⟩⟩⟩

/-! ## 2. What is refused -/

theorem compile_eq_ok {text : String} {regex : Regex} (h : engine.compile text = .ok regex) :
    engine.new (anchored text) = .ok regex := by
  unfold compile at h
  split at h
  next regex' same =>
    obtain rfl := Except.ok.inj h
    exact same
  next => split at h <;> exact absurd h nofun

/-- A refusal repeats what the engine said of the text, or of the anchored text if the text is a pattern. -/
theorem compile_eq_error {text : String} {r : Rejection} (h : engine.compile text = .error r) :
    engine.new text = .error r.message ∧ r.refusal = .malformed ∨
      engine.Accepts text ∧ engine.new (anchored text) = .error r.message ∧
        r.refusal = .malformedAnchored := by
  unfold compile at h
  split at h
  next => exact absurd h nofun
  next message refused =>
    split at h
    next message same =>
      obtain rfl := Except.error.inj h
      exact .inl ⟨same, rfl⟩
    next regex same =>
      obtain rfl := Except.error.inj h
      exact .inr ⟨⟨regex, same⟩, refused, rfl⟩

end Engine

end LazyPeg.Pattern
