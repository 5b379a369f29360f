import LazyPeg.Proofs.Pattern.Anchoring
import LazyPeg.Proofs.Session.Agreement

/-!
# Patterns in a session

A parser for a pattern, in any session and at any position (`Session.parse_matching`).  The engine that reads
the pattern can be any that does what is documented of engines.

The pattern is anchored by pasting its text into a group.  A text that is a pattern by itself means the
same there, and the parser takes the tokens that it matches as a whole.  But a text that is none is not
always refused: it may close the group and open another one (`not_always_read`).  Nothing else can happen:
then the text has a parenthesis before which it is a pattern, and which that pattern does not open.
-/
namespace LazyPeg

open LazyPeg.Parser Pattern

section
variable {α : Type} {engine : Engine} {toChar : α → Char} {text : String}

theorem Parser.matching_eq_ok {q : Parser α} (h : matching engine toChar text = .ok q) :
    ∃ regex, engine.new (anchored text) = .ok regex ∧
      q = satisfy ("/" ++ text ++ "/") fun t => regex.isMatch (toChar t) := by
  unfold matching at h
  cases compiled : engine.compile text with
  | error r =>
    rw [compiled] at h
    cases h
  | ok regex =>
    rw [compiled] at h
    exact ⟨regex, Engine.compile_eq_ok compiled, (Except.ok.inj h).symm⟩

theorem Parser.matching_eq_error {r : Rejection} (h : matching engine toChar text = .error r) :
    engine.new text = .error r.message ∧ r.refusal = .malformed ∨
      engine.Accepts text ∧ engine.new (anchored text) = .error r.message ∧
        r.refusal = .malformedAnchored := by
  unfold matching at h
  cases compiled : engine.compile text with
  | error r' =>
    rw [compiled] at h
    obtain rfl : r' = r := Except.error.inj h
    exact Engine.compile_eq_error compiled
  | ok regex =>
    rw [compiled] at h
    cases h

end

namespace Session

variable {α : Type} [Token α] [DecidableEq α]

/-- A condition on one token, in a session: it succeeds where a token meets it, and stops behind it. -/
theorem parse_satisfy {s : Session α} {place : Nat} {p : Position} (h : s.Sound)
    (hp : s.position? place = some p) (name : String) (accepts : α → Bool) :
    s.HasResult (satisfy name accepts) p ∧ ∀ v next, s.ComesTo (satisfy name accepts) p (.success v next) ↔
      ∃ t, s.store.head? p = some t ∧ accepts t ∧ v = .token t ∧ next = p.moveTo (p.offset + 1) := by
  have hts := h.shows hp
  have head : s.store.head? p = (s.store.sequence p)[p.offset]? := hts.head?_here
  have isLocal : (satisfy name accepts).Local s.workshop.grammar := .satisfy _ _
  refine ⟨(hasResult_iff isLocal hts).2 (decides_satisfy name accepts hts.le_length), fun v next => ?_⟩
  rw [comesTo_success_iff isLocal hts, head]
  simp only [matches_satisfy_iff hts.le_length]
  constructor
  · rintro ⟨j, ⟨t, ht, ha, rfl, rfl⟩, rfl⟩
    exact ⟨t, ht, ha, rfl, rfl⟩
  · rintro ⟨t, ht, ha, rfl, rfl⟩
    exact ⟨_, ⟨t, ht, ha, rfl, rfl⟩, rfl⟩

/-- **A parser for a pattern.**

* A refusal repeats what the engine says of the text itself, unless the text is a pattern.  Then it repeats
  what the engine says of the anchored text.
* If a parser is made, the text is a pattern by itself, and then the parser always has a result, and takes
  exactly the tokens that the pattern matches in their entirety.
* Or else the text is no pattern, but closes the group that was put around it: it is a pattern up to a
  closing parenthesis. -/
theorem parse_matching {engine : Engine} {means : Meaning} (documented : engine.Documented means)
    (toChar : α → Char) (text : String) :
    (∀ r, matching engine toChar text = .error r →
      (¬ engine.Accepts text → engine.new text = .error r.message ∧ r.refusal = .malformed) ∧
      (engine.Accepts text →
        engine.new (anchored text) = .error r.message ∧ r.refusal = .malformedAnchored)) ∧
    ∀ q, matching engine toChar text = .ok q →
      (engine.Accepts text ∧
        ∀ (s : Session α) (place : Nat) (p : Position), s.Sound → s.position? place = some p →
          s.HasResult q p ∧ ∀ v next, s.ComesTo q p (.success v next) ↔
            ∃ t, s.store.head? p = some t ∧ means text [toChar t] 0 1 ∧
              v = .token t ∧ next = p.moveTo (p.offset + 1)) ∨
      ¬ engine.Accepts text ∧ ∃ before behind, text = before ++ ")" ++ behind ∧ engine.Accepts before := by
  refine ⟨fun r hr => ?_, fun q hq => ?_⟩
  · rcases matching_eq_error hr with ⟨refused, why⟩ | ⟨accepts, refused, why⟩
    · have none : ¬ engine.Accepts text := by
        rintro ⟨regex, read⟩
        exact absurd (read.symm.trans refused) nofun
      exact ⟨fun _ => ⟨refused, why⟩, fun accepts => absurd accepts none⟩
    · exact ⟨fun none => absurd accepts none, fun _ => ⟨refused, why⟩⟩
  · obtain ⟨regex, new, rfl⟩ := matching_eq_ok hq
    refine (documented.accepts_anchored_cases ⟨regex, new⟩).imp_left ?_
    rintro ⟨alone, group⟩
    refine ⟨alone, fun s place p h hp => ?_⟩
    simp only [← documented.isMatch_anchored_iff alone group new]
    exact parse_satisfy h hp _ _

/-- One of two letters is taken. -/
theorem parse_matching_letters :
    standard.Documented standardMeaning ∧
    ∃ (s : Session Char) (q : Parser Char), s.Sound ∧ s.position? 0 = some (.mark 0 0) ∧
      matching standard (fun c => c) "a|b" = .ok q ∧
      s.ComesTo q (.mark 0 0) (.success (.token 'b') (.mark 0 1)) := by
  have begun : Reaches ([] : List (Description Char)) _ [] [] := .begin rfl
  have opened := begun.step (.start (.feed (.items ['b', 'c'])))
  obtain ⟨q, made⟩ : ∃ q, matching standard (fun c : Char => c) "a|b" = .ok q := ⟨_, rfl⟩
  have read : read? "a|b".toList = some (.either (.set (.single 'a')) (.either (.set (.single 'b'))
      (.set .none))) := rfl
  have whole : standardMeaning "a|b" ['b'] 0 1 := ⟨_, read, .inr (.inl ⟨rfl, 'b', rfl, rfl⟩)⟩
  refine ⟨documented_standard, _, q, opened.sound, rfl, made, ?_⟩
  rcases (parse_matching documented_standard (fun c => c) "a|b").2 q made with ⟨-, parse⟩ | ⟨none, -⟩
  · exact ((parse _ 0 _ opened.sound rfl).2 _ _).2 ⟨'b', rfl, whole, rfl, rfl⟩
  · exact absurd (accepts_standard_iff.2 ⟨_, read⟩) none

/-- A text that is no pattern may be accepted. -/
theorem not_always_read : ¬ ∀ (text : String) (q : Parser Char),
    matching standard (fun c => c) text = .ok q → standard.Accepts text := by
  intro all
  obtain ⟨p, read⟩ := accepts_standard_iff.1 (all "a)|(?:b" _ rfl)
  have none : read? "a)|(?:b".toList = none := rfl
  exact absurd (none.symm.trans read) nofun

end Session

end LazyPeg
