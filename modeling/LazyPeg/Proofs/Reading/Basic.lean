import LazyPeg.Parser.Eval

/-!
# Reading a list

What a parser means, said without feeds, sequences and stores: `Parser.read` follows a term over the
plain list of the tokens, and a place is an offset into that list.  Nothing is changed on the way.
What a parse comes to is a `Course`: its answer, its events in order, and its `reach`, the largest
offset that it looked at or moved to.

A `Reading` ends with a course, or it is `endless` because the rules call one another for ever.  Calls
of rules are left to a parameter of `read`, as they are in `Parser.eval`.  `Parser.readDepth` closes
the knot for a bounded depth of calls, and `Parser.Reads`, the relation between a parser, a list, an
offset and a course, no longer mentions a depth.
-/
namespace LazyPeg

/-! ## 1. Courses -/

/-- What a parse over a list came to.  If a rule was called that is not defined, its name stands in
place of the answer. -/
structure Course (α β : Type) where
  answer : Except String β
  events : List (Event α Nat)
  reach : Nat

/-- A parse over a list. -/
inductive Reading (α β : Type) where
  | endless
  | ended (c : Course α β)

namespace Reading

variable {α β γ : Type}

/-- Answer at once. -/
protected def pure (b : β) : Reading α β := ended ⟨.ok b, [], 0⟩

/-- One parse after the other. -/
protected def bind : Reading α β → (β → Reading α γ) → Reading α γ
  | endless, _ => endless
  | ended ⟨.error name, events, reach⟩, _ => ended ⟨.error name, events, reach⟩
  | ended ⟨.ok b, events, reach⟩, f =>
    match f b with
    | endless => endless
    | ended d => ended ⟨d.answer, events ++ d.events, max reach d.reach⟩

instance : Monad (Reading α) where
  pure := Reading.pure
  bind := Reading.bind

/-- A parse ends with an answer. -/
def Gives (c : Reading α β) (b : β) : Prop := ∃ events reach, c = ended ⟨.ok b, events, reach⟩

/-- Look at the token at an offset. -/
def look (ts : List α) (i : Nat) : Reading α (Option α) := ended ⟨.ok ts[i]?, [], i⟩

/-- Move to an offset. -/
def visit (i : Nat) : Reading α Unit := ended ⟨.ok (), [], i⟩

/-- Note an event. -/
def note (e : Event α Nat) : Reading α Unit := ended ⟨.ok (), [e], 0⟩

/-- A rule was called that is not defined. -/
def undefined (name : String) : Reading α β := ended ⟨.error name, [], 0⟩

theorem gives_look {ts : List α} {i : Nat} {t : Option α} : (look ts i).Gives t ↔ t = ts[i]? := by
  constructor
  · rintro ⟨_, _, h⟩
    simp only [look, ended.injEq, Course.mk.injEq, Except.ok.injEq] at h
    exact h.1.symm
  · rintro rfl
    exact ⟨_, _, rfl⟩

theorem pure_eq (b : β) : (pure b : Reading α β) = ended ⟨.ok b, [], 0⟩ := rfl

@[simp] theorem error_bind (name : String) (events : List (Event α Nat)) (reach : Nat)
    (f : β → Reading α γ) :
    (ended ⟨.error name, events, reach⟩ >>= f) = ended ⟨.error name, events, reach⟩ := rfl

theorem ok_bind {b : β} {events : List (Event α Nat)} {reach : Nat} {f : β → Reading α γ} :
    (ended ⟨.ok b, events, reach⟩ >>= f) =
      match f b with
      | endless => endless
      | ended d => ended ⟨d.answer, events ++ d.events, max reach d.reach⟩ := rfl

/-- A parse that goes on ends in its first part, or both parts end. -/
theorem bind_eq_ended {c : Reading α β} {f : β → Reading α γ} {d : Course α γ}
    (h : (c >>= f) = ended d) :
    (∃ name, c = ended ⟨.error name, d.events, d.reach⟩ ∧ d.answer = .error name) ∨
      ∃ b events reach e, c = ended ⟨.ok b, events, reach⟩ ∧ f b = ended e ∧
        d = ⟨e.answer, events ++ e.events, max reach e.reach⟩ := by
  match c, h with
  | ended ⟨.error name, events, reach⟩, h =>
    obtain rfl := Reading.ended.inj h
    exact .inl ⟨name, rfl, rfl⟩
  | ended ⟨.ok b, events, reach⟩, h =>
    rw [ok_bind] at h
    split at h
    · exact absurd h (by simp)
    · rename_i e he
      exact .inr ⟨b, events, reach, e, rfl, he, (Reading.ended.inj h).symm⟩

/-- A parse that goes on gives what its second part does, after an answer of the first. -/
theorem gives_bind {c : Reading α β} {f : β → Reading α γ} {d : γ} :
    (c >>= f).Gives d ↔ ∃ b, c.Gives b ∧ (f b).Gives d := by
  constructor
  · rintro ⟨events, reach, same⟩
    obtain ⟨name, -, bad⟩ | ⟨b, events', reach', e, hc, he, whole⟩ := bind_eq_ended same
    · exact absurd bad nofun
    · have answer : e.answer = .ok d := (Course.mk.inj whole).1.symm
      exact ⟨b, ⟨_, _, hc⟩, e.events, e.reach, by rw [he, ← answer]⟩
  · rintro ⟨b, ⟨events, reach, rfl⟩, events', reach', hf⟩
    exact ⟨events ++ events', max reach reach', by rw [ok_bind, hf]⟩

/-! ## 2. Repetitions -/

/-- Match again and again from an offset, at most `room` times: the values, and the offset behind
them.  The repetition ends where a match fails, and also where it moves nowhere although no more than
`need` matches were still missing. -/
def repeated (step : Nat → Reading α (Outcome α Nat)) :
    (room need : Nat) → Nat → Reading α (List (Value α) × Nat)
  | 0, _, i => return ([], i)
  | room + 1, need, i => do
    match ← step i with
    | .failure .. => return ([], i)
    | .success v j =>
      if j = i ∧ need ≤ 1 then return ([v], j)
      else
        let (values, k) ← repeated step room (need - 1) j
        return (v :: values, k)

end Reading

/-- How many of the items stand in the list from an offset on, before the first that does not. -/
def matched {α : Type} [DecidableEq α] (ts : List α) : List α → Nat → Nat
  | [], _ => 0
  | item :: items, i => if ts[i]? = some item then matched ts items (i + 1) + 1 else 0

/-! ## 3. Terms -/

namespace Parser

variable {α : Type} [Token α] [DecidableEq α]

mutual

/-- What a parser does at an offset of a list. -/
def read (ts : List α) (call : RuleId → String → Nat → Reading α (Outcome α Nat)) :
    Parser α → Nat → Reading α (Outcome α Nat)
  | endOfInput, i => do
    match ← Reading.look ts i with
    | none => return .success .endOfInput i
    | some _ => return .failure .tokensLeft i
  | satisfy name accepts, i => do
    match ← Reading.look ts i with
    | none => return .failure .endOfInput i
    | some t =>
      if accepts t then
        Reading.visit (i + 1)
        return .success (.token t) (i + 1)
      else return .failure (.unsatisfied name) i
  | token items, i => do
    Reading.visit (i + matched ts items i)
    if items <+: ts.drop i then return .success (.list (items.map .token)) (i + items.length)
    else return .failure (.missing (token items).name) i
  | result value, i => return .success value i
  | expected message, i => return .failure (.stated .expected message) i
  | offset, i => return .success (.number i) i
  | jump _ _ count verdict, i => do
    let j := min (i + count) ts.length
    Reading.visit j
    match verdict with
    | .success => return .success (.number count) j
    | .failure kind message => return .failure (.stated kind message) j
  | map f q, i => do return (← q.read ts call i).mapValue f
  | named _ q, i => q.read ts call i
  | group _ qs, i => do
    match ← readAll ts call qs i with
    | .ok (values, j) => return .success (.tuple values) j
    | .error name => return .failure (.missing name) i
  | choice qs, i => do
    match ← readFirst ts call qs i with
    | some r => return r
    | none => return .failure (.noneOf (names qs)) i
  | many style q, i => do
    let (values, j) ← Reading.repeated (q.read ts call) style.most style.least i
    if values.length < style.least then return .failure (.tooFew style.least q.name) i
    else return .success (.list values) j
  | optional q, i => do
    match ← q.read ts call i with
    | .success v j => return .success (.some v) j
    | .failure .. => return .success .none i
  | peek q, i => do
    match ← q.read ts call i with
    | .success v _ => return .success v i
    | .failure reason j => return .failure reason j
  | not q, i => do
    match ← q.read ts call i with
    | .success .. => return .failure (.present q.name) i
    | .failure .. =>
      match ← Reading.look ts i with
      | some t => return .success (.token t) i
      | none => return .failure .endOfInput i
  | bind noted qs continuation, i => do
    match ← readAll ts call qs i with
    | .error name => return .failure (.missing name) i
    | .ok (values, j) =>
      if noted then Reading.note (.continued values)
      (continuation values).read ts call j
  | observed tag q, i => do
    let r ← q.read ts call i
    Reading.note (.observed tag r)
    return r
  | traced q, i => do
    let r ← q.read ts call i
    Reading.note (.traced q.name r)
    return r
  | rule id name, i => call id name i

/-- Match parsers in a row: the values and the offset behind them, or the name of the first that
failed. -/
def readAll (ts : List α) (call : RuleId → String → Nat → Reading α (Outcome α Nat)) :
    List (Parser α) → Nat → Reading α (Except String (List (Value α) × Nat))
  | [], i => return .ok ([], i)
  | q :: qs, i => do
    match ← q.read ts call i with
    | .failure .. => return .error q.name
    | .success v j =>
      match ← readAll ts call qs j with
      | .error name => return .error name
      | .ok (values, k) => return .ok (v :: values, k)

/-- The success of the first parser that matches. -/
def readFirst (ts : List α) (call : RuleId → String → Nat → Reading α (Outcome α Nat)) :
    List (Parser α) → Nat → Reading α (Option (Outcome α Nat))
  | [], _ => return none
  | q :: qs, i => do
    match ← q.read ts call i with
    | .success v j => return some (.success v j)
    | .failure .. => readFirst ts call qs i

end

/-! ## 4. Rules -/

/-- What the call of a rule does if rules call one another at most `depth` deeper. -/
def callDepth (grammar : Grammar α) (ts : List α) :
    Nat → RuleId → String → Nat → Reading α (Outcome α Nat)
  | 0, id, name, _ => if (grammar[id]?).join.isSome then .endless else .undefined name
  | depth + 1, id, name, i =>
    match (grammar[id]?).join with
    | some body => body.read ts (callDepth grammar ts depth) i
    | none => .undefined name

/-- What a parser does at an offset if rules call one another at most `depth` deep. -/
def readDepth (grammar : Grammar α) (ts : List α) (depth : Nat) (q : Parser α) (i : Nat) :
    Reading α (Outcome α Nat) :=
  q.read ts (callDepth grammar ts depth) i

/-- A parser of a grammar, started at an offset of a list, ends with a course. -/
def Reads (grammar : Grammar α) (ts : List α) (q : Parser α) (i : Nat)
    (c : Course α (Outcome α Nat)) : Prop :=
  ∃ depth, q.readDepth grammar ts depth i = .ended c

end Parser

end LazyPeg
