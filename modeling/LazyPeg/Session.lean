import LazyPeg.Diagnostic
import LazyPeg.Description.Build

/-!
# Sessions

A session holds sequences, parsers, and the positions and results that its steps have produced, and
carries out steps in any order.  Positions, sequences and results are numbered from zero in the order
in which they appear.  Every step answers with a `Reply`; a step that names what is not there is
refused and changes nothing.
-/
namespace LazyPeg

/-- The state of a session. -/
structure Session (α : Type) (σ : Type := Store α) (π : Type := Position) where
  workshop : Workshop α σ
  parsers : Array (Parser α)
  /-- The positions; one that was dropped is gone, its number is not used again. -/
  positions : Array (Option π)
  /-- The sequences by their numbers in the medium; the sequence without tokens has none. -/
  sources : Array (Option Nat)
  results : Array (Result α π)

/-- What can be done in a session.  `place`, `source`, `result` and `parser` are numbers. -/
inductive Step (α : Type) where
  /-- Open a sequence. -/
  | start (input : Input α)
  /-- Move on by some places. -/
  | tail (place count : Nat)
  /-- Note a position once more. -/
  | clone (place : Nat)
  | head (place : Nat)
  | offset (place : Nat)
  | isEnd (place : Nat)
  | describe (place : Nat)
  | samePlace (place other : Nat)
  /-- The next tokens, at most `count`. -/
  | take (place count : Nat)
  /-- How many tokens are left. -/
  | count (place : Nat)
  /-- Forget a position. -/
  | drop (place : Nat)
  | pulls (source : Nat)
  /-- Whether no fault is kept. -/
  | isOk (source : Nat)
  | takeFault (source : Nat)
  | describeStatus (source : Nat)
  /-- Parse at a position. -/
  | parse (place parser : Nat)
  /-- Match the whole input from a position on. -/
  | run (place parser : Nat) (filename : String)
  | sameResult (result other : Nat)
  | describeResult (result : Nat)
  /-- The result with a mark around its value. -/
  | wrapResult (result : Nat)

/-- What a step answers. -/
inductive Reply (α : Type) (π : Type := Position) where
  | started (place source : Nat)
  | place (place : Nat)
  | token (t : Option α)
  | number (n : Nat)
  | flag (b : Bool)
  | text (s : String)
  | fault (message : Option String)
  | tokens (ts : List α)
  /-- A result, its number, the number of its position, and the events of the parse. -/
  | parsed (place result : Nat) (outcome : Result α π) (events : List (Event α π))
  | accepted (value : Value α) (events : List (Event α π))
  | rejected (d : Diagnostic) (events : List (Event α π))
  /-- The parse came to no outcome. -/
  | stopped (why : Stop) (events : List (Event α π))
  | result (outcome : Result α π)
  | refused

namespace Session

variable {α σ π : Type} [Token α] [DecidableEq α] [Medium α σ π]

/-! ## 1. Beginning -/

/-- A session with the parsers of some descriptions, in a medium without sequences. -/
def beginIn (empty : σ) (descriptions : List (Description α)) :
    Except BuildError (Session α σ π) := do
  let (parsers, workshop) ← (Description.buildAll [] descriptions).run ⟨empty, #[]⟩
  return { workshop, parsers := parsers.toArray, positions := #[], sources := #[], results := #[] }

/-- A session with the parsers of some descriptions. -/
def begin (descriptions : List (Description α)) : Except BuildError (Session α) :=
  beginIn Store.new descriptions

/-- The position with a number. -/
def position? (s : Session α σ π) (place : Nat) : Option π := (s.positions[place]?).join

/-- The number in the medium of the sequence with a number. -/
def source? (s : Session α σ π) (source : Nat) : Option Nat := (s.sources[source]?).join

/-! ## 2. Steps on sequences -/

/-- Note a position, and hold on to it. -/
def note (p : π) (s : Session α σ π) : Nat × Session α σ π :=
  let ⟨⟨store, grammar⟩, parsers, positions, sources, results⟩ := s
  (positions.size,
    ⟨⟨Medium.hold store p, grammar⟩, parsers, positions.push (some p), sources, results⟩)

/-- Forget a position, and let go of it. -/
def forget (place : Nat) (s : Session α σ π) : Session α σ π :=
  let ⟨⟨store, grammar⟩, parsers, positions, sources, results⟩ := s
  let store := match (positions[place]?).join with
    | some p => Medium.drop store p
    | none => store
  ⟨⟨store, grammar⟩, parsers, positions.setIfInBounds place none, sources, results⟩

/-- Note a result, and hold on to its place. -/
def addResult (r : Result α π) (s : Session α σ π) : Session α σ π :=
  let ⟨⟨store, grammar⟩, parsers, positions, sources, results⟩ := s
  ⟨⟨Medium.hold store r.place, grammar⟩, parsers, positions, sources, results.push r⟩

/-- Do something with the medium that changes it. -/
def onStore {β : Type} (f : σ → β × σ) (s : Session α σ π) : β × Session α σ π :=
  let ⟨⟨store, grammar⟩, parsers, positions, sources, results⟩ := s
  let (b, store) := f store
  (b, ⟨⟨store, grammar⟩, parsers, positions, sources, results⟩)

/-- Open a sequence. -/
def start (input : Input α) (s : Session α σ π) : Reply α π × Session α σ π :=
  let number := match input with
    | .feed _ => some (Medium.opened s.workshop.store)
    | .empty => none
  let (p, s) := s.onStore (Medium.start · input)
  let (place, s) := s.note p
  (.started place s.sources.size, { s with sources := s.sources.push number })

/-- Do something at a position. -/
def atPlace (place : Nat) (s : Session α σ π)
    (f : π → Session α σ π → Reply α π × Session α σ π) : Reply α π × Session α σ π :=
  match s.position? place with
  | some p => f p s
  | none => (.refused, s)

/-- Answer from the medium without changing it. -/
def look (place : Nat) (f : σ → π → Reply α π) (s : Session α σ π) : Reply α π × Session α σ π :=
  s.atPlace place fun p s => (f s.workshop.store p, s)

/-- Do something with the sequence with a number.  The sequence without tokens was never read. -/
def atSource (source : Nat) (s : Session α σ π) (ifEmpty : Reply α π)
    (f : Nat → Session α σ π → Reply α π × Session α σ π) : Reply α π × Session α σ π :=
  match s.sources[source]? with
  | some (some number) => f number s
  | some none => (ifEmpty, s)
  | none => (.refused, s)

/-! ## 3. Steps with parsers -/

/-- Carry out a parse.  What it came to and its events, the first event first. -/
def perform {β : Type} (parse : ParsingIn α σ π β) (s : Session α σ π) :
    Except Stop β × List (Event α π) × Session α σ π :=
  let ⟨⟨store, grammar⟩, parsers, positions, sources, results⟩ := s
  let (b, ⟨store, events⟩) := (ExceptT.run parse).run ⟨store, []⟩
  (b, events.reverse, ⟨⟨store, grammar⟩, parsers, positions, sources, results⟩)

/-- Parse at a position, and note the result and its place. -/
def parse (q : Parser α) (p : π) (s : Session α σ π) : Reply α π × Session α σ π :=
  let (r, events, s) := s.perform (q.parse s.workshop.grammar p)
  match r with
  | .error why => (.stopped why events, s)
  | .ok r =>
    let (place, s) := s.note r.place
    (.parsed place s.results.size r events, s.addResult r)

/-- Match the whole input from a position on. -/
def run (q : Parser α) (filename : String) (p : π) (s : Session α σ π) :
    Reply α π × Session α σ π :=
  let (r, events, s) := s.perform (q.run s.workshop.grammar filename p)
  match r with
  | .error why => (.stopped why events, s)
  | .ok (.ok v) => (.accepted v events, s)
  | .ok (.error d) => (.rejected d events, s)

/-! ## 4. Steps -/

/-- Carry out a step. -/
def step (s : Session α σ π) : Step α → Reply α π × Session α σ π
  | .start input => s.start input
  | .tail place count => s.atPlace place fun p s =>
    let (p, s) := s.onStore fun st => Medium.skip count st p
    let (place, s) := s.note p
    (.place place, s)
  | .clone place => s.atPlace place fun p s =>
    let (place, s) := s.note p
    (.place place, s)
  | .head place => s.look place fun st p => .token (Medium.head? st p)
  | .offset place => s.look place fun st p => .number (Medium.offset st p)
  | .isEnd place => s.look place fun st p => .flag (Medium.isEnd st p)
  | .describe place => s.look place fun st p => .text (Medium.describe st p)
  | .samePlace place other => s.atPlace place fun p s =>
    s.look other fun st q => .flag (Medium.samePlace st p q)
  | .take place count => s.atPlace place fun p s =>
    let (ts, s) := s.onStore fun st => Medium.take count st p
    (.tokens ts, s)
  | .count place => s.atPlace place fun p s =>
    let (n, s) := s.onStore fun st => Medium.count st p
    (.number n, s)
  | .drop place => (.flag (s.position? place).isSome, s.forget place)
  | .pulls source => s.atSource source (.number 0) fun n s =>
    (.number (Medium.pulls s.workshop.store n), s)
  | .isOk source => s.atSource source (.flag true) fun n s =>
    (.flag (Medium.status? s.workshop.store n).join.isNone, s)
  | .takeFault source => s.atSource source (.fault none) fun n s =>
    let (message, s) := s.onStore fun st => Medium.takeFault st n
    (.fault message, s)
  | .describeStatus source => s.atSource source .refused fun n s =>
    (match Medium.status? s.workshop.store n with
      | some fault => .text (Reader.CharReader.showStatus fault)
      | none => .refused, s)
  | .parse place parser => s.atPlace place fun p s =>
    match s.parsers[parser]? with
    | some q => s.parse q p
    | none => (.refused, s)
  | .run place parser filename => s.atPlace place fun p s =>
    match s.parsers[parser]? with
    | some q => s.run q filename p
    | none => (.refused, s)
  | .sameResult result other =>
    match s.results[result]?, s.results[other]? with
    | some r, some r' => (.flag (r.agrees (Medium.samePlace s.workshop.store) r'), s)
    | _, _ => (.refused, s)
  | .describeResult result =>
    match s.results[result]? with
    | some r => (.text (r.describe (Medium.describe s.workshop.store)), s)
    | none => (.refused, s)
  | .wrapResult result =>
    match s.results[result]? with
    | some r => (.result (r.mapValue .wrapped), s)
    | none => (.refused, s)

end Session

end LazyPeg
