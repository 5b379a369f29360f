import LazyPeg.Proofs.Building.Plain
import LazyPeg.Proofs.Session.Reaches

/-!
# Names and observers in a session

**Names and observers never steer a parse** (`Session.parse_plain`).  Two sessions that begin with
descriptions which differ only by observers and boxes, or also by names and messages, go through any
steps alike: what is opened, read, counted, matched and rejected is the same, and so is every place.  If
only observers and boxes differ, the messages and the names of the parsers are the same as well.

`Session.plain` is a session with the names and observers taken out of its parsers, and the texts out of
the results it keeps.  A step in it does what the step does in the session (`Session.step_plain`).
-/
namespace LazyPeg

/-! ## 1. Replies -/

/-- Two outcomes that differ at most by the message of a failure: they have the same value and place, or
they are failures of the same kind at the same place.  Without `names` they are equal. -/
structure Outcome.Alike {α π : Type} (names : Bool) (r r' : Outcome α π) : Prop where
  value_eq : r.value? = r'.value?
  kind_eq : r.reason?.map Reason.kind = r'.reason?.map Reason.kind
  place_eq : r.place = r'.place
  eq_of_observers : names = false → r = r'

/-- Two replies that differ at most by the events of a parse, and with `names` by messages. -/
inductive Reply.Alike {α : Type} (names : Bool) : Reply α → Reply α → Prop where
  | refl (r : Reply α) : Alike names r r
  | parsed (n m : Nat) {o o' : Result α} (events events' : List (Event α Position))
    (outcomes : o.Alike names o') : Alike names (.parsed n m o events) (.parsed n m o' events')
  | accepted (v : Value α) (events events' : List (Event α Position)) :
    Alike names (.accepted v events) (.accepted v events')
  | rejected {d d' : Diagnostic} (events events' : List (Event α Position))
    (reports : d.plain names = d'.plain names) : Alike names (.rejected d events) (.rejected d' events')
  | stopped (why : Stop) (events events' : List (Event α Position)) :
    Alike names (.stopped why events) (.stopped why events')
  | result {o o' : Result α} (outcomes : o.Alike names o') : Alike names (.result o) (.result o')

section Alike

variable {α π : Type} {names : Bool} {o o' o'' : Outcome α π} {r r' r'' : Reply α}

theorem Outcome.alike_of_plain (h : o.plain names = o'.plain names) : o.Alike names o' where
  value_eq := by rw [← o.value?_plain, h, value?_plain]
  kind_eq := by
    rcases o with ⟨v, next⟩ | ⟨reason, place⟩ <;> rcases o' with ⟨v', next'⟩ | ⟨reason', place'⟩
    · rfl
    · exact absurd h nofun
    · exact absurd h nofun
    · exact congrArg some (Reason.kind_eq_of_plain (Outcome.failure.inj h).1)
  place_eq := by rw [← o.place_plain, h, place_plain]
  eq_of_observers none := by
    subst none
    rw [← o.plain_false, h, plain_false]

theorem Outcome.Alike.symm (h : o.Alike names o') : o'.Alike names o :=
  ⟨h.value_eq.symm, h.kind_eq.symm, h.place_eq.symm, fun none => (h.eq_of_observers none).symm⟩

theorem Outcome.Alike.trans (h : o.Alike names o') (h' : o'.Alike names o'') : o.Alike names o'' :=
  ⟨h.value_eq.trans h'.value_eq, h.kind_eq.trans h'.kind_eq, h.place_eq.trans h'.place_eq,
    fun none => (h.eq_of_observers none).trans (h'.eq_of_observers none)⟩

theorem Reply.Alike.symm (h : r.Alike names r') : r'.Alike names r := by
  cases h with
  | refl => exact .refl _
  | parsed n m events events' outcomes => exact .parsed n m _ _ outcomes.symm
  | accepted v => exact .accepted v _ _
  | rejected events events' reports => exact .rejected _ _ reports.symm
  | stopped why => exact .stopped why _ _
  | result outcomes => exact .result outcomes.symm

theorem Reply.Alike.trans (h : r.Alike names r') (h' : r'.Alike names r'') : r.Alike names r'' := by
  cases h with
  | refl => exact h'
  | parsed n m events events' outcomes =>
    cases h' with
    | refl => exact .parsed n m _ _ outcomes
    | parsed _ _ _ _ outcomes' => exact .parsed n m _ _ (outcomes.trans outcomes')
  | accepted v =>
    cases h' with
    | refl => exact .accepted v _ _
    | accepted => exact .accepted v _ _
  | rejected events events' reports =>
    cases h' with
    | refl => exact .rejected _ _ reports
    | rejected _ _ reports' => exact .rejected _ _ (reports.trans reports')
  | stopped why =>
    cases h' with
    | refl => exact .stopped why _ _
    | stopped => exact .stopped why _ _
  | result outcomes =>
    cases h' with
    | refl => exact .result outcomes
    | result outcomes' => exact .result (outcomes.trans outcomes')

end Alike

/-! ## 2. Steps on sequences -/

namespace Session

variable {α : Type}

/-- A session with other parsers, rules and results. -/
def withParsers (grammar : Parser.Grammar α) (parsers : Array (Parser α)) (results : Array (Result α))
    (s : Session α) : Session α :=
  { s with workshop := { s.workshop with grammar }, parsers, results }

end Session

/-- A step on sequences and positions only. -/
def Step.onSequences {α : Type} : Step α → Bool
  | .parse .. => false
  | .run .. => false
  | .sameResult .. => false
  | .describeResult _ => false
  | .wrapResult _ => false
  | _ => true

namespace Session

variable {α : Type} [Token α] [DecidableEq α]

/-- **A step on sequences does not see the parsers and results**, and leaves them as they are. -/
theorem step_withParsers {x : Step α} (hx : x.onSequences = true) (grammar : Parser.Grammar α)
    (parsers : Array (Parser α)) (results : Array (Result α)) (s : Session α) :
    (s.withParsers grammar parsers results).step x =
      ((s.step x).1, (s.step x).2.withParsers grammar parsers results) := by
  have place (n : Nat) : (s.withParsers grammar parsers results).position? n = s.position? n := rfl
  have source (n : Nat) : (s.withParsers grammar parsers results).sources[n]? = s.sources[n]? := rfl
  cases x with
  | start input => rfl
  | drop n => rfl
  | tail n count | clone n | head n | offset n | isEnd n | describe n | take n count | count n =>
    simp only [Session.step, look, atPlace, place]
    split <;> rfl
  | samePlace n other =>
    simp only [Session.step, look, atPlace, place]
    split
    · split <;> rfl
    · rfl
  | pulls n | isOk n | takeFault n | describeStatus n =>
    simp only [Session.step, atSource, source]
    split <;> rfl
  | parse | run | sameResult | describeResult | wrapResult => cases hx

end Session

/-! ## 3. Steps with parsers -/

/-- A step that shows the message of a result, or compares it. -/
def Step.readsMessage {α : Type} : Step α → Bool
  | .sameResult .. => true
  | .describeResult _ => true
  | _ => false

namespace Session

variable {α : Type} {names : Bool} {s s' : Session α}

/-- A session with the names and observers taken out. -/
def plain (names : Bool) (s : Session α) : Session α :=
  s.withParsers (Parser.plainRules names s.workshop.grammar) (s.parsers.map (Parser.plain names))
    (s.results.map (Outcome.plain names))

/-- Two steps were replied to alike, and left sessions that show the same. -/
def Agree (names : Bool) (x x' : Reply α × Session α) : Prop :=
  x.1.Alike names x'.1 ∧ x.2.plain names = x'.2.plain names

theorem store_eq_of_plain (h : s.plain names = s'.plain names) : s.store = s'.store :=
  congrArg (·.workshop.store) h

theorem position?_eq_of_plain (h : s.plain names = s'.plain names) (place : Nat) :
    s.position? place = s'.position? place :=
  congrArg (·.position? place) h

theorem rules_of_plain (h : s.plain names = s'.plain names) :
    Parser.plainRules names s.workshop.grammar = Parser.plainRules names s'.workshop.grammar :=
  congrArg (·.workshop.grammar) h

/-- Two lists of which a function shows the same have items in the same places, of which it shows the
same. -/
theorem getElem?_of_map_eq {β γ : Type} {f : β → γ} {xs xs' : Array β} (h : xs.map f = xs'.map f) (n : Nat) :
    (xs[n]? = none ∧ xs'[n]? = none) ∨ ∃ b b', xs[n]? = some b ∧ xs'[n]? = some b' ∧ f b = f b' := by
  have same : (xs[n]?).map f = (xs'[n]?).map f := by rw [← Array.getElem?_map, h, Array.getElem?_map]
  rcases hx : xs[n]? with _ | b <;> rcases hx' : xs'[n]? with _ | b' <;> rw [hx, hx'] at same
  · exact .inl ⟨rfl, rfl⟩
  · exact absurd same nofun
  · exact absurd same nofun
  · exact .inr ⟨b, b', rfl, rfl, Option.some.inj same⟩

theorem parsers_of_plain (h : s.plain names = s'.plain names) :
    s.parsers.map (Parser.plain names) = s'.parsers.map (Parser.plain names) :=
  congrArg Session.parsers h

theorem results_of_plain (h : s.plain names = s'.plain names) :
    s.results.map (Outcome.plain names) = s'.results.map (Outcome.plain names) :=
  congrArg Session.results h

/-- Where only observers are taken out, the results are equal. -/
theorem results_eq_of_plain (h : s.plain false = s'.plain false) : s.results = s'.results := by
  have kept (rs : Array (Result α)) : rs.map (Outcome.plain false) = rs := by
    rw [funext (f := Outcome.plain false) Outcome.plain_false]
    exact Array.map_id rs
  rw [← kept s.results, results_of_plain h, kept]

theorem plain_withStore (h : s.plain names = s'.plain names) {st st' : Store α} (hst : st = st') :
    (s.withStore st).plain names = (s'.withStore st').plain names := by
  obtain rfl := hst
  exact congrArg (·.withStore st) h

theorem plain_note (h : s.plain names = s'.plain names) (p : Position) :
    (s.note p).2.plain names = (s'.note p).2.plain names :=
  congrArg (fun s => (s.note p).2) h

theorem plain_addResult (h : s.plain names = s'.plain names) {r r' : Result α}
    (hr : r.plain names = r'.plain names) :
    ({ s with results := s.results.push r } : Session α).plain names =
      ({ s' with results := s'.results.push r' } : Session α).plain names := by
  have pushed := congrArg (fun s : Session α => { s with results := s.results.push (r.plain names) }) h
  simpa only [plain, withParsers, Array.map_push, hr] using pushed

/-- What is performed in two sessions that show the same. -/
theorem perform_of_plain {β γ : Type} {f : β → γ} {m m' : Parsing α β}
    (h : s.plain names = s'.plain names) (hm : Parsing.Same f m m') :
    (s.perform m).1.map f = (s'.perform m').1.map f ∧
      (s.perform m).2.2.plain names = (s'.perform m').2.2.plain names := by
  obtain ⟨answers, stores⟩ := hm ⟨s.store, []⟩ ⟨s'.store, []⟩ (store_eq_of_plain h)
  rw [perform_eq, perform_eq]
  exact ⟨answers, plain_withStore h stores⟩

/-- A result is noted in both sessions under one number, and its place under one number. -/
theorem agree_parsed (h : s.plain names = s'.plain names) {r r' : Result α}
    (hr : r.plain names = r'.plain names) (events events' : List (Event α Position)) :
    Agree names
      (.parsed s.positions.size s.results.size r events,
        { (s.note r.place).2 with results := s.results.push r })
      (.parsed s'.positions.size s'.results.size r' events',
        { (s'.note r'.place).2 with results := s'.results.push r' }) := by
  have alike := Outcome.alike_of_plain hr
  have positions : s.positions.size = s'.positions.size := congrArg (·.positions.size) h
  have results : s.results.size = s'.results.size := by
    simpa only [plain, withParsers, Array.size_map] using congrArg (·.results.size) h
  constructor
  · rw [positions, results]
    exact .parsed _ _ _ _ alike
  · rw [alike.place_eq]
    exact plain_addResult (plain_note h r'.place) hr

/-- Something that is done with a parser with a number at a position. -/
theorem agree_atParser (h : s.plain names = s'.plain names) (place parser : Nat)
    {f : Parser α → Position → Session α → Reply α × Session α}
    (hf : ∀ q q' p, q.plain names = q'.plain names → Agree names (f q p s) (f q' p s')) :
    Agree names
      (s.atPlace place fun p s => match s.parsers[parser]? with
        | some q => f q p s
        | none => (.refused, s))
      (s'.atPlace place fun p s => match s.parsers[parser]? with
        | some q => f q p s
        | none => (.refused, s)) := by
  unfold atPlace
  rw [position?_eq_of_plain h]
  cases s'.position? place with
  | none => exact ⟨.refl _, h⟩
  | some p =>
    obtain ⟨none, none'⟩ | ⟨q, q', found, found', hq⟩ := getElem?_of_map_eq (parsers_of_plain h) parser
    · simp only [none, none']
      exact ⟨.refl _, h⟩
    · simp only [found, found']
      exact hf q q' p hq

section Parsers

variable [Token α] [DecidableEq α]

theorem parse_of_plain (h : s.plain names = s'.plain names) {q q' : Parser α}
    (hq : q.plain names = q'.plain names) (p : Position) :
    Agree names (s.parse q p) (s'.parse q' p) := by
  obtain ⟨answers, sessions⟩ := perform_of_plain h (Parser.same_parse_of_plain (rules_of_plain h) hq p)
  unfold Session.parse
  generalize s.perform (q.parse s.workshop.grammar p) = x at answers sessions
  generalize s'.perform (q'.parse s'.workshop.grammar p) = x' at answers sessions
  obtain ⟨answer, events, t⟩ := x
  obtain ⟨answer', events', t'⟩ := x'
  obtain ⟨why, rfl, rfl⟩ | ⟨r, r', rfl, rfl, hr⟩ := cases_of_map_eq answers
  · exact ⟨.stopped why _ _, sessions⟩
  · exact agree_parsed sessions hr _ _

theorem run_of_plain (h : s.plain names = s'.plain names) {q q' : Parser α}
    (hq : q.plain names = q'.plain names) (filename : String) (p : Position) :
    Agree names (s.run q filename p) (s'.run q' filename p) := by
  obtain ⟨answers, sessions⟩ := perform_of_plain h (Parser.same_run_of_plain (rules_of_plain h) hq filename p)
  unfold Session.run
  generalize s.perform (q.run s.workshop.grammar filename p) = x at answers sessions
  generalize s'.perform (q'.run s'.workshop.grammar filename p) = x' at answers sessions
  obtain ⟨answer, events, t⟩ := x
  obtain ⟨answer', events', t'⟩ := x'
  obtain ⟨why, rfl, rfl⟩ | ⟨verdict, verdict', rfl, rfl, same⟩ := cases_of_map_eq answers
  · exact ⟨.stopped why _ _, sessions⟩
  · rcases verdict with d | v <;> rcases verdict' with d' | v'
    · exact ⟨.rejected _ _ (Except.error.inj same), sessions⟩
    · exact absurd same nofun
    · exact absurd same nofun
    · obtain rfl := Except.ok.inj same
      exact ⟨.accepted v _ _, sessions⟩

/-- Steps on sequences do the same in both sessions. -/
theorem agree_onSequences (h : s.plain names = s'.plain names) {x : Step α}
    (hx : x.onSequences = true) : Agree names (s.step x) (s'.step x) := by
  have other : s' = s.withParsers s'.workshop.grammar s'.parsers s'.results := by
    obtain ⟨⟨store, grammar⟩, parsers, positions, sources, results⟩ := s
    obtain ⟨⟨store', grammar'⟩, parsers', positions', sources', results'⟩ := s'
    obtain ⟨workshops, -, rfl, rfl, -⟩ := Session.mk.inj h
    obtain ⟨rfl, -⟩ := Workshop.mk.inj workshops
    rfl
  have here := step_withParsers hx s.workshop.grammar s.parsers s.results s
  have there := step_withParsers hx s'.workshop.grammar s'.parsers s'.results s
  rw [← other] at there
  constructor
  · rw [there]
    exact .refl _
  · have kept : (s.step x).2 = _ := congrArg Prod.snd here
    rw [kept, there]
    simp only [plain, withParsers, rules_of_plain h, parsers_of_plain h, results_of_plain h]

/-- A step that reads messages changes nothing. -/
theorem step_of_readsMessage {x : Step α} (hx : x.readsMessage = true) (s : Session α) :
    (s.step x).2 = s := by
  cases x with
  | sameResult | describeResult =>
    simp only [Session.step]
    split <;> rfl
  | _ => cases hx

/-- **A step does the same in both sessions**, up to messages where they are left out. -/
theorem step_of_plain (h : s.plain names = s'.plain names) (x : Step α) :
    (s.step x).2.plain names = (s'.step x).2.plain names ∧
      ((names = true → x.readsMessage = false) → (s.step x).1.Alike names (s'.step x).1) := by
  by_cases hx : x.onSequences = true
  · have agree := agree_onSequences h hx
    exact ⟨agree.2, fun _ => agree.1⟩
  cases x with
  | parse place parser =>
    have agree := agree_atParser h place parser fun q q' p hq => parse_of_plain h hq p
    exact ⟨agree.2, fun _ => agree.1⟩
  | run place parser filename =>
    have agree := agree_atParser h place parser fun q q' p hq => run_of_plain h hq filename p
    exact ⟨agree.2, fun _ => agree.1⟩
  | sameResult | describeResult =>
    refine ⟨by rw [step_of_readsMessage rfl, step_of_readsMessage rfl, h], fun shown => ?_⟩
    obtain rfl : names = false := by simpa [Step.readsMessage] using shown
    simp only [Session.step, results_eq_of_plain h, store_eq_of_plain h]
    split <;> exact .refl _
  | wrapResult result =>
    obtain ⟨none, none'⟩ | ⟨r, r', found, found', hr⟩ := getElem?_of_map_eq (results_of_plain h) result
    · simp only [Session.step, none, none']
      exact ⟨h, fun _ => .refl _⟩
    · simp only [Session.step, found, found']
      refine ⟨h, fun _ => .result (Outcome.alike_of_plain ?_)⟩
      rw [Outcome.plain_mapValue, hr, Outcome.plain_mapValue]
  | _ => exact absurd rfl hx

/-- **Any steps do the same in both sessions.** -/
theorem after_of_plain (h : s.plain names = s'.plain names) (xs : List (Step α)) :
    (s.after xs).plain names = (s'.after xs).plain names := by
  induction xs generalizing s s' with
  | nil => exact h
  | cons x xs ih => exact ih (step_of_plain h x).1

/-! ## 4. Sessions -/

variable {ds ds' : List (Description α)}

/-- Sessions begin alike, or they are refused for the same fault. -/
theorem begin_plain (ds : List (Description α)) :
    (Session.begin ds).map (plain names) =
      (Session.begin (ds.map (Description.plain names))).map (plain names) := by
  have alike : Building.Same names (List.map (Parser.plain names)) (Description.buildAll [] ds) _ :=
    Description.same_buildAll [] ds
  rw [Description.plainAll_eq] at alike
  have built := alike ⟨Store.new, #[]⟩ ⟨Store.new, #[]⟩ rfl
  unfold Session.begin beginIn
  obtain ⟨why, hq, hq'⟩ | ⟨⟨qs, w⟩, ⟨qs', w'⟩, hq, hq', same⟩ := cases_of_map_eq built
  · rw [hq, hq']
  · obtain ⟨parsers, workshops⟩ := Prod.mk.inj same
    have parsers' : qs.toArray.map (Parser.plain names) = qs'.toArray.map (Parser.plain names) := by
      rw [List.map_toArray, List.map_toArray, parsers]
    rw [hq, hq']
    refine congrArg Except.ok ?_
    change (⟨w.plain names, _, #[], #[], _⟩ : Session α) = ⟨w'.plain names, _, #[], #[], _⟩
    rw [workshops, parsers']

/-- As much was read of every sequence. -/
theorem pulls_of_plain (h : s.plain names = s'.plain names) (source : Nat) :
    (s.step (.pulls source)).1 = (s'.step (.pulls source)).1 := by
  have sources : s.sources = s'.sources := congrArg (·.sources) h
  have store : s.workshop.store = s'.workshop.store := store_eq_of_plain h
  simp only [Session.step, atSource, sources, store]
  split <;> rfl

omit [DecidableEq α] in
theorem names_of_plain (h : s.plain false = s'.plain false) :
    s.parsers.map Parser.name = s'.parsers.map Parser.name := by
  have shown (qs : Array (Parser α)) : (qs.map (Parser.plain false)).map Parser.name = qs.map Parser.name := by
    rw [Array.map_map]
    exact congrArg (qs.map ·) (funext Parser.name_plain)
  rw [← shown s.parsers, parsers_of_plain h, shown]

theorem begin_of_plain (h : ds.map (Description.plain names) = ds'.map (Description.plain names)) :
    (Session.begin ds).map (plain names) = (Session.begin ds').map (plain names) := by
  rw [begin_plain ds, h, ← begin_plain ds']

/-- **Names and observers never steer a parse.**  Let the descriptions of two sessions be equal once boxes
and observers, and with `names` also names and messages, are taken out of them.  The sessions are refused
for the same fault, or both begin, and after any steps every parse in them comes to the same: it is
refused or stopped alike, or it comes to the same value or the same kind of failure at the same place.
As much of every sequence was read.  If only boxes and observers differ, the messages are the same, too,
and so are the names of the parsers. -/
theorem parse_plain (h : ds.map (Description.plain names) = ds'.map (Description.plain names)) :
    (∀ why, Session.begin ds = .error why ↔ Session.begin ds' = .error why) ∧
    ∀ s s', Session.begin ds = .ok s → Session.begin ds' = .ok s' →
      (names = false → s.parsers.map Parser.name = s'.parsers.map Parser.name) ∧
      ∀ xs place parser filename,
        ((s.after xs).step (.parse place parser)).1.Alike names
          ((s'.after xs).step (.parse place parser)).1 ∧
        ((s.after xs).step (.run place parser filename)).1.Alike names
          ((s'.after xs).step (.run place parser filename)).1 ∧
        ∀ source, ((s.after xs).step (.pulls source)).1 = ((s'.after xs).step (.pulls source)).1 := by
  have same := begin_of_plain h
  refine ⟨fun why => ?_, fun s s' hs hs' => ?_⟩
  · obtain ⟨why', hs, hs'⟩ | ⟨s, s', hs, hs', -⟩ := cases_of_map_eq same
    · rw [hs, hs']
    · rw [hs, hs']
      exact ⟨nofun, nofun⟩
  · rw [hs, hs'] at same
    have shown : s.plain names = s'.plain names := Except.ok.inj same
    refine ⟨fun none => ?_, fun xs place parser filename => ?_⟩
    · subst none
      exact names_of_plain shown
    · have later := after_of_plain shown xs
      refine ⟨(step_of_plain later _).2 fun _ => rfl, (step_of_plain later _).2 fun _ => rfl, ?_⟩
      exact fun source => pulls_of_plain later source

end Parsers

/-- Letters up to the end, with a continuation that calls the rule again. -/
def letters : Description Char :=
  .recursive "letters" .defined
    (.choice [.bind false [.oneOf ['a', 'b']] (.always (.call "letters")), .endOfInput])

/-- The same with names and observers everywhere. -/
def dressedLetters : Description Char :=
  .traced (.recursive "letters" .defined (.boxed (.choice
    [.named "more" (.bind false [.observed (.text "letter") (.named "letter" (.oneOf ['a', 'b']))]
      (.always (.traced (.named "rest" (.call "letters"))))),
    .boxed (.named "end" .endOfInput)])))

/-- In front of a third letter both come to the same, and they have looked at as many letters. -/
theorem parse_plain_letters :
    ∃ s s', Session.begin [letters] = .ok s ∧ Session.begin [dressedLetters] = .ok s' ∧
      ((s.after [.start (.feed (.items ['a', 'b', 'c', 'd']))]).step (.parse 0 0)).1.Alike true
        ((s'.after [.start (.feed (.items ['a', 'b', 'c', 'd']))]).step (.parse 0 0)).1 ∧
      ((s.after [.start (.feed (.items ['a', 'b', 'c', 'd'])), .parse 0 0]).step (.pulls 0)).1 =
        ((s'.after [.start (.feed (.items ['a', 'b', 'c', 'd'])), .parse 0 0]).step (.pulls 0)).1 := by
  obtain ⟨-, steps⟩ := @parse_plain Char true _ _ [letters] [dressedLetters] rfl
  obtain ⟨-, alike⟩ := steps _ _ rfl rfl
  have opened := alike [.start (.feed (.items ['a', 'b', 'c', 'd']))] 0 0 ""
  have parsed := alike [.start (.feed (.items ['a', 'b', 'c', 'd'])), .parse 0 0] 0 0 ""
  exact ⟨_, _, rfl, rfl, opened.1, parsed.2.2 0⟩

end Session

end LazyPeg
