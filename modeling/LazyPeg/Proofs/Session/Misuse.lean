import LazyPeg.Proofs.Handles.Alive
import LazyPeg.Proofs.Session.Guarded
import LazyPeg.Proofs.Session.Run
import LazyPeg.Proofs.Simulation.Calls

/-!
# Misused rules

A rule is misused where a reference to it is called although it was never defined, or although the parser
that defined it is gone.  **Nothing else is wrong with references**: a parse is stopped at a rule exactly
if its evaluation comes to such a call (`Session.stopped_iff_misused`).  That a reference exists, or stands
in a parser, does no harm.

The theorem is said twice.  A program that declares, refers to, clones, composes, defines and drops in any
order can misuse any rule, and which ones it does is a matter of its handles (`Shelf.Alive`).  A session
has the rules of its descriptions, and they say which are misused (`Description.misused`).
-/
namespace LazyPeg

namespace Session

variable {α : Type} [Token α] [DecidableEq α] {ds : List (Description α)} {s : Session α}
  {feeds : List (Feed α)} {forced : List Position} {place parser : Nat} {p : Position} {q : Parser α}
  {why : Stop} {events : List (Event α Position)}

/-! ## 1. The rules of a session -/

/-- **The parsers and the rules of a session call rules that are defined, and rules that a description
misuses.** -/
theorem Reaches.callable (h : Reaches ds s feeds forced) :
    (∀ (parser : Nat) q, s.parsers[parser]? = some q →
      q.All (Parser.Callable s.workshop.grammar (ds.flatMap Description.misused))) ∧
    ∀ (id : RuleId) (body : Parser α), (s.workshop.grammar[id]?).join = some body →
      body.All (Parser.Callable s.workshop.grammar (ds.flatMap Description.misused)) := by
  induction h with
  | begin h =>
    obtain ⟨qs, w, built, rfl⟩ := begin_eq h
    obtain ⟨hqs, bodies⟩ := Description.all_of_buildAll built
    refine ⟨fun parser q hq => ?_, fun id body hbody => (bodies id body hbody).mono fun _ hn => hn.callable⟩
    rw [List.getElem?_toArray] at hq
    exact (Parser.allOf_iff.1 hqs q (List.mem_of_getElem? hq)).mono fun _ hn => hn.callable
  | @step s _ _ _ x ih =>
    rw [(s.parsers_step x).1, (s.parsers_step x).2]
    exact ih

/-! ## 2. What a session replies -/

omit [Token α] [DecidableEq α] in
/-- A reply that says how a parse was stopped, and says so only if it was. -/
theorem stopped_iff_of_reply {β : Type} {m : Parsing α β} {w : World α} {reply : Reply α}
    (stopped : ∀ why v, (ExceptT.run m).run w = (.error why, v) →
      reply = .stopped why v.events.reverse)
    (ended : ∀ b v, (ExceptT.run m).run w = (.ok b, v) → reply ≠ .stopped why events) :
    reply = .stopped why events ↔ ∃ v, m.Stops w why v ∧ v.events.reverse = events := by
  constructor
  · intro h
    rcases hm : (ExceptT.run m).run w with ⟨why' | b, v⟩
    · obtain ⟨rfl, rfl⟩ := Reply.stopped.inj ((stopped why' v hm).symm.trans h)
      exact ⟨v, hm, rfl⟩
    · exact absurd h (ended b v hm)
  · rintro ⟨v, hm, rfl⟩
    exact stopped why v hm

theorem step_parse_stopped_iff (hp : s.position? place = some p) (hq : s.parsers[parser]? = some q) :
    (s.step (.parse place parser)).1 = .stopped why events ↔
      ∃ v, Parsing.Stops (q.parse s.workshop.grammar p) ⟨s.store, []⟩ why v ∧ v.events.reverse = events := by
  rw [step_parse_eq hp hq]
  refine stopped_iff_of_reply (fun why v hm => ?_) fun b v hm => ?_
  · simp only [Session.parse, perform_eq, hm]
  · simp only [Session.parse, perform_eq, hm]
    rintro ⟨⟩

/-- Matching the whole input is stopped as a parse is. -/
theorem step_run_stopped_iff (filename : String) (hp : s.position? place = some p)
    (hq : s.parsers[parser]? = some q) :
    (s.step (.run place parser filename)).1 = .stopped why events ↔
      (s.step (.parse place parser)).1 = .stopped why events := by
  rw [step_parse_stopped_iff hp hq, step_run_eq hp hq]
  simp only [← Parser.stops_run_iff filename]
  refine stopped_iff_of_reply (fun why v hm => ?_) fun b v hm => ?_
  · simp only [Session.run, perform_eq, hm]
  · simp only [Session.run, perform_eq, hm]
    cases b <;> rintro ⟨⟩

/-! ## 3. Undefined rules -/

variable {c : Call α} {d : Description α} {name : String}

/-- **A parse is stopped at an undefined rule exactly if it comes to a call of one.** -/
theorem step_parse_undefined_iff (hp : s.position? place = some p) (hq : s.parsers[parser]? = some q) :
    (∃ events, (s.step (.parse place parser)).1 = .stopped (.undefinedRule name) events) ↔
      ∃ c, q.ParseComes s.workshop.grammar p ⟨s.store, []⟩ c ∧ c.Undefined s.workshop.grammar ∧
        c.name = name := by
  constructor
  · rintro ⟨events, stopped⟩
    obtain ⟨v, stops, -⟩ := (step_parse_stopped_iff hp hq).1 stopped
    obtain ⟨c, comes, undefined, named, -⟩ := Parser.stops_parse_iff.1 stops
    exact ⟨c, comes, undefined, named⟩
  · rintro ⟨c, comes, undefined, rfl⟩
    exact ⟨_, (step_parse_stopped_iff hp hq).2
      ⟨_, Parser.stops_parse_iff.2 ⟨c, comes, undefined, rfl, rfl⟩, rfl⟩⟩

/-- An undefined rule that a parse comes to is misused by one of the descriptions. -/
theorem Reaches.misused_of_comes (h : Reaches ds s feeds forced) (hq : s.parsers[parser]? = some q)
    {w : World α} {depth : Nat} (comes : Parser.Comes s.workshop.grammar depth q p w c)
    (undefined : c.Undefined s.workshop.grammar) : ∃ d ∈ ds, c.name ∈ d.misused := by
  obtain ⟨parsers, bodies⟩ := h.callable
  have callable := comes.all (fun _ hbody => bodies _ _ hbody) (parsers parser q hq)
  exact List.mem_flatMap.1 (callable.resolve_left fun defined => defined undefined)

/-- It is misused by the description of the parser, whatever the other descriptions misuse, if this
description is local. -/
theorem Reaches.misused_of_comes_local (h : Reaches ds s feeds forced)
    (hq : s.parsers[parser]? = some q) (hd : ds[parser]? = some d) (hl : d.isLocal) {w : World α}
    {depth : Nat} (comes : Parser.Comes s.workshop.grammar depth q p w c)
    (undefined : c.Undefined s.workshop.grammar) : c.name ∈ d.misused := by
  obtain ⟨q₀, q', w', b, hq₀, built, rules, -, twin⟩ := h.holds hd hl
  obtain rfl := Option.some.inj (hq₀.symm.trans hq)
  obtain ⟨hq', bodies⟩ := Description.all_of_build built
  obtain ⟨id', related, callable⟩ := comes.all
    (fun ok hbody => by
      obtain ⟨id', related, -⟩ := ok
      have rel := rules _ id' related
      rw [hbody] at rel
      generalize hbody' : (w'.grammar[id']?).join = body' at rel
      cases rel with
      | some like => exact like.all ((bodies id' _ hbody').mono fun _ hn => hn.callable))
    (Parser.Alike.all twin (hq'.mono fun _ hn => hn.callable))
  refine callable.resolve_left fun defined => defined ?_
  have rel := rules c.id id' related
  rw [show (s.workshop.grammar[c.id]?).join = none from undefined] at rel
  generalize (w'.grammar[id']?).join = body' at rel
  cases rel with
  | none => rfl

/-- It makes no difference how deep calls are nested on the way to it. -/
theorem Reaches.stopped_of_comes_local (h : Reaches ds s feeds forced) (hp : s.position? place = some p)
    (hq : s.parsers[parser]? = some q) (hd : ds[parser]? = some d) (hl : d.isLocal) {depth : Nat}
    (comes : Parser.Comes s.workshop.grammar depth q p ⟨s.store, []⟩ c)
    (undefined : c.Undefined s.workshop.grammar) :
    ∃ events, (s.step (.parse place parser)).1 = .stopped (.undefinedRule c.name) events := by
  obtain ⟨q₀, q', w', b, hq₀, -, rules, size, twin⟩ := h.holds hd hl
  obtain rfl := Option.some.inj (hq₀.symm.trans hq)
  rw [← p.moveTo_offset] at comes
  have stops := Parser.stops_parse_of_comes rules size twin (h.shows hp) comes undefined
  rw [p.moveTo_offset] at stops
  exact ⟨_, (step_parse_stopped_iff hp hq).2 ⟨_, stops, rfl⟩⟩

/-! ## 4. Programs and sessions -/

omit [Token α] [DecidableEq α] in
/-- The bodies that a parse finds stay in one sequence if the definitions do. -/
theorem staysIn_of_made {shelf : Shelf α} {defs : List (RuleId × Held α)} (made : shelf.Reaches defs)
    (stay : ∀ x ∈ defs, x.2.parser.StaysIn) (id : RuleId) (body : Parser α)
    (hbody : (shelf.grammar[id]?).join = some body) : body.StaysIn := by
  obtain ⟨-, held, defined, rfl⟩ := made.callable_iff.1 hbody
  exact stay _ defined

/-- **A parse is stopped at a rule exactly if it comes to a misuse.**

* A program parses through any parser that it holds, after any acts: it is stopped exactly if the
  evaluation calls a rule that was never defined or is not alive.  It makes no difference how deep the call
  is nested, where parsers stay in one sequence.  No rule is kept alive by its own body, and none by
  references.
* A session parses with the parser of a description, after any steps: it is stopped exactly if the
  evaluation calls an undefined rule.  This is one that a description misuses, and one that its own
  description misuses if it is local, and then it makes no difference how deep the call is nested.
  Matching the whole input is stopped as the parse is.
* Where the first alternative matches, the others have no say. -/
theorem stopped_iff_misused {shelf : Shelf α} {defs : List (RuleId × Held α)} (made : shelf.Reaches defs)
    {handle : Nat} {held : Held α} (hheld : shelf.handle? handle = some (.parser held))
    (h : Reaches ds s feeds forced) (hp : s.position? place = some p)
    (hq : s.parsers[parser]? = some q) :
    (∀ start, ∃ m, shelf.parse handle start = some m ∧
      (∀ w name v, m.Stops w (.undefinedRule name) v ↔
        ∃ c, held.parser.ParseComes shelf.grammar start w c ∧ shelf.Misused defs c.id ∧
          c.name = name ∧ c.world = v) ∧
      (held.parser.StaysIn → (∀ x ∈ defs, x.2.parser.StaysIn) → ∀ w ts,
        w.store.Shows start ts start.offset → ∀ depth c,
          held.parser.Comes shelf.grammar depth start w c → shelf.Misused defs c.id →
            m.Stops w (.undefinedRule c.name) c.world)) ∧
    (∀ id body, (id, body) ∈ defs → id ∉ body.keeps) ∧
    ((∀ i x, shelf.handle? i = some x → x.keeps = []) → ∀ id, shelf.Misused defs id) ∧
    (∀ name,
      (∃ events, (s.step (.parse place parser)).1 = .stopped (.undefinedRule name) events) ↔
        ∃ c, q.ParseComes s.workshop.grammar p ⟨s.store, []⟩ c ∧ c.Undefined s.workshop.grammar ∧
          c.name = name) ∧
    (∀ name events, (s.step (.parse place parser)).1 = .stopped (.undefinedRule name) events →
      (∃ d ∈ ds, name ∈ d.misused) ∧ ∀ d, ds[parser]? = some d → d.isLocal → name ∈ d.misused) ∧
    (∀ d, ds[parser]? = some d → d.isLocal → ∀ depth c,
      q.Comes s.workshop.grammar depth p ⟨s.store, []⟩ c → c.Undefined s.workshop.grammar →
        ∃ events, (s.step (.parse place parser)).1 = .stopped (.undefinedRule c.name) events) ∧
    (∀ filename why events, (s.step (.run place parser filename)).1 = .stopped why events ↔
      (s.step (.parse place parser)).1 = .stopped why events) ∧
    ∀ (grammar : Parser.Grammar α) first others (start : Position) (w : World α) value next v,
      (ExceptT.run (first.parse grammar start)).run w = (.ok (.success value next), v) →
        (ExceptT.run ((Parser.choice (first :: others)).parse grammar start)).run w =
          (.ok (.success value next), v) := by
  refine ⟨fun start => ?program, fun id body => made.not_keeps_own,
    fun references id => .inr (Shelf.not_alive_of_references references),
    fun name => step_parse_undefined_iff hp hq, fun name events stopped => ?misused,
    fun d hd hl depth c => h.stopped_of_comes_local hp hq hd hl,
    fun filename why events => step_run_stopped_iff filename hp hq,
    fun grammar first others start w value next v first_matches =>
      Parser.parse_choice_of_success first_matches others⟩
  case program =>
    refine ⟨held.parser.parse shelf.grammar start, by rw [Shelf.parse, hheld], fun w name v => ?_, ?_⟩
    · rw [Parser.stops_parse_iff]
      exact exists_congr fun c => and_congr_right fun _ => and_congr_left fun _ => made.not_callable_iff
    · intro stays stay w ts shows depth c comes misused
      exact Parser.stops_parse_of_comes_stays (staysIn_of_made made stay) stays shows comes
        (made.not_callable_iff.2 misused)
  case misused =>
    obtain ⟨c, comes, undefined, rfl⟩ := (step_parse_undefined_iff hp hq).1 ⟨events, stopped⟩
    exact ⟨h.misused_of_comes hq comes undefined, fun d hd hl =>
      h.misused_of_comes_local hq hd hl comes undefined⟩

/-! ### One program and one session -/

/-- Brackets around brackets or a letter, where the inner ones are parsed by a part. -/
def bracketsAround : List (Parser Char) → Parser Char := fun inner =>
  .choice [.group "tuple" (.eq '(' :: inner ++ [.eq ')']), .eq 'x']

/-- Define a rule by itself, keep a reference to it, and keep a clone of the rule in place of the rule. -/
def nestedActs : List (Act Char) :=
  [.declare "nested", .refer 0, .refer 0, .compose bracketsAround [1], .define 0 3, .clone 4, .drop 4]

/-- A token or a rule that is never defined. -/
def unfinished : Description Char :=
  .recursive "rest" .undefined (.choice [.eq 'a', .call "rest"])

/-- The reference can be parsed with as long as there is the clone, and is a misuse afterwards.  The
undefined rule does harm where the token is another one. -/
theorem stopped_iff_misused_nested :
    ∃ shelf defs s feeds forced, shelf = nestedActs.foldl Shelf.act .empty ∧ shelf.Reaches defs ∧
      Reaches [unfinished] s feeds forced ∧
      (∃ m, shelf.parse 2 .empty = some m ∧ ∀ w name v, ¬ m.Stops w (.undefinedRule name) v) ∧
      (∃ m, (shelf.act (.drop 5)).parse 2 .empty = some m ∧ ∀ w, m.Stops w (.undefinedRule "nested") w) ∧
      (∃ place result outcome events, (s.step (.parse 0 0)).1 = .parsed place result outcome events) ∧
      ∃ events, (s.step (.parse 1 0)).1 = .stopped (.undefinedRule "rest") events := by
  have begun : Reaches [unfinished] _ [] [] := .begin rfl
  have opened := (begun.step (.start (.feed (.items ['a'])))).step
    (.start (.feed (.items ['b'])))
  have made : (nestedActs.foldl Shelf.act .empty).Reaches [(0, ⟨bracketsAround [.rule 0 "nested"], []⟩)] :=
    ((((((Shelf.Reaches.empty.act (.declare "nested")).act (.refer 0)).act (.refer 0)).act
      (.compose bracketsAround [1])).act (.define 0 3)).act (.clone 4)).act (.drop 4)
  have reference : (nestedActs.foldl Shelf.act .empty).handle? 2 =
    some (.parser ⟨.rule 0 "nested", []⟩) := rfl
  have clone : (nestedActs.foldl Shelf.act .empty).handle? 5 =
    some (.parser ⟨.rule 0 "nested", [0]⟩) := rfl
  have body_calls : (bracketsAround [.rule 0 "nested"]).All
      (Parser.Callable (nestedActs.foldl Shelf.act .empty).grammar []) := by
    refine ⟨trivial, ⟨trivial, trivial, .inl ?_, trivial, trivial⟩, trivial, trivial⟩
    have body := made.callable_iff.2 ⟨.held clone List.mem_cons_self, _, List.mem_cons_self, rfl⟩
    rw [body]
    exact nofun
  obtain ⟨program, -⟩ :=
    @stopped_iff_misused _ _ _ _ _ _ _ 0 0 (.mark 0 0) _ _ _ made 2 _ reference opened rfl rfl
  obtain ⟨program', -, references, undefined, -⟩ :=
    @stopped_iff_misused _ _ _ _ _ _ _ 1 0 (.mark 1 0) _ _ _ (made.act (.drop 5)) 2 _ reference opened rfl rfl
  refine ⟨_, _, _, _, _, rfl, made, opened, ?alive, ?dead, ⟨_, _, _, _, rfl⟩, ?other⟩
  case alive =>
    obtain ⟨m, hm, stops_iff, -⟩ := program .empty
    refine ⟨m, hm, fun w name v stops => ?_⟩
    obtain ⟨c, comes, misused, -⟩ := (stops_iff w name v).1 stops
    have callable := comes.all
      (fun _ hbody => by
        obtain ⟨-, held, defined, rfl⟩ := made.callable_iff.1 hbody
        obtain rfl := (Prod.mk.inj (List.mem_singleton.1 defined)).2
        exact body_calls)
      (body_calls.2.1.2.2.1 : (Parser.rule 0 "nested").All _)
    exact (callable.resolve_right List.not_mem_nil) (made.not_callable_iff.2 misused)
  case dead =>
    obtain ⟨m, hm, stops_iff, -⟩ := program' .empty
    refine ⟨m, hm, fun w => (stops_iff w "nested" w).2 ⟨⟨0, "nested", .empty, w⟩, .call rfl, ?_, rfl, rfl⟩⟩
    refine references (fun i x hx => ?_) 0
    match i with
    | 0 | 1 | 3 | 4 | 5 => exact absurd (show none = some x from hx) nofun
    | 2 =>
      obtain rfl := Option.some.inj hx
      rfl
    | i + 6 => exact absurd (show none = some x from hx) nofun
  case other =>
    refine (undefined "rest").2 ⟨⟨0, "rest", .mark 1 0, _⟩, .call (.inr ⟨_, _, rfl, .inl rfl⟩), rfl, rfl⟩

end Session

end LazyPeg
