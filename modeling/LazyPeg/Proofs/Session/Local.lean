import LazyPeg.Proofs.Reading.Matches
import LazyPeg.Proofs.Session.Parse

/-!
# Parsers that stay in their sequence

A jump may lead into a sequence of its own, and then what a parser does is not said by the sequence in
which it was started.  **A parser is local in a grammar if no such jump can be reached from it**
(`Parser.Local`): neither the parser nor any rule that it may call, directly or through other rules,
contains one.  What other rules of the grammar do makes no difference.

The parsers of local descriptions are local (`Session.Holds.isLocal`), but a local parser need not come
from a description: its continuations may be any functions.  In a sound session a local parser does what
its reading says, at every position (`Session.parse_of_reads`, `Session.parse_of_endless`).
-/
namespace LazyPeg

/-! ## 1. Local parsers -/

namespace Parser

variable {α : Type}

/-- A parser does not jump into another sequence, and calls only rules of a set. -/
def KeepsTo (rules : RuleId → Prop) (q : Parser α) : Prop :=
  Alike (fun id id' => id = id' ∧ rules id) q q

/-- The bodies of the rules of a set do not jump into another sequence, and call only rules of the set. -/
def Sealed (grammar : Grammar α) (rules : RuleId → Prop) : Prop :=
  ∀ (id : RuleId) (body : Parser α), rules id → (grammar[id]?).join = some body → body.KeepsTo rules

/-- From a rule no jump into another sequence can be reached. -/
def LocalRule (grammar : Grammar α) (id : RuleId) : Prop := ∃ rules, Sealed grammar rules ∧ rules id

/-- From a parser no jump into another sequence can be reached. -/
def Local (grammar : Grammar α) (q : Parser α) : Prop := q.KeepsTo (LocalRule grammar)

variable {grammar : Grammar α} {rules rules' : RuleId → Prop} {q q' : Parser α}

theorem KeepsTo.mono (hr : ∀ id, rules id → rules' id) (h : q.KeepsTo rules) : q.KeepsTo rules' :=
  Alike.mono (fun id _ hid => ⟨hid.1, hr id hid.2⟩) h

/-- The local rules are a sealed set, the largest one. -/
theorem sealed_localRule (grammar : Grammar α) : Sealed grammar (LocalRule grammar) := by
  rintro id body ⟨rules, closed, hid⟩ hbody
  exact (closed id body hid hbody).mono fun id' hid' => ⟨rules, closed, hid'⟩

theorem KeepsTo.isLocal (h : q.KeepsTo rules) (closed : Sealed grammar rules) : q.Local grammar :=
  h.mono fun _ hid => ⟨rules, closed, hid⟩

/-- A sealed set does not tell two copies of a grammar apart. -/
theorem Sealed.likeGrammars (h : Sealed grammar rules) :
    LikeGrammars (fun id id' => id = id' ∧ rules id) grammar grammar := by
  rintro id id' ⟨rfl, hid⟩
  cases hbody : (grammar[id]?).join with
  | none => exact .none
  | some body => exact .some (h id body hid hbody)

/-- What is like another parser keeps to the rules that are related to some. -/
theorem Alike.keepsTo {rules : RuleId → RuleId → Prop} (h : Alike rules q q') :
    q.KeepsTo fun id => ∃ id', rules id id' := by
  have rows {qs qs' : List (Parser α)} (h : List.Forall₂ (Alike rules) qs qs')
      (ih : ∀ q ∈ qs, ∀ {q'}, Alike rules q q' → q.KeepsTo fun id => ∃ id', rules id id') :
      List.Forall₂ (Alike fun id id'' => id = id'' ∧ ∃ id', rules id id') qs qs := by
    induction h with
    | nil => exact .nil
    | cons hq _ ihqs =>
      exact .cons (ih _ List.mem_cons_self hq) (ihqs fun q hq => ih q (List.mem_cons_of_mem _ hq))
  induction q generalizing q' with
  | endOfInput => exact .endOfInput
  | satisfy name accepts => exact .satisfy name accepts
  | token items => exact .token items
  | result value => exact .result value
  | expected message => exact .expected message
  | offset => exact .offset
  | jump name origin count verdict => cases h; exact .jump name count verdict
  | map f q ih => cases h with | map _ h => exact .map f (ih h)
  | named name q ih => cases h with | named _ h => exact .named name (ih h)
  | group label qs ih => cases h with | group _ h => exact .group label (rows h ih)
  | choice qs ih => cases h with | choice h => exact .choice (rows h ih)
  | many style q ih => cases h with | many _ h => exact .many style (ih h)
  | optional q ih => cases h with | optional h => exact .optional (ih h)
  | peek q ih => cases h with | peek h => exact .peek (ih h)
  | not q ih => cases h with | not h => exact .not (ih h)
  | bind noted qs k ihs ihk =>
    cases h with | bind _ h hk => exact .bind noted (rows h ihs) fun values => ihk values (hk values)
  | observed tag q ih => cases h with | observed _ h => exact .observed tag (ih h)
  | traced q ih => cases h with | traced h => exact .traced (ih h)
  | rule id name => cases h with | rule _ h => exact .rule name ⟨rfl, _, h⟩

theorem KeepsTo.seqPair (h : q.KeepsTo rules) (h' : q'.KeepsTo rules) : (seq [q, q']).KeepsTo rules :=
  .map _ (.group _ (.cons h (.cons h' .nil)))

theorem KeepsTo.tuplePair (h : q.KeepsTo rules) (h' : q'.KeepsTo rules) :
    (tuple [q, q']).KeepsTo rules :=
  .group _ (.cons h (.cons h' .nil))

/-- The rules that are related to those of another grammar with like bodies are sealed. -/
theorem LikeGrammars.sealed {rules : RuleId → RuleId → Prop} {grammar' : Grammar α}
    (h : LikeGrammars rules grammar grammar') : Sealed grammar fun id => ∃ id', rules id id' := by
  rintro id body ⟨id', hid⟩ hbody
  have rel := h id id' hid
  rw [hbody] at rel
  generalize (grammar'[id']?).join = body' at rel
  cases rel with
  | some alike => exact alike.keepsTo

end Parser

/-! ## 2. Local parsers in a session -/

namespace Session

variable {α : Type} [Token α] [DecidableEq α] {s : Session α} {p : Position} {q : Parser α}
  {ts : List α} {c : Course α (Outcome α Nat)}

/-- **What was described without a jump into another sequence is local.** -/
theorem Holds.isLocal {parser : Nat} {d : Description α} (h : s.Holds parser d) :
    ∃ q, s.parsers[parser]? = some q ∧ q.Local s.workshop.grammar := by
  obtain ⟨q, q', w', b, hq, -, rules, -, twin⟩ := h
  exact ⟨q, hq, (Parser.Alike.keepsTo twin).isLocal rules.sealed⟩

omit [Token α] [DecidableEq α] in
/-- What a session shows at one of its positions. -/
theorem Sound.shows (h : s.Sound) {place : Nat} (hp : s.position? place = some p) :
    s.store.Shows p (s.store.sequence p) p.offset :=
  (h.positions place p hp).shows

/-- **A parse does what its reading says.** -/
theorem parse_of_reads (hq : q.Local s.workshop.grammar) (hts : s.store.Shows p ts p.offset)
    (hc : q.Reads s.workshop.grammar ts p.offset c) :
    s.parse q p = (c.reply p s.positions.size s.results.size, s.afterCourse p c) := by
  have run := Parser.parse_of_reads (w := ⟨s.store, []⟩)
    (Parser.sealed_localRule s.workshop.grammar).likeGrammars (Nat.le_refl _) hq hts hc
  rw [Position.moveTo_offset] at run
  exact parse_of_run run

/-- A parse whose reading does not end. -/
theorem parse_of_endless (hq : q.Local s.workshop.grammar) (hts : s.store.Shows p ts p.offset)
    (hc : ∀ c, ¬ q.Reads s.workshop.grammar ts p.offset c) :
    ∃ events, (s.parse q p).1 = .stopped .endless events := by
  have run := Parser.parse_endless (w := ⟨s.store, []⟩)
    (Parser.sealed_localRule s.workshop.grammar).likeGrammars hq hts hc
  rw [Position.moveTo_offset] at run
  exact parse_of_stop run

/-- A parse that came to a result has a course with that answer. -/
theorem reads_of_parsed (hq : q.Local s.workshop.grammar) (hts : s.store.Shows p ts p.offset)
    {n m : Nat} {r : Result α} {events : List (Event α Position)}
    (hr : (s.parse q p).1 = .parsed n m r events) :
    ∃ c r', q.Reads s.workshop.grammar ts p.offset c ∧ c.answer = .ok r' ∧
      r = r'.mapPlace p.moveTo ∧ events = c.events.map (Event.mapPlace p.moveTo) := by
  by_cases ends : ∃ c, q.Reads s.workshop.grammar ts p.offset c
  · obtain ⟨c, hc⟩ := ends
    rw [parse_of_reads hq hts hc] at hr
    obtain ⟨-, -, r', answer⟩ := Course.reply_eq_parsed hr
    exact ⟨c, r', hc, answer⟩
  · obtain ⟨events', stopped⟩ := parse_of_endless hq hts (not_exists.1 ends)
    exact absurd (stopped.symm.trans hr) nofun

/-- A parse replies with the answer of its course. -/
theorem parse_of_answer (hq : q.Local s.workshop.grammar) (hts : s.store.Shows p ts p.offset)
    (hc : q.Reads s.workshop.grammar ts p.offset c) {r : Outcome α Nat} (hr : c.answer = .ok r) :
    (s.parse q p).1 = .parsed s.positions.size s.results.size (r.mapPlace p.moveTo)
      (c.events.map (Event.mapPlace p.moveTo)) := by
  rw [parse_of_reads hq hts hc, Course.reply, hr]

/-- A parser matches in the list of a sequence exactly if its parse succeeds. -/
theorem exists_matches_iff (hq : q.Local s.workshop.grammar) (hts : s.store.Shows p ts p.offset) :
    (∃ v j, q.Matches s.workshop.grammar ts p.offset v j) ↔
      ∃ n m v next events, (s.parse q p).1 = .parsed n m (.success v next) events := by
  constructor
  · rintro ⟨v, j, c, hc, ha⟩
    exact ⟨_, _, _, _, _, parse_of_answer hq hts hc ha⟩
  · rintro ⟨n, m, v, next, events, hr⟩
    obtain ⟨c, r, hc, ha, same, -⟩ := reads_of_parsed hq hts hr
    cases r with
    | success w j => exact ⟨w, j, c, hc, ha⟩
    | failure reason j => exact absurd same nofun

/-- A parser comes to an outcome exactly if its parse has a result. -/
theorem decides_iff_parsed (hq : q.Local s.workshop.grammar) (hts : s.store.Shows p ts p.offset) :
    q.Decides s.workshop.grammar ts p.offset ↔
      ∃ n m r events, (s.parse q p).1 = .parsed n m r events := by
  constructor
  · rintro ⟨c, r, hc, ha⟩
    exact ⟨_, _, _, _, parse_of_answer hq hts hc ha⟩
  · rintro ⟨n, m, r, events, hr⟩
    obtain ⟨c, r', hc, ha, -⟩ := reads_of_parsed hq hts hr
    exact ⟨c, r', hc, ha⟩

end Session

end LazyPeg
