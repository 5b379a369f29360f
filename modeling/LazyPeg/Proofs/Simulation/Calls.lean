import LazyPeg.Diagnostic
import LazyPeg.Proofs.Reading.Nodes
import LazyPeg.Proofs.Simulation.Terms

/-!
# The calls that an evaluation comes to

A parser that refers to a rule need not ever call it: the reference may stand in an alternative that is
not tried, behind a parser that fails, or in what a continuation gives for other values.  `Parser.Meets`
says which calls an evaluation of a term comes to, bodies of rules apart, and `Parser.Comes` goes on into
the bodies.  The evaluation of the parts before a call decides whether it comes to the call, so both
follow the places and the worlds that these parts leave.

**An evaluation is stopped at an undefined rule exactly if it comes to a call of one**
(`Parser.stops_evalDepth_iff`).  How deep calls may be nested has no say in it where parsers stay in one
sequence (`Parser.stops_parse_of_comes`).
-/
namespace LazyPeg

/-! ## 1. Parses that are stopped -/

namespace Parsing

variable {α β γ : Type} {w v : World α} {why : Stop}

/-- A parse is stopped and leaves a world. -/
def Stops (m : Parsing α β) (w : World α) (why : Stop) (v : World α) : Prop :=
  (ExceptT.run m).run w = (.error why, v)

/-- A parse comes to an answer, and something holds of it and of the world that is left. -/
def Then (m : Parsing α β) (w : World α) (P : β → World α → Prop) : Prop :=
  ∃ b w', (ExceptT.run m).run w = (.ok b, w') ∧ P b w'

theorem stops_throw {why' : Stop} :
    (throw why : Parsing α β).Stops w why' v ↔ why = why' ∧ w = v := by
  constructor
  · intro h
    obtain ⟨same, left⟩ := Prod.mk.inj (show (Except.error why, w) = (Except.error why', v) from h)
    exact ⟨Except.error.inj same, left⟩
  · rintro ⟨rfl, rfl⟩
    rfl

/-- A parse is never stopped. -/
def Quiet (m : Parsing α β) : Prop := ∀ w why v, ¬ m.Stops w why v

theorem quiet_pure (b : β) : (pure b : Parsing α β).Quiet :=
  fun w why v h => absurd (congrArg Prod.fst (show (Except.ok b, w) = (Except.error why, v) from h)) nofun

theorem quiet_head? (p : Position) : Quiet (head? p : Parsing α _) :=
  fun w _ _ h => absurd (congrArg Prod.fst ((run_head? p w).symm.trans h)) nofun

theorem quiet_offset (p : Position) : Quiet (offset p : Parsing α _) :=
  fun w _ _ h => absurd (congrArg Prod.fst ((run_offset p w).symm.trans h)) nofun

theorem quiet_setOut (p : Position) (origin : Option Position) :
    Quiet (setOut p origin : Parsing α _) :=
  fun w _ _ h => absurd (congrArg Prod.fst ((run_setOut p origin w).symm.trans h)) nofun

theorem quiet_tail (p : Position) : Quiet (tail p : Parsing α _) :=
  fun w _ _ h => absurd (congrArg Prod.fst ((run_tail p w).symm.trans h)) nofun

theorem quiet_skip (n : Nat) (p : Position) : Quiet (skip n p : Parsing α _) :=
  fun w _ _ h => absurd (congrArg Prod.fst ((run_skip n p w).symm.trans h)) nofun

theorem quiet_note (e : Event α Position) : Quiet (note e : Parsing α _) :=
  fun w _ _ h => absurd (congrArg Prod.fst ((run_note e w).symm.trans h)) nofun

/-- One parse after the other is stopped where the first one is, or where the second one is after it. -/
theorem stops_bind {m : Parsing α β} {f : β → Parsing α γ} :
    (m >>= f).Stops w why v ↔ m.Stops w why v ∨ m.Then w fun b w' => (f b).Stops w' why v := by
  unfold Stops Then
  rw [run_bind]
  rcases (ExceptT.run m).run w with ⟨stopped | b, w'⟩
  · constructor
    · intro h
      obtain ⟨same, rfl⟩ := Prod.mk.inj h
      exact .inl (by rw [Except.error.inj same])
    · rintro (first | ⟨_, _, given, -⟩)
      · obtain ⟨same, rfl⟩ := Prod.mk.inj first
        exact congrArg (fun e => (Except.error e, w')) (Except.error.inj same)
      · exact absurd (congrArg Prod.fst given) nofun
  · refine ⟨fun h => .inr ⟨b, w', rfl, h⟩, fun h => ?_⟩
    rcases h with first | ⟨_, _, given, second⟩
    · exact absurd (congrArg Prod.fst first) nofun
    · obtain ⟨same, rfl⟩ := Prod.mk.inj given
      obtain rfl := Except.ok.inj same
      exact second

theorem Quiet.bind {m : Parsing α β} {f : β → Parsing α γ} (hm : m.Quiet) (hf : ∀ b, (f b).Quiet) :
    (m >>= f).Quiet := by
  intro w why v h
  rcases stops_bind.1 h with first | ⟨b, w', -, second⟩
  · exact hm w why v first
  · exact hf b w' why v second

theorem quiet_matchRun [DecidableEq α] (items : List α) (p : Position) :
    Quiet (matchRun items p : Parsing α _) := by
  induction items generalizing p with
  | nil => exact quiet_pure _
  | cons item items ih =>
    refine (quiet_head? p).bind fun t => ?_
    cases t with
    | none => exact quiet_pure _
    | some t =>
      dsimp only
      split
      · exact (quiet_tail p).bind ih
      · exact quiet_pure _

/-- What follows is never stopped. -/
theorem stops_bind_of_quiet {m : Parsing α β} {f : β → Parsing α γ} (hf : ∀ b, (f b).Quiet) :
    (m >>= f).Stops w why v ↔ m.Stops w why v := by
  rw [stops_bind, or_iff_left]
  rintro ⟨b, w', -, second⟩
  exact hf b w' why v second

theorem quiet_countLines (toChar : α → Char) (distance : Nat) (p : Position) (line column : Nat) :
    Quiet (countLines toChar distance p line column : Parsing α _) := by
  induction distance generalizing p line column with
  | zero => exact quiet_pure _
  | succ distance ih =>
    refine (quiet_head? p).bind fun t => ?_
    cases t with
    | none => exact quiet_pure _
    | some t =>
      refine (quiet_tail p).bind fun next => ?_
      split
      · exact ih next _ _
      · exact ih next _ _

theorem quiet_report [Token α] (filename : String) (start place : Position) (reason : Reason) :
    Quiet (report filename start place reason : Parsing α _) := by
  refine (quiet_head? place).bind fun found =>
    Quiet.bind ?_ fun _ => (quiet_offset place).bind fun _ => quiet_pure _
  unfold lineColumn?
  cases (Token.chars? : Option (α → Char)) with
  | none => exact quiet_pure _
  | some toChar =>
    exact (quiet_offset place).bind fun far => (quiet_offset start).bind fun near =>
      quiet_countLines toChar (far - near) start 1 1

/-! ### Stopped at one of some points -/

section Points

variable {ι : Type} {S : ι → Prop}

theorem Quiet.stops_iff {m : Parsing α β} (hm : m.Quiet) :
    m.Stops w why v ↔ ∃ c : ι, False ∧ S c :=
  iff_of_false (hm w why v) fun ⟨_, never, _⟩ => never

/-- One parse after the other is stopped at the points of the first one, and after it at those of the
second one. -/
theorem stops_bind_iff {M : ι → Prop} {K : β → World α → ι → Prop} {m : Parsing α β}
    {f : β → Parsing α γ} (hm : m.Stops w why v ↔ ∃ c, M c ∧ S c)
    (hf : ∀ b w', (f b).Stops w' why v ↔ ∃ c, K b w' c ∧ S c) :
    (m >>= f).Stops w why v ↔ ∃ c, (M c ∨ m.Then w fun b w' => K b w' c) ∧ S c := by
  rw [stops_bind, hm]
  constructor
  · rintro (⟨c, first, hc⟩ | ⟨b, w', given, second⟩)
    · exact ⟨c, .inl first, hc⟩
    · obtain ⟨c, hk, hc⟩ := (hf b w').1 second
      exact ⟨c, .inr ⟨b, w', given, hk⟩, hc⟩
  · rintro ⟨c, first | ⟨b, w', given, hk⟩, hc⟩
    · exact .inl ⟨c, first, hc⟩
    · exact .inr ⟨b, w', given, (hf b w').2 ⟨c, hk, hc⟩⟩

end Points

/-- What is met by one of the matches of a repetition, of which `room` more are tried for. -/
def MeetsAgain (step : Position → Parsing α (Result α)) (meets : Position → World α → Prop)
    (least : Nat) : (room collected : Nat) → Position → World α → Prop
  | 0, _, _, _ => False
  | room + 1, collected, p, w =>
    meets p w ∨ (step p).Then w fun r w' =>
      match r with
      | .failure .. => False
      | .success _ next =>
        ¬ (w'.store.samePlace next p && least ≤ collected + 1) ∧
          MeetsAgain step meets least room (collected + 1) next w'

theorem stops_repeatMatch {ι : Type} {S : ι → Prop} {step : Position → Parsing α (Result α)}
    {meets : ι → Position → World α → Prop}
    (hstep : ∀ p w, (step p).Stops w why v ↔ ∃ c, meets c p w ∧ S c)
    (least room collected : Nat) (values : List (Value α)) (p : Position) (w : World α) :
    Stops (repeatMatch step least room collected values p) w why v ↔
      ∃ c, MeetsAgain step (meets c) least room collected p w ∧ S c := by
  induction room generalizing collected values p w with
  | zero => exact (quiet_pure _).stops_iff
  | succ room ih =>
    refine stops_bind_iff (hstep p w) fun r w' => ?_
    cases r with
    | failure reason place => exact (quiet_pure _).stops_iff
    | success value next =>
      -- places are compared without any effect
      change Stops (if w'.store.samePlace next p && least ≤ collected + 1 then _ else _) w' why v ↔ _
      by_cases stays : (w'.store.samePlace next p && least ≤ collected + 1) = true
      · rw [if_pos stays]
        exact iff_of_false (quiet_pure _ w' why v) fun ⟨_, goes_on, _⟩ => goes_on.1 stays
      · rw [if_neg stays, ih]
        exact exists_congr fun c => and_congr_left fun _ => (and_iff_right stays).symm

end Parsing

/-! ## 2. Terms -/

/-- A call of a rule: its number, the name that it is called by, and where and in which world. -/
structure Call (α : Type) where
  id : RuleId
  name : String
  place : Position
  world : World α

namespace Call

variable {α : Type}

/-- A call is stopped, in the world that it is made in. -/
def Halts (call : RuleId → String → Position → Parsing α (Result α)) (why : Stop) (v : World α)
    (c : Call α) : Prop :=
  (call c.id c.name c.place).Stops c.world why v

/-- A call of a rule that is not defined. -/
def Undefined (grammar : Parser.Grammar α) (c : Call α) : Prop := (grammar[c.id]?).join = none

end Call

namespace Parser

variable {α : Type} [Token α] [DecidableEq α] {w v : World α} {why : Stop} {p : Position}
  {call : RuleId → String → Position → Parsing α (Result α)} {c : Call α}

mutual

/-- The evaluation of a parser comes to a call.  What calls answer decides what it comes to next. -/
def Meets (call : RuleId → String → Position → Parsing α (Result α)) (c : Call α) :
    Parser α → Position → World α → Prop
  | map _ q, p, w => q.Meets call c p w
  | named _ q, p, w => q.Meets call c p w
  | group _ qs, p, w => MeetsAll call c qs p w
  | choice qs, p, w => MeetsFirst call c qs p w
  | many style q, p, w =>
    Parsing.MeetsAgain (q.eval call) (q.Meets call c) style.least style.most 0 p w
  | optional q, p, w => q.Meets call c p w
  | peek q, p, w => q.Meets call c p w
  | not q, p, w => q.Meets call c p w
  | bind noted qs continuation, p, w =>
    MeetsAll call c qs p w ∨ Parsing.Then (evalAll call qs p) w fun row w' =>
      match row with
      | .error _ => False
      | .ok (values, next) =>
        (continuation values).Meets call c next
          (if noted then ⟨w'.store, .continued values :: w'.events⟩ else w')
  | observed _ q, p, w => q.Meets call c p w
  | traced q, p, w => q.Meets call c p w
  | rule id name, p, w => c = ⟨id, name, p, w⟩
  | _, _, _ => False

/-- Parsers in a row come to what the first one comes to, and the others if it succeeds. -/
def MeetsAll (call : RuleId → String → Position → Parsing α (Result α)) (c : Call α) :
    List (Parser α) → Position → World α → Prop
  | [], _, _ => False
  | q :: qs, p, w =>
    q.Meets call c p w ∨ Parsing.Then (q.eval call p) w fun r w' =>
      match r with
      | .failure .. => False
      | .success _ next => MeetsAll call c qs next w'

/-- Alternatives come to what the first one comes to, and the others if it fails. -/
def MeetsFirst (call : RuleId → String → Position → Parsing α (Result α)) (c : Call α) :
    List (Parser α) → Position → World α → Prop
  | [], _, _ => False
  | q :: qs, p, w =>
    q.Meets call c p w ∨ Parsing.Then (q.eval call p) w fun r w' =>
      match r with
      | .failure .. => MeetsFirst call c qs p w'
      | .success .. => False

end

/-- A parser is stopped exactly if it comes to a call that is. -/
def StopsAtCalls (call : RuleId → String → Position → Parsing α (Result α)) (why : Stop) (v : World α)
    (q : Parser α) : Prop :=
  ∀ p w, Parsing.Stops (q.eval call p) w why v ↔ ∃ c, q.Meets call c p w ∧ c.Halts call why v

theorem stops_evalAll {qs : List (Parser α)} (hqs : ∀ q ∈ qs, StopsAtCalls call why v q) (p : Position)
    (w : World α) :
    Parsing.Stops (evalAll call qs p) w why v ↔ ∃ c, MeetsAll call c qs p w ∧ c.Halts call why v := by
  induction qs generalizing p w with
  | nil => exact (Parsing.quiet_pure _).stops_iff
  | cons q qs ih =>
    obtain ⟨hq, hqs⟩ := List.forall_mem_cons.1 hqs
    refine Parsing.stops_bind_iff (hq p w) fun r w' => ?_
    cases r with
    | failure reason place => exact (Parsing.quiet_pure _).stops_iff
    | success value next =>
      refine (Parsing.stops_bind_of_quiet fun row => ?_).trans (ih hqs next w')
      rcases row with name | ⟨values, last⟩ <;> exact Parsing.quiet_pure _

theorem stops_evalFirst {qs : List (Parser α)} (hqs : ∀ q ∈ qs, StopsAtCalls call why v q) (p : Position)
    (w : World α) :
    Parsing.Stops (evalFirst call qs p) w why v ↔ ∃ c, MeetsFirst call c qs p w ∧ c.Halts call why v := by
  induction qs generalizing p w with
  | nil => exact (Parsing.quiet_pure _).stops_iff
  | cons q qs ih =>
    obtain ⟨hq, hqs⟩ := List.forall_mem_cons.1 hqs
    refine Parsing.stops_bind_iff (hq p w) fun r w' => ?_
    cases r with
    | failure reason place => exact ih hqs p w'
    | success value next => exact (Parsing.quiet_pure _).stops_iff

/-- **The evaluation of a term is stopped exactly if it comes to a call that is stopped.** -/
theorem stops_eval (call : RuleId → String → Position → Parsing α (Result α)) (why : Stop) (v : World α)
    (q : Parser α) : StopsAtCalls call why v q := by
  induction q with
  | endOfInput =>
    exact fun p w => ((Parsing.quiet_head? p).bind fun t => by
      cases t <;> exact Parsing.quiet_pure _).stops_iff
  | satisfy name accepts =>
    intro p w
    refine Parsing.Quiet.stops_iff ((Parsing.quiet_head? p).bind fun t => ?_)
    cases t with
    | none => exact Parsing.quiet_pure _
    | some t =>
      dsimp only
      split
      · exact (Parsing.quiet_tail p).bind fun _ => Parsing.quiet_pure _
      · exact Parsing.quiet_pure _
  | token items =>
    exact fun p w => ((Parsing.quiet_matchRun items p).bind fun next => by
      cases next <;> exact Parsing.quiet_pure _).stops_iff
  | result value => exact fun p w => (Parsing.quiet_pure _).stops_iff
  | expected message => exact fun p w => (Parsing.quiet_pure _).stops_iff
  | offset =>
    exact fun p w => ((Parsing.quiet_offset p).bind fun _ => Parsing.quiet_pure _).stops_iff
  | jump name origin count verdict =>
    intro p w
    refine Parsing.Quiet.stops_iff ((Parsing.quiet_setOut p origin).bind fun start => ?_)
    refine (Parsing.quiet_skip count start).bind fun next => ?_
    cases verdict <;> exact Parsing.quiet_pure _
  | map f q ih =>
    exact fun p w => (Parsing.stops_bind_of_quiet fun _ => Parsing.quiet_pure _).trans (ih p w)
  | named name q ih => exact ih
  | group label qs ih =>
    intro p w
    refine (Parsing.stops_bind_of_quiet fun row => ?_).trans (stops_evalAll ih p w)
    rcases row with name | ⟨values, next⟩ <;> exact Parsing.quiet_pure _
  | choice qs ih =>
    intro p w
    refine (Parsing.stops_bind_of_quiet fun first => ?_).trans (stops_evalFirst ih p w)
    cases first <;> exact Parsing.quiet_pure _
  | many style q ih =>
    intro p w
    refine (Parsing.stops_bind_of_quiet fun found => ?_).trans
      (Parsing.stops_repeatMatch ih style.least style.most 0 [] p w)
    dsimp only
    split <;> exact Parsing.quiet_pure _
  | optional q ih =>
    intro p w
    refine (Parsing.stops_bind_of_quiet fun r => ?_).trans (ih p w)
    cases r <;> exact Parsing.quiet_pure _
  | peek q ih =>
    intro p w
    refine (Parsing.stops_bind_of_quiet fun r => ?_).trans (ih p w)
    cases r <;> exact Parsing.quiet_pure _
  | not q ih =>
    intro p w
    refine (Parsing.stops_bind_of_quiet fun r => ?_).trans (ih p w)
    cases r with
    | success value next => exact Parsing.quiet_pure _
    | failure reason place =>
      refine (Parsing.quiet_head? p).bind fun t => ?_
      cases t <;> exact Parsing.quiet_pure _
  | bind noted qs k ihs ihk =>
    intro p w
    rw [eval]
    simp only [Meets]
    refine Parsing.stops_bind_iff (stops_evalAll ihs p w) fun row w' => ?_
    rcases row with name | ⟨values, next⟩
    · exact (Parsing.quiet_pure _).stops_iff
    · cases noted with
      | false => exact ihk values next w'
      | true => exact ihk values next ⟨w'.store, .continued values :: w'.events⟩
  | observed tag q ih =>
    exact fun p w => (Parsing.stops_bind_of_quiet fun r =>
      (Parsing.quiet_note _).bind fun _ => Parsing.quiet_pure _).trans (ih p w)
  | traced q ih =>
    exact fun p w => (Parsing.stops_bind_of_quiet fun r =>
      (Parsing.quiet_note _).bind fun _ => Parsing.quiet_pure _).trans (ih p w)
  | rule id name =>
    intro p w
    refine ⟨fun h => ⟨⟨id, name, p, w⟩, rfl, h⟩, ?_⟩
    rintro ⟨c, rfl, h⟩
    exact h

/-! ## 3. Rules -/

variable {grammar : Grammar α} {depth : Nat} {q : Parser α}

/-- What the call of a rule does if rules call one another at most `depth` deep. -/
def answers (grammar : Grammar α) : Nat → RuleId → String → Position → Parsing α (Result α)
  | 0, id, name, _ =>
    match (grammar[id]?).join with
    | some _ => throw .endless
    | none => throw (.undefinedRule name)
  | depth + 1, id, name, p =>
    match (grammar[id]?).join with
    | some body => evalDepth grammar depth body p
    | none => throw (.undefinedRule name)

theorem evalDepth_eq (grammar : Grammar α) (depth : Nat) :
    evalDepth grammar depth = eval (answers grammar depth) := by
  cases depth <;> rfl

/-- The call of an undefined rule is stopped where it is made. -/
theorem halts_of_undefined (hc : c.Undefined grammar) :
    c.Halts (answers grammar depth) why v ↔ .undefinedRule c.name = why ∧ c.world = v := by
  replace hc : (grammar[c.id]?).join = none := hc
  cases depth <;> simp only [Call.Halts, answers, hc, Parsing.stops_throw]

/-- A call is stopped at an undefined rule if the rule is undefined, or somewhere in its body. -/
theorem halts_cases {name : String} (h : c.Halts (answers grammar depth) (.undefinedRule name) v) :
    (c.Undefined grammar ∧ c.name = name ∧ c.world = v) ∨
      ∃ d body, depth = d + 1 ∧ (grammar[c.id]?).join = some body ∧
        Parsing.Stops (body.evalDepth grammar d c.place) c.world (.undefinedRule name) v := by
  cases hbody : (grammar[c.id]?).join with
  | none =>
    obtain ⟨same, left⟩ := (halts_of_undefined hbody).1 h
    exact .inl ⟨hbody, Stop.undefinedRule.inj same, left⟩
  | some body =>
    cases depth with
    | zero =>
      simp only [Call.Halts, answers, hbody, Parsing.stops_throw] at h
      exact absurd h.1 nofun
    | succ d =>
      simp only [Call.Halts, answers, hbody] at h
      exact .inr ⟨d, body, rfl, rfl, h⟩

/-- **The evaluation of a parser comes to a call**, in the parser or in the body of a rule whose call it
comes to before. -/
inductive Comes (grammar : Grammar α) : Nat → Parser α → Position → World α → Call α → Prop where
  | call {depth : Nat} {q : Parser α} {p : Position} {w : World α} {c : Call α}
    (h : q.Meets (answers grammar depth) c p w) : Comes grammar depth q p w c
  | inside {depth : Nat} {q body : Parser α} {p : Position} {w : World α} {c c' : Call α}
    (h : q.Meets (answers grammar (depth + 1)) c p w) (hbody : (grammar[c.id]?).join = some body)
    (inner : Comes grammar depth body c.place c.world c') : Comes grammar (depth + 1) q p w c'

/-- **An evaluation is stopped at an undefined rule exactly if it comes to a call of one.** -/
theorem stops_evalDepth_iff {name : String} :
    Parsing.Stops (q.evalDepth grammar depth p) w (.undefinedRule name) v ↔
      ∃ c, Comes grammar depth q p w c ∧ c.Undefined grammar ∧ c.name = name ∧ c.world = v := by
  constructor
  · intro h
    induction depth using Nat.strongRecOn generalizing q p w with
    | ind depth ih =>
      rw [evalDepth_eq] at h
      obtain ⟨c, meets, halts⟩ := (stops_eval _ _ _ q p w).1 h
      rcases halts_cases halts with ⟨undefined, named, left⟩ | ⟨d, body, rfl, hbody, inner⟩
      · exact ⟨c, .call meets, undefined, named, left⟩
      · obtain ⟨c', comes, found⟩ := ih d (Nat.lt_succ_self d) inner
        exact ⟨c', .inside meets hbody comes, found⟩
  · rintro ⟨c, comes, undefined, rfl, rfl⟩
    induction comes with
    | call meets =>
      rw [evalDepth_eq]
      exact (stops_eval _ _ _ _ _ _).2 ⟨_, meets, (halts_of_undefined undefined).2 ⟨rfl, rfl⟩⟩
    | @inside depth q body p w c c' meets hbody _ ih =>
      rw [evalDepth_eq]
      refine (stops_eval _ _ _ _ _ _).2 ⟨c, meets, ?_⟩
      simp only [Call.Halts, answers, hbody]
      exact ih undefined

/-- A parse comes to a call. -/
def ParseComes (grammar : Grammar α) (q : Parser α) (p : Position) (w : World α) (c : Call α) : Prop :=
  Comes grammar (enoughDepth grammar w) q p w c

theorem stops_parse_iff {name : String} :
    Parsing.Stops (q.parse grammar p) w (.undefinedRule name) v ↔
      ∃ c, ParseComes grammar q p w c ∧ c.Undefined grammar ∧ c.name = name ∧ c.world = v := by
  unfold Parsing.Stops
  rw [run_parse]
  exact stops_evalDepth_iff

/-- Matching the whole input is stopped where the parse is. -/
theorem stops_run_iff (filename : String) :
    Parsing.Stops (q.run grammar filename p) w why v ↔ Parsing.Stops (q.parse grammar p) w why v := by
  refine Parsing.stops_bind_of_quiet fun r => ?_
  cases r with
  | failure reason place => exact (Parsing.quiet_report _ _ _ _).bind fun _ => Parsing.quiet_pure _
  | success value next =>
    refine (Parsing.quiet_head? next).bind fun t => ?_
    cases t with
    | none => exact Parsing.quiet_pure _
    | some t => exact (Parsing.quiet_report _ _ _ _).bind fun _ => Parsing.quiet_pure _

/-- **What is not tried does no harm**: where the first alternative matches, it makes no difference what
the others refer to. -/
theorem parse_choice_of_success {first : Parser α} {value : Value α} {next : Position}
    (h : (ExceptT.run (first.parse grammar p)).run w = (.ok (.success value next), v))
    (others : List (Parser α)) :
    (ExceptT.run ((choice (first :: others)).parse grammar p)).run w =
      (.ok (.success value next), v) := by
  rw [run_parse, evalDepth_eq] at h ⊢
  rw [eval, evalFirst, Parsing.run_bind, Parsing.run_bind, h]
  rfl

/-! ### Which rules are called -/

omit [Token α] [DecidableEq α] in
/-- What a repetition meets is met by one of its matches. -/
theorem exists_of_meetsAgain {step : Position → Parsing α (Result α)}
    {meets : Position → World α → Prop} {least room collected : Nat}
    (h : Parsing.MeetsAgain step meets least room collected p w) : ∃ p w, meets p w := by
  induction room generalizing collected p w with
  | zero => exact h.elim
  | succ room ih =>
    rcases h with first | ⟨r, w', -, later⟩
    · exact ⟨p, w, first⟩
    · cases r with
      | failure reason place => exact later.elim
      | success value next => exact ih later.2

theorem MeetsAll.exists_mem {qs : List (Parser α)} (h : MeetsAll call c qs p w) :
    ∃ q ∈ qs, ∃ p w, q.Meets call c p w := by
  induction qs generalizing p w with
  | nil => exact h.elim
  | cons q qs ih =>
    rcases h with first | ⟨r, w', -, later⟩
    · exact ⟨q, List.mem_cons_self, p, w, first⟩
    · cases r with
      | failure reason place => exact later.elim
      | success value next =>
        obtain ⟨q', hq', found⟩ := ih later
        exact ⟨q', List.mem_cons_of_mem _ hq', found⟩

theorem MeetsFirst.exists_mem {qs : List (Parser α)} (h : MeetsFirst call c qs p w) :
    ∃ q ∈ qs, ∃ p w, q.Meets call c p w := by
  induction qs generalizing w with
  | nil => exact h.elim
  | cons q qs ih =>
    rcases h with first | ⟨r, w', -, later⟩
    · exact ⟨q, List.mem_cons_self, p, w, first⟩
    · cases r with
      | failure reason place =>
        obtain ⟨q', hq', found⟩ := ih later
        exact ⟨q', List.mem_cons_of_mem _ hq', found⟩
      | success value next => exact later.elim

/-- An evaluation comes only to calls that stand in a part of the parser. -/
theorem Meets.all {ok : Node → Prop} (hq : q.All ok) (h : q.Meets call c p w) :
    ok (.rule c.id c.name) := by
  have member {qs : List (Parser α)} (hqs : AllOf ok qs)
      (ih : ∀ q ∈ qs, ∀ {p w}, q.All ok → q.Meets call c p w → ok (.rule c.id c.name))
      (found : ∃ q ∈ qs, ∃ p w, q.Meets call c p w) : ok (.rule c.id c.name) := by
    obtain ⟨q, hq, p, w, meets⟩ := found
    exact ih q hq (allOf_iff.1 hqs q hq) meets
  induction q generalizing p w with
  | map f q ih => exact ih hq.2 h
  | named name q ih => exact ih hq.2 h
  | group label qs ih => exact member hq.2 (fun q hq _ _ => ih q hq) h.exists_mem
  | choice qs ih => exact member hq.2 (fun q hq _ _ => ih q hq) h.exists_mem
  | many style q ih =>
    obtain ⟨p', w', meets⟩ := exists_of_meetsAgain h
    exact ih hq.2 meets
  | optional q ih => exact ih hq.2 h
  | peek q ih => exact ih hq.2 h
  | not q ih => exact ih hq.2 h
  | bind noted qs k ihs ihk =>
    simp only [Meets] at h
    rcases h with first | ⟨found, w', -, later⟩
    · exact member hq.2.1 (fun q hq _ _ => ihs q hq) first.exists_mem
    · rcases found with name | ⟨values, next⟩
      · exact later.elim
      · exact ihk values (hq.2.2 values) later
  | observed tag q ih => exact ih hq.2 h
  | traced q ih => exact ih hq.2 h
  | rule id name =>
    obtain rfl := h
    exact hq
  | _ => exact False.elim h

/-- So does one that goes on into the bodies of rules, if these are those of rules that may be called. -/
theorem Comes.all {ok : Node → Prop} (h : Comes grammar depth q p w c)
    (hbodies : ∀ {id : RuleId} {name : String} {body : Parser α}, ok (.rule id name) →
      (grammar[id]?).join = some body → body.All ok)
    (hq : q.All ok) : ok (.rule c.id c.name) := by
  induction h with
  | call meets => exact meets.all hq
  | inside meets hbody _ ih => exact ih (hbodies (meets.all hq) hbody)

/-- A kind of parsers holds, or it is the call of a rule for which the call of a related rule does. -/
def Related (rules : RuleId → RuleId → Prop) (ok : Node → Prop) : Node → Prop
  | .rule id name => ∃ id', rules id id' ∧ ok (.rule id' name)
  | n => ok n

omit [Token α] [DecidableEq α] in
/-- Of like parsers the one consists of what the other consists of, with the numbers of its rules. -/
theorem Alike.all {rules : RuleId → RuleId → Prop} {ok : Node → Prop} {q q' : Parser α}
    (h : Alike rules q q') (hq : q'.All ok) : q.All (Related rules ok) := by
  have rows {qs qs' : List (Parser α)} (h : List.Forall₂ (Alike rules) qs qs')
      (ih : ∀ q ∈ qs, ∀ {q'}, Alike rules q q' → q'.All ok → q.All (Related rules ok))
      (hqs : AllOf ok qs') : AllOf (Related rules ok) qs := by
    induction h with
    | nil => trivial
    | cons hq _ ihqs =>
      exact ⟨ih _ List.mem_cons_self hq hqs.1, ihqs (fun q hq => ih q (List.mem_cons_of_mem _ hq)) hqs.2⟩
  induction q generalizing q' with
  | map f q ih => cases h with | map _ h => exact ⟨hq.1, ih h hq.2⟩
  | named name q ih => cases h with | named _ h => exact ⟨hq.1, ih h hq.2⟩
  | group label qs ih =>
    cases h with | group _ h => exact ⟨hq.1, rows h (fun q hq _ h => ih q hq h) hq.2⟩
  | choice qs ih => cases h with | choice h => exact ⟨hq.1, rows h (fun q hq _ h => ih q hq h) hq.2⟩
  | many style q ih => cases h with | many _ h => exact ⟨hq.1, ih h hq.2⟩
  | optional q ih => cases h with | optional h => exact ⟨hq.1, ih h hq.2⟩
  | peek q ih => cases h with | peek h => exact ⟨hq.1, ih h hq.2⟩
  | not q ih => cases h with | not h => exact ⟨hq.1, ih h hq.2⟩
  | bind noted qs k ihs ihk =>
    cases h with
    | bind _ h hk =>
      obtain ⟨own, row, rest⟩ := hq
      exact ⟨own, rows h (fun q hq _ h => ihs q hq h) row, fun values => ihk values (hk values) (rest values)⟩
  | observed tag q ih => cases h with | observed _ h => exact ⟨hq.1, ih h hq.2⟩
  | traced q ih => cases h with | traced h => exact ⟨hq.1, ih h hq.2⟩
  | rule id name => cases h with | rule _ h => exact ⟨_, h, hq⟩
  | _ => cases h; exact hq

/-! ### How deep calls are nested -/

/-- **A parse comes to the undefined rules that it comes to at any depth**, where parsers stay in one
sequence: the depth that a parse takes is enough. -/
theorem stops_parse_of_comes {rules : RuleId → RuleId → Prop} {grammar' : Grammar α} {q' : Parser α}
    {ts : List α} {i : Nat} (hg : LikeGrammars rules grammar grammar')
    (hsize : grammar'.size ≤ grammar.size) (hq : Alike rules q q') (hw : w.store.Shows p ts i)
    (h : Comes grammar depth q (p.moveTo i) w c) (undefined : c.Undefined grammar) :
    Parsing.Stops (q.parse grammar (p.moveTo i)) w (.undefinedRule c.name) c.world := by
  have stops := stops_evalDepth_iff.2 ⟨c, h, undefined, rfl, rfl⟩
  have follows := follows_evalDepth hg depth hq i w hw
  cases hr : q'.readDepth grammar' ts depth i with
  | endless =>
    rw [hr] at follows
    exact absurd ((congrArg Prod.fst stops).symm.trans follows) nofun
  | ended course =>
    rw [hr] at follows
    have run := parse_of_reads hg hsize hq hw ⟨depth, hr⟩
    exact run.trans (follows.symm.trans stops)

/-- A parser does not jump into another sequence. -/
def StaysIn (q : Parser α) : Prop := Alike (· = ·) q q

theorem stops_parse_of_comes_stays {ts : List α}
    (hg : ∀ (id : RuleId) (body : Parser α), (grammar[id]?).join = some body → body.StaysIn)
    (hq : q.StaysIn) (hw : w.store.Shows p ts p.offset) (h : Comes grammar depth q p w c)
    (undefined : c.Undefined grammar) :
    Parsing.Stops (q.parse grammar p) w (.undefinedRule c.name) c.world := by
  have same : LikeGrammars (· = ·) grammar grammar := by
    rintro id id' rfl
    cases hbody : (grammar[id]?).join with
    | none => exact .none
    | some body => exact .some (hg id body hbody)
  rw [← p.moveTo_offset] at h
  have stops := stops_parse_of_comes same (Nat.le_refl _) hq hw h undefined
  rwa [p.moveTo_offset] at stops

end Parser

end LazyPeg
