import LazyPeg.Diagnostic
import LazyPeg.Proofs.Reading.Bounds

/-!
# Names and observers

Names are shown in messages, and observers note events.  `Parser.plain` is a parser without observers,
and on demand without names and messages as well, all the way down to the parsers that continuations
give.  **A parse does not depend on either**: where it starts with the same sequences it reads as much
of them, is stopped alike or comes to the same value at the same place, and fails for the same reason,
up to the texts that were taken out (`Parser.same_eval`, `Parser.same_parse`, `Parser.same_run`).

`Parsing.Same` compares two parses in worlds with the same sequences, whatever events there are.  It
passes through every way of putting parses together, so the proof is an induction over the terms.
-/
namespace LazyPeg

/-! ## 1. Without names -/

/-- A text, or nothing where texts are taken out. -/
def muted (names : Bool) (text : String) : String := if names then "" else text

@[simp] theorem muted_false (text : String) : muted false text = text := rfl

@[simp] theorem muted_muted (names : Bool) (text : String) :
    muted names (muted names text) = muted names text := by
  cases names <;> rfl

/-- A verdict, with `names` without its message. -/
def Verdict.plain (names : Bool) : Verdict → Verdict
  | .success => .success
  | .failure kind message => .failure kind (muted names message)

namespace Reason

/-- A reason, with `names` without its texts. -/
def plain (names : Bool) : Reason → Reason
  | endOfInput => endOfInput
  | tokensLeft => tokensLeft
  | unsatisfied name => unsatisfied (muted names name)
  | missing name => missing (muted names name)
  | noneOf ns => noneOf (ns.map (muted names))
  | tooFew least name => tooFew least (muted names name)
  | present name => present (muted names name)
  | stated kind message => stated kind (muted names message)

variable {names : Bool} {r r' : Reason}

theorem plain_false (r : Reason) : r.plain false = r := by
  cases r with
  | noneOf ns => exact congrArg noneOf (List.map_id'' muted_false ns)
  | _ => rfl

theorem kind_plain (r : Reason) : (r.plain names).kind = r.kind := by cases r <;> rfl

theorem kind_eq_of_plain (h : r.plain names = r'.plain names) : r.kind = r'.kind := by
  rw [← kind_plain r, h, kind_plain]

theorem muted_message_eq_of_plain (h : r.plain names = r'.plain names) :
    muted names r.message = muted names r'.message := by
  cases names with
  | true => rfl
  | false => rw [← plain_false r, h, plain_false]

end Reason

namespace Outcome

variable {α π : Type} {names : Bool}

/-- An outcome, with `names` without the texts of its reason. -/
def plain (names : Bool) : Outcome α π → Outcome α π
  | success v next => success v next
  | failure reason place => failure (reason.plain names) place

theorem plain_false (r : Outcome α π) : r.plain false = r := by
  cases r with
  | success v next => rfl
  | failure reason place => exact congrArg (failure · place) reason.plain_false

theorem place_plain (r : Outcome α π) : (r.plain names).place = r.place := by cases r <;> rfl

theorem value?_plain (r : Outcome α π) : (r.plain names).value? = r.value? := by cases r <;> rfl

theorem plain_mapValue (f : Value α → Value α) (r : Outcome α π) :
    (r.mapValue f).plain names = (r.plain names).mapValue f := by
  cases r <;> rfl

end Outcome

/-- A report, with `names` without its message. -/
def Diagnostic.plain (names : Bool) (d : Diagnostic) : Diagnostic :=
  { d with message := muted names d.message }

namespace Parser

variable {α : Type}

mutual

/-- A parser without observers, and with `names` without names and messages. -/
def plain (names : Bool) : Parser α → Parser α
  | endOfInput => endOfInput
  | satisfy name accepts => satisfy (muted names name) accepts
  | token items => token items
  | result value => result value
  | expected message => expected (muted names message)
  | offset => offset
  | jump name origin count verdict => jump (muted names name) origin count (verdict.plain names)
  | map f q => map f (q.plain names)
  | named name q => if names then q.plain names else named name (q.plain names)
  | group label qs => group label (plainAll names qs)
  | choice qs => choice (plainAll names qs)
  | many style q => many style (q.plain names)
  | optional q => optional (q.plain names)
  | peek q => peek (q.plain names)
  | not q => not (q.plain names)
  | bind noted qs continuation =>
    bind noted (plainAll names qs) fun values => (continuation values).plain names
  | observed _ q => q.plain names
  | traced q => q.plain names
  | rule id name => rule id name

/-- Several parsers without them. -/
def plainAll (names : Bool) : List (Parser α) → List (Parser α)
  | [] => []
  | q :: qs => q.plain names :: plainAll names qs

end

theorem plainAll_eq (names : Bool) (qs : List (Parser α)) : plainAll names qs = qs.map (plain names) := by
  induction qs with
  | nil => rfl
  | cons q qs ih => rw [plainAll, ih, List.map_cons]

variable [Token α]

theorem names_plainAll {qs : List (Parser α)} (h : ∀ q ∈ qs, (q.plain false).name = q.name) :
    Parser.names (plainAll false qs) = Parser.names qs := by
  rw [plainAll_eq, names_eq, names_eq, List.map_map]
  exact List.map_congr_left h

/-- Observers have the names of the parsers that they observe. -/
theorem name_plain (q : Parser α) : (q.plain false).name = q.name := by
  induction q with
  | map f q ih => simpa only [plain, name] using ih
  | group label qs ih => simp only [plain, name, names_plainAll ih]
  | choice qs ih => simp only [plain, name, names_plainAll ih]
  | many style q ih => simp only [plain, name, ih]
  | optional q ih => simp only [plain, name, ih]
  | peek q ih => simp only [plain, name, ih]
  | not q ih => simp only [plain, name, ih]
  | bind noted qs k ih _ => simp only [plain, name, names_plainAll ih]
  | observed tag q ih => simpa only [plain, name] using ih
  | traced q ih => simpa only [plain, name] using ih
  | _ => rfl

variable {names : Bool}

theorem muted_name_plain (q : Parser α) : muted names (q.plain names).name = muted names q.name := by
  cases names with
  | true => rfl
  | false => exact name_plain q

theorem muted_names_plainAll (qs : List (Parser α)) :
    (Parser.names (plainAll names qs)).map (muted names) = (Parser.names qs).map (muted names) := by
  rw [plainAll_eq, names_eq, names_eq, List.map_map, List.map_map, List.map_map]
  exact List.map_congr_left fun q _ => muted_name_plain q

end Parser

/-! ## 2. The same parse -/

/-- Two answers of which a function shows the same are the same fault, or it shows the same of them. -/
theorem cases_of_map_eq {ε β γ : Type} {f : β → γ} {x x' : Except ε β} (h : x.map f = x'.map f) :
    (∃ why, x = .error why ∧ x' = .error why) ∨ ∃ b b', x = .ok b ∧ x' = .ok b' ∧ f b = f b' := by
  rcases x with why | b <;> rcases x' with why' | b'
  · obtain rfl := Except.error.inj h
    exact .inl ⟨why, rfl, rfl⟩
  · exact absurd h nofun
  · exact absurd h nofun
  · exact .inr ⟨b, b', rfl, rfl, Except.ok.inj h⟩

namespace Parsing

variable {α β β' γ γ' : Type} {names : Bool}

/-- Two parses in worlds with the same sequences are stopped alike, or have answers in which `f` shows the
same, and they leave the same sequences. -/
def Same (f : β → γ) (m m' : Parsing α β) : Prop :=
  ∀ w w' : World α, w.store = w'.store →
    ((ExceptT.run m).run w).1.map f = ((ExceptT.run m').run w').1.map f ∧
      ((ExceptT.run m).run w).2.store = ((ExceptT.run m').run w').2.store

variable {f : β → γ} {g : β' → γ'} {m m' m'' : Parsing α β}

theorem Same.symm (h : Same f m m') : Same f m' m := fun w w' hw =>
  ⟨(h w' w hw.symm).1.symm, (h w' w hw.symm).2.symm⟩

theorem Same.trans (h : Same f m m') (h' : Same f m' m'') : Same f m m'' := fun w w' hw =>
  ⟨(h w w rfl).1.trans (h' w w' hw).1, (h w w rfl).2.trans (h' w w' hw).2⟩

theorem Same.pure {b b' : β} (h : f b = f b') : Same f (pure b : Parsing α β) (pure b') :=
  fun _ _ hw => ⟨congrArg Except.ok h, hw⟩

theorem same_throw (why : Stop) : Same f (throw why : Parsing α β) (throw why) := fun _ _ hw => ⟨rfl, hw⟩

/-- The second parts may assume of the answers of the first parts what these show. -/
theorem Same.bind {k k' : β → Parsing α β'} (h : Same f m m')
    (hk : ∀ b b', f b = f b' → Same g (k b) (k' b')) : Same g (m >>= k) (m' >>= k') := by
  intro w w' hw
  obtain ⟨answers, stores⟩ := h w w' hw
  rw [run_bind, run_bind]
  generalize (ExceptT.run m).run w = x at answers stores ⊢
  generalize (ExceptT.run m').run w' = x' at answers stores ⊢
  obtain ⟨answer, v⟩ := x
  obtain ⟨answer', v'⟩ := x'
  obtain ⟨why, rfl, rfl⟩ | ⟨b, b', rfl, rfl, hb⟩ := cases_of_map_eq answers
  · exact ⟨rfl, stores⟩
  · exact hk b b' hb v v' stores

theorem Same.bind_id {m m' : Parsing α β} {k k' : β → Parsing α β'} (h : Same id m m')
    (hk : ∀ b, Same g (k b) (k' b)) : Same g (m >>= k) (m' >>= k') :=
  h.bind fun b _ hb => (show b = _ from hb) ▸ hk b

/-- Outcomes that show the same are equal, or they are failures at one place. -/
theorem Same.bind_outcome {m m' : Parsing α (Result α)} {k k' : Result α → Parsing α β'}
    (h : Same (Outcome.plain names) m m') (success : ∀ v next, Same g (k (.success v next)) (k' (.success v next)))
    (failure : ∀ reason reason' place, reason.plain names = reason'.plain names →
      Same g (k (.failure reason place)) (k' (.failure reason' place))) :
    Same g (m >>= k) (m' >>= k') := by
  refine h.bind fun r r' hr => ?_
  rcases r with ⟨v, next⟩ | ⟨reason, place⟩ <;> rcases r' with ⟨v', next'⟩ | ⟨reason', place'⟩
  · obtain ⟨rfl, rfl⟩ := Outcome.success.inj hr
    exact success v next
  · exact absurd hr nofun
  · exact absurd hr nofun
  · obtain ⟨reasons, rfl⟩ := Outcome.failure.inj hr
    exact failure reason reason' place reasons

/-- Rows that show the same have the same values, or both have failed. -/
theorem Same.bind_row {m m' : Parsing α (Except String β)} {k k' : Except String β → Parsing α β'}
    (h : Same (Except.mapError (muted names)) m m') (ok : ∀ row, Same g (k (.ok row)) (k' (.ok row)))
    (error : ∀ name name', muted names name = muted names name' →
      Same g (k (.error name)) (k' (.error name'))) :
    Same g (m >>= k) (m' >>= k') := by
  refine h.bind fun row row' hrow => ?_
  rcases row with name | row <;> rcases row' with name' | row'
  · exact error name name' (Except.error.inj hrow)
  · exact absurd hrow nofun
  · exact absurd hrow nofun
  · obtain rfl := Except.ok.inj hrow
    exact ok row

theorem same_failure {r r' : Reason} (p : Position) (h : r.plain names = r'.plain names) :
    Same (Outcome.plain names) (pure (.failure r p) : Parsing α (Result α)) (pure (.failure r' p)) :=
  .pure (congrArg (Outcome.failure · p) h)

theorem same_head? (p : Position) : Same id (head? p : Parsing α _) (head? p) := by
  intro w w' hw
  rw [run_head?, run_head?, hw]
  exact ⟨rfl, rfl⟩

theorem same_offset (p : Position) : Same id (offset p : Parsing α _) (offset p) := fun _ _ hw => ⟨rfl, hw⟩

theorem same_setOut (p : Position) (origin : Option Position) :
    Same id (setOut p origin : Parsing α _) (setOut p origin) := by
  intro w w' hw
  rw [run_setOut, run_setOut]
  exact ⟨rfl, hw⟩

theorem same_tail (p : Position) : Same id (tail p : Parsing α _) (tail p) := by
  intro w w' hw
  rw [run_tail, run_tail, hw]
  exact ⟨rfl, rfl⟩

theorem same_skip (n : Nat) (p : Position) : Same id (skip n p : Parsing α _) (skip n p) := by
  intro w w' hw
  rw [run_skip, run_skip, hw]
  exact ⟨rfl, rfl⟩

theorem same_samePlace (p q : Position) :
    Same id (samePlace p q : Parsing α _) (samePlace p q) := by
  intro w w' hw
  rw [run_samePlace, run_samePlace, hw]
  exact ⟨rfl, rfl⟩

theorem same_note (e e' : Event α Position) : Same id (note e) (note e') := fun _ _ hw => ⟨rfl, hw⟩

/-- To note what a parse has answered is no part of it. -/
theorem Same.noted (h : Same f m m') (e : β → Event α Position) :
    Same f (m >>= fun b => note (e b) >>= fun _ => Pure.pure b) m' := by
  intro w w' hw
  obtain ⟨answers, stores⟩ := h w w' hw
  rw [run_bind]
  rcases hm : (ExceptT.run m).run w with ⟨why | b, v⟩ <;> rw [hm] at answers stores
  · exact ⟨answers, stores⟩
  · exact ⟨answers, stores⟩

/-! ### Loops -/

theorem same_matchRun [DecidableEq α] (items : List α) (p : Position) :
    Same id (matchRun items p) (matchRun items p) := by
  induction items generalizing p with
  | nil => exact .pure rfl
  | cons item items ih =>
    refine (same_head? p).bind_id fun t => ?_
    cases t with
    | none => exact .pure rfl
    | some t =>
      simp only
      split
      · refine (same_tail p).bind_id fun next => ?_
        exact ih next
      · exact .pure rfl

/-- A loop stops for what a match is and where it stands, and not for why the last one failed. -/
theorem same_repeatMatch {step step' : Position → Parsing α (Result α)}
    (hstep : ∀ p, Same (Outcome.plain names) (step p) (step' p)) (least room collected : Nat)
    (values : List (Value α)) (p : Position) :
    Same id (repeatMatch step least room collected values p)
      (repeatMatch step' least room collected values p) := by
  induction room generalizing collected values p with
  | zero => exact .pure rfl
  | succ room ih =>
    refine (hstep p).bind_outcome (fun v next => ?_) fun _ _ _ _ => .pure rfl
    refine (same_samePlace next p).bind_id fun stays => ?_
    split
    · exact .pure rfl
    · exact ih (collected + 1) (v :: values) next

theorem same_countLines (toChar : α → Char) (distance line column : Nat) (p : Position) :
    Same id (countLines toChar distance p line column) (countLines toChar distance p line column) := by
  induction distance generalizing p line column with
  | zero => exact .pure rfl
  | succ distance ih =>
    refine (same_head? p).bind_id fun t => ?_
    cases t with
    | none => exact .pure rfl
    | some t =>
      refine (same_tail p).bind_id fun next => ?_
      split
      · exact ih _ _ next
      · exact ih _ _ next

theorem same_report [Token α] (filename : String) (start place : Position) {r r' : Reason}
    (h : r.plain names = r'.plain names) :
    Same (Diagnostic.plain names) (report filename start place r : Parsing α _)
      (report filename start place r') := by
  refine (same_head? place).bind_id fun found => ?_
  have counted : Same id (lineColumn? start place : Parsing α _) (lineColumn? start place) := by
    unfold lineColumn?
    cases Token.chars? (α := α) with
    | none => exact .pure rfl
    | some toChar =>
      refine (same_offset place).bind_id fun far => ?_
      refine (same_offset start).bind_id fun near => ?_
      exact same_countLines toChar (far - near) 1 1 start
  refine counted.bind_id fun lineColumn => ?_
  refine (same_offset place).bind_id fun offset => ?_
  refine .pure ?_
  simp only [Diagnostic.plain, Reason.kind_eq_of_plain h, Reason.muted_message_eq_of_plain h]

end Parsing

/-! ## 3. Terms -/

namespace Parser

open Parsing

variable {α : Type} [Token α] [DecidableEq α] {names : Bool} {qs : List (Parser α)}
  {call call' : RuleId → String → Position → Parsing α (Result α)}

theorem same_evalAll
    (hqs : ∀ q ∈ qs, ∀ p, Same (Outcome.plain names) (q.eval call p) ((q.plain names).eval call' p))
    (p : Position) :
    Same (Except.mapError (muted names)) (evalAll call qs p) (evalAll call' (plainAll names qs) p) := by
  induction qs generalizing p with
  | nil => exact .pure rfl
  | cons q qs ih =>
    obtain ⟨hq, hqs⟩ := List.forall_mem_cons.1 hqs
    refine (hq p).bind_outcome (fun v next => ?_) fun _ _ _ _ => .pure ?_
    · exact (ih hqs next).bind_row (fun _ => .pure rfl) fun _ _ same => .pure (congrArg Except.error same)
    · exact congrArg Except.error (muted_name_plain q).symm

theorem same_evalFirst
    (hqs : ∀ q ∈ qs, ∀ p, Same (Outcome.plain names) (q.eval call p) ((q.plain names).eval call' p))
    (p : Position) :
    Same id (evalFirst call qs p) (evalFirst call' (plainAll names qs) p) := by
  induction qs with
  | nil => exact .pure rfl
  | cons q qs ih =>
    obtain ⟨hq, hqs⟩ := List.forall_mem_cons.1 hqs
    exact (hq p).bind_outcome (fun v next => .pure rfl) fun _ _ _ _ => ih hqs

/-- **What is shown and what is noted has no say in a parse**, if this is so of rules. -/
theorem same_eval (hcall : ∀ id name p, Same (Outcome.plain names) (call id name p) (call' id name p))
    (q : Parser α) (p : Position) :
    Same (Outcome.plain names) (q.eval call p) ((q.plain names).eval call' p) := by
  induction q generalizing p with
  | endOfInput =>
    refine (same_head? p).bind_id fun t => ?_
    cases t <;> exact .pure rfl
  | satisfy name accepts =>
    refine (same_head? p).bind_id fun t => ?_
    cases t with
    | none => exact .pure rfl
    | some t =>
      simp only
      split
      · refine (same_tail p).bind_id fun next => ?_
        exact .pure rfl
      · exact same_failure p (by simp only [Reason.plain, muted_muted])
  | token items =>
    refine (same_matchRun items p).bind_id fun next => ?_
    cases next <;> exact .pure rfl
  | result v => exact .pure rfl
  | expected message => exact same_failure p (by simp only [Reason.plain, muted_muted])
  | offset => exact (same_offset p).bind_id fun _ => .pure rfl
  | jump name origin count verdict =>
    refine (same_setOut p origin).bind_id fun start => ?_
    refine (same_skip count start).bind_id fun next => ?_
    cases verdict with
    | success => exact .pure rfl
    | failure kind message => exact same_failure next (by simp only [Reason.plain, muted_muted])
  | map f q ih =>
    refine (ih p).bind fun r r' hr => .pure ?_
    rw [Outcome.plain_mapValue, hr, Outcome.plain_mapValue]
  | named name q ih =>
    rw [plain]
    cases names
    · exact ih p
    · exact ih p
  | group label qs ih =>
    refine (same_evalAll ih p).bind_row (fun _ => .pure rfl) fun _ _ missing => ?_
    exact same_failure p (congrArg Reason.missing missing)
  | choice qs ih =>
    refine (same_evalFirst ih p).bind_id fun r => ?_
    cases r with
    | some r => exact .pure rfl
    | none => exact same_failure p (congrArg Reason.noneOf (muted_names_plainAll qs).symm)
  | many style q ih =>
    refine (same_repeatMatch ih _ _ 0 [] p).bind_id fun row => ?_
    simp only
    split
    · exact same_failure p (congrArg (Reason.tooFew style.least) (muted_name_plain q).symm)
    · exact .pure rfl
  | optional q ih => exact (ih p).bind_outcome (fun _ _ => .pure rfl) fun _ _ _ _ => .pure rfl
  | peek q ih =>
    exact (ih p).bind_outcome (fun _ _ => .pure rfl) fun _ _ place reasons => same_failure place reasons
  | not q ih =>
    refine (ih p).bind_outcome (fun _ _ => ?_) fun _ _ _ _ => ?_
    · exact same_failure p (congrArg Reason.present (muted_name_plain q).symm)
    · refine (same_head? p).bind_id fun t => ?_
      cases t <;> exact .pure rfl
  | bind noted qs continuation ihs ihk =>
    rw [plain, eval, eval]
    refine (same_evalAll ihs p).bind_row (fun row => ?_) fun _ _ missing => ?_
    · cases noted with
      | false => exact ihk row.1 row.2
      | true => exact (same_note _ _).bind fun _ _ _ => ihk row.1 row.2
    · exact same_failure p (congrArg Reason.missing missing)
  | observed tag q ih => exact (ih p).noted (.observed tag)
  | traced q ih => exact (ih p).noted (.traced q.name)
  | rule id name => exact hcall id name p

/-! ## 4. Rules -/

/-- The rules of a grammar without observers, and with `names` without names. -/
def plainRules (names : Bool) (grammar : Grammar α) : Grammar α := grammar.map (Option.map (plain names))

omit [Token α] [DecidableEq α] in
theorem join_plainRules (grammar : Grammar α) (id : RuleId) :
    ((plainRules names grammar)[id]?).join = (grammar[id]?).join.map (plain names) := by
  rw [plainRules, Array.getElem?_map]
  rcases grammar[id]? with _ | _ | body <;> rfl

theorem same_evalDepth (grammar : Grammar α) (depth : Nat) (q : Parser α) (p : Position) :
    Same (Outcome.plain names) (q.evalDepth grammar depth p)
      ((q.plain names).evalDepth (plainRules names grammar) depth p) := by
  induction depth generalizing q p with
  | zero =>
    refine same_eval (fun id name p => ?_) q p
    rw [join_plainRules]
    cases (grammar[id]?).join with
    | some body => exact same_throw .endless
    | none => exact same_throw (.undefinedRule name)
  | succ depth ih =>
    refine same_eval (fun id name p => ?_) q p
    rw [join_plainRules]
    cases (grammar[id]?).join with
    | some body => exact ih body p
    | none => exact same_throw (.undefinedRule name)

theorem same_parse (grammar : Grammar α) (q : Parser α) (p : Position) :
    Same (Outcome.plain names) (q.parse grammar p)
      ((q.plain names).parse (plainRules names grammar) p) := by
  intro w w' hw
  have depth : enoughDepth (plainRules names grammar) w' = enoughDepth grammar w := by
    rw [enoughDepth, enoughDepth, hw, plainRules, Array.size_map]
  rw [run_parse, run_parse, depth]
  exact same_evalDepth grammar (enoughDepth grammar w) q p w w' hw

theorem same_run (grammar : Grammar α) (filename : String) (q : Parser α) (p : Position) :
    Same (Except.mapError (Diagnostic.plain names)) (q.run grammar filename p)
      ((q.plain names).run (plainRules names grammar) filename p) := by
  refine (same_parse grammar q p).bind_outcome (fun v next => ?_) fun reason reason' place reasons => ?_
  · refine (same_head? next).bind_id fun left => ?_
    cases left with
    | none => exact .pure rfl
    | some t =>
      exact (same_report filename p next rfl).bind fun _ _ same => .pure (congrArg Except.error same)
  · exact (same_report filename p place reasons).bind fun _ _ same => .pure (congrArg Except.error same)

/-! ### Two parsers that differ by names and observers -/

variable {grammar grammar' : Grammar α} {q q' : Parser α}

theorem same_parse_of_plain (hg : plainRules names grammar = plainRules names grammar')
    (hq : q.plain names = q'.plain names) (p : Position) :
    Same (Outcome.plain names) (q.parse grammar p) (q'.parse grammar' p) := by
  have left : Same (Outcome.plain names) (q.parse grammar p) _ := same_parse grammar q p
  rw [hg, hq] at left
  exact left.trans (same_parse grammar' q' p).symm

theorem same_run_of_plain (hg : plainRules names grammar = plainRules names grammar')
    (hq : q.plain names = q'.plain names) (filename : String) (p : Position) :
    Same (Except.mapError (Diagnostic.plain names)) (q.run grammar filename p)
      (q'.run grammar' filename p) := by
  have left : Same (Except.mapError (Diagnostic.plain names)) (q.run grammar filename p) _ :=
    same_run grammar filename q p
  rw [hg, hq] at left
  exact left.trans (same_run grammar' filename q' p).symm

end Parser

end LazyPeg
