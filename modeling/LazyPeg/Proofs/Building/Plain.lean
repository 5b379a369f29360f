import LazyPeg.Description.Build
import LazyPeg.Proofs.Simulation.Plain

/-!
# Descriptions without names and observers

`Description.plain` takes out of a description what `Parser.plain` takes out of a parser, and the boxes
as well.  Building does not depend on it (`Description.same_build`): a description with names and
observers and the one without them are refused for the same fault, or open the same sequences, number the
same rules, and make parsers that are equal once names and observers are taken out of them.
-/
namespace LazyPeg

/-! ## 1. Descriptions -/

namespace Description

variable {α : Type}

mutual

/-- A description without boxes and observers, and with `names` without names and messages. -/
def plain (names : Bool) : Description α → Description α
  | between name after before => between (muted names name) after before
  | expected message => expected (muted names message)
  | jump name origin count verdict => jump (muted names name) origin count (verdict.plain names)
  | constant l of => constant l (of.plain names)
  | named name of => if names then of.plain names else named name (of.plain names)
  | boxed of => of.plain names
  | change f of => change f (of.plain names)
  | seq of => seq (plainAll names of)
  | tuple of => tuple (plainAll names of)
  | choice of => choice (plainAll names of)
  | pair how of other => pair how (of.plain names) (other.plain names)
  | optional of => optional (of.plain names)
  | many style of => many style (of.plain names)
  | peek of => peek (of.plain names)
  | not of => not (of.plain names)
  | bind noted of continuation => bind noted (plainAll names of) (plainContinuation names continuation)
  | observed _ of => of.plain names
  | traced of => of.plain names
  | recursive name fate body => recursive name fate (body.plain names)
  | d => d

/-- Several descriptions without them. -/
def plainAll (names : Bool) : List (Description α) → List (Description α)
  | [] => []
  | d :: ds => d.plain names :: plainAll names ds

/-- The cases of a switch without them. -/
def plainCases (names : Bool) : List (α × Description α) → List (α × Description α)
  | [] => []
  | (t, d) :: cases => (t, d.plain names) :: plainCases names cases

/-- A continuation without them. -/
def plainContinuation (names : Bool) : Continuation α → Continuation α
  | .repeated index of => .repeated index (of.plain names)
  | .always of => .always (of.plain names)
  | .switch index cases otherwise => .switch index (plainCases names cases) (otherwise.plain names)
  | k => k

end

theorem plainAll_eq (names : Bool) (ds : List (Description α)) :
    plainAll names ds = ds.map (plain names) := by
  induction ds with
  | nil => rfl
  | cons d ds ih => rw [plainAll, ih, List.map_cons]

end Description

/-! ## 2. Combinators -/

namespace Parser

variable {α : Type} {names : Bool} {p p' q q' : Parser α}

theorem plain_group (label : String) {ps ps' : List (Parser α)}
    (h : ps.map (plain names) = ps'.map (plain names)) :
    (group label ps).plain names = (group label ps').plain names := by
  rw [plain, plain, plainAll_eq, plainAll_eq, h]

theorem plain_map (f : Value α → Value α) (h : p.plain names = p'.plain names) :
    (map f p).plain names = (map f p').plain names := by
  rw [plain, plain, h]

theorem plain_many (style : Repetition) (h : p.plain names = p'.plain names) :
    (many style p).plain names = (many style p').plain names := by
  rw [plain, plain, h]

theorem plain_named (h : p.plain names = p'.plain names) {name name' : String}
    (hn : names = false → name = name') :
    (named name p).plain names = (named name' p').plain names := by
  cases names with
  | true => exact h
  | false =>
    obtain rfl := hn rfl
    exact congrArg (named name) h

theorem map_plain_pair (hp : p.plain names = p'.plain names) (hq : q.plain names = q'.plain names) :
    [p, q].map (plain names) = [p', q'].map (plain names) := by
  simp only [List.map_cons, List.map_nil, hp, hq]

theorem name_eq_of_plain [Token α] (h : p.plain names = p'.plain names) (hn : names = false) :
    p.name = p'.name := by
  subst hn
  rw [← name_plain p, h, name_plain]

theorem plain_sepBy1 [Token α] (hp : p.plain names = p'.plain names)
    (hq : q.plain names = q'.plain names) :
    (sepBy1 p q).plain names = (sepBy1 p' q').plain names := by
  refine plain_named (plain_map _ (plain_group _ (map_plain_pair hp ?_))) fun hn => ?_
  · exact plain_many .any (plain_map _ (plain_group _ (map_plain_pair hq hp)))
  · rw [name_eq_of_plain hp hn, name_eq_of_plain hq hn]

/-- The combinations of parsers that differ by names and observers differ by names and observers. -/
theorem plain_pair [Token α] (how : Pairing) (hp : p.plain names = p'.plain names)
    (hq : q.plain names = q'.plain names) :
    (pair how p q).plain names = (pair how p' q').plain names := by
  cases how with
  | andThen => exact plain_map _ (plain_group _ (map_plain_pair hp hq))
  | and => exact plain_group _ (map_plain_pair hp hq)
  | preceded => exact plain_map _ (plain_group _ (map_plain_pair hq hp))
  | terminated => exact plain_map _ (plain_group _ (map_plain_pair hp hq))
  | or => simp only [pair, or, plain, plainAll, hp, hq]
  | sepBy1 => exact plain_sepBy1 hp hq
  | sepBy0 =>
    refine plain_named (plain_map _ ?_) fun hn => ?_
    · simp only [plain, plain_sepBy1 hp hq]
    · rw [name_eq_of_plain hp hn, name_eq_of_plain hq hn]

theorem map_lookup_plain [DecidableEq α] (cases : List (α × Parser α)) (t : α) :
    (cases.lookup t).map (plain names) = (cases.map (Prod.map id (plain names))).lookup t := by
  induction cases with
  | nil => rfl
  | cons x cases ih =>
    obtain ⟨u, q⟩ := x
    rw [List.map_cons, Prod.map_apply, List.lookup_cons, List.lookup_cons, id]
    cases t == u
    · exact ih
    · rfl

theorem plain_chosenBy [DecidableEq α] [Token α] (index : Nat) {cases cases' : List (α × Parser α)}
    (hc : cases.map (Prod.map id (plain names)) = cases'.map (Prod.map id (plain names)))
    (hp : p.plain names = p'.plain names) (values : List (Value α)) :
    (chosenBy index cases p values).plain names = (chosenBy index cases' p' values).plain names := by
  unfold chosenBy
  rw [← Option.getD_map (plain names), ← Option.getD_map (plain names), Option.map_bind,
    Option.map_bind, hp]
  simp only [Function.comp_def, map_lookup_plain, hc]

end Parser

/-! ## 3. Building -/

/-- A workshop, with its rules without observers, and with `names` without names. -/
def Workshop.plain {α : Type} (names : Bool) (w : Workshop α) : Workshop α :=
  ⟨w.store, Parser.plainRules names w.grammar⟩

namespace Building

variable {α β β' γ γ' : Type} {names : Bool} {f : β → γ} {g : β' → γ'} {m m' : Building α β}

/-- Two steps of building in workshops that show the same are refused alike, or they build what shows the
same and leave workshops that show the same. -/
def Same (names : Bool) (f : β → γ) (m m' : Building α β) : Prop :=
  ∀ w w' : Workshop α, w.plain names = w'.plain names →
    (m.run w).map (Prod.map f (Workshop.plain names)) = (m'.run w').map (Prod.map f (Workshop.plain names))

theorem Same.pure {b b' : β} (h : f b = f b') :
    Same names f (pure b : Building α β) (pure b') :=
  fun _ _ hw => congrArg Except.ok (Prod.ext h hw)

theorem same_throw (why : BuildError) : Same names f (throw why : Building α β) (throw why) :=
  fun _ _ _ => rfl

theorem Same.bind {k k' : β → Building α β'} (h : Same names f m m')
    (hk : ∀ b b', f b = f b' → Same names g (k b) (k' b')) : Same names g (m >>= k) (m' >>= k') := by
  intro w w' hw
  obtain ⟨why, hm, hm'⟩ | ⟨⟨b, v⟩, ⟨b', v'⟩, hm, hm', same⟩ := cases_of_map_eq (h w w' hw)
  · rw [StateT.run_bind, StateT.run_bind, hm, hm']
    rfl
  · obtain ⟨answers, workshops⟩ := Prod.mk.inj same
    rw [run_bind_of_ok hm, run_bind_of_ok hm']
    exact hk b b' answers v v' workshops

theorem Same.map {k k' : β → β'} (h : Same names f m m') (hk : ∀ b b', f b = f b' → g (k b) = g (k' b')) :
    Same names g (m >>= fun b => Pure.pure (k b)) (m' >>= fun b => Pure.pure (k' b)) :=
  h.bind fun b b' hb => .pure (hk b b' hb)

/-- A change of what was built that cannot be seen. -/
theorem Same.veiled {m m' : Building α β} (h : Same names f m m') {k : β → β} (hk : ∀ b, f (k b) = f b) :
    Same names f (m >>= fun b => Pure.pure (k b)) m' := by
  intro w w' hw
  have first := h w w' hw
  rcases hm : m.run w with why | ⟨b, v⟩ <;> rw [hm] at first
  · rw [StateT.run_bind, hm, ← first]
    rfl
  · rw [run_bind_of_ok hm, ← first]
    exact congrArg Except.ok (Prod.ext (hk b) rfl)

theorem same_start (input : Input α) : Same names id (start input) (start input) := by
  intro w w' hw
  obtain ⟨store, grammar⟩ := w
  obtain ⟨store', grammar'⟩ := w'
  obtain ⟨rfl, rules⟩ := Workshop.mk.inj hw
  exact congrArg Except.ok (Prod.ext rfl (congrArg (Workshop.mk _) rules))

theorem same_declare : Same names id (declare : Building α RuleId) declare := by
  intro w w' hw
  obtain ⟨stores, rules⟩ := Workshop.mk.inj hw
  have sizes : w.grammar.size = w'.grammar.size := by
    simpa only [Parser.plainRules, Array.size_map] using congrArg Array.size rules
  refine congrArg Except.ok (Prod.ext sizes ?_)
  change Workshop.plain names ⟨w.store, w.grammar.push none⟩ =
    Workshop.plain names ⟨w'.store, w'.grammar.push none⟩
  simp only [Workshop.plain, Parser.plainRules, Array.map_push] at rules ⊢
  rw [stores, rules]

theorem same_define (id : RuleId) {body body' : Parser α} (h : body.plain names = body'.plain names) :
    Same names (fun _ => ()) (define id body) (define id body') := by
  intro w w' hw
  obtain ⟨stores, rules⟩ := Workshop.mk.inj hw
  refine congrArg Except.ok (Prod.ext rfl ?_)
  change Workshop.plain names ⟨w.store, w.grammar.setIfInBounds id (some body)⟩ =
    Workshop.plain names ⟨w'.store, w'.grammar.setIfInBounds id (some body')⟩
  simp only [Workshop.plain, Parser.plainRules, Array.map_setIfInBounds] at rules ⊢
  rw [stores, rules, Option.map_some, h, Option.map_some]

end Building

namespace Description

open Building

variable {α : Type} [Token α] {names : Bool}

theorem same_buildPattern (engine : Pattern.Engine) (text : String) :
    Same names (Parser.plain names) (buildPattern engine text : Building α _)
      (buildPattern engine text) := by
  unfold buildPattern
  split
  · exact same_throw _
  · split
    · exact .pure rfl
    · exact same_throw _

variable [DecidableEq α]

mutual

/-- **Names and observers have no say in what is built.** -/
theorem same_build (scope : Scope) : (d : Description α) →
    Same names (Parser.plain names) (d.build scope) ((d.plain names).build scope)
  | .any => .pure rfl
  | .endOfInput => .pure rfl
  | .offset => .pure rfl
  | .eq t => .pure rfl
  | .neq t => .pure rfl
  | .oneOf ts => .pure rfl
  | .between name after before => .pure (by simp [Parser.between, Parser.plain])
  | .token ts => .pure rfl
  | .pattern engine text => same_buildPattern engine text
  | .expected message => .pure (by simp [Parser.plain])
  | .result l => .pure rfl
  | .jump name none count verdict => .pure (by cases verdict <;> simp [Parser.plain, Verdict.plain])
  | .jump name (some input) count verdict =>
    (same_start input).map (by rintro o _ rfl; cases verdict <;> simp [Parser.plain, Verdict.plain])
  | .constant l of => (same_build scope of).map fun _ _ => Parser.plain_map _
  | .named name of => by
    rw [plain]
    split
    next out => exact (same_build scope of).veiled fun q => by rw [Parser.plain, if_pos out]
    next => exact (same_build scope of).map fun _ _ h => Parser.plain_named h fun _ => rfl
  | .boxed of => (same_build scope of).veiled fun _ => rfl
  | .change f of => (same_build scope of).map fun _ _ => Parser.plain_map _
  | .seq of => (same_buildAll scope of).map fun _ _ h => Parser.plain_map _ (Parser.plain_group _ h)
  | .tuple of => (same_buildAll scope of).map fun _ _ => Parser.plain_group _
  | .choice of => (same_buildAll scope of).map fun _ _ h => by
    rw [Parser.plain, Parser.plain, Parser.plainAll_eq, Parser.plainAll_eq, h]
  | .pair how of other =>
    (same_build scope of).bind fun _ _ hp => (same_build scope other).map fun _ _ hq =>
      Parser.plain_pair how hp hq
  | .optional of => (same_build scope of).map fun _ _ h => by rw [Parser.plain, Parser.plain, h]
  | .many style of => (same_build scope of).map fun _ _ => Parser.plain_many style
  | .peek of => (same_build scope of).map fun _ _ h => by rw [Parser.plain, Parser.plain, h]
  | .not of => (same_build scope of).map fun _ _ h => by rw [Parser.plain, Parser.plain, h]
  | .bind noted of continuation =>
    (same_buildAll scope of).bind fun _ _ hps => (same_buildContinuation scope continuation).map
      fun k k' hk => by
        rw [Parser.plain, Parser.plain, Parser.plainAll_eq, Parser.plainAll_eq, hps]
        exact congrArg (Parser.bind noted _) hk
  | .observed tag of => (same_build scope of).veiled fun _ => rfl
  | .traced of => (same_build scope of).veiled fun _ => rfl
  | .recursive name fate body => by
    rw [plain, build, build]
    refine same_declare.bind fun id _ hid => ?_
    obtain rfl : id = _ := hid
    refine (same_build _ body).bind fun p p' hp => ?_
    cases fate with
    | defined => exact (same_define id hp).bind fun _ _ _ => .pure rfl
    | undefined => exact .pure hp
    | givenUp => exact .pure rfl
  | .call name => by
    change Same names _ (build scope (.call name)) (build scope (.call name))
    rw [build]
    split
    · exact .pure rfl
    · exact same_throw _

theorem same_buildAll (scope : Scope) : (ds : List (Description α)) →
    Same names (List.map (Parser.plain names)) (buildAll scope ds) (buildAll scope (plainAll names ds))
  | [] => .pure rfl
  | d :: ds =>
    (same_build scope d).bind fun _ _ hq => (same_buildAll scope ds).map fun _ _ hqs => by
      rw [List.map_cons, List.map_cons, hq, hqs]

theorem same_buildCases (scope : Scope) : (cases : List (α × Description α)) →
    Same names (List.map (Prod.map id (Parser.plain names))) (buildCases scope cases)
      (buildCases scope (plainCases names cases))
  | [] => .pure rfl
  | (t, d) :: cases =>
    (same_build scope d).bind fun _ _ hq => (same_buildCases scope cases).map fun _ _ hqs => by
      rw [List.map_cons, List.map_cons, hqs, Prod.map_apply, Prod.map_apply, hq]

theorem same_buildContinuation (scope : Scope) : (k : Continuation α) →
    Same names (fun k values => (k values).plain names) (buildContinuation scope k)
      (buildContinuation scope (plainContinuation names k))
  | .firstToken .. => .pure rfl
  | .tokens _ => .pure rfl
  | .repeated _ of =>
    (same_build scope of).map fun _ _ h => funext fun _ => Parser.plain_many _ h
  | .values => .pure rfl
  | .always of => (same_build scope of).map fun _ _ h => funext fun _ => h
  | .switch index cases otherwise =>
    (same_buildCases scope cases).bind fun _ _ hc => (same_build scope otherwise).map fun _ _ hp =>
      funext fun values => Parser.plain_chosenBy index hc hp values

end

end Description

end LazyPeg
