import LazyPeg.Description.Build
import LazyPeg.Proofs.Medium.Mirror

/-!
# Building in media that mirror each other

Building a description opens the sequences that it jumps to, in order (`Description.feeds`), and numbers
and defines rules.  In two media that mirror each other it comes to the same parser or the same fault,
and the parser knows only names that are known in both (`Description.mirrors_build`).  Nothing that was
there changes (`Workshop.Grows`).
-/
namespace LazyPeg

/-! ## 1. Workshops -/

namespace Workshop

variable {α σ σ' π π' : Type} [Medium α σ π] [Medium α σ' π'] {M : Medium.Mirror α σ σ' π π'}
  {feeds : List (Feed α)} {held : Multiset (π × π')} {w v u : Workshop α σ} {w' v' : Workshop α σ'}

/-- The second workshop has the rules of the first one, and perhaps more. -/
structure Grows (w v : Workshop α σ) : Prop where
  size_le : w.grammar.size ≤ v.grammar.size
  kept : ∀ id < w.grammar.size, v.grammar[id]? = w.grammar[id]?

omit [Medium α σ π] in
theorem Grows.refl (w : Workshop α σ) : w.Grows w := ⟨Nat.le_refl _, fun _ _ => rfl⟩

omit [Medium α σ π] in
theorem Grows.trans (h : w.Grows v) (h' : v.Grows u) : w.Grows u where
  size_le := Nat.le_trans h.size_le h'.size_le
  kept id hid := (h'.kept id (Nat.lt_of_lt_of_le hid h.size_le)).trans (h.kept id hid)

/-- Two workshops have the same rules, and their media mirror each other. -/
structure Mirrors (M : Medium.Mirror α σ σ' π π') (feeds : List (Feed α)) (held : Multiset (π × π'))
    (w : Workshop α σ) (w' : Workshop α σ') : Prop where
  states : M.States feeds held w.store w'.store
  grammar : w.grammar = w'.grammar
  founded : Parser.FoundedRules (M.Names w.store w'.store) w.grammar

omit [Medium α σ π] in
/-- A rule is declared by a number that no other rule has. -/
theorem Grows.declare (w : Workshop α σ) : w.Grows ⟨w.store, w.grammar.push none⟩ where
  size_le := by simp
  kept id hid := Array.getElem?_push_lt hid ▸ (Array.getElem?_eq_getElem hid).symm

omit [Medium α σ π] in
/-- To define a rule that was declared later changes no rule that was there. -/
theorem Grows.define (h : w.Grows v) (p : Parser α) :
    w.Grows ⟨v.store, v.grammar.setIfInBounds w.grammar.size (some p)⟩ where
  size_le := by simpa using h.size_le
  kept id hid := by
    rw [← h.kept id hid]
    exact Array.getElem?_setIfInBounds_ne (Nat.ne_of_gt hid)

theorem Mirrors.declare (h : Mirrors M feeds held w w') :
    Mirrors M feeds held ⟨w.store, w.grammar.push none⟩ ⟨w'.store, w'.grammar.push none⟩ where
  states := h.states
  grammar := congrArg (Array.push · none) h.grammar
  founded id b hb := by
    rw [Array.getElem?_push] at hb
    split at hb
    · exact absurd hb (by simp)
    · exact h.founded id b hb

theorem Mirrors.define (h : Mirrors M feeds held w w') (id : RuleId) {p : Parser α}
    (hp : p.Founded (M.Names w.store w'.store)) :
    Mirrors M feeds held ⟨w.store, w.grammar.setIfInBounds id (some p)⟩
      ⟨w'.store, w'.grammar.setIfInBounds id (some p)⟩ where
  states := h.states
  grammar := congrArg (Array.setIfInBounds · id (some p)) h.grammar
  founded other b hb := by
    rw [Array.getElem?_setIfInBounds] at hb
    split at hb
    · split at hb
      · obtain rfl := Option.some.inj hb
        exact hp
      · exact absurd hb (by simp)
    · exact h.founded other b hb

end Workshop

/-! ## 2. Steps of building -/

namespace Building

variable {α σ σ' π π' : Type} [Medium α σ π] [Medium α σ' π'] {M : Medium.Mirror α σ σ' π π'}
  {before feeds feeds' : List (Feed α)} {held : Multiset (π × π')} {w : Workshop α σ}
  {w' : Workshop α σ'} {β γ : Type}

/-- Two steps of building are refused for the same fault, or they build the same and open sequences on
these feeds.  What they build is good with the names that are known then. -/
def Mirrors (M : Medium.Mirror α σ σ' π π') (before : List (Feed α)) (held : Multiset (π × π'))
    (feeds : List (Feed α)) (good : (Position → Prop) → β → Prop) (w : Workshop α σ) (w' : Workshop α σ')
    (m : BuildingIn α σ β) (m' : BuildingIn α σ' β) : Prop :=
  (∃ why, m.run w = .error why ∧ m'.run w' = .error why) ∨
    ∃ b v v', m.run w = .ok (b, v) ∧ m'.run w' = .ok (b, v') ∧
      Workshop.Mirrors M (before ++ feeds) held v v' ∧ M.Onward w.store w'.store v.store v'.store ∧
      w.Grows v ∧ good (M.Names v.store v'.store) b

variable {good : (Position → Prop) → β → Prop} {good' : (Position → Prop) → γ → Prop}

theorem Mirrors.pure (hw : Workshop.Mirrors M before held w w') {b : β}
    (hb : good (M.Names w.store w'.store) b) :
    Mirrors M before held [] good w w' (pure b) (pure b) :=
  .inr ⟨b, w, w', rfl, rfl, (List.append_nil before).symm ▸ hw, .refl _ _ _, .refl w, hb⟩

theorem mirrors_throw (why : BuildError) :
    Mirrors M before held feeds good w w' (throw why) (throw why) :=
  .inl ⟨why, rfl, rfl⟩

/-- The second steps start in the workshops that the first ones have left. -/
theorem Mirrors.bind {m : BuildingIn α σ β} {m' : BuildingIn α σ' β} {f : β → BuildingIn α σ γ}
    {f' : β → BuildingIn α σ' γ} (h : Mirrors M before held feeds good w w' m m')
    (hf : ∀ b v v', Workshop.Mirrors M (before ++ feeds) held v v' →
      M.Onward w.store w'.store v.store v'.store → good (M.Names v.store v'.store) b →
      Mirrors M (before ++ feeds) held feeds' good' v v' (f b) (f' b)) :
    Mirrors M before held (feeds ++ feeds') good' w w' (m >>= f) (m' >>= f') := by
  obtain ⟨why, refused, refused'⟩ | ⟨b, v, v', built, built', both, on, grows, hb⟩ := h
  · refine .inl ⟨why, ?_, ?_⟩
    · rw [StateT.run_bind, refused]
      rfl
    · rw [StateT.run_bind, refused']
      rfl
  · obtain ⟨why, refused, refused'⟩ | ⟨c, u, u', built₁, built₁', both₁, on₁, grows₁, hc⟩ :=
      hf b v v' both on hb
    · refine .inl ⟨why, ?_, ?_⟩
      · rw [run_bind_of_ok built, refused]
      · rw [run_bind_of_ok built', refused']
    · refine .inr ⟨c, u, u', ?_, ?_, (List.append_assoc ..) ▸ both₁, on.trans on₁, grows.trans grows₁, hc⟩
      · rw [run_bind_of_ok built, built₁]
      · rw [run_bind_of_ok built', built₁']

/-- What was built may be changed afterwards.  Names that were known before are known still. -/
theorem Mirrors.map {m : BuildingIn α σ β} {m' : BuildingIn α σ' β} (f : β → γ)
    (h : Mirrors M before held feeds good w w' m m')
    (hf : ∀ {known : Position → Prop}, (∀ {name}, M.Names w.store w'.store name → known name) →
      ∀ b, good known b → good' known (f b)) :
    Mirrors M before held feeds good' w w' (m >>= fun b => Pure.pure (f b))
      (m' >>= fun b => Pure.pure (f b)) := by
  have mapped : Mirrors M before held (feeds ++ []) good' w w' (m >>= fun b => Pure.pure (f b))
      (m' >>= fun b => Pure.pure (f b)) :=
    h.bind fun b v v' both on hb => .pure both (hf on.names b hb)
  rwa [List.append_nil] at mapped

/-- A sequence is opened by a name that is known from then on. -/
theorem mirrors_start (hw : Workshop.Mirrors M before held w w') (input : Input α) :
    Mirrors M before held input.feeds (fun known name => known name) w w' (start input)
      (start input) := by
  obtain ⟨states, on, same, known⟩ := M.startNamed hw.states input
  refine .inr ⟨(Medium.startNamed w.store input).1, ⟨_, w.grammar⟩, ⟨_, w'.grammar⟩, rfl, ?_,
    ⟨states, hw.grammar, hw.founded.mono on.names⟩, on, ⟨Nat.le_refl _, fun _ _ => rfl⟩, known⟩
  rw [same]
  rfl

/-- A rule is numbered before its body is built and defined afterwards; what comes of it in between
only adds to the workshop. -/
theorem mirrors_recursive (hw : Workshop.Mirrors M before held w w') (name : String) (fate : Fate)
    {body : RuleId → BuildingIn α σ (Parser α)} {body' : RuleId → BuildingIn α σ' (Parser α)}
    (hbody : ∀ v v', Workshop.Mirrors M before held v v' →
      Mirrors M before held feeds (fun known q => q.Founded known) v v' (body w.grammar.size)
        (body' w.grammar.size)) :
    Mirrors M before held feeds (fun known q => q.Founded known) w w'
      (do
        let id ← declare
        let p ← body id
        match fate with
        | .defined =>
          define id p
          return .rule id name
        | .undefined => return p
        | .givenUp => return .rule id name)
      (do
        let id ← declare
        let p ← body' id
        match fate with
        | .defined =>
          define id p
          return .rule id name
        | .undefined => return p
        | .givenUp => return .rule id name) := by
  have left : (declare : BuildingIn α σ RuleId).run w =
      .ok (w.grammar.size, ⟨w.store, w.grammar.push none⟩) := rfl
  have right : (declare : BuildingIn α σ' RuleId).run w' =
      .ok (w.grammar.size, ⟨w'.store, w'.grammar.push none⟩) := by
    rw [hw.grammar]
    rfl
  unfold Mirrors
  rw [run_bind_of_ok left, run_bind_of_ok right]
  obtain ⟨why, refused, refused'⟩ | ⟨p, v, v', built, built', both, on, grows, hp⟩ := hbody _ _ hw.declare
  · refine .inl ⟨why, ?_, ?_⟩
    · rw [StateT.run_bind, refused]
      rfl
    · rw [StateT.run_bind, refused']
      rfl
  rw [run_bind_of_ok built, run_bind_of_ok built']
  have whole := (Workshop.Grows.declare w).trans grows
  cases fate with
  | undefined => exact .inr ⟨_, _, _, rfl, rfl, both, on, whole, hp⟩
  | givenUp => exact .inr ⟨_, _, _, rfl, rfl, both, on, whole, trivial⟩
  | defined => exact .inr ⟨_, _, _, rfl, rfl, both.define _ hp, on, whole.define p, trivial⟩

end Building

/-! ## 3. Continuations -/

namespace Parser

variable {α : Type} [Token α] [DecidableEq α] {known : Position → Prop} {p q : Parser α}

omit [DecidableEq α] in
theorem founded_sepBy1 (hp : p.Founded known) (hq : q.Founded known) : (sepBy1 p q).Founded known :=
  ⟨hp, ⟨hq, hp, trivial⟩, trivial⟩

omit [DecidableEq α] in
theorem founded_pair (how : Pairing) (hp : p.Founded known) (hq : q.Founded known) :
    (pair how p q).Founded known := by
  cases how with
  | sepBy0 => exact founded_sepBy1 hp hq
  | sepBy1 => exact founded_sepBy1 hp hq
  | preceded => exact ⟨hq, hp, trivial⟩
  | _ => exact ⟨hp, hq, trivial⟩

theorem founded_sameToken (negated : Bool) (index : Nat) (values : List (Value α)) :
    (sameToken negated index values).Founded known := by
  unfold sameToken
  split
  · split <;> trivial
  · trivial

omit [Token α] in
theorem founded_chosenBy {cases : List (α × Parser α)} (hc : ∀ x ∈ cases, x.2.Founded known)
    (hp : p.Founded known) (index : Nat) (values : List (Value α)) :
    (chosenBy index cases p values).Founded known := by
  unfold chosenBy
  cases hq : (tokenOf? index values).bind fun t => cases.lookup t with
  | none => exact hp
  | some q =>
    obtain ⟨t, -, ht⟩ := Option.bind_eq_some_iff.1 hq
    obtain ⟨before, after, rfl, -⟩ := List.lookup_eq_some_iff.1 ht
    exact hc (t, q) (List.mem_append_right _ List.mem_cons_self)

end Parser

/-! ## 4. Descriptions -/

namespace Description

mutual

/-- The feeds of the sequences that a description jumps to, in the order in which they are opened. -/
def feeds {α : Type} : Description α → List (Feed α)
  | jump _ (some input) _ _ => input.feeds
  | constant _ of => of.feeds
  | named _ of => of.feeds
  | boxed of => of.feeds
  | change _ of => of.feeds
  | seq of => feedsAll of
  | tuple of => feedsAll of
  | choice of => feedsAll of
  | pair _ of other => of.feeds ++ other.feeds
  | optional of => of.feeds
  | many _ of => of.feeds
  | peek of => of.feeds
  | not of => of.feeds
  | bind _ of continuation => feedsAll of ++ feedsThen continuation
  | observed _ of => of.feeds
  | traced of => of.feeds
  | recursive _ _ body => body.feeds
  | _ => []

/-- The feeds of several descriptions. -/
def feedsAll {α : Type} : List (Description α) → List (Feed α)
  | [] => []
  | d :: ds => d.feeds ++ feedsAll ds

/-- The feeds of the cases of a switch. -/
def feedsCases {α : Type} : List (α × Description α) → List (Feed α)
  | [] => []
  | (_, d) :: cases => d.feeds ++ feedsCases cases

/-- The feeds of what a continuation gives. -/
def feedsThen {α : Type} : Continuation α → List (Feed α)
  | .repeated _ of => of.feeds
  | .always of => of.feeds
  | .switch _ cases otherwise => feedsCases cases ++ otherwise.feeds
  | _ => []

end

variable {α σ σ' π π' : Type} [Token α] [DecidableEq α] [Medium α σ π] [Medium α σ' π']
  {M : Medium.Mirror α σ σ' π π'} {held : Multiset (π × π')}

omit [DecidableEq α] in
theorem mirrors_buildPattern {before : List (Feed α)} {w : Workshop α σ} {w' : Workshop α σ'}
    (hw : Workshop.Mirrors M before held w w') (engine : Pattern.Engine) (text : String) :
    Building.Mirrors M before held [] (fun known q => q.Founded known) w w' (buildPattern engine text)
      (buildPattern engine text) := by
  unfold buildPattern
  split
  · exact Building.mirrors_throw _
  · unfold Parser.matching
    cases engine.compile text with
    | error rejection => exact Building.mirrors_throw _
    | ok found => exact .pure hw trivial

mutual

/-- **Building a description comes to the same in both media**, and the parser that is built is founded. -/
theorem mirrors_build (scope : Scope) {before : List (Feed α)} {w : Workshop α σ} {w' : Workshop α σ'}
    (hw : Workshop.Mirrors M before held w w') :
    (d : Description α) → Building.Mirrors M before held d.feeds (fun known q => q.Founded known) w w'
      (d.build scope) (d.build scope)
  | .any => .pure hw trivial
  | .endOfInput => .pure hw trivial
  | .offset => .pure hw trivial
  | .eq _ => .pure hw trivial
  | .neq _ => .pure hw trivial
  | .oneOf _ => .pure hw trivial
  | .between .. => .pure hw trivial
  | .token _ => .pure hw trivial
  | .pattern engine text => mirrors_buildPattern hw engine text
  | .expected _ => .pure hw trivial
  | .result _ => .pure hw trivial
  | .jump name none count verdict => .pure hw fun p hp => absurd hp (by simp)
  | .jump name (some input) count verdict =>
    (Building.mirrors_start hw input).map _ fun _ name hname p hp => Option.mem_some.1 hp ▸ hname
  | .constant _ of => (mirrors_build scope hw of).map _ fun _ _ h => h
  | .named _ of => (mirrors_build scope hw of).map _ fun _ _ h => h
  | .boxed of => (mirrors_build scope hw of).map _ fun _ _ h => h
  | .change _ of => (mirrors_build scope hw of).map _ fun _ _ h => h
  | .seq of => (mirrors_buildAll scope hw of).map _ fun _ _ h => h
  | .tuple of => (mirrors_buildAll scope hw of).map _ fun _ _ h => h
  | .choice of => (mirrors_buildAll scope hw of).map _ fun _ _ h => h
  | .pair how of other =>
    (mirrors_build scope hw of).bind fun _ _ _ hv _ hp =>
      (mirrors_build scope hv other).map _ fun on _ hq => Parser.founded_pair how (hp.mono on) hq
  | .optional of => (mirrors_build scope hw of).map _ fun _ _ h => h
  | .many _ of => (mirrors_build scope hw of).map _ fun _ _ h => h
  | .peek of => (mirrors_build scope hw of).map _ fun _ _ h => h
  | .not of => (mirrors_build scope hw of).map _ fun _ _ h => h
  | .bind noted of continuation =>
    (mirrors_buildAll scope hw of).bind fun _ _ _ hv _ hps =>
      (mirrors_buildThen scope hv continuation).map _ fun on _ hk =>
        ⟨Parser.foundedAll_iff.2 fun q hq => (Parser.foundedAll_iff.1 hps q hq).mono on, hk⟩
  | .observed _ of => (mirrors_build scope hw of).map _ fun _ _ h => h
  | .traced of => (mirrors_build scope hw of).map _ fun _ _ h => h
  | .recursive name fate body =>
    Building.mirrors_recursive hw name fate fun _ _ hv => mirrors_build _ hv body
  | .call name => by
    change Building.Mirrors M before held [] _ w w' _ _
    rw [build, build]
    cases scope.lookup name with
    | some id => exact .pure hw trivial
    | none => exact Building.mirrors_throw _

/-- So does building several. -/
theorem mirrors_buildAll (scope : Scope) {before : List (Feed α)} {w : Workshop α σ} {w' : Workshop α σ'}
    (hw : Workshop.Mirrors M before held w w') :
    (ds : List (Description α)) →
      Building.Mirrors M before held (feedsAll ds) (fun known qs => Parser.FoundedAll known qs) w w'
        (buildAll scope ds) (buildAll scope ds)
  | [] => .pure hw trivial
  | d :: ds =>
    (mirrors_build scope hw d).bind fun _ _ _ hv _ hp =>
      (mirrors_buildAll scope hv ds).map _ fun on _ hps => ⟨hp.mono on, hps⟩

/-- So does building the cases of a switch. -/
theorem mirrors_buildCases (scope : Scope) {before : List (Feed α)} {w : Workshop α σ}
    {w' : Workshop α σ'} (hw : Workshop.Mirrors M before held w w') :
    (cases : List (α × Description α)) →
      Building.Mirrors M before held (feedsCases cases) (fun known cases => ∀ x ∈ cases, x.2.Founded known)
        w w' (buildCases scope cases) (buildCases scope cases)
  | [] => .pure hw fun _ hx => absurd hx List.not_mem_nil
  | (_, d) :: cases =>
    (mirrors_build scope hw d).bind fun _ _ _ hv _ hp =>
      (mirrors_buildCases scope hv cases).map _ fun on _ hps =>
        List.forall_mem_cons.2 ⟨hp.mono on, hps⟩

/-- So does building a continuation. -/
theorem mirrors_buildThen (scope : Scope) {before : List (Feed α)} {w : Workshop α σ}
    {w' : Workshop α σ'} (hw : Workshop.Mirrors M before held w w') :
    (k : Continuation α) →
      Building.Mirrors M before held (feedsThen k) (fun known k => ∀ values, (k values).Founded known) w w'
        (buildContinuation scope k) (buildContinuation scope k)
  | .firstToken negated index => .pure hw (Parser.founded_sameToken negated index)
  | .tokens _ => .pure hw fun _ => trivial
  | .repeated _ of => (mirrors_build scope hw of).map _ fun _ _ h _ => h
  | .values => .pure hw fun _ => trivial
  | .always of => (mirrors_build scope hw of).map _ fun _ _ h _ => h
  | .switch index cases otherwise =>
    (mirrors_buildCases scope hw cases).bind fun _ _ _ hv _ hqs =>
      (mirrors_build scope hv otherwise).map _ fun on _ hp =>
        Parser.founded_chosenBy (fun x hx => (hqs x hx).mono on) hp index

end

end Description

end LazyPeg
