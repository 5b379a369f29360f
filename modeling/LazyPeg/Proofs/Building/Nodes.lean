import LazyPeg.Description.Build
import LazyPeg.Proofs.Reading.Nodes

/-!
# What parsers are made of

A description says which kinds of parsers it is made of (`Description.nodes`), and building adds none to
them: **the parser that is built, and the bodies of all its rules, consist of these kinds and of calls**
(`Description.makes_build`).  Each call is of a rule that is defined, unless the description misuses that
rule.

* §1 lists what descriptions are made of.
* §2 is about single steps of building, and §3 is the induction over the descriptions.
-/
namespace LazyPeg

/-! ## 1. Descriptions -/

namespace Description

variable {α : Type}

mutual

/-- A description and all descriptions in it. -/
def within : Description α → List (Description α)
  | constant l of => constant l of :: of.within
  | named name of => named name of :: of.within
  | boxed of => boxed of :: of.within
  | change f of => change f of :: of.within
  | seq of => seq of :: allWithin of
  | tuple of => tuple of :: allWithin of
  | choice of => choice of :: allWithin of
  | pair how of other => pair how of other :: (of.within ++ other.within)
  | optional of => optional of :: of.within
  | many style of => many style of :: of.within
  | peek of => peek of :: of.within
  | not of => not of :: of.within
  | bind noted of continuation =>
    bind noted of continuation :: (allWithin of ++ continuationWithin continuation)
  | observed tag of => observed tag of :: of.within
  | traced of => traced of :: of.within
  | recursive name fate body => recursive name fate body :: body.within
  | d => [d]

/-- Several descriptions and all descriptions in them. -/
def allWithin : List (Description α) → List (Description α)
  | [] => []
  | d :: ds => d.within ++ allWithin ds

/-- The descriptions in the cases of a switch. -/
def casesWithin : List (α × Description α) → List (Description α)
  | [] => []
  | (_, d) :: cases => d.within ++ casesWithin cases

/-- The descriptions in a continuation. -/
def continuationWithin : Continuation α → List (Description α)
  | .repeated _ of => of.within
  | .always of => of.within
  | .switch _ cases otherwise => casesWithin cases ++ otherwise.within
  | _ => []

end

/-- The kinds of parsers that pairs are made of. -/
def pairNodes : Pairing → List Parser.Node
  | .andThen => [.map, .group]
  | .and => [.group]
  | .preceded => [.map, .group]
  | .terminated => [.map, .group]
  | .or => [.choice]
  | .sepBy0 => [.named, .map, .group, .many, .optional]
  | .sepBy1 => [.named, .map, .group, .many]

/-- The kinds of parsers that a continuation is made of, other descriptions apart. -/
def continuationNodes : Continuation α → List Parser.Node
  | .firstToken .. => [.satisfy, .expected]
  | .tokens _ => [.token]
  | .repeated .. => [.many]
  | .values => [.result]
  | .always _ => []
  | .switch .. => []

/-- The kinds of parsers that a description is made of, the descriptions in it apart. -/
def topNodes : Description α → List Parser.Node
  | any => [.satisfy]
  | endOfInput => [.endOfInput]
  | offset => [.offset]
  | eq _ => [.satisfy]
  | neq _ => [.satisfy]
  | oneOf _ => [.satisfy]
  | between .. => [.satisfy]
  | token _ => [.token]
  | pattern .. => [.satisfy]
  | expected _ => [.expected]
  | result _ => [.result]
  | jump .. => [.jump]
  | constant .. => [.map]
  | named .. => [.named]
  | boxed _ => []
  | change .. => [.map]
  | seq _ => [.map, .group]
  | tuple _ => [.group]
  | choice _ => [.choice]
  | pair how _ _ => pairNodes how
  | optional _ => [.optional]
  | many .. => [.many]
  | peek _ => [.peek]
  | not _ => [.not]
  | bind _ _ continuation => .bind :: continuationNodes continuation
  | observed .. => [.observed]
  | traced _ => [.traced]
  | recursive .. => []
  | call _ => []

/-- The kinds of parsers that a description is made of, calls of rules apart. -/
def nodes (d : Description α) : List Parser.Node := d.within.flatMap topNodes

/-- The name of a rule that is not defined where it may be called. -/
def misuse? : Description α → Option String
  | recursive _ .defined _ => none
  | recursive name _ _ => some name
  | _ => none

/-- The names of the rules that are never defined, or are given up. -/
def misused (d : Description α) : List String := d.within.filterMap misuse?

end Description

/-! ## 2. Steps of building -/

namespace Building

variable {α β γ : Type} {w w' : Workshop α} {scope : Description.Scope} {kinds : List Parser.Node}
  {misused : List String}

/-- The rule with a number has a body. -/
def Defined (w : Workshop α) (id : RuleId) : Prop := (w.grammar[id]?).join ≠ none

/-- A parser is of one of these kinds, or it calls a rule that is around it, that is defined, or that is
misused. -/
def Fits (scope : Description.Scope) (kinds : List Parser.Node) (misused : List String)
    (w : Workshop α) : Parser.Node → Prop
  | .rule id name => (name, id) ∈ scope ∨ Defined w id ∨ name ∈ misused
  | n => n ∈ kinds

/-- The bodies of all rules fit. -/
def BodiesFit (scope : Description.Scope) (kinds : List Parser.Node) (misused : List String)
    (w : Workshop α) : Prop :=
  ∀ (id : RuleId) (body : Parser α), (w.grammar[id]?).join = some body →
    body.All (Fits scope kinds misused w)

/-- No rule is lost, and none becomes undefined. -/
structure Gains (w w' : Workshop α) : Prop where
  size_le : w.grammar.size ≤ w'.grammar.size
  defined : ∀ id, Defined w id → Defined w' id

theorem Gains.refl (w : Workshop α) : Gains w w := ⟨Nat.le_refl _, fun _ h => h⟩

theorem Gains.trans {w'' : Workshop α} (h : Gains w w') (h' : Gains w' w'') : Gains w w'' :=
  ⟨Nat.le_trans h.size_le h'.size_le, fun id hid => h'.defined id (h.defined id hid)⟩

theorem fits_of_mem {n : Parser.Node} (h : n ∈ kinds) (hn : ∀ id name, n ≠ .rule id name) :
    Fits scope kinds misused w n := by
  cases n with
  | rule id name => exact absurd rfl (hn id name)
  | _ => exact h

/-- What fits still does when rules were gained, and around which more rules stand. -/
theorem Fits.mono {scope' : Description.Scope} (gains : Gains w w') (hs : scope ⊆ scope')
    {n : Parser.Node} (h : Fits scope kinds misused w n) : Fits scope' kinds misused w' n := by
  cases n with
  | rule id name => exact h.imp (fun h => hs h) (Or.imp_left (gains.defined id))
  | _ => exact h

/-- A step of building, where it succeeds, keeps the bodies of the rules fitting, and what it builds is
good for what fits afterwards. -/
def Makes (scope : Description.Scope) (kinds : List Parser.Node) (misused : List String) (w : Workshop α)
    (good : (Parser.Node → Prop) → β → Prop) (m : Building α β) : Prop :=
  ∀ b w', m.run w = .ok (b, w') →
    Gains w w' ∧ BodiesFit scope kinds misused w' ∧ good (Fits scope kinds misused w') b

variable {good : (Parser.Node → Prop) → β → Prop} {good' : (Parser.Node → Prop) → γ → Prop}

theorem Makes.pure (hw : BodiesFit scope kinds misused w) {b : β}
    (hb : good (Fits scope kinds misused w) b) :
    Makes scope kinds misused w good (pure b : Building α β) := by
  intro b' w' h
  obtain ⟨rfl, rfl⟩ := Prod.mk.inj (Except.ok.inj h)
  exact ⟨.refl w, hw, hb⟩

theorem makes_throw (why : BuildError) :
    Makes scope kinds misused w good (throw why : Building α β) :=
  fun b w' h => absurd (show Except.error why = Except.ok (b, w') from h) (by simp)

theorem Makes.bind {m : Building α β} {f : β → Building α γ} (h : Makes scope kinds misused w good m)
    (hf : ∀ b w', Gains w w' → BodiesFit scope kinds misused w' → good (Fits scope kinds misused w') b →
      Makes scope kinds misused w' good' (f b)) :
    Makes scope kinds misused w good' (m >>= f) := by
  intro c w'' hc
  obtain ⟨b, w', hb, hc⟩ := run_bind_ok hc
  obtain ⟨gains, fit, hgood⟩ := h b w' hb
  obtain ⟨gains', fit', hgood'⟩ := hf b w' gains fit hgood c w'' hc
  exact ⟨gains.trans gains', fit', hgood'⟩

theorem Makes.map {m : Building α β} {f : β → γ} (h : Makes scope kinds misused w good m)
    (hf : ∀ (w' : Workshop α) b, good (Fits scope kinds misused w') b → good' (Fits scope kinds misused w') (f b)) :
    Makes scope kinds misused w good' (m >>= fun b => Pure.pure (f b)) :=
  h.bind fun _ _ _ fit hb => .pure fit (hf _ _ hb)

theorem BodiesFit.mono {scope' : Description.Scope} (h : BodiesFit scope kinds misused w)
    (hs : scope ⊆ scope') : BodiesFit scope' kinds misused w :=
  fun id body hbody => (h id body hbody).mono fun _ hn => hn.mono (.refl w) hs

/-- A sequence is opened without looking at the rules. -/
theorem makes_start (hw : BodiesFit scope kinds misused w) (input : Input α) :
    Makes scope kinds misused w (fun _ _ => True) (start input) := by
  intro p w' h
  obtain ⟨rfl, rfl⟩ := Prod.mk.inj (Except.ok.inj h)
  exact ⟨⟨Nat.le_refl _, fun _ h => h⟩, hw, trivial⟩

/-- A new rule has no body. -/
theorem BodiesFit.declare (h : BodiesFit scope kinds misused w) :
    Gains w ⟨w.store, w.grammar.push none⟩ ∧
      BodiesFit scope kinds misused ⟨w.store, w.grammar.push none⟩ := by
  have same (id : RuleId) : ((w.grammar.push none)[id]?).join = (w.grammar[id]?).join := by
    rw [Array.getElem?_push]
    split
    next last => simp [last]
    next => rfl
  have gains : Gains w ⟨w.store, w.grammar.push none⟩ :=
    ⟨by simp, fun id hid => by unfold Defined; rwa [same]⟩
  refine ⟨gains, fun id body hbody => ?_⟩
  rw [same] at hbody
  exact (h id body hbody).mono fun _ hn => hn.mono gains (List.Subset.refl _)

/-- A rule gets its body, which may call the rule itself. -/
theorem BodiesFit.define {name : String} {id : RuleId}
    (h : BodiesFit ((name, id) :: scope) kinds misused w) (hid : id < w.grammar.size) {p : Parser α}
    (hp : p.All (Fits ((name, id) :: scope) kinds misused w)) :
    let defined : Workshop α := ⟨w.store, w.grammar.setIfInBounds id (some p)⟩
    Gains w defined ∧ BodiesFit scope kinds misused defined ∧ Defined defined id := by
  intro defined
  have body (id' : RuleId) : (defined.grammar[id']?).join =
      if id = id' then some p else (w.grammar[id']?).join := by
    simp only [defined, Array.getElem?_setIfInBounds]
    split <;> rfl
  have gains : Gains w defined := by
    refine ⟨by simp [defined], fun id' hid' => ?_⟩
    unfold Defined
    rw [body]
    split
    · exact nofun
    · exact hid'
  have here : Defined defined id := by
    unfold Defined
    rw [body, if_pos rfl]
    exact nofun
  have closes (n : Parser.Node) (hn : Fits ((name, id) :: scope) kinds misused w n) :
      Fits scope kinds misused defined n := by
    cases n with
    | rule id' name' =>
      rcases hn with around | hdef | bad
      · rcases List.mem_cons.1 around with own | around
        · obtain ⟨rfl, rfl⟩ := Prod.mk.inj own
          exact .inr (.inl here)
        · exact .inl around
      · exact .inr (.inl (gains.defined id' hdef))
      · exact .inr (.inr bad)
    | _ => exact hn
  refine ⟨gains, fun id' b hb => ?_, here⟩
  rw [body] at hb
  split at hb
  · obtain rfl := Option.some.inj hb
    exact hp.mono closes
  · exact (h id' b hb).mono closes

/-- A rule that is misused may be called from anywhere. -/
theorem Fits.of_misused {name : String} {id : RuleId} (bad : name ∈ misused) {n : Parser.Node}
    (h : Fits ((name, id) :: scope) kinds misused w n) : Fits scope kinds misused w n := by
  cases n with
  | rule id' name' =>
    refine h.elim (fun around => ?_) .inr
    rcases List.mem_cons.1 around with own | around
    · obtain ⟨rfl, rfl⟩ := Prod.mk.inj own
      exact .inr (.inr bad)
    · exact .inl around
  | _ => exact h

/-- A rule stands around its body, and afterwards it is defined or misused. -/
theorem makes_recursive (hw : BodiesFit scope kinds misused w) (name : String) (fate : Fate)
    (hfate : fate ≠ .defined → name ∈ misused) {body : RuleId → Building α (Parser α)}
    (hbody : ∀ w', BodiesFit ((name, w.grammar.size) :: scope) kinds misused w' →
      Makes ((name, w.grammar.size) :: scope) kinds misused w' (fun ok q => q.All ok)
        (body w.grammar.size)) :
    Makes scope kinds misused w (fun ok q => q.All ok) (do
      let id ← declare
      let p ← body id
      match fate with
      | .defined =>
        define id p
        return .rule id name
      | .undefined => return p
      | .givenUp => return .rule id name) := by
  intro q w'' h
  obtain ⟨id, w₁, hid, h⟩ := run_bind_ok h
  obtain ⟨rfl, rfl⟩ := Prod.mk.inj (Except.ok.inj hid)
  obtain ⟨p, w₂, hp, h⟩ := run_bind_ok h
  obtain ⟨declared, fit⟩ := hw.declare
  obtain ⟨gains, fit, hp⟩ := hbody _ (fit.mono (List.subset_cons_self _ _)) p w₂ hp
  have whole := declared.trans gains
  -- the rules that are misused need not be around the parser to be called
  have leave (bad : name ∈ misused) : BodiesFit scope kinds misused w₂ :=
    fun id' b hb => (fit id' b hb).mono fun _ hn => hn.of_misused bad
  cases fate with
  | undefined =>
    obtain ⟨rfl, rfl⟩ := Prod.mk.inj (Except.ok.inj h)
    exact ⟨whole, leave (hfate nofun), hp.mono fun _ hn => hn.of_misused (hfate nofun)⟩
  | givenUp =>
    obtain ⟨rfl, rfl⟩ := Prod.mk.inj (Except.ok.inj h)
    exact ⟨whole, leave (hfate nofun), .inr (.inr (hfate nofun))⟩
  | defined =>
    obtain ⟨rfl, rfl⟩ := Prod.mk.inj (Except.ok.inj h)
    have inside : w.grammar.size + 1 ≤ w₂.grammar.size := by simpa using gains.size_le
    obtain ⟨gains', fit', here⟩ := fit.define inside hp
    exact ⟨whole.trans gains', fit', .inr (.inl here)⟩

end Building

/-! ## 3. Built parsers -/

namespace Description

variable {α : Type} [Token α] [DecidableEq α] {kinds : List Parser.Node} {misused : List String}

/-- A description is made of these kinds and misuses only these rules, the descriptions in it apart. -/
structure Keeps (kinds : List Parser.Node) (misused : List String) (d : Description α) : Prop where
  nodes : d.topNodes ⊆ kinds
  misuse : ∀ name, d.misuse? = some name → name ∈ misused

omit [Token α] [DecidableEq α] in
theorem keeps_within (d : Description α) : ∀ e ∈ d.within, e.Keeps d.nodes d.misused := fun e he =>
  ⟨fun _ hn => List.mem_flatMap.2 ⟨e, he, hn⟩, fun _ hname => List.mem_filterMap.2 ⟨e, he, hname⟩⟩

omit [Token α] [DecidableEq α] in
theorem mem_within_self (d : Description α) : d ∈ d.within := by
  cases d <;> exact List.mem_cons_self

omit [Token α] [DecidableEq α] in
theorem top {d : Description α} (h : ∀ e ∈ d.within, e.Keeps kinds misused) : d.topNodes ⊆ kinds :=
  (h d d.mem_within_self).nodes

end Description

namespace Parser

variable {α : Type} [Token α] [DecidableEq α] {ok : Node → Prop} {p q : Parser α}

omit [DecidableEq α] in
theorem all_pair (how : Pairing) (h : ∀ n ∈ Description.pairNodes how, ok n) (hp : p.All ok)
    (hq : q.All ok) : (pair how p q).All ok := by
  cases how <;> simp only [Description.pairNodes, List.forall_mem_cons] at h
  case andThen => exact ⟨h.1, h.2.1, hp, hq, trivial⟩
  case and => exact ⟨h.1, hp, hq, trivial⟩
  case preceded => exact ⟨h.1, h.2.1, hq, hp, trivial⟩
  case terminated => exact ⟨h.1, h.2.1, hp, hq, trivial⟩
  case or => exact ⟨h.1, hp, hq, trivial⟩
  case sepBy0 =>
    obtain ⟨named, map, group, many, optional, -⟩ := h
    exact ⟨named, map, optional, named, map, group, hp, ⟨many, map, group, hq, hp, trivial⟩, trivial⟩
  case sepBy1 =>
    obtain ⟨named, map, group, many, -⟩ := h
    exact ⟨named, map, group, hp, ⟨many, map, group, hq, hp, trivial⟩, trivial⟩

theorem all_sameToken (hs : ok .satisfy) (he : ok .expected) (negated : Bool) (index : Nat)
    (values : List (Value α)) : (sameToken negated index values).All ok := by
  unfold sameToken
  split
  · split <;> exact hs
  · exact he

omit [Token α] in
theorem all_chosenBy {cases : List (α × Parser α)} (hc : ∀ x ∈ cases, x.2.All ok) (hp : p.All ok)
    (index : Nat) (values : List (Value α)) : (chosenBy index cases p values).All ok := by
  unfold chosenBy
  cases hq : (tokenOf? index values).bind fun t => cases.lookup t with
  | none => exact hp
  | some q =>
    obtain ⟨t, -, ht⟩ := Option.bind_eq_some_iff.1 hq
    obtain ⟨before, after, rfl, -⟩ := List.lookup_eq_some_iff.1 ht
    exact hc (t, q) (List.mem_append_right _ List.mem_cons_self)

end Parser

namespace Description

variable {α : Type} [Token α] [DecidableEq α] {kinds : List Parser.Node} {misused : List String}

omit [DecidableEq α] in
theorem makes_buildPattern {scope : Scope} {w : Workshop α}
    (hw : Building.BodiesFit scope kinds misused w) (hs : .satisfy ∈ kinds)
    (engine : Pattern.Engine) (text : String) :
    Building.Makes scope kinds misused w (fun ok q => q.All ok) (buildPattern engine text) := by
  unfold buildPattern
  split
  · exact Building.makes_throw _
  · rename_i toChar _
    unfold Parser.matching
    cases engine.compile text with
    | error rejection => exact Building.makes_throw _
    | ok found => exact .pure hw hs

mutual

/-- **A parser that was built consists of the kinds of its description.** -/
theorem makes_build (scope : Scope) {w : Workshop α} (hw : Building.BodiesFit scope kinds misused w) :
    (d : Description α) → (∀ e ∈ d.within, e.Keeps kinds misused) →
      Building.Makes scope kinds misused w (fun ok q => q.All ok) (d.build scope)
  | .any, h => .pure hw (top h List.mem_cons_self)
  | .endOfInput, h => .pure hw (top h List.mem_cons_self)
  | .offset, h => .pure hw (top h List.mem_cons_self)
  | .eq _, h => .pure hw (top h List.mem_cons_self)
  | .neq _, h => .pure hw (top h List.mem_cons_self)
  | .oneOf _, h => .pure hw (top h List.mem_cons_self)
  | .between .., h => .pure hw (top h List.mem_cons_self)
  | .token _, h => .pure hw (top h List.mem_cons_self)
  | .pattern engine text, h => makes_buildPattern hw (top h List.mem_cons_self) engine text
  | .expected _, h => .pure hw (top h List.mem_cons_self)
  | .result _, h => .pure hw (top h List.mem_cons_self)
  | .jump _ none _ _, h => .pure hw (top h List.mem_cons_self)
  | .jump _ (some input) _ _, h =>
    (Building.makes_start hw input).map fun _ _ _ => top h List.mem_cons_self
  | .constant _ of, h =>
    (makes_build scope hw of (List.forall_mem_cons.1 h).2).map fun _ _ hq => ⟨top h List.mem_cons_self, hq⟩
  | .named _ of, h =>
    (makes_build scope hw of (List.forall_mem_cons.1 h).2).map fun _ _ hq => ⟨top h List.mem_cons_self, hq⟩
  | .boxed of, h => (makes_build scope hw of (List.forall_mem_cons.1 h).2).map fun _ _ hq => hq
  | .change _ of, h =>
    (makes_build scope hw of (List.forall_mem_cons.1 h).2).map fun _ _ hq => ⟨top h List.mem_cons_self, hq⟩
  | .seq of, h =>
    (makes_buildAll scope hw of (List.forall_mem_cons.1 h).2).map fun _ _ hqs =>
      ⟨top h List.mem_cons_self, top h (List.mem_cons_of_mem _ List.mem_cons_self), hqs⟩
  | .tuple of, h =>
    (makes_buildAll scope hw of (List.forall_mem_cons.1 h).2).map fun _ _ hqs =>
      ⟨top h List.mem_cons_self, hqs⟩
  | .choice of, h =>
    (makes_buildAll scope hw of (List.forall_mem_cons.1 h).2).map fun _ _ hqs =>
      ⟨top h List.mem_cons_self, hqs⟩
  | .pair how of other, h => by
    obtain ⟨left, right⟩ := List.forall_mem_append.1 (List.forall_mem_cons.1 h).2
    refine (makes_build scope hw of left).bind fun p _ _ hw' hp => ?_
    refine (makes_build scope hw' other right).bind fun q w'' gains hw'' hq => .pure hw'' ?_
    have fits (n : Parser.Node) (hn : n ∈ pairNodes how) : Building.Fits scope kinds misused w'' n :=
      Building.fits_of_mem (top h hn) fun id name rule => by
        subst rule
        cases how <;> simp [pairNodes] at hn
    exact Parser.all_pair how fits (hp.mono fun _ hn => hn.mono gains (List.Subset.refl _)) hq
  | .optional of, h =>
    (makes_build scope hw of (List.forall_mem_cons.1 h).2).map fun _ _ hq => ⟨top h List.mem_cons_self, hq⟩
  | .many _ of, h =>
    (makes_build scope hw of (List.forall_mem_cons.1 h).2).map fun _ _ hq => ⟨top h List.mem_cons_self, hq⟩
  | .peek of, h =>
    (makes_build scope hw of (List.forall_mem_cons.1 h).2).map fun _ _ hq => ⟨top h List.mem_cons_self, hq⟩
  | .not of, h =>
    (makes_build scope hw of (List.forall_mem_cons.1 h).2).map fun _ _ hq => ⟨top h List.mem_cons_self, hq⟩
  | .bind noted of continuation, h => by
    obtain ⟨row, rest⟩ := List.forall_mem_append.1 (List.forall_mem_cons.1 h).2
    refine (makes_buildAll scope hw of row).bind fun ps _ _ hw' hps => ?_
    have own : continuationNodes continuation ⊆ kinds := List.Subset.trans (List.subset_cons_self _ _) (top h)
    refine (makes_buildContinuation scope hw' continuation own rest).bind fun k w'' gains hw'' hk => ?_
    refine .pure hw'' ⟨top h List.mem_cons_self, Parser.allOf_iff.2 fun q hq => ?_, hk⟩
    exact (Parser.allOf_iff.1 hps q hq).mono fun _ hn => hn.mono gains (List.Subset.refl _)
  | .observed _ of, h =>
    (makes_build scope hw of (List.forall_mem_cons.1 h).2).map fun _ _ hq => ⟨top h List.mem_cons_self, hq⟩
  | .traced of, h =>
    (makes_build scope hw of (List.forall_mem_cons.1 h).2).map fun _ _ hq => ⟨top h List.mem_cons_self, hq⟩
  | .recursive name fate body, h => by
    obtain ⟨own, rest⟩ := List.forall_mem_cons.1 h
    refine Building.makes_recursive hw name fate (fun bad => own.misuse name ?_) fun w' hw' =>
      makes_build _ hw' body rest
    cases fate with
    | defined => exact absurd rfl bad
    | undefined => rfl
    | givenUp => rfl
  | .call name, h => by
    rw [build]
    split
    next id around =>
      obtain ⟨before, after, rfl, -⟩ := List.lookup_eq_some_iff.1 around
      exact .pure hw (.inl (List.mem_append_right _ List.mem_cons_self))
    next => exact Building.makes_throw _

/-- So do several parsers. -/
theorem makes_buildAll (scope : Scope) {w : Workshop α}
    (hw : Building.BodiesFit scope kinds misused w) :
    (ds : List (Description α)) → (∀ e ∈ allWithin ds, e.Keeps kinds misused) →
      Building.Makes scope kinds misused w (fun ok qs => Parser.AllOf ok qs) (buildAll scope ds)
  | [], _ => .pure hw trivial
  | d :: ds, h => by
    obtain ⟨first, rest⟩ := List.forall_mem_append.1 h
    refine (makes_build scope hw d first).bind fun p _ _ hw' hp => ?_
    refine (makes_buildAll scope hw' ds rest).bind fun ps _ gains hw'' hps => .pure hw'' ⟨?_, hps⟩
    exact hp.mono fun _ hn => hn.mono gains (List.Subset.refl _)

/-- So do the parsers of a switch. -/
theorem makes_buildCases (scope : Scope) {w : Workshop α}
    (hw : Building.BodiesFit scope kinds misused w) :
    (cases : List (α × Description α)) → (∀ e ∈ casesWithin cases, e.Keeps kinds misused) →
      Building.Makes scope kinds misused w (fun ok qs => ∀ x ∈ qs, x.2.All ok) (buildCases scope cases)
  | [], _ => .pure hw fun _ hx => absurd hx List.not_mem_nil
  | (_, d) :: cases, h => by
    obtain ⟨first, rest⟩ := List.forall_mem_append.1 h
    refine (makes_build scope hw d first).bind fun p _ _ hw' hp => ?_
    refine (makes_buildCases scope hw' cases rest).bind fun ps _ gains hw'' hps => ?_
    refine .pure hw'' (List.forall_mem_cons.2 ⟨?_, hps⟩)
    exact hp.mono fun _ hn => hn.mono gains (List.Subset.refl _)

/-- So do the parsers that a continuation gives. -/
theorem makes_buildContinuation (scope : Scope) {w : Workshop α}
    (hw : Building.BodiesFit scope kinds misused w) :
    (k : Continuation α) → continuationNodes k ⊆ kinds →
      (∀ e ∈ continuationWithin k, e.Keeps kinds misused) →
      Building.Makes scope kinds misused w (fun ok k => ∀ values, (k values).All ok)
        (buildContinuation scope k)
  | .firstToken negated index, own, _ => by
    have satisfy : Building.Fits scope kinds misused w .satisfy := own List.mem_cons_self
    have expected : Building.Fits scope kinds misused w .expected :=
      own (List.mem_cons_of_mem _ List.mem_cons_self)
    exact .pure hw (Parser.all_sameToken satisfy expected negated index)
  | .tokens _, own, _ => .pure hw fun _ => own List.mem_cons_self
  | .repeated _ of, own, h =>
    (makes_build scope hw of h).map fun _ _ hq _ => ⟨own List.mem_cons_self, hq⟩
  | .values, own, _ => .pure hw fun _ => own List.mem_cons_self
  | .always of, _, h => (makes_build scope hw of h).map fun _ _ hq _ => hq
  | .switch index cases otherwise, _, h => by
    obtain ⟨chosen, rest⟩ := List.forall_mem_append.1 h
    refine (makes_buildCases scope hw cases chosen).bind fun qs _ _ hw' hqs => ?_
    refine (makes_build scope hw' otherwise rest).bind fun p _ gains hw'' hp => ?_
    refine .pure hw'' (Parser.all_chosenBy (fun x hx => ?_) hp index)
    exact (hqs x hx).mono fun _ hn => hn.mono gains (List.Subset.refl _)

end

/-- **What is built of a description**: it and the rules consist of the kinds of the description, and of
calls of rules that are defined or misused. -/
theorem all_of_build {d : Description α} {store : Store α} {q : Parser α} {w : Workshop α}
    (h : (d.build []).run ⟨store, #[]⟩ = .ok (q, w)) :
    q.All (Building.Fits [] d.nodes d.misused w) ∧ Building.BodiesFit [] d.nodes d.misused w := by
  have none : Building.BodiesFit [] d.nodes d.misused (⟨store, #[]⟩ : Workshop α) :=
    fun id body hbody => absurd hbody (by simp)
  obtain ⟨-, bodies, hq⟩ := makes_build [] none d d.keeps_within q w h
  exact ⟨hq, bodies⟩

omit [Token α] [DecidableEq α] in
theorem keeps_allWithin (ds : List (Description α)) :
    ∀ e ∈ allWithin ds, e.Keeps (ds.flatMap nodes) (ds.flatMap Description.misused) := by
  induction ds with
  | nil => exact fun _ he => absurd he List.not_mem_nil
  | cons d ds ih =>
    intro e he
    rw [List.flatMap_cons, List.flatMap_cons]
    rcases List.mem_append.1 he with first | rest
    · obtain ⟨nodes, misuse⟩ := d.keeps_within e first
      exact ⟨fun _ hn => List.mem_append_left _ (nodes hn),
        fun name hname => List.mem_append_left _ (misuse name hname)⟩
    · obtain ⟨nodes, misuse⟩ := ih e rest
      exact ⟨fun _ hn => List.mem_append_right _ (nodes hn),
        fun name hname => List.mem_append_right _ (misuse name hname)⟩

/-- So is what is built of several descriptions. -/
theorem all_of_buildAll {ds : List (Description α)} {store : Store α} {qs : List (Parser α)}
    {w : Workshop α} (h : (buildAll [] ds).run ⟨store, #[]⟩ = .ok (qs, w)) :
    Parser.AllOf (Building.Fits [] (ds.flatMap nodes) (ds.flatMap Description.misused) w) qs ∧
      Building.BodiesFit [] (ds.flatMap nodes) (ds.flatMap Description.misused) w := by
  have none : Building.BodiesFit [] (ds.flatMap nodes) (ds.flatMap Description.misused) (⟨store, #[]⟩ : Workshop α) :=
    fun id body hbody => absurd hbody (by simp)
  obtain ⟨-, bodies, hqs⟩ := makes_buildAll [] none ds (keeps_allWithin ds) qs w h
  exact ⟨hqs, bodies⟩

end Description

end LazyPeg
