import LazyPeg.Description.Build
import LazyPeg.Proofs.Simulation.Terms

/-!
# Where a parser is built makes no difference

The rules of a description are numbered on from those that the workshop already has.  Two workshops
therefore make two parsers of it that differ in these numbers, and in nothing else
(`Description.twins_build`): they are `Parser.Alike`, and so are the bodies of their rules.  This is said
of local descriptions, those that do not jump into a sequence of their own.

A reading needs no sequences.  So what a local description means can be said with the parser that an
empty workshop makes of it (`Description.Reads`), and it is what the parser means that any session has
built (`Description.exists_alike`).
-/
namespace LazyPeg

/-! ## 1. Local descriptions -/

namespace Description

variable {α : Type}

mutual

/-- A description does not jump into a sequence of its own. -/
def isLocal : Description α → Bool
  | jump _ origin _ _ => origin.isNone
  | constant _ of => of.isLocal
  | named _ of => of.isLocal
  | boxed of => of.isLocal
  | change _ of => of.isLocal
  | seq of => allLocal of
  | tuple of => allLocal of
  | choice of => allLocal of
  | pair _ of other => of.isLocal && other.isLocal
  | optional of => of.isLocal
  | many _ of => of.isLocal
  | peek of => of.isLocal
  | not of => of.isLocal
  | bind _ of continuation => allLocal of && continuationLocal continuation
  | observed _ of => of.isLocal
  | traced of => of.isLocal
  | recursive _ _ body => body.isLocal
  | _ => true

/-- None of several descriptions does. -/
def allLocal : List (Description α) → Bool
  | [] => true
  | d :: ds => d.isLocal && allLocal ds

/-- No case of a switch does. -/
def casesLocal : List (α × Description α) → Bool
  | [] => true
  | (_, d) :: cases => d.isLocal && casesLocal cases

/-- Nothing that a continuation gives does. -/
def continuationLocal : Continuation α → Bool
  | .repeated _ of => of.isLocal
  | .always of => of.isLocal
  | .switch _ cases otherwise => casesLocal cases && otherwise.isLocal
  | _ => true

end

end Description

/-! ## 2. Rules that are numbered on -/

namespace Parser

variable {α : Type} {rules rules' : RuleId → RuleId → Prop}

/-- The numbers of the first `n` rules, and the same rules numbered on from `b`. -/
def Shifted (b n : Nat) (id id' : Nat) : Prop := id = b + id' ∧ id' < n

theorem Shifted.mono {b n n' : Nat} (h : n ≤ n') {id id' : Nat} (hid : Shifted b n id id') :
    Shifted b n' id id' :=
  ⟨hid.1, Nat.lt_of_lt_of_le hid.2 h⟩

/-- Parsers that are alike are so for more rules, too. -/
theorem Alike.mono (hr : ∀ id id', rules id id' → rules' id id') {q q' : Parser α}
    (h : Alike rules q q') : Alike rules' q q' := by
  have rows {qs qs' : List (Parser α)} (h : List.Forall₂ (Alike rules) qs qs')
      (ih : ∀ q ∈ qs, ∀ {q'}, Alike rules q q' → Alike rules' q q') :
      List.Forall₂ (Alike rules') qs qs' :=
    forall₂_of_mem h ih fun _ _ ihq hq => ihq hq
  induction q generalizing q' with
  | endOfInput => cases h; exact .endOfInput
  | satisfy name accepts => cases h; exact .satisfy name accepts
  | token items => cases h; exact .token items
  | result value => cases h; exact .result value
  | expected message => cases h; exact .expected message
  | offset => cases h; exact .offset
  | jump name origin count verdict => cases h; exact .jump name count verdict
  | map f q ih => cases h with | map _ h => exact .map f (ih h)
  | named name q ih => cases h with | named _ h => exact .named name (ih h)
  | group label qs ih => cases h with | group _ h => exact .group label (rows h ih)
  | choice qs ih => cases h with | choice h => exact .choice (rows h ih)
  | many style q ih => cases h with | many _ h => exact .many style (ih h)
  | optional q ih => cases h with | optional h => exact .optional (ih h)
  | peek q ih => cases h with | peek h => exact .peek (ih h)
  | not q ih => cases h with | not h => exact .not (ih h)
  | bind noted qs k ihs ihk =>
    cases h with | bind _ h hk => exact .bind noted (rows h ihs) fun values => ihk values (hk values)
  | observed tag q ih => cases h with | observed _ h => exact .observed tag (ih h)
  | traced q ih => cases h with | traced h => exact .traced (ih h)
  | rule id name => cases h with | rule _ h => exact .rule name (hr _ _ h)

/-! ### Combinators of like parsers -/

section Combinators

variable [Token α] {p p' q q' : Parser α}

theorem alike_sepBy1 (hp : Alike rules p p') (hq : Alike rules q q') :
    Alike rules (sepBy1 p q) (sepBy1 p' q') := by
  unfold sepBy1
  rw [hp.name_eq, hq.name_eq]
  exact .named _ (.map _ (.group _
    (.cons hp (.cons (.many _ (.map _ (.group _ (.cons hq (.cons hp .nil))))) .nil))))

theorem alike_pair (how : Pairing) (hp : Alike rules p p') (hq : Alike rules q q') :
    Alike rules (pair how p q) (pair how p' q') := by
  cases how with
  | andThen => exact .map _ (.group _ (.cons hp (.cons hq .nil)))
  | and => exact .group _ (.cons hp (.cons hq .nil))
  | preceded => exact .map _ (.group _ (.cons hq (.cons hp .nil)))
  | terminated => exact .map _ (.group _ (.cons hp (.cons hq .nil)))
  | or => exact .choice (.cons hp (.cons hq .nil))
  | sepBy0 =>
    simp only [pair, sepBy0]
    rw [hp.name_eq, hq.name_eq]
    exact .named _ (.map _ (.optional (alike_sepBy1 hp hq)))
  | sepBy1 => exact alike_sepBy1 hp hq

theorem alike_sameToken [DecidableEq α] (negated : Bool) (index : Nat) (values : List (Value α)) :
    Alike rules (sameToken negated index values) (sameToken negated index values) := by
  unfold sameToken
  split
  · split <;> exact .satisfy _ _
  · exact .expected _

omit [Token α] in
theorem alike_chosenBy [DecidableEq α] {cases cases' : List (α × Parser α)}
    (hc : List.Forall₂ (fun x x' => x.1 = x'.1 ∧ Alike rules x.2 x'.2) cases cases')
    (hp : Alike rules p p') (index : Nat) (values : List (Value α)) :
    Alike rules (chosenBy index cases p values) (chosenBy index cases' p' values) := by
  unfold chosenBy
  cases tokenOf? index values with
  | none => exact hp
  | some t =>
    simp only [Option.bind_some]
    induction hc with
    | nil => exact hp
    | @cons x x' _ _ hx _ ih =>
      obtain ⟨u, q⟩ := x
      obtain ⟨u', q'⟩ := x'
      obtain ⟨rfl, hq⟩ := hx
      simp only [List.lookup_cons]
      split
      · exact hq
      · exact ih

end Combinators

end Parser

/-! ## 3. Building twice -/

section Twins

variable {α β β' γ γ' : Type} {b : Nat} {w w' : Workshop α}

/-- Parsers that were built in two workshops, of which the second has `n` rules and the first the same
ones numbered on from `b`. -/
def Parser.Twin (b n : Nat) : Parser α → Parser α → Prop := Alike (Shifted b n)

theorem Parser.Twin.mono {n n' : Nat} (h : n ≤ n') {q q' : Parser α} (hq : Twin b n q q') :
    Twin b n' q q' :=
  Alike.mono (fun _ _ hid => hid.mono h) hq

/-- The bodies of two rules that were related stay so when there are more rules. -/
theorem Parser.twin_rel_mono {n n' : Nat} (h : n ≤ n') {body body' : Option (Parser α)}
    (hb : Option.Rel (Twin b n) body body') : Option.Rel (Twin b n') body body' := by
  cases hb with
  | some hq => exact .some (hq.mono h)
  | none => exact .none

namespace Workshop

/-- The first workshop has the rules of the second, numbered on from `b`. -/
structure Parallel (b : Nat) (w w' : Workshop α) : Prop where
  size_eq : w.grammar.size = b + w'.grammar.size
  rules : Parser.LikeGrammars (Parser.Shifted b w'.grammar.size) w.grammar w'.grammar

/-- Beside a workshop without rules every workshop is parallel. -/
theorem parallel_empty (w : Workshop α) (store : Store α) :
    w.Parallel w.grammar.size ⟨store, #[]⟩ :=
  ⟨rfl, fun _ _ hid => absurd hid.2 (Nat.not_lt_zero _)⟩

theorem Parallel.declare (h : w.Parallel b w') :
    (⟨w.store, w.grammar.push none⟩ : Workshop α).Parallel b ⟨w'.store, w'.grammar.push none⟩ := by
  have size := h.size_eq
  refine ⟨by simp only [Array.size_push]; omega, fun (id id' : Nat) hid => ?_⟩
  obtain ⟨rfl, inside⟩ := hid
  simp only [Array.size_push] at inside ⊢
  simp only [Array.getElem?_push]
  by_cases last : id' = w'.grammar.size
  · simp only [last, size, if_true, Option.join_some]
    exact .none
  · have old : b + id' ≠ w.grammar.size := by omega
    simp only [last, old, if_false]
    exact Parser.twin_rel_mono (Nat.le_succ _) (h.rules (b + id') id' ⟨rfl, by omega⟩)

/-- To define a rule in both workshops by twins leaves them parallel. -/
theorem Parallel.define (h : w.Parallel b w') {id' : Nat} (inside : id' < w'.grammar.size)
    {p p' : Parser α} (hp : Parser.Twin b w'.grammar.size p p') :
    (⟨w.store, w.grammar.setIfInBounds (b + id') (some p)⟩ : Workshop α).Parallel b
      ⟨w'.store, w'.grammar.setIfInBounds id' (some p')⟩ := by
  have size := h.size_eq
  refine ⟨by simpa only [Array.size_setIfInBounds] using size, fun (j j' : Nat) hj => ?_⟩
  obtain ⟨rfl, hj⟩ := hj
  simp only [Array.size_setIfInBounds] at hj ⊢
  by_cases same : j' = id'
  · have inside' : b + id' < w.grammar.size := by omega
    simp only [same, Array.getElem?_setIfInBounds_self, inside, inside', if_true, Option.join_some]
    exact .some hp
  · have differ : b + j' ≠ b + id' := by omega
    rw [Array.getElem?_setIfInBounds_ne (Ne.symm same),
      Array.getElem?_setIfInBounds_ne (Ne.symm differ)]
    exact h.rules (b + j') j' ⟨rfl, hj⟩

end Workshop

namespace Building

/-- Where the first of two steps of building succeeds, the second does, and what they build is related
with as many rules as there are then. -/
def Twins (b : Nat) (w w' : Workshop α) (rel : Nat → β → β' → Prop) (m : Building α β)
    (m' : Building α β') : Prop :=
  ∀ a w₁, m.run w = .ok (a, w₁) → ∃ a' w₁', m'.run w' = .ok (a', w₁') ∧ w₁.Parallel b w₁' ∧
    w'.grammar.size ≤ w₁'.grammar.size ∧ rel w₁'.grammar.size a a'

variable {rel : Nat → β → β' → Prop} {rel' : Nat → γ → γ' → Prop}

theorem Twins.pure (hw : w.Parallel b w') {a : β} {a' : β'} (h : rel w'.grammar.size a a') :
    Twins b w w' rel (pure a) (pure a') := by
  intro a₁ w₁ ha
  obtain ⟨rfl, rfl⟩ := Prod.mk.inj (Except.ok.inj ha)
  exact ⟨a', w', rfl, hw, Nat.le_refl _, h⟩

theorem twins_throw (why : BuildError) (m' : Building α β') : Twins b w w' rel (throw why) m' :=
  fun a w₁ h => absurd (show Except.error why = Except.ok (a, w₁) from h) (by simp)

theorem Twins.bind {m : Building α β} {m' : Building α β'} {f : β → Building α γ}
    {f' : β' → Building α γ'} (h : Twins b w w' rel m m')
    (hf : ∀ a a' w₁ w₁', w₁.Parallel b w₁' → w'.grammar.size ≤ w₁'.grammar.size →
      rel w₁'.grammar.size a a' → Twins b w₁ w₁' rel' (f a) (f' a')) :
    Twins b w w' rel' (m >>= f) (m' >>= f') := by
  intro c w₂ hc
  obtain ⟨a, w₁, ha, hc⟩ := run_bind_ok hc
  obtain ⟨a', w₁', ha', parallel, le, hrel⟩ := h a w₁ ha
  obtain ⟨c', w₂', hc', parallel', le', hrel'⟩ := hf a a' w₁ w₁' parallel le hrel c w₂ hc
  exact ⟨c', w₂', (run_bind_of_ok ha' f').trans hc', parallel', Nat.le_trans le le', hrel'⟩

theorem Twins.map {m : Building α β} {m' : Building α β'} {f : β → γ} {f' : β' → γ'}
    (h : Twins b w w' rel m m') (hf : ∀ n a a', rel n a a' → rel' n (f a) (f' a')) :
    Twins b w w' rel' (m >>= fun a => Pure.pure (f a)) (m' >>= fun a => Pure.pure (f' a)) :=
  h.bind fun a a' _ _ parallel _ hrel => .pure parallel (hf _ a a' hrel)

/-- A rule has the next number in both workshops. -/
theorem twins_recursive (hw : w.Parallel b w') (name : String) (fate : Fate)
    {body body' : RuleId → Building α (Parser α)}
    (hbody : ∀ (id id' : Nat) w₁ w₁', w₁.Parallel b w₁' → w'.grammar.size ≤ w₁'.grammar.size →
      Parser.Shifted b w₁'.grammar.size id id' → Twins b w₁ w₁' (Parser.Twin b) (body id) (body' id')) :
    Twins b w w' (Parser.Twin b)
      (do
        let id ← declare
        let p ← body id
        match fate with
        | .defined =>
          define id p
          return .rule id name
        | .undefined => return p
        | .givenUp => return .rule id name)
      (do
        let id ← declare
        let p ← body' id
        match fate with
        | .defined =>
          define id p
          return .rule id name
        | .undefined => return p
        | .givenUp => return .rule id name) := by
  intro q w₃ h
  obtain ⟨id, w₁, hid, h⟩ := run_bind_ok h
  obtain ⟨rfl, rfl⟩ := Prod.mk.inj (Except.ok.inj hid)
  obtain ⟨p, w₂, hp, h⟩ := run_bind_ok h
  have declared := hw.declare
  have numbered : Parser.Shifted b (w'.grammar.push none).size w.grammar.size w'.grammar.size :=
    ⟨hw.size_eq, by simp only [Array.size_push, Nat.lt_succ_self]⟩
  have more : w'.grammar.size ≤ (w'.grammar.push none).size := by
    simp only [Array.size_push, Nat.le_succ]
  obtain ⟨p', w₂', hp', parallel, le, hq⟩ := hbody _ _ _ _ declared more numbered p w₂ hp
  have called := numbered.mono le
  have declare' : (declare : Building α RuleId).run w' = .ok (w'.grammar.size, _) := rfl
  cases fate with
  | undefined =>
    obtain ⟨rfl, rfl⟩ := Prod.mk.inj (Except.ok.inj h)
    refine ⟨p', w₂', ?_, parallel, Nat.le_trans more le, hq⟩
    rw [run_bind_of_ok declare', run_bind_of_ok hp']
    rfl
  | givenUp =>
    obtain ⟨rfl, rfl⟩ := Prod.mk.inj (Except.ok.inj h)
    refine ⟨.rule w'.grammar.size name, w₂', ?_, parallel, Nat.le_trans more le, .rule name called⟩
    rw [run_bind_of_ok declare', run_bind_of_ok hp']
    rfl
  | defined =>
    obtain ⟨rfl, rfl⟩ := Prod.mk.inj (Except.ok.inj h)
    have defined := parallel.define called.2 hq
    rw [← called.1] at defined
    have size : w'.grammar.size ≤ (w₂'.grammar.setIfInBounds w'.grammar.size (some p')).size := by
      simpa only [Array.size_setIfInBounds] using Nat.le_trans more le
    refine ⟨.rule w'.grammar.size name, _, ?_, defined, size, .rule name ?_⟩
    · rw [run_bind_of_ok declare', run_bind_of_ok hp']
      rfl
    · simpa only [Array.size_setIfInBounds] using called

end Building

end Twins

/-! ## 4. Descriptions -/

namespace Description

variable {α : Type}

/-- The same rules around a description, in two workshops. -/
def ScopeTwin (b n : Nat) : Scope → Scope → Prop :=
  List.Forall₂ fun x x' => x.1 = x'.1 ∧ Parser.Shifted b n x.2 x'.2

variable {b n : Nat} {scope scope' : Scope}

theorem ScopeTwin.mono {n' : Nat} (h : ScopeTwin b n scope scope') (hn : n ≤ n') :
    ScopeTwin b n' scope scope' :=
  h.imp fun _ _ hx => ⟨hx.1, hx.2.mono hn⟩

/-- A call finds the same rule. -/
theorem ScopeTwin.lookup (h : ScopeTwin b n scope scope') {name : String} {id : RuleId}
    (hid : scope.lookup name = some id) :
    ∃ id', scope'.lookup name = some id' ∧ Parser.Shifted b n id id' := by
  induction h with
  | nil => exact absurd hid (by simp)
  | @cons x x' _ _ hx _ ih =>
    obtain ⟨outer, _⟩ := x
    obtain ⟨outer', _⟩ := x'
    obtain ⟨rfl, hnumber⟩ := hx
    rw [List.lookup_cons] at hid ⊢
    cases hname : name == outer with
    | true =>
      rw [hname] at hid
      obtain rfl := Option.some.inj hid
      exact ⟨_, rfl, hnumber⟩
    | false =>
      rw [hname] at hid
      exact ih hid

/-- Parsers of several descriptions that two workshops have built. -/
def TwinRow (b n : Nat) : List (Parser α) → List (Parser α) → Prop := List.Forall₂ (Parser.Twin b n)

/-- The cases of a switch that two workshops have built. -/
def TwinCases (b n : Nat) : List (α × Parser α) → List (α × Parser α) → Prop :=
  List.Forall₂ fun x x' => x.1 = x'.1 ∧ Parser.Twin b n x.2 x'.2

/-- Continuations that two workshops have built. -/
def TwinContinuation (b n : Nat) (k k' : List (Value α) → Parser α) : Prop :=
  ∀ values, Parser.Twin b n (k values) (k' values)

variable [Token α]

theorem twins_buildPattern {w w' : Workshop α} (hw : w.Parallel b w') (engine : Pattern.Engine)
    (text : String) :
    Building.Twins b w w' (Parser.Twin b) (buildPattern engine text) (buildPattern engine text) := by
  unfold buildPattern
  split
  · exact Building.twins_throw _ _
  · rename_i toChar _
    unfold Parser.matching
    cases engine.compile text with
    | error rejection => exact Building.twins_throw _ _
    | ok found => exact .pure hw (.satisfy _ _)

variable [DecidableEq α]

mutual

/-- **Two workshops make like parsers of a local description.** -/
theorem twins_build {scope scope' : Scope} {w w' : Workshop α} (hw : w.Parallel b w')
    (hs : ScopeTwin b w'.grammar.size scope scope') :
    (d : Description α) → d.isLocal →
      Building.Twins b w w' (Parser.Twin b) (d.build scope) (d.build scope')
  | .any, _ => .pure hw (.satisfy _ _)
  | .endOfInput, _ => .pure hw .endOfInput
  | .offset, _ => .pure hw .offset
  | .eq _, _ => .pure hw (.satisfy _ _)
  | .neq _, _ => .pure hw (.satisfy _ _)
  | .oneOf _, _ => .pure hw (.satisfy _ _)
  | .between .., _ => .pure hw (.satisfy _ _)
  | .token ts, _ => .pure hw (.token ts)
  | .pattern engine text, _ => twins_buildPattern hw engine text
  | .expected message, _ => .pure hw (.expected message)
  | .result _, _ => .pure hw (.result _)
  | .jump name none count verdict, _ => .pure hw (.jump name count verdict)
  | .constant _ of, h => (twins_build hw hs of h).map fun _ _ _ hq => .map _ hq
  | .named name of, h => (twins_build hw hs of h).map fun _ _ _ hq => .named name hq
  | .boxed of, h => (twins_build hw hs of h).map fun _ _ _ hq => hq
  | .change _ of, h => (twins_build hw hs of h).map fun _ _ _ hq => .map _ hq
  | .seq of, h => (twins_buildAll hw hs of h).map fun _ _ _ hqs => .map _ (.group _ hqs)
  | .tuple of, h => (twins_buildAll hw hs of h).map fun _ _ _ hqs => .group _ hqs
  | .choice of, h => (twins_buildAll hw hs of h).map fun _ _ _ hqs => .choice hqs
  | .pair how of other, h =>
    (twins_build hw hs of (Bool.and_eq_true_iff.1 h).1).bind fun _ _ _ _ hw' le hp =>
      (twins_build hw' (hs.mono le) other (Bool.and_eq_true_iff.1 h).2).bind fun _ _ _ _ hw'' le' hq =>
        .pure hw'' (Parser.alike_pair how (hp.mono le') hq)
  | .optional of, h => (twins_build hw hs of h).map fun _ _ _ hq => .optional hq
  | .many style of, h => (twins_build hw hs of h).map fun _ _ _ hq => .many style hq
  | .peek of, h => (twins_build hw hs of h).map fun _ _ _ hq => .peek hq
  | .not of, h => (twins_build hw hs of h).map fun _ _ _ hq => .not hq
  | .bind noted of continuation, h =>
    (twins_buildAll hw hs of (Bool.and_eq_true_iff.1 h).1).bind fun _ _ _ _ hw' le hps =>
      (twins_buildContinuation hw' (hs.mono le) continuation (Bool.and_eq_true_iff.1 h).2).bind
        fun _ _ _ _ hw'' le' hk => .pure hw'' (.bind noted (hps.imp fun _ _ hp => hp.mono le') hk)
  | .observed tag of, h => (twins_build hw hs of h).map fun _ _ _ hq => .observed tag hq
  | .traced of, h => (twins_build hw hs of h).map fun _ _ _ hq => .traced hq
  | .recursive name fate body, h =>
    Building.twins_recursive hw name fate fun id id' _ _ hw' le hid =>
      have inner : ScopeTwin b _ ((name, id) :: scope) ((name, id') :: scope') :=
        .cons ⟨rfl, hid⟩ (hs.mono le)
      twins_build hw' inner body h
  | .call name, _ => by
    rw [build, build]
    cases hid : scope.lookup name with
    | none => exact Building.twins_throw _ _
    | some id =>
      obtain ⟨id', hid', hrule⟩ := hs.lookup hid
      rw [hid']
      exact .pure hw (.rule name hrule)

/-- So do several descriptions. -/
theorem twins_buildAll {scope scope' : Scope} {w w' : Workshop α} (hw : w.Parallel b w')
    (hs : ScopeTwin b w'.grammar.size scope scope') :
    (ds : List (Description α)) → allLocal ds →
      Building.Twins b w w' (TwinRow b) (buildAll scope ds) (buildAll scope' ds)
  | [], _ => .pure hw .nil
  | d :: ds, h =>
    (twins_build hw hs d (Bool.and_eq_true_iff.1 h).1).bind fun _ _ _ _ hw' le hp =>
      (twins_buildAll hw' (hs.mono le) ds (Bool.and_eq_true_iff.1 h).2).bind fun _ _ _ _ hw'' le' hps =>
        .pure hw'' (.cons (hp.mono le') hps)

/-- So do the cases of a switch. -/
theorem twins_buildCases {scope scope' : Scope} {w w' : Workshop α} (hw : w.Parallel b w')
    (hs : ScopeTwin b w'.grammar.size scope scope') :
    (cases : List (α × Description α)) → casesLocal cases →
      Building.Twins b w w' (TwinCases b) (buildCases scope cases) (buildCases scope' cases)
  | [], _ => .pure hw .nil
  | (_, d) :: cases, h =>
    (twins_build hw hs d (Bool.and_eq_true_iff.1 h).1).bind fun _ _ _ _ hw' le hp =>
      (twins_buildCases hw' (hs.mono le) cases (Bool.and_eq_true_iff.1 h).2).bind
        fun _ _ _ _ hw'' le' hps => .pure hw'' (.cons ⟨rfl, hp.mono le'⟩ hps)

/-- So does a continuation. -/
theorem twins_buildContinuation {scope scope' : Scope} {w w' : Workshop α} (hw : w.Parallel b w')
    (hs : ScopeTwin b w'.grammar.size scope scope') :
    (k : Continuation α) → continuationLocal k →
      Building.Twins b w w' (TwinContinuation b) (buildContinuation scope k)
        (buildContinuation scope' k)
  | .firstToken negated index, _ => .pure hw (Parser.alike_sameToken negated index)
  | .tokens _, _ => .pure hw fun _ => .token _
  | .repeated _ of, h => (twins_build hw hs of h).map fun _ _ _ hq _ => .many _ hq
  | .values, _ => .pure hw fun _ => .result _
  | .always of, h => (twins_build hw hs of h).map fun _ _ _ hq _ => hq
  | .switch index cases otherwise, h =>
    (twins_buildCases hw hs cases (Bool.and_eq_true_iff.1 h).1).bind fun _ _ _ _ hw' le hqs =>
      (twins_build hw' (hs.mono le) otherwise (Bool.and_eq_true_iff.1 h).2).bind
        fun _ _ _ _ hw'' le' hp =>
          .pure hw'' (Parser.alike_chosenBy (hqs.imp fun _ _ hx => ⟨hx.1, hx.2.mono le'⟩) hp index)

end

/-! ## 5. What a description means -/

/-- A local description, started at an offset of a list, ends with a course.  The parser is built in an
empty workshop, so that nothing but the description, the list and the offset has a say. -/
def Reads (d : Description α) (ts : List α) (i : Nat) (c : Course α (Outcome α Nat)) : Prop :=
  ∃ q w, (d.build []).run ⟨Store.new, #[]⟩ = .ok (q, w) ∧ q.Reads w.grammar ts i c

/-- A description has one course at each offset of a list. -/
theorem Reads.unique {d : Description α} {ts : List α} {i : Nat} {c c' : Course α (Outcome α Nat)}
    (h : d.Reads ts i c) (h' : d.Reads ts i c') (hi : i ≤ ts.length) : c = c' := by
  obtain ⟨q, w, hq, hc⟩ := h
  obtain ⟨q', w', hq', hc'⟩ := h'
  obtain ⟨rfl, rfl⟩ := Prod.mk.inj (Except.ok.inj (hq.symm.trans hq'))
  exact hc.unique hc' hi

/-- **What a workshop builds of a local description is alike to what an empty workshop builds.** -/
theorem exists_alike {d : Description α} (hd : d.isLocal) {w w₁ : Workshop α} {q : Parser α}
    (h : (d.build []).run w = .ok (q, w₁)) :
    ∃ q' w', (d.build []).run ⟨Store.new, #[]⟩ = .ok (q', w') ∧ w₁.Parallel w.grammar.size w' ∧
      Parser.Twin w.grammar.size w'.grammar.size q q' := by
  obtain ⟨q', w', hq', parallel, -, twin⟩ :=
    twins_build (w.parallel_empty Store.new) .nil d hd q w₁ h
  exact ⟨q', w', hq', parallel, twin⟩

end Description

end LazyPeg
