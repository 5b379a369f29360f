import LazyPeg.Proofs.Reading.Lossless
import LazyPeg.Proofs.Session.Parse

/-!
# Parse trees in a session

A description that throws nothing away builds a lossless parser with lossless rules
(`Description.yields_build`).  So what a parse in a session has passed over can be read off its value
(`Session.parse_lossless`), however often it had to go back.
-/
namespace LazyPeg

/-! ## 1. Lossless descriptions -/

namespace Description

variable {α : Type}

mutual

/-- Every token that is passed is kept in the value.  The only change of values is a mark around one;
parts in a row give all their values, and of several parts one gives its own. -/
def isLossless : Description α → Bool
  | any => true
  | endOfInput => true
  | offset => true
  | eq _ => true
  | neq _ => true
  | oneOf _ => true
  | between .. => true
  | token _ => true
  | pattern .. => true
  | expected _ => true
  | named _ of => of.isLossless
  | boxed of => of.isLossless
  | change f of => f == .wrap && of.isLossless
  | tuple of => allLossless of
  | choice of => allLossless of
  | pair how of other => (how == .and || how == .or) && (of.isLossless && other.isLossless)
  | optional of => of.isLossless
  | many _ of => of.isLossless
  | observed _ of => of.isLossless
  | traced of => of.isLossless
  | recursive _ _ body => body.isLossless
  | call _ => true
  | _ => false

/-- So it is in several descriptions. -/
def allLossless : List (Description α) → Bool
  | [] => true
  | d :: ds => d.isLossless && allLossless ds

end

mutual

/-- A lossless description jumps nowhere. -/
theorem isLocal_of_isLossless : (d : Description α) → d.isLossless → d.isLocal
  | any, _ => rfl
  | endOfInput, _ => rfl
  | offset, _ => rfl
  | eq _, _ => rfl
  | neq _, _ => rfl
  | oneOf _, _ => rfl
  | between .., _ => rfl
  | token _, _ => rfl
  | pattern .., _ => rfl
  | expected _, _ => rfl
  | named _ of, h => isLocal_of_isLossless of h
  | boxed of, h => isLocal_of_isLossless of h
  | change _ of, h => isLocal_of_isLossless of (Bool.and_eq_true_iff.1 h).2
  | tuple of, h => allLocal_of_allLossless of h
  | choice of, h => allLocal_of_allLossless of h
  | pair _ of other, h => by
    obtain ⟨left, right⟩ := Bool.and_eq_true_iff.1 (Bool.and_eq_true_iff.1 h).2
    exact Bool.and_eq_true_iff.2 ⟨isLocal_of_isLossless of left, isLocal_of_isLossless other right⟩
  | optional of, h => isLocal_of_isLossless of h
  | many _ of, h => isLocal_of_isLossless of h
  | observed _ of, h => isLocal_of_isLossless of h
  | traced of, h => isLocal_of_isLossless of h
  | recursive _ _ body, h => isLocal_of_isLossless body h
  | call _, _ => rfl

theorem allLocal_of_allLossless : (ds : List (Description α)) → allLossless ds → allLocal ds
  | [], _ => rfl
  | d :: ds, h => by
    obtain ⟨first, rest⟩ := Bool.and_eq_true_iff.1 h
    exact Bool.and_eq_true_iff.2 ⟨isLocal_of_isLossless d first, allLocal_of_allLossless ds rest⟩

end

end Description

/-! ## 2. Building -/

/-- The bodies of all rules are of a kind. -/
def Workshop.RulesAre {α : Type} (kind : Parser α → Prop) (w : Workshop α) : Prop :=
  ∀ (id : RuleId) (body : Parser α), (w.grammar[id]?).join = some body → kind body

namespace Building

variable {α β γ : Type} {kind : Parser α → Prop} {good : β → Prop} {good' : γ → Prop}

/-- A step of building, where it succeeds, gives something good and adds only rules of a kind. -/
def Yields (kind : Parser α → Prop) (good : β → Prop) (m : Building α β) : Prop :=
  ∀ w : Workshop α, w.RulesAre kind → ∀ b w', m.run w = .ok (b, w') → w'.RulesAre kind ∧ good b

theorem Yields.pure {b : β} (h : good b) : Yields kind good (pure b : Building α β) := by
  intro w hw b' w' hb
  obtain ⟨rfl, rfl⟩ := Prod.mk.inj (Except.ok.inj hb)
  exact ⟨hw, h⟩

theorem yields_throw (why : BuildError) : Yields kind good (throw why : Building α β) :=
  fun w _ b w' h => absurd (show Except.error why = Except.ok (b, w') from h) (by simp)

theorem Yields.bind {m : Building α β} {f : β → Building α γ} (h : Yields kind good m)
    (hf : ∀ b, good b → Yields kind good' (f b)) : Yields kind good' (m >>= f) := by
  intro w hw c w'' hc
  obtain ⟨b, w', hb, hc⟩ := run_bind_ok hc
  obtain ⟨rules, hgood⟩ := h w hw b w' hb
  exact hf b hgood w' rules c w'' hc

theorem Yields.map {m : Building α β} {f : β → γ} (h : Yields kind good m)
    (hf : ∀ b, good b → good' (f b)) : Yields kind good' (m >>= fun b => Pure.pure (f b)) :=
  h.bind fun b hb => .pure (hf b hb)

/-- A new rule has no body. -/
theorem yields_declare : Yields kind (fun _ => True) (declare : Building α RuleId) := by
  intro w hw id w' h
  obtain ⟨rfl, rfl⟩ := Prod.mk.inj (Except.ok.inj h)
  refine ⟨fun id body hbody => ?_, trivial⟩
  rw [Array.getElem?_push] at hbody
  split at hbody
  · exact absurd hbody nofun
  · exact hw id body hbody

theorem yields_define {p : Parser α} (hp : kind p) (id : RuleId) :
    Yields kind (fun _ => True) (define id p) := by
  intro w hw u w' h
  obtain ⟨rfl, rfl⟩ := Prod.mk.inj (Except.ok.inj h)
  refine ⟨fun id' body hbody => ?_, trivial⟩
  rw [Array.getElem?_setIfInBounds] at hbody
  split at hbody
  · split at hbody
    · obtain rfl := Option.some.inj hbody
      exact hp
    · exact absurd hbody nofun
  · exact hw id' body hbody

end Building

namespace Description

variable {α : Type} [Token α]

theorem yields_buildPattern (engine : Pattern.Engine) (text : String) :
    Building.Yields Parser.Lossless Parser.Lossless
      (buildPattern engine text : Building α (Parser α)) := by
  unfold buildPattern
  split
  · exact Building.yields_throw _
  · rename_i toChar _
    unfold Parser.matching
    cases engine.compile text with
    | error rejection => exact Building.yields_throw _
    | ok found => exact .pure trivial

variable [DecidableEq α]

mutual

/-- **A lossless description builds a lossless parser**, and so are its rules. -/
theorem yields_build (scope : Scope) : (d : Description α) → d.isLossless →
    Building.Yields Parser.Lossless Parser.Lossless (d.build scope)
  | any, _ => .pure trivial
  | endOfInput, _ => .pure trivial
  | offset, _ => .pure trivial
  | eq _, _ => .pure trivial
  | neq _, _ => .pure trivial
  | oneOf _, _ => .pure trivial
  | between .., _ => .pure trivial
  | token _, _ => .pure trivial
  | pattern engine text, _ => yields_buildPattern engine text
  | expected _, _ => .pure trivial
  | named _ of, h => (yields_build scope of h).map fun _ hq => hq
  | boxed of, h => (yields_build scope of h).map fun _ hq => hq
  | change .wrap of, h => (yields_build scope of h).map fun _ hq => ⟨Value.tokens_wrapped, hq⟩
  | tuple of, h => (yields_buildAll scope of h).map fun _ hqs => hqs
  | choice of, h => (yields_buildAll scope of h).map fun _ hqs => hqs
  | pair .and of other, h => by
    obtain ⟨left, right⟩ := Bool.and_eq_true_iff.1 (Bool.and_eq_true_iff.1 h).2
    exact (yields_build scope of left).bind fun _ hp =>
      (yields_build scope other right).map fun _ hq => ⟨hp, hq, trivial⟩
  | pair .or of other, h => by
    obtain ⟨left, right⟩ := Bool.and_eq_true_iff.1 (Bool.and_eq_true_iff.1 h).2
    exact (yields_build scope of left).bind fun _ hp =>
      (yields_build scope other right).map fun _ hq => ⟨hp, hq, trivial⟩
  | optional of, h => (yields_build scope of h).map fun _ hq => hq
  | many _ of, h => (yields_build scope of h).map fun _ hq => hq
  | observed _ of, h => (yields_build scope of h).map fun _ hq => hq
  | traced of, h => (yields_build scope of h).map fun _ hq => hq
  | recursive name fate body, h => by
    rw [build]
    refine Building.yields_declare.bind fun id _ => ?_
    refine (yields_build ((name, id) :: scope) body h).bind fun p hp => ?_
    cases fate with
    | defined => exact (Building.yields_define hp id).bind fun _ _ => .pure trivial
    | undefined => exact .pure hp
    | givenUp => exact .pure trivial
  | call name, _ => by
    rw [build]
    split
    · exact .pure trivial
    · exact Building.yields_throw _

/-- So do several descriptions. -/
theorem yields_buildAll (scope : Scope) : (ds : List (Description α)) → allLossless ds →
    Building.Yields Parser.Lossless Parser.AllLossless (buildAll scope ds)
  | [], _ => .pure trivial
  | d :: ds, h => by
    obtain ⟨first, rest⟩ := Bool.and_eq_true_iff.1 h
    exact (yields_build scope d first).bind fun _ hq =>
      (yields_buildAll scope ds rest).map fun _ hqs => ⟨hq, hqs⟩

end

/-- What a match of a lossless description has passed stands in its value. -/
theorem Reads.stretch_of_success {d : Description α} (hd : d.isLossless) {ts : List α} {i j : Nat}
    {c : Course α (Outcome α Nat)} (h : d.Reads ts i c) {v : Value α}
    (hv : c.answer = .ok (.success v j)) : Stretch ts i j v.tokens := by
  obtain ⟨q, w, built, reads⟩ := h
  have none : (⟨Store.new, #[]⟩ : Workshop α).RulesAre Parser.Lossless :=
    fun id body hbody => absurd hbody (by simp)
  obtain ⟨rules, hq⟩ := yields_build [] d hd _ none q w built
  exact Parser.Reads.stretch_of_success rules hq reads hv

end Description

/-! ## 3. Sessions -/

namespace Session

variable {α : Type} [Token α] [DecidableEq α] {ds : List (Description α)} {s : Session α}
  {feeds : List (Feed α)} {forced : List Position} {place parser : Nat} {p : Position}
  {d : Description α}

/-- **Nothing is lost, repeated or invented.**  If a parse of a lossless description succeeds, the tokens
among the leaves of its value, from left to right, are the tokens between its place and the next one. -/
theorem parse_lossless (h : Reaches ds s feeds forced) (hp : s.position? place = some p)
    (hd : ds[parser]? = some d) (hk : d.isLossless) {n m : Nat} {v : Value α} {next : Position}
    {events : List (Event α Position)}
    (hr : (s.step (.parse place parser)).1 = .parsed n m (.success v next) events) :
    v.tokens = ((p.tokensOf feeds).drop p.offset).take (next.offset - p.offset) ∧
      next.offset = p.offset + v.tokens.length := by
  have hl := Description.isLocal_of_isLossless d hk
  obtain ⟨c, r, hc, ha, same, -⟩ := h.reads_of_parsed hp hd hl hr
  cases r with
  | failure reason j => exact absurd same nofun
  | success v' j =>
    obtain ⟨rfl, rfl⟩ := Outcome.success.inj same
    have shows := h.shows hp
    obtain ⟨q, w, -, reads⟩ := id hc
    have moved := shows.forceTo (reads.reach_le shows.le_length) (reads.place_mem shows.le_length ha).2
    have offset : (p.moveTo j).offset = j := moved.offset_moveTo
    have passed : Stretch (p.tokensOf feeds) p.offset j v.tokens := hc.stretch_of_success hk ha
    rw [offset]
    exact ⟨passed.eq_take, passed.length_eq.symm⟩

/-- A tree of brackets around letters. -/
def brackets : Description Char :=
  .recursive "tree" .defined <| .many .any <| .choice
    [.tuple [.eq '(', .call "tree", .eq ')'], .named "letter" (.change .wrap (.oneOf ['a', 'b']))]

/-- The second bracket is never closed, so what was matched behind it is given up. -/
theorem parse_lossless_brackets :
    ∃ s feeds forced, Reaches [brackets] s feeds forced ∧ s.position? 1 = some (.mark 0 1) ∧
      ∃ n m v events, (s.step (.parse 1 0)).1 = .parsed n m (.success v (.mark 0 4)) events ∧
        v.tokens = ['(', 'a', ')'] := by
  have begun : Reaches [brackets] _ [] [] := .begin rfl
  have moved :=
    begun.after [.start (.feed (.items ['b', '(', 'a', ')', '(', 'b'])), .tail 0 1]
  have described : [brackets][0]? = some brackets := rfl
  obtain ⟨tokens, -⟩ :=
    @parse_lossless _ _ _ _ _ _ _ 1 0 (.mark 0 1) brackets moved rfl described rfl _ _ _ _ _ rfl
  exact ⟨_, _, _, moved, rfl, _, _, _, _, rfl, tokens⟩

end Session

end LazyPeg
