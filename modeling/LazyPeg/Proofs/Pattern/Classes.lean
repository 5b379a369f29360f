import LazyPeg.Proofs.Pattern.Escapes

/-!
# Classes can be cut off

A class ends at its own bracket, so a closing parenthesis inside is one of its members, and what is behind a
parenthesis is not looked at before the class has ended (`severable_class?`).  Two places need care.

* A member is followed by a hyphen that may begin a range, and the character behind the hyphen decides
  (`Alone`).  A parenthesis there decides the same way as the end of the text.
* Words are tried before single members: named classes and the operators on classes.  None of them has a
  parenthesis in it (`asciiClass?_words`, `operator?_words`).

The parts of a class are counted, and the readers of parts are compared with another count
(`classSevers`).
-/
namespace LazyPeg.Pattern

variable (verbose : Bool)

/-! ## 1. Members -/

/-- A member of a class that is no range.  A word boundary is none. -/
def classPart? : List Char → Option (Primitive × List Char)
  | [] => none
  | c :: cs => if c = '\\' then escapeBut? verbose cs else some (.char c, cs)

theorem severable_classPart? : Severable 1 0 (classPart? verbose) := by
  refine .cons (fun c => ?_) rfl
  change Severable 0 0 fun cs => if c = '\\' then escapeBut? verbose cs else some (.char c, cs)
  exact .ite (.weaken (severable_escapeBut? verbose) (Nat.zero_le _) (Nat.le_refl _)) (.ret _)

theorem classPrimitive?_cases (cs : List Char) : classPrimitive? verbose cs = classPart? verbose cs ∨
    classPart? verbose cs = none ∧
      ∀ x rest, classPrimitive? verbose cs = some (x, rest) → ∃ a, x = .assertion a := by
  rcases cs with _ | ⟨c, cs⟩
  · exact .inl rfl
  · by_cases escape : c = '\\'
    · subst escape
      by_cases boundary : cs.head? = some 'b'
      · obtain ⟨cs, rfl⟩ := List.head?_eq_some_iff.1 boundary
        exact .inr ⟨rfl, fun x rest h => wordBoundary?_assertion verbose h⟩
      · exact .inl (escape?_but verbose boundary)
    · exact .inl (by simp [classPrimitive?, classPart?, escape])

/-- The member of a class does not go on with a hyphen to a range. -/
def Alone (cs : List Char) : Prop :=
  cs.head? ≠ some '-' ∨ peekNext verbose cs = some ']' ∨ peekNext verbose cs = some '-'

instance : DecidablePred (Alone verbose) := fun _ => by
  unfold Alone
  infer_instance

/-- The range between two primitives. -/
def range? : Primitive → Primitive → Option ClassItem
  | .symbol first, .symbol last => if first.char ≤ last.char then some (.range first last) else none
  | _, _ => none

/-- The end of a member that stands alone.  Something has to follow. -/
def ended? (first : Primitive) : List Char → Option (ClassItem × List Char)
  | [] => none
  | c :: cs => first.item?.bind fun item => some (item, c :: cs)

/-- The rest of a range. -/
def rangeTo? (first : Primitive) (cs : List Char) : Option (ClassItem × List Char) :=
  (advance? verbose cs).bind fun cs => (classPart? verbose cs).bind fun y =>
    (range? first y.1).bind fun item => some (item, y.2)

/-- What refuses assertions does not tell the members of classes from all primitives. -/
theorem bind_classPrimitive? {γ : Type} {g : Primitive × List Char → Option γ}
    (refuses : ∀ a rest, g (.assertion a, rest) = none) (cs : List Char) :
    (classPrimitive? verbose cs).bind g = (classPart? verbose cs).bind g := by
  rcases classPrimitive?_cases verbose cs with same | ⟨none, assertion⟩
  · rw [same]
  · rw [none]
    refine Option.eq_none_iff_forall_ne_some.2 fun z hz => ?_
    obtain ⟨⟨x, rest⟩, read, hz⟩ := Option.bind_eq_some_iff.1 hz
    obtain ⟨a, rfl⟩ := assertion x rest read
    cases (refuses a rest).symm.trans hz

theorem alone_iff {c : Char} (cs : List Char) : (c != '-' || peekNext verbose (c :: cs) == some ']' ||
    peekNext verbose (c :: cs) == some '-') = true ↔ Alone verbose (c :: cs) := by
  simp [Alone, or_assoc]

theorem classItem?_eq (cs : List Char) : classItem? verbose cs =
    (classPart? verbose cs).bind fun y => if Alone verbose (settle verbose y.2)
      then ended? y.1 (settle verbose y.2) else rangeTo? verbose y.1 (settle verbose y.2) := by
  unfold classItem?
  refine (bind_classPrimitive? verbose (fun a rest => ?_) cs).trans
    (congrArg (Option.bind _) (funext fun y => ?_))
  · dsimp only
    rcases settle verbose rest with _ | ⟨c, cs⟩
    · rfl
    · by_cases alone : Alone verbose (c :: cs)
      · exact if_pos ((alone_iff verbose cs).2 alone)
      · refine (if_neg (mt (alone_iff verbose cs).1 alone)).trans ?_
        exact Option.bind_eq_none_iff.2 fun cs _ => Option.bind_eq_none_iff.2 fun y _ => rfl
  · rcases y with ⟨first, rest⟩
    dsimp only
    rcases settle verbose rest with _ | ⟨c, cs⟩
    · rfl
    · by_cases alone : Alone verbose (c :: cs)
      · rw [if_pos alone]
        exact if_pos ((alone_iff verbose cs).2 alone)
      · rw [if_neg alone]
        refine (if_neg (mt (alone_iff verbose cs).1 alone)).trans ?_
        refine congrArg (Option.bind _) (funext fun cs => ?_)
        refine (bind_classPrimitive? verbose (fun a rest => ?_) cs).trans
          (congrArg (Option.bind _) (funext fun y => ?_))
        · cases first <;> rfl
        · rcases y with ⟨last, rest⟩
          dsimp only
          split
          · rw [range?]
            split <;> rfl
          next other =>
            rw [range?.eq_2 first last other]
            rfl

theorem peekOver_agree {s : List Char} (hs : Closed s) {d : Char} (other : d ≠ ')') (t : List Char)
    (afterMark : Bool) (xs : List Char) :
    peekOver afterMark (xs ++ ')' :: t) = some d ↔ peekOver afterMark (xs ++ s) = some d := by
  have close (u : List Char) (b : Bool) : peekOver b (')' :: u) ≠ some d := by
    have found : peekOver b (')' :: u) = some ')' := rfl
    rw [found]
    simpa using Ne.symm other
  induction xs generalizing afterMark with
  | nil =>
    obtain rfl | ⟨u, rfl⟩ := hs.cases
    · exact iff_of_false (close t _) nofun
    · exact iff_of_false (close t _) (close u _)
  | cons c xs ih =>
    rw [List.cons_append, List.cons_append, peekOver, peekOver]
    split
    · exact ih _
    · split
      · exact ih _
      · rfl

/-- Where blanks are skipped, the next character is looked for behind them. -/
theorem peekNext_eq_some {d : Char} (blank : isBlank d = false) (mark : d ≠ '#') (c : Char)
    (cs : List Char) : peekNext true (c :: cs) = some d ↔ peekOver false cs = some d := by
  have here : peekNext true (c :: cs) = (peekOver false cs).or cs.head? := rfl
  rw [here, Option.or_eq_some_iff]
  refine ⟨fun h => h.resolve_right fun ⟨nothing, first⟩ => ?_, .inl⟩
  obtain ⟨cs, rfl⟩ := List.head?_eq_some_iff.1 first
  rw [peekOver, if_neg (by simp [blank]), if_neg (by simp [mark])] at nothing
  cases nothing

theorem alone_agree {t s xs : List Char} (hs : Closed s) (some : xs ≠ []) :
    Alone verbose (xs ++ ')' :: t) ↔ Alone verbose (xs ++ s) := by
  obtain ⟨c, xs, rfl⟩ := List.exists_cons_of_ne_nil some
  have next (d : Char) (other : d ≠ ')') (blank : isBlank d = false) (mark : d ≠ '#') :
      peekNext verbose (c :: xs ++ ')' :: t) = Option.some d ↔
        peekNext verbose (c :: xs ++ s) = Option.some d := by
    rw [List.cons_append, List.cons_append]
    cases verbose with
    | false =>
      rcases xs with _ | ⟨e, xs⟩
      · exact iff_of_false ((Closed.close t).head_ne other) (hs.head_ne other)
      · rfl
    | true =>
      rw [peekNext_eq_some blank mark, peekNext_eq_some blank mark]
      exact peekOver_agree hs other t false xs
  unfold Alone
  rw [next ']' (by decide) (by decide) (by decide), next '-' (by decide) (by decide) (by decide)]
  rfl

theorem severable_classItem? : Severable 1 1 (classItem? verbose) := by
  rw [funext (classItem?_eq verbose)]
  refine .bind (m := 0) (.weaken (severable_classPart? verbose) (Nat.le_refl _) (Nat.zero_le _))
    (fun first => ?_) (Nat.le_refl _)
  have alone : Severable 0 1 (ended? first) := by
    rcases read : first.item? with _ | item
    · have refused (cs : List Char) : ended? first cs = none := by
        unfold ended?
        split
        · rfl
        · rw [read]
          rfl
      rw [funext refused]
      exact .nothing
    · refine .left (y := item) rfl fun c cs => ?_
      rw [ended?, read]
      rfl
  have range : Severable 0 1 (rangeTo? verbose first) := by
    refine .weaken (.advanced verbose (k := 1) (.bind (m := 0) (severable_classPart? verbose) (fun last => ?_)
      (Nat.zero_le _)) (Nat.le_refl _)) (Nat.zero_le _) (Nat.zero_le _)
    exact .known (range? first last) fun item => .ret item
  exact .settled verbose (g := fun cs => if Alone verbose cs then ended? first cs else
    rangeTo? verbose first cs) (.asked (alone_agree verbose) alone range (Nat.le_refl _))

/-! ## 2. Words -/

theorem splitAt?_eq_some {mark : Char} {cs before after : List Char} :
    splitAt? [mark] cs = some (before, after) ↔ cs = before ++ mark :: after ∧ mark ∉ before := by
  induction cs generalizing before with
  | nil => simp [splitAt?]
  | cons c cs ih =>
    by_cases first : c = mark
    · subst first
      have here : splitAt? [c] (c :: cs) = some ([], cs) := if_pos (by simp)
      rw [here]
      constructor
      · rintro ⟨⟩
        exact ⟨rfl, List.not_mem_nil⟩
      · rintro ⟨same, free⟩
        rcases before with _ | ⟨d, before⟩
        · cases same
          rfl
        · cases same
          exact absurd List.mem_cons_self free
    · have later : splitAt? [mark] (c :: cs) =
          (splitAt? [mark] cs).map fun y => (c :: y.1, y.2) := if_neg (by simpa using Ne.symm first)
      rw [later]
      constructor
      · intro h
        obtain ⟨⟨before', after'⟩, read, same⟩ := Option.map_eq_some_iff.1 h
        cases same
        obtain ⟨rfl, free⟩ := ih.1 read
        exact ⟨rfl, by simpa [Ne.symm first] using free⟩
      · rintro ⟨same, free⟩
        rcases before with _ | ⟨d, before⟩
        · exact absurd (List.cons.inj same).1 first
        · cases same
          rw [ih.2 ⟨rfl, fun more => free (List.mem_cons_of_mem _ more)⟩]
          rfl

/-- The names of classes of ASCII characters are lower-case words. -/
theorem isLower_of_ofName? {name : List Char} {c : AsciiClass}
    (h : AsciiClass.ofName? (String.ofList name) = some c) : ∀ d ∈ name, d.isLower := by
  have found {names : List (String × AsciiClass)} (all : names.all fun p => p.1.toList.all Char.isLower)
      (h : List.lookup (String.ofList name) names = some c) : ∀ d ∈ name, d.isLower := by
    obtain ⟨before, after, split, -⟩ := List.lookup_eq_some_iff.1 h
    have listed : (String.ofList name, c) ∈ names := by
      rw [split]
      simp
    have lower := List.all_eq_true.1 (List.all_eq_true.1 all _ listed)
    rwa [String.toList_ofList] at lower
  exact found rfl h

/-- The name of a class and what closes it. -/
def asciiNamed? (negated : Bool) (cs : List Char) : Option (ClassItem × List Char) :=
  (splitAt? [':'] cs).bind fun y => match y.2 with
    | ']' :: rest => (AsciiClass.ofName? (String.ofList y.1)).map fun c => (.ascii negated c, rest)
    | _ => none

theorem asciiNamed?_eq_some {negated : Bool} {cs rest : List Char} {item : ClassItem} :
    asciiNamed? negated cs = some (item, rest) ↔
      ∃ name c, AsciiClass.ofName? (String.ofList name) = some c ∧ item = .ascii negated c ∧
        cs = name ++ ':' :: ']' :: rest := by
  constructor
  · intro h
    obtain ⟨⟨name, after⟩, read, named⟩ := Option.bind_eq_some_iff.1 h
    obtain ⟨rfl, -⟩ := splitAt?_eq_some.1 read
    dsimp only at named
    split at named
    · obtain ⟨c, hc, same⟩ := Option.map_eq_some_iff.1 named
      cases same
      exact ⟨name, c, hc, rfl, rfl⟩
    · cases named
  · rintro ⟨name, c, hc, rfl, rfl⟩
    have free : ':' ∉ name := fun more => absurd (isLower_of_ofName? hc _ more) (by decide)
    rw [asciiNamed?, splitAt?_eq_some.2 ⟨rfl, free⟩]
    simp [hc]

/-- The named class of ASCII characters that a word writes. -/
def WritesAscii (item : ClassItem) (word : List Char) : Prop :=
  ∃ negated name c, AsciiClass.ofName? (String.ofList name) = some c ∧ item = .ascii negated c ∧
    word = '[' :: ':' :: ((if negated then ['^'] else []) ++ name ++ [':', ']'])

theorem asciiClass?_words {cs rest : List Char} {item : ClassItem} :
    asciiClass? cs = some (item, rest) ↔ ∃ word, WritesAscii item word ∧ cs = word ++ rest := by
  constructor
  · intro h
    unfold asciiClass? at h
    split at h
    next cs =>
      obtain ⟨name, c, hc, rfl, rfl⟩ := asciiNamed?_eq_some.1 (show asciiNamed? true cs = _ from h)
      exact ⟨_, ⟨true, name, c, hc, rfl, rfl⟩, by simp⟩
    next cs _ =>
      obtain ⟨name, c, hc, rfl, rfl⟩ := asciiNamed?_eq_some.1 (show asciiNamed? false cs = _ from h)
      exact ⟨_, ⟨false, name, c, hc, rfl, rfl⟩, by simp⟩
    · cases h
  · rintro ⟨word, ⟨negated, name, c, hc, rfl, rfl⟩, rfl⟩
    have named : asciiNamed? negated (name ++ ':' :: ']' :: rest) = some (.ascii negated c, rest) :=
      asciiNamed?_eq_some.2 ⟨name, c, hc, rfl, rfl⟩
    cases negated with
    | true =>
      rw [← named]
      simp only [if_true, List.cons_append, List.nil_append, List.append_assoc]
      rfl
    | false =>
      rw [← named]
      simp only [Bool.false_eq_true, if_false, List.cons_append, List.nil_append, List.append_assoc]
      rcases name with _ | ⟨d, name⟩
      · rfl
      · have other : d ≠ '^' := by
          rintro rfl
          exact absurd (isLower_of_ofName? hc _ List.mem_cons_self) (by decide)
        simp only [asciiClass?, List.cons_append, List.cons.injEq, other, false_and, imp_self, implies_true]
        rfl

theorem WritesAscii.free {item : ClassItem} {word : List Char} (h : WritesAscii item word) :
    ')' ∉ word ∧ 1 ≤ word.length := by
  obtain ⟨negated, name, c, hc, -, rfl⟩ := h
  have free : ')' ∉ name := fun more => absurd (isLower_of_ofName? hc _ more) (by decide)
  refine ⟨?_, Nat.le_add_left 1 _⟩
  cases negated <;> simp [free]

/-- The operator that a word writes. -/
def WritesOperator : SetOperator → List Char → Prop
  | .intersection, word => word = ['&', '&']
  | .difference, word => word = ['-', '-']
  | .symmetricDifference, word => word = ['~', '~']

theorem operator?_words {cs rest : List Char} {op : SetOperator} :
    operator? cs = some (op, rest) ↔ ∃ word, WritesOperator op word ∧ cs = word ++ rest := by
  constructor
  · intro h
    unfold operator? at h
    split at h
    · cases h
      exact ⟨_, rfl, rfl⟩
    · cases h
      exact ⟨_, rfl, rfl⟩
    · cases h
      exact ⟨_, rfl, rfl⟩
    · cases h
  · rintro ⟨word, hw, rfl⟩
    cases op <;> cases hw <;> rfl

theorem WritesOperator.free {op : SetOperator} {word : List Char} (h : WritesOperator op word) :
    ')' ∉ word ∧ 1 ≤ word.length := by
  cases op <;> cases h <;> decide

/-! ## 3. Classes -/

theorem leadingHyphens_eq (n : Nat) (cs : List Char) : leadingHyphens verbose n cs =
    ((spanSettled verbose (· == '-') n cs).1.map fun _ => .symbol ⟨'-', false⟩,
      (spanSettled verbose (· == '-') n cs).2) := by
  induction n generalizing cs with
  | zero => rfl
  | succ n ih =>
    rcases cs with _ | ⟨c, cs⟩
    · rfl
    · by_cases hyphen : c = '-'
      · subst hyphen
        rw [leadingHyphens, ih, spanSettled]
        rfl
      · rw [leadingHyphens, spanSettled, if_neg (by simpa using hyphen)]
        · rfl
        · simp [hyphen]

/-- Whether a class is negated, from the place behind its bracket. -/
def negation? (cs : List Char) : Option (Bool × List Char) :=
  match cs with
  | '^' :: _ => (advance? verbose cs).map fun cs => (true, cs)
  | cs => some (false, cs)

/-- The first members of a class behind its hyphens, with whether the class is negated. -/
def firstItems? (negated : Bool) (hyphens cs : List Char) : Option ((Bool × List ClassItem) × List Char) :=
  match hyphens.map fun _ => ClassItem.symbol ⟨'-', false⟩, cs with
  | _, [] => none
  | [], ']' :: _ => (advance? verbose cs).map fun cs => ((negated, [.symbol ⟨']', false⟩]), cs)
  | items, cs => some ((negated, items), cs)

/-- The opening of a class, as a reader. -/
def classHead? (cs : List Char) : Option ((Bool × List ClassItem) × List Char) :=
  (advance? verbose cs).bind fun cs => (negation? verbose cs).bind fun y =>
    firstItems? verbose y.1 (run verbose (· == '-') y.2).1 (run verbose (· == '-') y.2).2

theorem classOpening?_eq (cs : List Char) :
    classOpening? verbose cs = (classHead? verbose cs).map fun y => (y.1.1, y.1.2, y.2) := by
  have items (negated : Bool) (hyphens cs : List Char) :
      (match hyphens.map fun _ => ClassItem.symbol ⟨'-', false⟩, cs with
        | _, [] => none
        | [], ']' :: _ => (advance? verbose cs).map fun cs => (negated, [ClassItem.symbol ⟨']', false⟩], cs)
        | items, cs => some (negated, items, cs)) =
      (firstItems? verbose negated hyphens cs).map fun y => (y.1.1, y.1.2, y.2) := by
    unfold firstItems?
    rcases cs with _ | ⟨c, cs⟩
    · rfl
    · rcases hyphens with _ | ⟨d, hyphens⟩
      · by_cases close : c = ']'
        · subst close
          simp [Function.comp_def]
        · simp [close]
      · simp
  unfold classOpening? classHead?
  simp only [leadingHyphens_eq, Option.bind_eq_bind]
  rcases advance? verbose cs with _ | cs
  · rfl
  · simp only [Option.bind_some]
    rcases cs with _ | ⟨c, cs⟩
    · rfl
    · by_cases caret : c = '^'
      · subst caret
        rw [negation?]
        rcases advance? verbose ('^' :: cs) with _ | cs
        · rfl
        · exact items true _ _
      · simp only [negation?, caret, List.cons.injEq, false_and, imp_self, implies_true]
        exact items false _ _

theorem severable_classHead? : Severable 1 1 (classHead? verbose) := by
  have negation : Severable 0 1 (negation? verbose) := by
    refine .here '^' (by decide) (k := 1) (m := 0) (g := fun cs => (advance? verbose cs).bind fun cs =>
      some (true, cs)) (h := fun cs => some (false, cs)) (.advanced verbose (.ret true) (Nat.le_refl _))
      (.ret false) (fun cs => Option.map_eq_bind) fun cs other => ?_
    unfold negation?
    split
    · exact absurd rfl other
    · rfl
  have first (negated : Bool) (hyphens : List Char) :
      Severable 0 1 (firstItems? verbose negated hyphens) := by
    rcases hyphens with _ | ⟨d, hyphens⟩
    · refine .here ']' (by decide) (k := 1) (m := 0) (g := fun cs => (advance? verbose cs).bind fun cs =>
        some ((negated, [.symbol ⟨']', false⟩]), cs)) (h := fun cs => if cs = [] then none else
          some ((negated, []), cs)) (.advanced verbose (.ret _) (Nat.le_refl _))
        (.left rfl fun _ _ => rfl) (fun cs => Option.map_eq_bind) fun cs other => ?_
      rcases cs with _ | ⟨c, cs⟩
      · rfl
      · have other : c ≠ ']' := by simpa using other
        simp [firstItems?, other]
    · refine .left (y := (negated, (d :: hyphens).map fun _ => .symbol ⟨'-', false⟩)) rfl fun c cs => ?_
      simp [firstItems?]
  refine .advanced verbose (k := 0) (.bind (k := 0) (m := 0) negation (fun negated => ?_) (Nat.le_refl _))
    (Nat.le_refl _)
  exact .spanned verbose (· == '-') (first negated)

section
variable (n : Nat) (pending : Option (SetOperator × ClassSet)) (items : List ClassItem)

/-- The rest of a class from a class in it. -/
def bracketRest? (cs : List Char) : Option (ClassSet × List Char) :=
  (asciiClass? cs).elim
    ((classHead? verbose cs).bind fun y => (classRest? verbose n none y.1.2.reverse y.2).bind fun z =>
      classRest? verbose n pending (.bracketed y.1.1 z.1 :: items) z.2)
    fun y => classRest? verbose n pending (y.1 :: items) y.2

/-- The rest of a class from an operator or another member. -/
def memberRest? (cs : List Char) : Option (ClassSet × List Char) :=
  (operator? cs).elim
    ((classItem? verbose cs).bind fun y => classRest? verbose n pending (y.1 :: items) y.2)
    fun y => classRest? verbose n (some (y.1, combine pending items.reverse)) [] y.2

/-- The rest of a class without blanks before it. -/
def settledRest? (cs : List Char) : Option (ClassSet × List Char) :=
  match cs with
  | ']' :: rest => some (combine pending items.reverse, rest)
  | '[' :: rest => bracketRest? verbose n pending items ('[' :: rest)
  | cs => memberRest? verbose n pending items cs

theorem classRest?_succ (cs : List Char) : classRest? verbose (n + 1) pending items cs =
    settledRest? verbose n pending items (settle verbose cs) := by
  rw [classRest?]
  generalize settle verbose cs = cs
  rcases cs with _ | ⟨c, cs⟩
  · rfl
  · by_cases close : c = ']'
    · subst close
      rfl
    · by_cases opening : c = '['
      · subst opening
        simp only [settledRest?, bracketRest?, classOpening?_eq]
        rcases asciiClass? ('[' :: cs) with _ | y
        · rcases classHead? verbose ('[' :: cs) with _ | y <;> rfl
        · rfl
      · simp only [settledRest?, memberRest?, close, opening, List.cons.injEq, false_and, imp_self,
          implies_true]
        rcases operator? (c :: cs) with _ | y
        · rcases classItem? verbose (c :: cs) with _ | y <;> rfl
        · rfl

end

/-- The rest of a class can be cut off, with a bound on the number of parts that is large enough. -/
def ClassSevers (n : Nat) : Prop := ∀ m room, room < m → ∀ pending items,
  Severs 1 0 room (classRest? verbose n pending items) (classRest? verbose m pending items)

theorem ClassSevers.consumes {verbose : Bool} {n : Nat} (h : ClassSevers verbose n)
    (pending : Option (SetOperator × ClassSet)) (items : List ClassItem) :
    Consumes 1 (classRest? verbose n pending items) :=
  (h 1 0 Nat.one_pos pending items).consumes

section
variable {verbose} {n : Nat} (ih : ClassSevers verbose n) {m room : Nat} (enough : room ≤ m)
  (pending : Option (SetOperator × ClassSet)) (items : List ClassItem)
include ih enough

theorem severs_bracketRest? : Severs 1 0 room (bracketRest? verbose n pending items)
    (bracketRest? verbose m pending items) := by
  have inner (y : Bool × List ClassItem) (room' : Nat) (less : room' + 1 ≤ room) :
      Severs (1 + 1) 0 room' (fun cs => (classRest? verbose n none y.2.reverse cs).bind fun z =>
        classRest? verbose n pending (.bracketed y.1 z.1 :: items) z.2)
        fun cs => (classRest? verbose m none y.2.reverse cs).bind fun z =>
          classRest? verbose m pending (.bracketed y.1 z.1 :: items) z.2 :=
    .bind (ih m room' (by omega) none y.2.reverse)
      (fun set => ih.consumes pending (.bracketed y.1 set :: items))
      (fun set room'' less' => ih m room'' (by omega) pending (.bracketed y.1 set :: items)) (by omega)
  have nested : Severs (1 + 1) 0 room (fun cs => (classHead? verbose cs).bind fun y =>
      (classRest? verbose n none y.1.2.reverse y.2).bind fun z =>
        classRest? verbose n pending (.bracketed y.1.1 z.1 :: items) z.2)
      fun cs => (classHead? verbose cs).bind fun y =>
        (classRest? verbose m none y.1.2.reverse y.2).bind fun z =>
          classRest? verbose m pending (.bracketed y.1.1 z.1 :: items) z.2 :=
    .weaken (.bind (m := 1 + 1) (severable_classHead? verbose room)
      (fun y => Consumes.bind (ih.consumes none y.2.reverse) fun set =>
        ih.consumes pending (.bracketed y.1 set :: items))
      inner (by omega)) (by omega) (Nat.le_refl _)
  exact .weaken (.orElse (k := 1) (m := 1) asciiClass?_words (fun h => h.free)
    (fun item => ih.consumes pending (item :: items))
    (fun item room' less => ih m room' (by omega) pending (item :: items)) nested) (by omega)
    (Nat.le_refl _)

theorem severs_memberRest? : Severs 1 0 room (memberRest? verbose n pending items)
    (memberRest? verbose m pending items) := by
  have single : Severs (1 + 1) 0 room
      (fun cs => (classItem? verbose cs).bind fun y => classRest? verbose n pending (y.1 :: items) y.2)
      fun cs => (classItem? verbose cs).bind fun y => classRest? verbose m pending (y.1 :: items) y.2 :=
    .bind (severable_classItem? verbose room) (fun item => ih.consumes pending (item :: items))
      (fun item room' less => ih m room' (by omega) pending (item :: items)) (Nat.le_refl _)
  exact .weaken (.orElse (k := 1) (m := 1) operator?_words (fun h => h.free)
    (fun op => ih.consumes (some (op, combine pending items.reverse)) [])
    (fun op room' less => ih m room' (by omega) (some (op, combine pending items.reverse)) []) single)
    (by omega) (Nat.le_refl _)

theorem severs_settledRest? : Severs 1 0 room (settledRest? verbose n pending items)
    (settledRest? verbose m pending items) := by
  have others : Severs 1 0 room
      (fun cs => if cs.head? = some '[' then bracketRest? verbose n pending items cs
        else memberRest? verbose n pending items cs)
      fun cs => if cs.head? = some '[' then bracketRest? verbose m pending items cs
        else memberRest? verbose m pending items cs :=
    .here '[' (by decide) (severs_bracketRest? ih enough pending items)
      (severs_memberRest? ih enough pending items) (fun _ => if_pos rfl) (fun _ => if_pos rfl)
      (fun _ first => if_neg first) fun _ first => if_neg first
  have miss (n : Nat) (cs : List Char) (close : cs.head? ≠ some ']') :
      settledRest? verbose n pending items cs = if cs.head? = some '[' then
        bracketRest? verbose n pending items cs else memberRest? verbose n pending items cs := by
    unfold settledRest?
    split
    · exact absurd rfl close
    · rfl
    next opening =>
      refine (if_neg fun first => ?_).symm
      obtain ⟨rest, rfl⟩ := List.head?_eq_some_iff.1 first
      exact opening rest rfl
  have closing (room : Nat) : Severs 0 0 room (fun cs => some (combine pending items.reverse, cs))
      fun cs => some (combine pending items.reverse, cs) := .ret _
  exact .head ']' (k := 0) (m := 1) (closing 0).consumes (fun room' _ => closing room') others
    (miss n) (miss m)

end

/-- **The rest of a class can be cut off.** -/
theorem classSevers (n : Nat) : ClassSevers verbose n := by
  induction n with
  | zero =>
    intro m room enough pending items
    have none (cs : List Char) : classRest? verbose 0 pending items cs = none := by rw [classRest?]
    rw [funext none]
    exact .nothing
  | succ n ih =>
    intro m room enough pending items
    obtain ⟨m, rfl⟩ := Nat.exists_eq_add_one_of_ne_zero (Nat.ne_zero_of_lt enough)
    rw [funext (classRest?_succ verbose n pending items), funext (classRest?_succ verbose m pending items)]
    exact .settled verbose (severs_settledRest? ih (Nat.le_of_lt_succ enough) pending items)

/-- A class with a bound on the number of its parts. -/
def classWithin? (n : Nat) (cs : List Char) : Option (Ast × List Char) :=
  (classHead? verbose cs).bind fun y => (classRest? verbose n none y.1.2.reverse y.2).bind fun z =>
    some (.bracketed y.1.1 z.1, z.2)

theorem class?_eq (cs : List Char) : class? verbose cs = classWithin? verbose (cs.length + 1) cs := by
  unfold class? classWithin?
  rw [classOpening?_eq]
  cases classHead? verbose cs <;> rfl

theorem severs_classWithin? (n m room : Nat) (enough : room < m) :
    Severs 2 0 room (classWithin? verbose n) (classWithin? verbose m) := by
  have rest (n m room : Nat) (enough : room < m) (y : Bool × List ClassItem) :
      Severs 1 0 room (fun cs => (classRest? verbose n none y.2.reverse cs).bind fun z =>
        some (Ast.bracketed y.1 z.1, z.2)) fun cs => (classRest? verbose m none y.2.reverse cs).bind fun z =>
          some (Ast.bracketed y.1 z.1, z.2) :=
    .bind (m := 0) (classSevers verbose n m room enough none y.2.reverse)
      (fun set => (Severable.ret (l := 0) (Ast.bracketed y.1 set)).consumes)
      (fun set _ _ => .ret (Ast.bracketed y.1 set)) (Nat.le_refl _)
  exact .bind (m := 1) (severable_classHead? verbose room)
    (fun y => (rest n 1 0 Nat.one_pos y).consumes)
    (fun y room' less => rest n m room' (by omega) y) (Nat.le_refl _)

theorem severable_class? : Severable 2 0 (class? verbose) := fun room => {
  consumes := fun {cs x rest} h =>
    (severs_classWithin? verbose (cs.length + 1) 1 0 Nat.one_pos).consumes
      ((class?_eq verbose cs).symm.trans h)
  cut := fun {t s xs x ys} hs hr hy h => by
    have enough : xs.length < (xs ++ s).length + 1 := by
      rw [List.length_append]
      omega
    rw [class?_eq] at h ⊢
    exact (severs_classWithin? verbose _ _ xs.length enough).cut hs (Nat.le_refl _) hy h }

end LazyPeg.Pattern
