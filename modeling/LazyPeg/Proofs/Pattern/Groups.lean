import LazyPeg.Proofs.Pattern.Classes

/-!
# The openings of groups can be cut off

What follows the parenthesis of a group: a mark and a name, or a mark and flags, or nothing
(`severable_opening?`).  Flags alone end at a closing parenthesis, which they leave, so they are cut off only
where that one stands before the parenthesis in question (`severable_flags?`).
-/
namespace LazyPeg.Pattern

variable (verbose : Bool)

/-! ## 1. Names -/

theorem severable_splitAt? (mark : Char) : Severable 1 0 (splitAt? [mark]) := fun room => {
  consumes := fun {cs before after} h => by
    obtain ⟨rfl, -⟩ := splitAt?_eq_some.1 h
    exact ⟨before ++ [mark], by simp, by simp⟩
  cut := fun {t s xs before ys} _ _ _ h => by
    obtain ⟨split, free⟩ := splitAt?_eq_some.1 h
    have split : xs ++ ')' :: t = before ++ mark :: ys ++ ')' :: t := by simpa using split
    rw [List.append_cancel_right split]
    exact splitAt?_eq_some.2 ⟨by simp, free⟩ }

/-- A text that may be the name of a group. -/
def validName? : List Char → Option (List Char)
  | [] => none
  | c :: name => if isNameChar true c && name.all (isNameChar false) then some (c :: name) else none

theorem groupName?_eq (cs : List Char) : groupName? cs =
    (splitAt? ['>'] cs).bind fun y => (validName? y.1).bind fun name => some (name, y.2) := by
  unfold groupName?
  rcases splitAt? ['>'] cs with _ | ⟨_ | ⟨c, name⟩, rest⟩
  · rfl
  · rfl
  · simp only [Option.bind_some, validName?]
    split <;> rfl

theorem severable_groupName? : Severable 1 0 groupName? := by
  rw [funext groupName?_eq]
  refine .bind (m := 0) (severable_splitAt? '>') (fun name => ?_) (Nat.zero_le _)
  exact .known (validName? name) fun name => .ret name

/-! ## 2. Flags -/

/-- Nothing follows, or the end of the flags. -/
def AtFlagsEnd (cs : List Char) : Prop := ∀ d, cs.head? = some d → d = ':' ∨ d = ')'

instance : DecidablePred AtFlagsEnd := fun
  | [] => .isTrue nofun
  | d :: _ => decidable_of_iff (d = ':' ∨ d = ')')
    ⟨fun h _ same => Option.some.inj same ▸ h, fun h => h d rfl⟩

section
variable {cleared : Bool} {changes : FlagChanges} {c : Char} (cs : List Char)

theorem atFlagsEnd_cons {d : Char} : AtFlagsEnd (d :: cs) ↔ d = ':' ∨ d = ')' :=
  ⟨fun h => h d rfl, fun h _ same => Option.some.inj same ▸ h⟩

theorem flags?_end (h : c = ':' ∨ c = ')') : flags? cleared changes (c :: cs) = some (changes, c :: cs) := by
  rw [flags?.eq_def]
  exact if_pos h

theorem flags?_hyphen : flags? cleared changes ('-' :: cs) =
    if cleared ∨ AtFlagsEnd cs then none else flags? true changes cs := by
  rw [flags?.eq_def]
  simp only [Char.reduceEq, or_self, if_false, if_true]
  cases cleared with
  | true => simp
  | false =>
    rcases cs with _ | ⟨d, cs⟩
    · exact (if_pos (.inr nofun)).symm
    · simp [atFlagsEnd_cons]

/-- The changes with one more flag. -/
def moreFlags? (cleared : Bool) (changes : FlagChanges) (c : Char) : Option FlagChanges :=
  (Flag.ofLetter? c).bind fun flag =>
    if changes.any (·.1 == flag) then none else some (changes ++ [(flag, !cleared)])

theorem flags?_letter (stays : ¬ (c = ':' ∨ c = ')')) (hyphen : c ≠ '-') :
    flags? cleared changes (c :: cs) =
      (moreFlags? cleared changes c).bind fun changes => flags? cleared changes cs := by
  rw [flags?.eq_def]
  simp only [if_neg stays, if_neg hyphen, moreFlags?]
  cases Flag.ofLetter? c with
  | none => rfl
  | some flag =>
    simp only [Option.bind_some]
    split <;> rfl

end

theorem consumes_flags? (cleared : Bool) (changes : FlagChanges) : Consumes 0 (flags? cleared changes) := by
  intro cs x rest h
  induction cs generalizing cleared changes with
  | nil => cases h
  | cons c cs ih =>
    have behind (h : ∃ taken, cs = taken ++ rest ∧ 0 ≤ taken.length) :
        ∃ taken, c :: cs = taken ++ rest ∧ 0 ≤ taken.length := by
      obtain ⟨taken, rfl, -⟩ := h
      exact ⟨c :: taken, rfl, Nat.zero_le _⟩
    by_cases stays : c = ':' ∨ c = ')'
    · rw [flags?_end cs stays] at h
      cases h
      exact ⟨[], rfl, Nat.le_refl 0⟩
    · by_cases hyphen : c = '-'
      · subst hyphen
        rw [flags?_hyphen] at h
        split at h
        · cases h
        · exact behind (ih _ _ h)
      · rw [flags?_letter cs stays hyphen] at h
        obtain ⟨changes', -, h⟩ := Option.bind_eq_some_iff.1 h
        exact behind (ih _ _ h)

/-- The flags end at a colon before the parenthesis, which is left. -/
theorem flags?_cut {cleared : Bool} {changes x : FlagChanges} {t s xs ys : List Char} (left : 1 ≤ ys.length)
    (h : flags? cleared changes (xs ++ ')' :: t) = some (x, ys ++ ')' :: t)) :
    flags? cleared changes (xs ++ s) = some (x, ys ++ s) := by
  induction xs generalizing cleared changes with
  | nil =>
    rw [List.nil_append, flags?_end t (.inr rfl)] at h
    have all : [] ++ ')' :: t = ys ++ ')' :: t := (Prod.mk.inj (Option.some.inj h)).2
    rw [← List.append_cancel_right all] at left
    exact absurd left (by decide)
  | cons c xs ih =>
    rw [List.cons_append] at h ⊢
    by_cases stays : c = ':' ∨ c = ')'
    · rw [flags?_end _ stays] at h ⊢
      obtain ⟨rfl, same⟩ := Prod.mk.inj (Option.some.inj h)
      have all : c :: xs ++ ')' :: t = ys ++ ')' :: t := same
      rw [← List.append_cancel_right all]
      rfl
    · by_cases hyphen : c = '-'
      · subst hyphen
        rw [flags?_hyphen] at h ⊢
        split at h
        · cases h
        next goes =>
          rcases xs with _ | ⟨d, xs⟩
          · exact absurd (.inr fun d first => .inr (Option.some.inj first).symm) goes
          · have goes' : ¬ (cleared ∨ AtFlagsEnd (d :: xs ++ s)) := goes
            rw [if_neg goes']
            exact ih h
      · rw [flags?_letter _ stays hyphen] at h ⊢
        obtain ⟨changes', more, h⟩ := Option.bind_eq_some_iff.1 h
        rw [more]
        exact ih h

theorem severable_flags? (cleared : Bool) (changes : FlagChanges) :
    Severable 0 1 (flags? cleared changes) :=
  fun _ => ⟨consumes_flags? cleared changes, fun _ _ hy h => flags?_cut hy h⟩

/-! ## 3. Openings -/

/-- What flags open. -/
def flagged? (cs : List Char) : Option (Opening × List Char) :=
  match flags? false [] cs with
  | some ([], ')' :: _) => none
  | some (changes, ')' :: rest) => some (.flags changes, rest)
  | some (changes, _ :: rest) => some (.group changes, rest)
  | _ => none

theorem severable_flagged? : Severable 1 0 flagged? := by
  have same (cs : List Char) : flagged? cs = (flags? false [] cs).bind fun y => match y.2 with
      | [] => none
      | c :: rest =>
        if c = ')' then (if y.1 = [] then none else some (.flags y.1, rest))
          else some (.group y.1, rest) := by
    unfold flagged?
    rcases flags? false [] cs with _ | ⟨changes, _ | ⟨c, rest⟩⟩
    · rfl
    · cases changes <;> rfl
    · by_cases close : c = ')'
      · subst close
        cases changes <;> rfl
      · simp [close]
  rw [funext same]
  refine .bind (k := 0) (m := 1) (severable_flags? false []) (fun changes => ?_) (Nat.le_refl _)
  refine .cons (k := 0) (fun c => ?_) rfl
  change Severable 0 0 fun cs =>
    if c = ')' then (if changes = [] then none else some (Opening.flags changes, cs))
      else some (Opening.group changes, cs)
  exact .ite (.ite .nothing (.ret _)) (.ret _)

/-- The opening of a group with a name, behind its bracket. -/
theorem severable_opening?_angle : Severable 0 0 fun cs => opening? false ('?' :: '<' :: cs) := by
  refine .weaken (.cons (k := 0) (fun c => ?_) rfl) (Nat.zero_le _) (Nat.le_refl _)
  by_cases ahead : c = '=' ∨ c = '!'
  · have none (cs : List Char) : opening? false ('?' :: '<' :: c :: cs) = none := by
      rcases ahead with rfl | rfl <;> rfl
    simp only [none]
    exact .nothing
  · have named (cs : List Char) : opening? false ('?' :: '<' :: c :: cs) =
        (groupName? (c :: cs)).map fun y => (.named y.1, y.2) := by
      rw [not_or] at ahead
      simp [opening?, settle, ahead]
    simp only [named]
    exact (severable_groupName?.behind c).map _

/-- The opening of a group with a name, behind its letter. -/
theorem severable_opening?_letter : Severable 0 0 fun cs => opening? false ('?' :: 'P' :: cs) := by
  refine .weaken (.cons (k := 0) (fun c => ?_) rfl) (Nat.zero_le _) (Nat.le_refl _)
  by_cases less : c = '<'
  · subst less
    exact .weaken (severable_groupName?.map Opening.named) (Nat.zero_le _) (Nat.le_refl _)
  · have none (cs : List Char) : opening? false ('?' :: 'P' :: c :: cs) = none := by
      have noFlag : flags? false [] ('P' :: c :: cs) = Option.none := by
        rw [flags?_letter _ (by decide) (by decide)]
        rfl
      simp [opening?, settle, less, noFlag]
    simp only [none]
    exact .nothing

/-- The opening of a group behind its mark. -/
theorem severable_opening?_mark : Severable 0 0 fun cs => opening? false ('?' :: cs) := by
  refine .weaken (.cons (k := 0) (fun c => ?_) rfl) (Nat.zero_le _) (Nat.le_refl _)
  by_cases ahead : c = '=' ∨ c = '!'
  · have none (cs : List Char) : opening? false ('?' :: c :: cs) = none := by
      rcases ahead with rfl | rfl <;> rfl
    simp only [none]
    exact .nothing
  by_cases less : c = '<'
  · subst less
    exact severable_opening?_angle
  by_cases named : c = 'P'
  · subst named
    exact severable_opening?_letter
  have flags (cs : List Char) : opening? false ('?' :: c :: cs) = flagged? (c :: cs) := by
    rw [not_or] at ahead
    simp only [opening?, settle, Bool.false_eq_true, if_false, List.cons.injEq, ahead, less, named,
      false_and, imp_self, implies_true]
    rfl
  simp only [flags]
  exact severable_flagged?.behind c

theorem severable_opening? : Severable 0 0 (opening? verbose) := by
  have plain (cs : List Char) (other : cs.head? ≠ some '?') :
      opening? false cs = some (.group [], cs) := by
    rcases cs with _ | ⟨c, cs⟩
    · rfl
    · have other : c ≠ '?' := by simpa using other
      simp [opening?, settle, other]
  exact .settled verbose (g := opening? false) (.weaken (.head '?' (k := 0) (m := 0)
    (h := fun cs => some (.group [], cs)) severable_opening?_mark (.ret _) plain) (Nat.zero_le _)
    (Nat.le_refl _))

end LazyPeg.Pattern
