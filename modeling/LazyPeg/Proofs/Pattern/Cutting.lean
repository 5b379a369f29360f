import LazyPeg.Pattern.Reader

/-!
# Cutting a text where a reader stops

A reader goes over the front of a text and leaves the rest.  It has seen some of what it leaves, since it
had to find out where to stop.  If it stops before a closing parenthesis, or at one, it has seen nothing
behind that one, and **it would read the same if the text ended there**, or went on in another way behind
the parenthesis.  This is said by `Severs`, with what a reader needs: some readers want more characters to
follow before the parenthesis, and those with a bound on their steps want room for them.

* §1 defines it and says how readers are put together.
* §2 is about blanks and runs of characters, the only places where a reader looks at what it leaves.
* §3 is about readers that need no bound, and so sever whatever room there is (`Severable`).
-/
namespace LazyPeg.Pattern

variable {β γ : Type}

/-! ## 1. Readers -/

/-- A reader takes at least `least` characters off the front. -/
def Consumes (least : Nat) (f : List Char → Option (β × List Char)) : Prop :=
  ∀ {cs x rest}, f cs = some (x, rest) → ∃ taken, cs = taken ++ rest ∧ least ≤ taken.length

theorem Consumes.bind {k m : Nat} {f : List Char → Option (β × List Char)}
    {g : β × List Char → Option (γ × List Char)} (hf : Consumes k f)
    (hg : ∀ x, Consumes m fun cs => g (x, cs)) : Consumes (k + m) fun cs => (f cs).bind g := by
  intro cs y rest h
  obtain ⟨⟨x, mid⟩, hfirst, hsecond⟩ := Option.bind_eq_some_iff.1 h
  obtain ⟨first, rfl, hk⟩ := hf hfirst
  obtain ⟨second, rfl, hk'⟩ := hg x hsecond
  exact ⟨first ++ second, (List.append_assoc ..).symm, by rw [List.length_append]; omega⟩

/-- A text that is at its end, or goes on with a closing parenthesis. -/
def Closed (s : List Char) : Prop := ∀ c, s.head? = some c → c = ')'

/-- A reader takes at least `least` characters.  Let it stop before a closing parenthesis, with at least
`left` characters left before that, and let there be at most `room` characters before the parenthesis at
all.  Then another reader, which is the same one up to a bound on its steps, reads the same where the text
ends there or goes on in another way behind a parenthesis. -/
structure Severs (least left room : Nat) (f f' : List Char → Option (β × List Char)) : Prop where
  consumes : Consumes least f
  cut : ∀ {t s xs x ys}, Closed s → xs.length ≤ room → left ≤ ys.length →
    f (xs ++ ')' :: t) = some (x, ys ++ ')' :: t) → f' (xs ++ s) = some (x, ys ++ s)

/-- A reader severs whatever room there is. -/
def Severable (least left : Nat) (f : List Char → Option (β × List Char)) : Prop :=
  ∀ room, Severs least left room f f

/-- What stands behind a parenthesis does not end in a text with this parenthesis. -/
theorem ne_append_close {taken ys t : List Char} : t ≠ taken ++ (ys ++ ')' :: t) := by
  intro same
  have := congrArg List.length same
  simp only [List.length_append, List.length_cons] at this
  omega

namespace Closed

variable {s : List Char}

theorem nil : Closed [] := nofun

theorem close (t : List Char) : Closed (')' :: t) := fun _ h => (Option.some.inj h).symm

/-- Either of the two ways to go on. -/
theorem cases (h : Closed s) : s = [] ∨ ∃ t, s = ')' :: t := by
  rcases s with _ | ⟨c, t⟩
  · exact .inl rfl
  · exact .inr ⟨t, by rw [h c rfl]⟩

theorem head_ne (h : Closed s) {c : Char} (other : c ≠ ')') : s.head? ≠ some c :=
  fun first => other (h c first)

theorem head_append_ne (h : Closed s) {xs : List Char} {c : Char} (other : c ≠ ')')
    (first : xs.head? ≠ some c) : (xs ++ s).head? ≠ some c := by
  rcases xs with _ | ⟨d, xs⟩
  · exact h.head_ne other
  · exact first

/-- A front without a parenthesis does not reach into it. -/
theorem exists_eq_append (h : Closed s) {xs taken rest : List Char} (split : xs ++ s = taken ++ rest)
    (free : ')' ∉ taken) : ∃ ys, rest = ys ++ s := by
  rcases List.append_eq_append_iff.1 split with ⟨more, rfl, same⟩ | ⟨ys, -, rfl⟩
  · rcases more with _ | ⟨c, more⟩
    · exact ⟨[], same.symm⟩
    · obtain rfl := h c (by rw [same]; rfl)
      exact absurd (by simp) free
  · exact ⟨ys, rfl⟩

end Closed

namespace Severs

variable {k m l l' room : Nat} {f f' : List Char → Option (β × List Char)}

theorem nothing : Severs k l room (fun _ => (none : Option (β × List Char))) f' :=
  ⟨nofun, fun _ _ _ => nofun⟩

theorem ret (x : β) : Severs 0 l room (fun cs => some (x, cs)) fun cs => some (x, cs) where
  consumes h := by
    obtain ⟨rfl, rfl⟩ := Prod.mk.inj (Option.some.inj h)
    exact ⟨[], rfl, Nat.le_refl 0⟩
  cut _ _ _ h := by
    obtain ⟨rfl, same⟩ := Prod.mk.inj (Option.some.inj h)
    rw [List.append_cancel_right same]

theorem ite {g g' : List Char → Option (β × List Char)} {c : Prop} [Decidable c]
    (hf : Severs k l room f f') (hg : Severs k l room g g') :
    Severs k l room (fun cs => if c then f cs else g cs) fun cs => if c then f' cs else g' cs := by
  by_cases h : c
  · simpa only [if_pos h] using hf
  · simpa only [if_neg h] using hg

/-- A reader that needs something known beforehand. -/
theorem known {δ : Type} (o : Option δ) {g g' : δ → List Char → Option (β × List Char)}
    (hg : ∀ a, Severs k l room (g a) (g' a)) :
    Severs k l room (fun cs => o.bind fun a => g a cs) fun cs => o.bind fun a => g' a cs := by
  cases o with
  | none => exact nothing
  | some a => exact hg a

theorem weaken (h : Severs k l room f f') (hk : m ≤ k) (hl : l ≤ l') : Severs m l' room f f' where
  consumes hf := by
    obtain ⟨taken, rfl, le⟩ := h.consumes hf
    exact ⟨taken, rfl, Nat.le_trans hk le⟩
  cut hs hr hy hf := h.cut hs hr (Nat.le_trans hl hy) hf

/-- One reader, then another that depends on what was read.  Where the first one cannot be cut off, the
second one has to refuse or to go past the parenthesis. -/
theorem bind_unless {g g' : β × List Char → Option (γ × List Char)} (hc : Consumes k f)
    (cut : ∀ {t s xs x ys}, Closed s → xs.length ≤ room → l ≤ ys.length →
      f (xs ++ ')' :: t) = some (x, ys ++ ')' :: t) →
        f' (xs ++ s) = some (x, ys ++ s) ∨ ∀ y zs, g (x, ys ++ ')' :: t) ≠ some (y, zs ++ ')' :: t))
    (hgc : ∀ x, Consumes m fun cs => g (x, cs))
    (hg : ∀ x room', room' + k ≤ room →
      Severs m l' room' (fun cs => g (x, cs)) fun cs => g' (x, cs)) (hl : l ≤ m + l') :
    Severs (k + m) l' room (fun cs => (f cs).bind g) fun cs => (f' cs).bind g' where
  consumes := hc.bind hgc
  cut {t s xs y ys} hs hr hy h := by
    obtain ⟨⟨x, mid⟩, hfirst, hsecond⟩ := Option.bind_eq_some_iff.1 h
    obtain ⟨second, rfl, hk'⟩ := hgc x hsecond
    obtain ⟨first, whole, hk⟩ := hc hfirst
    rw [← List.append_assoc second] at hfirst hsecond
    have split : xs ++ ')' :: t = first ++ (second ++ ys) ++ ')' :: t := by simpa using whole
    have middle := List.append_cancel_right split
    have lengths := congrArg List.length middle
    simp only [List.length_append] at lengths
    have more : l ≤ (second ++ ys).length := by
      rw [List.length_append]
      omega
    have fits : (second ++ ys).length + k ≤ room := by
      rw [List.length_append]
      omega
    rcases cut hs hr more hfirst with found | refused
    · rw [found]
      exact (hg x _ fits).cut hs (Nat.le_refl _) hy hsecond
    · exact absurd hsecond (refused y ys)

/-- One reader, then another that depends on what was read. -/
theorem bind {g g' : β × List Char → Option (γ × List Char)} (hf : Severs k l room f f')
    (hgc : ∀ x, Consumes m fun cs => g (x, cs))
    (hg : ∀ x room', room' + k ≤ room →
      Severs m l' room' (fun cs => g (x, cs)) fun cs => g' (x, cs)) (hl : l ≤ m + l') :
    Severs (k + m) l' room (fun cs => (f cs).bind g) fun cs => (f' cs).bind g' :=
  bind_unless hf.consumes (fun hs hr hy h => .inl (hf.cut hs hr hy h)) hgc hg hl

/-- What was read may be changed. -/
theorem map (hf : Severs k l room f f') (φ : β → γ) :
    Severs k l room (fun cs => (f cs).map fun y => (φ y.1, y.2))
      fun cs => (f' cs).map fun y => (φ y.1, y.2) where
  consumes h := by
    obtain ⟨y, hy, same⟩ := Option.map_eq_some_iff.1 h
    obtain ⟨-, rfl⟩ := Prod.mk.inj same
    exact hf.consumes hy
  cut hs hr hy h := by
    obtain ⟨y, hfirst, same⟩ := Option.map_eq_some_iff.1 h
    obtain ⟨rfl, rest⟩ := Prod.mk.inj same
    rw [hf.cut hs hr hy (hfirst.trans (congrArg some (Prod.ext rfl rest)))]
    rfl

/-- A reader that needs a character. -/
theorem cons (hgc : ∀ c, Consumes k fun cs => f (c :: cs))
    (hg : ∀ c room', room' + 1 ≤ room →
      Severs k l room' (fun cs => f (c :: cs)) fun cs => f' (c :: cs)) (nil : f [] = none) :
    Severs (k + 1) l room f f' where
  consumes {cs x rest} hf := by
    rcases cs with _ | ⟨c, cs⟩
    · exact absurd (nil.symm.trans hf) nofun
    · obtain ⟨taken, rfl, le⟩ := hgc c hf
      exact ⟨c :: taken, rfl, Nat.succ_le_succ le⟩
  cut {t s xs x ys} hs hr hy hf := by
    rcases xs with _ | ⟨c, xs⟩
    · obtain ⟨taken, whole, -⟩ := hgc ')' hf
      exact absurd whole ne_append_close
    · exact (hg c xs.length hr).cut hs (Nat.le_refl _) hy hf

/-- A reader that does one thing behind a character and another thing elsewhere. -/
theorem head {h h' : List Char → Option (β × List Char)} (c : Char)
    (hgc : Consumes k fun cs => f (c :: cs))
    (hg : ∀ room', room' + 1 ≤ room →
      Severs k l room' (fun cs => f (c :: cs)) fun cs => f' (c :: cs)) (hh : Severs m l room h h')
    (miss : ∀ cs, cs.head? ≠ some c → f cs = h cs) (miss' : ∀ cs, cs.head? ≠ some c → f' cs = h' cs) :
    Severs (min (k + 1) m) l room f f' where
  consumes {cs x rest} hf := by
    by_cases first : cs.head? = some c
    · obtain ⟨cs, rfl⟩ := List.head?_eq_some_iff.1 first
      obtain ⟨taken, rfl, le⟩ := hgc hf
      exact ⟨c :: taken, rfl, by rw [List.length_cons]; omega⟩
    · rw [miss cs first] at hf
      obtain ⟨taken, rfl, le⟩ := hh.consumes hf
      exact ⟨taken, rfl, by omega⟩
  cut {t s xs x ys} hs hr hy hf := by
    rcases xs with _ | ⟨d, xs⟩
    · by_cases close : c = ')'
      · subst close
        obtain ⟨taken, whole, -⟩ := hgc hf
        exact absurd whole ne_append_close
      · rw [List.nil_append, miss _ ((Closed.close t).head_ne close)] at hf
        rw [List.nil_append, miss' _ (hs.head_ne close)]
        exact hh.cut hs hr hy hf
    · by_cases first : d = c
      · subst first
        exact (hg xs.length hr).cut hs (Nat.le_refl _) hy hf
      · rw [miss _ (by simpa using first)] at hf
        rw [miss' _ (by simpa using first)]
        exact hh.cut hs hr hy hf

/-- A reader that needs a certain character. -/
theorem expect (c : Char) (hgc : Consumes k fun cs => f (c :: cs))
    (hg : ∀ room', room' + 1 ≤ room →
      Severs k l room' (fun cs => f (c :: cs)) fun cs => f' (c :: cs))
    (miss : ∀ cs, cs.head? ≠ some c → f cs = none) (miss' : ∀ cs, cs.head? ≠ some c → f' cs = none) :
    Severs (k + 1) l room f f' := by
  have no : Severs (k + 1) l room (fun _ => (none : Option (β × List Char))) fun _ => none := nothing
  simpa only [Nat.min_self] using head c hgc hg no miss miss'

/-- A reader that does one thing where a character stands and another thing elsewhere. -/
theorem here {g g' h h' : List Char → Option (β × List Char)} (c : Char) (other : c ≠ ')')
    (hg : Severs k l room g g') (hh : Severs m l room h h') (hit : ∀ cs, f (c :: cs) = g (c :: cs))
    (hit' : ∀ cs, f' (c :: cs) = g' (c :: cs)) (miss : ∀ cs, cs.head? ≠ some c → f cs = h cs)
    (miss' : ∀ cs, cs.head? ≠ some c → f' cs = h' cs) : Severs (min k m) l room f f' where
  consumes {cs x rest} hf := by
    by_cases first : cs.head? = some c
    · obtain ⟨cs, rfl⟩ := List.head?_eq_some_iff.1 first
      rw [hit] at hf
      obtain ⟨taken, same, le⟩ := hg.consumes hf
      exact ⟨taken, same, by omega⟩
    · rw [miss cs first] at hf
      obtain ⟨taken, same, le⟩ := hh.consumes hf
      exact ⟨taken, same, by omega⟩
  cut {t s xs x ys} hs hr hy hf := by
    rcases xs with _ | ⟨d, xs⟩
    · rw [List.nil_append, miss _ ((Closed.close t).head_ne other)] at hf
      rw [List.nil_append, miss' _ (hs.head_ne other)]
      exact hh.cut hs hr hy hf
    · by_cases first : d = c
      · subst first
        rw [List.cons_append, hit] at hf
        rw [List.cons_append, hit']
        exact hg.cut hs hr hy hf
      · rw [miss _ (by simpa using first)] at hf
        rw [miss' _ (by simpa using first)]
        exact hh.cut hs hr hy hf

/-- A reader that stops at the end and at a closing parenthesis, which is left. -/
theorem stop {h h' : List Char → Option (β × List Char)} {x : β} (hh : Severs 0 l room h h')
    (ends : f' [] = some (x, [])) (closes : ∀ cs, f (')' :: cs) = some (x, ')' :: cs))
    (closes' : ∀ cs, f' (')' :: cs) = some (x, ')' :: cs)) (nil : f [] = some (x, []))
    (goes : ∀ c cs, c ≠ ')' → f (c :: cs) = h (c :: cs))
    (goes' : ∀ c cs, c ≠ ')' → f' (c :: cs) = h' (c :: cs)) : Severs 0 l room f f' where
  consumes {cs y rest} hf := by
    rcases cs with _ | ⟨c, cs⟩
    · rw [nil] at hf
      obtain ⟨-, rfl⟩ := Prod.mk.inj (Option.some.inj hf)
      exact ⟨[], rfl, Nat.le_refl 0⟩
    · by_cases close : c = ')'
      · subst close
        rw [closes] at hf
        obtain ⟨-, rfl⟩ := Prod.mk.inj (Option.some.inj hf)
        exact ⟨[], rfl, Nat.le_refl 0⟩
      · rw [goes c cs close] at hf
        exact hh.consumes hf
  cut {t s xs y ys} hs hr hy hf := by
    rcases xs with _ | ⟨c, xs⟩
    · rw [List.nil_append, closes] at hf
      obtain ⟨rfl, same⟩ := Prod.mk.inj (Option.some.inj hf)
      have all : [] ++ ')' :: t = ys ++ ')' :: t := same
      rw [← List.append_cancel_right all]
      obtain rfl | ⟨u, rfl⟩ := hs.cases
      · exact ends
      · exact closes' u
    · by_cases close : c = ')'
      · subst close
        rw [List.cons_append, closes] at hf
        obtain ⟨rfl, same⟩ := Prod.mk.inj (Option.some.inj hf)
        have all : ')' :: xs ++ ')' :: t = ys ++ ')' :: t := same
        rw [← List.append_cancel_right all]
        exact closes' _
      · rw [List.cons_append, goes c _ close] at hf
        rw [List.cons_append, goes' c _ close]
        exact hh.cut hs hr hy hf

/-- A reader that tries to read one of several words first.  They are without a parenthesis, so that a
parenthesis behind the text is not part of one. -/
theorem orElse {a : List Char → Option (γ × List Char)} {Word : γ → List Char → Prop}
    {g g' : γ × List Char → Option (β × List Char)} {h h' : List Char → Option (β × List Char)}
    (words : ∀ {cs x rest}, a cs = some (x, rest) ↔ ∃ w, Word x w ∧ cs = w ++ rest)
    (free : ∀ {x w}, Word x w → ')' ∉ w ∧ k ≤ w.length) (hgc : ∀ x, Consumes m fun cs => g (x, cs))
    (hg : ∀ x room', room' + k ≤ room →
      Severs m l room' (fun cs => g (x, cs)) fun cs => g' (x, cs))
    (hh : Severs (k + m) l room h h') :
    Severs (k + m) l room (fun cs => (a cs).elim (h cs) g) fun cs => (a cs).elim (h' cs) g' where
  consumes {cs x rest} hf := by
    cases read : a cs with
    | none =>
      simp only [read, Option.elim_none] at hf
      exact hh.consumes hf
    | some y =>
      obtain ⟨w, hw, rfl⟩ := words.1 read
      simp only [read, Option.elim_some] at hf
      obtain ⟨taken, same, le⟩ := hgc y.1 hf
      refine ⟨w ++ taken, by rw [same, List.append_assoc], ?_⟩
      rw [List.length_append]
      exact Nat.add_le_add (free hw).2 le
  cut {t s xs x ys} hs hr hy hf := by
    cases read : a (xs ++ ')' :: t) with
    | none =>
      have none : a (xs ++ s) = none := by
        refine Option.eq_none_iff_forall_ne_some.2 fun ⟨z, rest⟩ hz => ?_
        obtain ⟨w, hw, split⟩ := words.1 hz
        obtain ⟨zs, rfl⟩ := hs.exists_eq_append split (free hw).1
        rw [← List.append_assoc] at split
        have split := List.append_cancel_right split
        have again : a (xs ++ ')' :: t) = some (z, zs ++ ')' :: t) :=
          words.2 ⟨w, hw, by rw [split, List.append_assoc]⟩
        exact absurd (again.symm.trans read) nofun
      simp only [read, Option.elim_none] at hf
      simp only [none, Option.elim_none]
      exact hh.cut hs hr hy hf
    | some y =>
      obtain ⟨z, rest⟩ := y
      obtain ⟨w, hw, split⟩ := words.1 read
      obtain ⟨zs, rfl⟩ := (Closed.close t).exists_eq_append split (free hw).1
      rw [← List.append_assoc] at split
      obtain rfl := List.append_cancel_right split
      have again : a (w ++ zs ++ s) = some (z, zs ++ s) := words.2 ⟨w, hw, List.append_assoc ..⟩
      simp only [read, Option.elim_some] at hf
      simp only [again, Option.elim_some]
      have fits : zs.length + k ≤ room := by
        have := (free hw).2
        rw [List.length_append] at hr
        omega
      exact (hg z _ fits).cut hs (Nat.le_refl _) hy hf

/-- A reader that asks first whether something holds of the text.  The answer may depend on what it does
not take, but not on what stands behind a parenthesis. -/
theorem asked {P : List Char → Prop} [DecidablePred P] {g g' h h' : List Char → Option (β × List Char)}
    (agree : ∀ {t s xs}, Closed s → xs ≠ [] → (P (xs ++ ')' :: t) ↔ P (xs ++ s)))
    (hg : Severs k l room g g') (hh : Severs k l room h h') (enough : 1 ≤ k + l) :
    Severs k l room (fun cs => if P cs then g cs else h cs) fun cs => if P cs then g' cs else h' cs where
  consumes {cs x rest} hf := by
    by_cases holds : P cs
    · exact hg.consumes ((if_pos holds).symm.trans hf)
    · exact hh.consumes ((if_neg holds).symm.trans hf)
  cut {t s xs x ys} hs hr hy hf := by
    have more (hc : ∃ taken, xs ++ ')' :: t = taken ++ (ys ++ ')' :: t) ∧ k ≤ taken.length) :
        xs ≠ [] := by
      obtain ⟨taken, same, le⟩ := hc
      have := congrArg List.length same
      rintro rfl
      simp only [List.length_append, List.length_nil, List.length_cons] at this
      omega
    by_cases holds : P (xs ++ ')' :: t)
    · have hf := (if_pos holds).symm.trans hf
      have same : P (xs ++ s) := (agree hs (more (hg.consumes hf))).1 holds
      exact (if_pos same).trans (hg.cut hs hr hy hf)
    · have hf := (if_neg holds).symm.trans hf
      have same : ¬ P (xs ++ s) := fun there => holds ((agree hs (more (hh.consumes hf))).2 there)
      exact (if_neg same).trans (hh.cut hs hr hy hf)

/-- Nothing is taken, but something has to be left. -/
theorem left {y : β} (nil : f [] = none) (goes : ∀ c cs, f (c :: cs) = some (y, c :: cs))
    (goes' : ∀ c cs, f' (c :: cs) = some (y, c :: cs)) : Severs 0 1 room f f' where
  consumes {cs x rest} hf := by
    rcases cs with _ | ⟨c, cs⟩
    · exact absurd (nil.symm.trans hf) nofun
    · rw [goes] at hf
      obtain ⟨-, rfl⟩ := Prod.mk.inj (Option.some.inj hf)
      exact ⟨[], rfl, Nat.le_refl 0⟩
  cut {t s xs x ys} _ _ hy hf := by
    obtain ⟨c, ys, rfl⟩ := List.exists_cons_of_length_pos hy
    rcases xs with _ | ⟨d, xs⟩
    · rw [List.nil_append, goes] at hf
      have same : [] ++ ')' :: t = c :: ys ++ ')' :: t := (Prod.mk.inj (Option.some.inj hf)).2
      exact absurd (List.append_cancel_right same) nofun
    · rw [List.cons_append, goes] at hf
      obtain ⟨rfl, same⟩ := Prod.mk.inj (Option.some.inj hf)
      have all : d :: xs ++ ')' :: t = c :: ys ++ ')' :: t := same
      rw [List.append_cancel_right all]
      exact goes' c _

end Severs

/-! ## 2. Blanks and runs -/

theorem skipBlanks_suffix (inComment : Bool) (cs : List Char) :
    ∃ skipped, cs = skipped ++ skipBlanks inComment cs := by
  induction cs generalizing inComment with
  | nil => exact ⟨[], rfl⟩
  | cons c cs ih =>
    have behind (b : Bool) : ∃ skipped, c :: cs = skipped ++ skipBlanks b cs := by
      obtain ⟨skipped, same⟩ := ih b
      exact ⟨c :: skipped, congrArg (c :: ·) same⟩
    rw [skipBlanks]
    split
    · exact behind _
    · split
      · exact behind _
      · split
        · exact behind _
        · exact ⟨[], rfl⟩

theorem settle_suffix (verbose : Bool) (cs : List Char) : ∃ skipped, cs = skipped ++ settle verbose cs := by
  cases verbose with
  | false => exact ⟨[], rfl⟩
  | true => exact skipBlanks_suffix false cs

theorem length_settle_le (verbose : Bool) (cs : List Char) : (settle verbose cs).length ≤ cs.length := by
  obtain ⟨skipped, same⟩ := settle_suffix verbose cs
  have := congrArg List.length same
  rw [List.length_append] at this
  omega

/-- A parenthesis is skipped only in a comment, and then so is what stands before it. -/
theorem skipBlanks_cut {inComment : Bool} {xs ys t s : List Char} (hs : Closed s)
    (h : skipBlanks inComment (xs ++ ')' :: t) = ys ++ ')' :: t) :
    skipBlanks inComment (xs ++ s) = ys ++ s := by
  induction xs generalizing inComment with
  | nil =>
    cases inComment with
    | true =>
      obtain ⟨skipped, same⟩ := skipBlanks_suffix true t
      rw [List.nil_append, skipBlanks, if_pos rfl] at h
      have commented : skipBlanks true t = ys ++ ')' :: t := h
      rw [commented] at same
      exact absurd same ne_append_close
    | false =>
      have all : [] ++ ')' :: t = ys ++ ')' :: t := h
      rw [← List.append_cancel_right all]
      obtain rfl | ⟨u, rfl⟩ := hs.cases
      · rfl
      · rfl
  | cons c xs ih =>
    rw [List.cons_append, skipBlanks] at h
    rw [List.cons_append, skipBlanks]
    split at h
    · rw [if_pos ‹_›]
      exact ih h
    · rw [if_neg ‹_›]
      split at h
      · rw [if_pos ‹_›]
        exact ih h
      · rw [if_neg ‹_›]
        split at h
        · rw [if_pos ‹_›]
          exact ih h
        · rw [if_neg ‹_›]
          have all : c :: xs ++ ')' :: t = ys ++ ')' :: t := h
          rw [← List.append_cancel_right all]
          rfl

theorem settle_cut {verbose : Bool} {xs ys t s : List Char} (hs : Closed s)
    (h : settle verbose (xs ++ ')' :: t) = ys ++ ')' :: t) : settle verbose (xs ++ s) = ys ++ s := by
  cases verbose with
  | false => exact congrArg (· ++ s) (List.append_cancel_right h)
  | true => exact skipBlanks_cut hs h

/-- Blanks are skipped up to a place before the parenthesis, or they reach up to it or beyond. -/
theorem settle_cases (verbose : Bool) (us t : List Char) :
    settle verbose (us ++ ')' :: t) <:+ ')' :: t ∨
      ∃ c zs, settle verbose (us ++ ')' :: t) = (c :: zs) ++ ')' :: t := by
  obtain ⟨skipped, same⟩ := settle_suffix verbose (us ++ ')' :: t)
  rcases List.append_eq_append_iff.1 same with ⟨more, -, past⟩ | ⟨zs, -, before⟩
  · exact .inl ⟨more, past.symm⟩
  · rcases zs with _ | ⟨c, zs⟩
    · exact .inl ⟨[], before⟩
    · exact .inr ⟨c, zs, before⟩

/-- What is left behind a run is the end of the text. -/
theorem spanSettled_suffix (verbose : Bool) (p : Char → Bool) (n : Nat) (cs : List Char) :
    ∃ taken, cs = taken ++ (spanSettled verbose p n cs).2 := by
  induction n generalizing cs with
  | zero => exact ⟨[], rfl⟩
  | succ n ih =>
    cases cs with
    | nil => exact ⟨[], rfl⟩
    | cons c cs =>
      rw [spanSettled]
      split
      · obtain ⟨skipped, here⟩ := settle_suffix verbose cs
        obtain ⟨taken, same⟩ := ih (settle verbose cs)
        refine ⟨c :: (skipped ++ taken), ?_⟩
        rw [List.cons_append, List.append_assoc, ← same, ← here]
      · exact ⟨[], rfl⟩

/-- A run that ends before a parenthesis is the same where the text ends there. -/
theorem spanSettled_cut {verbose : Bool} {p : Char → Bool} {n m : Nat} {xs run ys t s : List Char}
    (hs : Closed s) (hn : (xs ++ ')' :: t).length ≤ n) (hm : (xs ++ s).length ≤ m)
    (h : spanSettled verbose p n (xs ++ ')' :: t) = (run, ys ++ ')' :: t)) :
    spanSettled verbose p m (xs ++ s) = (run, ys ++ s) := by
  induction n generalizing xs m run with
  | zero => simp at hn
  | succ n ih =>
    cases xs with
    | nil =>
      rw [List.nil_append, spanSettled] at h
      split at h
      · obtain ⟨skipped, here⟩ := settle_suffix verbose t
        obtain ⟨taken, same⟩ := spanSettled_suffix verbose p n (settle verbose t)
        rw [(Prod.mk.inj h).2] at same
        rw [same, ← List.append_assoc] at here
        exact absurd here ne_append_close
      next no =>
        obtain ⟨rfl, same⟩ := Prod.mk.inj h
        have all : [] ++ ')' :: t = ys ++ ')' :: t := same
        rw [← List.append_cancel_right all]
        obtain rfl | ⟨u, rfl⟩ := hs.cases
        · cases m <;> rfl
        · cases m with
          | zero => rfl
          | succ m => exact if_neg no
    | cons c xs =>
      obtain ⟨m, rfl⟩ := Nat.exists_eq_add_one_of_ne_zero (Nat.ne_zero_of_lt hm)
      rw [List.cons_append, spanSettled] at h
      rw [List.cons_append, spanSettled]
      split at h
      · rw [if_pos ‹_›]
        obtain ⟨first, rest⟩ := Prod.mk.inj h
        obtain ⟨taken, same⟩ := spanSettled_suffix verbose p n (settle verbose (xs ++ ')' :: t))
        rw [rest, ← List.append_assoc] at same
        have stops : spanSettled verbose p n (taken ++ ys ++ ')' :: t) =
            ((spanSettled verbose p n (settle verbose (xs ++ ')' :: t))).1, ys ++ ')' :: t) := by
          rw [← same]
          exact Prod.ext rfl rest
        have settled := settle_cut hs same
        have short := length_settle_le verbose (xs ++ ')' :: t)
        have shorter := length_settle_le verbose (xs ++ s)
        rw [same] at short
        rw [settled] at shorter ⊢
        rw [List.cons_append, List.length_cons] at hn hm
        rw [ih (by omega) (by omega) stops, ← first]
      · rw [if_neg ‹_›]
        obtain ⟨rfl, same⟩ := Prod.mk.inj h
        have all : c :: xs ++ ')' :: t = ys ++ ')' :: t := same
        rw [← List.append_cancel_right all]
        rfl

/-- Room that is not needed makes no difference to a run. -/
theorem spanSettled_of_le {verbose : Bool} {p : Char → Bool} {n m : Nat} {cs : List Char}
    (hn : cs.length ≤ n) (hm : cs.length ≤ m) :
    spanSettled verbose p n cs = spanSettled verbose p m cs := by
  induction n generalizing m cs with
  | zero =>
    obtain rfl := List.length_eq_zero_iff.1 (Nat.le_zero.1 hn)
    cases m <;> rfl
  | succ n ih =>
    cases cs with
    | nil => cases m <;> rfl
    | cons c cs =>
      obtain ⟨m, rfl⟩ := Nat.exists_eq_add_one_of_ne_zero (Nat.ne_zero_of_lt hm)
      have short := length_settle_le verbose cs
      rw [List.length_cons] at hn hm
      rw [spanSettled, spanSettled, ih (by omega) (show (settle verbose cs).length ≤ m by omega)]

/-- A run with room for all characters. -/
def run (verbose : Bool) (p : Char → Bool) (cs : List Char) : List Char × List Char :=
  spanSettled verbose p cs.length cs

namespace Severs

variable {k l room : Nat} {g g' : List Char → Option (β × List Char)} (verbose : Bool)

/-- Blanks may be skipped first. -/
theorem settled (hg : Severs k l room g g') :
    Severs k l room (fun cs => g (settle verbose cs)) fun cs => g' (settle verbose cs) where
  consumes {cs x rest} h := by
    obtain ⟨taken, same, le⟩ := hg.consumes h
    obtain ⟨skipped, here⟩ := settle_suffix verbose cs
    refine ⟨skipped ++ taken, ?_, by rw [List.length_append]; omega⟩
    rw [List.append_assoc, ← same, ← here]
  cut {t s xs x ys} hs hr hy h := by
    obtain ⟨taken, same, -⟩ := hg.consumes h
    rw [← List.append_assoc] at same
    have short := length_settle_le verbose (xs ++ s)
    rw [same] at h
    rw [settle_cut hs same] at short ⊢
    have fits : (taken ++ ys).length ≤ room := by
      simp only [List.length_append] at short ⊢
      omega
    exact hg.cut hs fits hy h

/-- A run may be read first, and what was read used. -/
theorem spanned {g g' : List Char → List Char → Option (β × List Char)} (p : Char → Bool)
    (hg : ∀ first, Severs k l room (g first) (g' first)) :
    Severs k l room (fun cs => g (run verbose p cs).1 (run verbose p cs).2)
      fun cs => g' (run verbose p cs).1 (run verbose p cs).2 where
  consumes {cs x rest} h := by
    obtain ⟨taken, same, le⟩ := (hg _).consumes h
    obtain ⟨before, here⟩ := spanSettled_suffix verbose p cs.length cs
    refine ⟨before ++ taken, ?_, by rw [List.length_append]; omega⟩
    rw [List.append_assoc, ← same]
    exact here
  cut {t s xs x ys} hs hr hy h := by
    obtain ⟨taken, same, -⟩ := (hg _).consumes h
    rw [← List.append_assoc] at same
    have stops : run verbose p (xs ++ ')' :: t) =
        ((run verbose p (xs ++ ')' :: t)).1, taken ++ ys ++ ')' :: t) := Prod.ext rfl same
    have shown : run verbose p (xs ++ s) =
        ((run verbose p (xs ++ ')' :: t)).1, taken ++ ys ++ s) :=
      spanSettled_cut hs (Nat.le_refl _) (Nat.le_refl _) stops
    have here : ∃ before, xs ++ s = before ++ (run verbose p (xs ++ s)).2 :=
      spanSettled_suffix verbose p (xs ++ s).length (xs ++ s)
    rw [shown] at here ⊢
    have short : (taken ++ ys).length ≤ xs.length := by
      obtain ⟨before, here⟩ := here
      have lengths := congrArg List.length here
      simp only [List.length_append] at lengths ⊢
      omega
    rw [same] at h
    exact (hg _).cut hs (Nat.le_trans short hr) hy h

end Severs

theorem advance?_eq_some {verbose : Bool} {cs rest : List Char} :
    advance? verbose cs = some rest ↔ settle verbose cs.tail = rest ∧ rest ≠ [] := by
  unfold advance?
  split
  next none =>
    constructor
    · exact nofun
    · rintro ⟨rfl, more⟩
      exact absurd none more
  next more =>
    constructor
    · intro h
      obtain rfl := Option.some.inj h
      exact ⟨rfl, more⟩
    · rintro ⟨rfl, -⟩
      rfl

namespace Severs

variable {k l room : Nat} {g g' : List Char → Option (β × List Char)} (verbose : Bool)

/-- A character may be dropped first, if something has to follow it. -/
theorem advanced (hg : Severs k l room g g') (more : 1 ≤ k + l) :
    Severs (k + 1) l room (fun cs => (advance? verbose cs).bind g)
      fun cs => (advance? verbose cs).bind g' where
  consumes {cs x rest} h := by
    obtain ⟨mid, goes, h⟩ := Option.bind_eq_some_iff.1 h
    obtain ⟨rfl, -⟩ := advance?_eq_some.1 goes
    obtain ⟨taken, same, le⟩ := hg.consumes h
    obtain ⟨skipped, here⟩ := settle_suffix verbose cs.tail
    rcases cs with _ | ⟨c, cs⟩
    · cases verbose <;> cases goes
    · refine ⟨c :: (skipped ++ taken), ?_, by rw [List.length_cons, List.length_append]; omega⟩
      rw [List.cons_append, List.append_assoc, ← same, ← here]
      rfl
  cut {t s xs x ys} hs hr hy h := by
    obtain ⟨mid, goes, h⟩ := Option.bind_eq_some_iff.1 h
    obtain ⟨rfl, -⟩ := advance?_eq_some.1 goes
    obtain ⟨taken, same, le⟩ := hg.consumes h
    rcases xs with _ | ⟨c, xs⟩
    · obtain ⟨skipped, here⟩ := settle_suffix verbose t
      have behind : settle verbose t = taken ++ (ys ++ ')' :: t) := same
      rw [behind, ← List.append_assoc] at here
      exact absurd here ne_append_close
    · have same : settle verbose (xs ++ ')' :: t) = taken ++ ys ++ ')' :: t := by
        rw [List.append_assoc]
        exact same
      have settled := settle_cut hs same
      have short := length_settle_le verbose (xs ++ s)
      rw [settled] at short
      simp only [List.length_append] at short
      rw [List.length_cons] at hr
      have dropped : advance? verbose (c :: xs ++ s) = some (taken ++ ys ++ s) := by
        refine advance?_eq_some.2 ⟨settled, List.ne_nil_of_length_pos ?_⟩
        rw [List.length_append, List.length_append]
        omega
      have h : g (taken ++ ys ++ ')' :: t) = some (x, ys ++ ')' :: t) := by
        rw [← same]
        exact h
      have fits : (taken ++ ys).length ≤ room := by
        rw [List.length_append]
        omega
      rw [dropped]
      exact hg.cut hs fits hy h

end Severs

/-- What does not look behind a closing parenthesis may be dropped first. -/
theorem Severs.dropped {k l room : Nat} {g g' : List Char → Option (β × List Char)}
    {drop : List Char → List Char} (suffix : ∀ cs, drop cs <:+ cs)
    (stops : ∀ {s} xs, Closed s → drop (xs ++ s) = drop xs ++ s) (hg : Severs k l room g g') :
    Severs k l room (fun cs => g (drop cs)) fun cs => g' (drop cs) where
  consumes {cs x rest} h := by
    obtain ⟨taken, same, le⟩ := hg.consumes h
    obtain ⟨dropped, whole⟩ := suffix cs
    refine ⟨dropped ++ taken, ?_, by rw [List.length_append]; omega⟩
    rw [List.append_assoc, ← same, whole]
  cut {t s xs x ys} hs hr hy h := by
    rw [stops xs (.close t)] at h
    rw [stops xs hs]
    exact hg.cut hs (Nat.le_trans (suffix xs).length_le hr) hy h

theorem dropWhile_stops {p : Char → Bool} (close : p ')' = false) {s : List Char} (xs : List Char)
    (hs : Closed s) : (xs ++ s).dropWhile p = xs.dropWhile p ++ s := by
  have stays : s.dropWhile p = s := by
    obtain rfl | ⟨t, rfl⟩ := hs.cases
    · rfl
    · exact List.dropWhile_cons_of_neg (by simp [close])
  rw [List.dropWhile_append, stays]
  split
  next none => rw [List.isEmpty_iff.1 none, List.nil_append]
  next => rfl

theorem dropLazy_suffix (cs : List Char) : dropLazy cs <:+ cs := by
  unfold dropLazy
  split
  · exact List.suffix_cons ..
  · exact List.suffix_rfl

theorem dropLazy_stops {s : List Char} (xs : List Char) (hs : Closed s) :
    dropLazy (xs ++ s) = dropLazy xs ++ s := by
  rcases xs with _ | ⟨c, xs⟩
  · obtain rfl | ⟨t, rfl⟩ := hs.cases <;> rfl
  · by_cases mark : c = '?'
    · subst mark
      rfl
    · simp [dropLazy, mark]

/-! ## 3. Readers without a bound -/

namespace Severable

variable {k m l l' : Nat} {f : List Char → Option (β × List Char)}

theorem nothing : Severable k l fun _ => (none : Option (β × List Char)) := fun _ => .nothing

theorem ret (x : β) : Severable 0 l fun cs => some (x, cs) := fun _ => .ret x

theorem ite {g : List Char → Option (β × List Char)} {c : Prop} [Decidable c] (hf : Severable k l f)
    (hg : Severable k l g) : Severable k l fun cs => if c then f cs else g cs :=
  fun room => (hf room).ite (hg room)

theorem known {δ : Type} (o : Option δ) {g : δ → List Char → Option (β × List Char)}
    (hg : ∀ a, Severable k l (g a)) : Severable k l fun cs => o.bind fun a => g a cs :=
  fun room => .known o fun a => hg a room

theorem weaken (h : Severable k l f) (hk : m ≤ k) (hl : l ≤ l') : Severable m l' f :=
  fun room => (h room).weaken hk hl

theorem consumes (h : Severable k l f) : Consumes k f := (h 0).consumes

theorem cut (h : Severable k l f) {t s xs ys : List Char} {x : β} (hs : Closed s)
    (hy : l ≤ ys.length) (hf : f (xs ++ ')' :: t) = some (x, ys ++ ')' :: t)) :
    f (xs ++ s) = some (x, ys ++ s) :=
  (h xs.length).cut hs (Nat.le_refl _) hy hf

theorem bind {g : β × List Char → Option (γ × List Char)} (hf : Severable k l f)
    (hg : ∀ x, Severable m l' fun cs => g (x, cs)) (hl : l ≤ m + l') :
    Severable (k + m) l' fun cs => (f cs).bind g :=
  fun room => (hf room).bind (fun x => (hg x).consumes) (fun x room' _ => hg x room') hl

theorem map (hf : Severable k l f) (φ : β → γ) :
    Severable k l fun cs => (f cs).map fun y => (φ y.1, y.2) :=
  fun room => (hf room).map φ

theorem cons (hg : ∀ c, Severable k l fun cs => f (c :: cs)) (nil : f [] = none) : Severable (k + 1) l f :=
  fun _ => .cons (fun c => (hg c).consumes) (fun c room' _ => hg c room') nil

theorem head {h : List Char → Option (β × List Char)} (c : Char)
    (hg : Severable k l fun cs => f (c :: cs)) (hh : Severable m l h)
    (miss : ∀ cs, cs.head? ≠ some c → f cs = h cs) : Severable (min (k + 1) m) l f :=
  fun room => .head c hg.consumes (fun room' _ => hg room') (hh room) miss miss

theorem expect (c : Char) (hg : Severable k l fun cs => f (c :: cs))
    (miss : ∀ cs, cs.head? ≠ some c → f cs = none) : Severable (k + 1) l f :=
  fun _ => .expect c hg.consumes (fun room' _ => hg room') miss miss

/-- What needs a character may be asked behind a given one. -/
theorem behind (hf : Severable (k + 1) l f) (c : Char) : Severable k l fun cs => f (c :: cs) :=
  fun _ => {
    consumes := fun h => by
      obtain ⟨taken, same, le⟩ := hf.consumes h
      obtain ⟨d, taken, rfl⟩ := List.exists_cons_of_length_pos (Nat.lt_of_lt_of_le (Nat.succ_pos k) le)
      exact ⟨taken, (List.cons.inj same).2, Nat.le_of_succ_le_succ le⟩
    cut := fun {t s xs x ys} hs _ hy h => show f ((c :: xs) ++ s) = some (x, ys ++ s) from hf.cut hs hy h }

theorem here {g h : List Char → Option (β × List Char)} (c : Char) (other : c ≠ ')')
    (hg : Severable k l g) (hh : Severable m l h) (hit : ∀ cs, f (c :: cs) = g (c :: cs))
    (miss : ∀ cs, cs.head? ≠ some c → f cs = h cs) : Severable (min k m) l f :=
  fun room => .here c other (hg room) (hh room) hit hit miss miss

theorem asked {P : List Char → Prop} [DecidablePred P] {g h : List Char → Option (β × List Char)}
    (agree : ∀ {t s xs}, Closed s → xs ≠ [] → (P (xs ++ ')' :: t) ↔ P (xs ++ s)))
    (hg : Severable k l g) (hh : Severable k l h) (enough : 1 ≤ k + l) :
    Severable k l fun cs => if P cs then g cs else h cs :=
  fun room => .asked agree (hg room) (hh room) enough

theorem left {y : β} (nil : f [] = none) (goes : ∀ c cs, f (c :: cs) = some (y, c :: cs)) :
    Severable 0 1 f :=
  fun _ => .left nil goes goes

variable {g : List Char → Option (β × List Char)} (verbose : Bool)

theorem settled (hg : Severable k l g) : Severable k l fun cs => g (settle verbose cs) :=
  fun room => (hg room).settled verbose

theorem spanned {g : List Char → List Char → Option (β × List Char)} (p : Char → Bool)
    (hg : ∀ first, Severable k l (g first)) :
    Severable k l fun cs => g (run verbose p cs).1 (run verbose p cs).2 :=
  fun room => .spanned verbose p fun first => hg first room

theorem advanced (hg : Severable k l g) (more : 1 ≤ k + l) :
    Severable (k + 1) l fun cs => (advance? verbose cs).bind g :=
  fun room => (hg room).advanced verbose more

theorem dropped {drop : List Char → List Char} (suffix : ∀ cs, drop cs <:+ cs)
    (stops : ∀ {s} xs, Closed s → drop (xs ++ s) = drop xs ++ s) (hg : Severable k l g) :
    Severable k l fun cs => g (drop cs) :=
  fun room => (hg room).dropped suffix stops

end Severable

end LazyPeg.Pattern
