import LazyPeg.Proofs.Pattern.Cutting

/-!
# Counts and escapes can be cut off

The bounds of a repetition and most escapes sever (`severable_bounds?`, `severable_escapeBut?`).  The
exception is a word boundary, which looks behind a brace for a name and leaves the brace if it finds none.
-/
namespace LazyPeg.Pattern

variable (verbose : Bool)

/-! ## 1. Numbers -/

/-- The number that decimal digits write, if it is below 2^32. -/
def number? (digits : List Char) : Option Nat :=
  let n := digits.foldl (fun n c => n * 10 + (c.toNat - '0'.toNat)) 0
  if digits ≠ [] ∧ n < 0x100000000 then some n else none

/-- A number without blanks before it. -/
def digits? (cs : List Char) : Option (Nat × List Char) :=
  (number? (run verbose Char.isDigit cs).1).bind fun n =>
    some (n, (run verbose isBlank (run verbose Char.isDigit cs).2).2)

theorem decimal?_eq (cs : List Char) : decimal? verbose cs = digits? verbose (cs.dropWhile isBlank) := by
  have short : (cs.dropWhile isBlank).length ≤ cs.length := (List.dropWhile_sublist _).length_le
  rw [decimal?, digits?, number?, run, spanSettled_of_le short (Nat.le_refl _)]
  simp only [run]
  split
  · rfl
  · rfl

theorem severable_digits? : Severable 0 0 (digits? verbose) :=
  .spanned verbose Char.isDigit
    (g := fun digits cs => (number? digits).bind fun n => some (n, (run verbose isBlank cs).2)) fun _ =>
      .known _ fun n => .spanned verbose isBlank (g := fun _ cs => some (n, cs)) fun _ => .ret n

theorem severable_decimal? : Severable 0 0 (decimal? verbose) := by
  rw [funext (decimal?_eq verbose)]
  exact (severable_digits? verbose).dropped (fun cs => cs.dropWhile_suffix isBlank)
    (dropWhile_stops (by decide))

theorem severable_most? : Severable 0 1 (most? verbose) := by
  refine .here '\x7d' (by decide) (k := 0) (m := 0) (g := fun cs => some (none, cs))
    (h := fun cs => (decimal? verbose cs).map fun y => (some y.1, y.2)) (.ret _)
    (.weaken ((severable_decimal? verbose).map _) (Nat.le_refl _) (Nat.zero_le _)) (fun _ => rfl)
    fun cs other => ?_
  unfold most?
  split
  · exact absurd rfl other
  · rfl

theorem severable_upper? (least : Nat) : Severable 0 1 (upper? verbose least) := by
  refine .here ',' (by decide) (k := 1) (m := 0) (h := fun cs => some (some least, cs))
    ((severable_most? verbose).advanced verbose (Nat.le_refl _)) (.ret _) (fun _ => rfl) fun cs other => ?_
  unfold upper?
  split
  · exact absurd rfl other
  · rfl

theorem severable_closing? (least : Nat) (most : Option Nat) :
    Severable 1 0 (closing? verbose least most) := by
  have behind : Severable 0 0 fun cs =>
      if most.all (least ≤ ·) then some ((least, most), dropLazy (settle verbose cs)) else none :=
    .ite (.settled verbose (g := fun cs => some ((least, most), dropLazy cs))
      (.dropped dropLazy_suffix dropLazy_stops (.ret (least, most)))) .nothing
  refine .expect '\x7d' behind fun cs other => ?_
  unfold closing?
  split
  · exact absurd rfl other
  · rfl

theorem severable_boundsBehind? : Severable 1 0 (boundsBehind? verbose) := by
  refine .bind (k := 0) (m := 1) (severable_decimal? verbose) (fun least => ?_) (Nat.zero_le _)
  change Severable 1 0 fun cs => (upper? verbose least cs).bind fun y => closing? verbose least y.1 y.2
  refine .bind (k := 0) (m := 1) (severable_upper? verbose least) (fun most => ?_) (Nat.le_add_right 1 0)
  exact severable_closing? verbose least most

theorem severable_bounds? : Severable 2 0 (bounds? verbose) :=
  (severable_boundsBehind? verbose).advanced verbose (Nat.le_refl _)

/-- The bounds of a repetition take at least one of the characters behind the brace and its blanks. -/
theorem length_lt_of_bounds? {cs rest : List Char} {x : Nat × Option Nat}
    (h : bounds? verbose ('\x7b' :: cs) = some (x, rest)) : rest.length < (settle verbose cs).length := by
  obtain ⟨mid, advanced, h⟩ := Option.bind_eq_some_iff.1 h
  obtain ⟨rfl, -⟩ := advance?_eq_some.1 advanced
  obtain ⟨taken, same, le⟩ := (severable_boundsBehind? verbose).consumes h
  have := congrArg List.length same
  rw [List.length_append] at this
  simp only [List.tail_cons] at this
  omega

/-- The bounds of a repetition are in order. -/
theorem all_le_of_bounds? {cs rest : List Char} {least : Nat} {most : Option Nat}
    (h : bounds? verbose cs = some ((least, most), rest)) : most.all (least ≤ ·) := by
  obtain ⟨_, -, h⟩ := Option.bind_eq_some_iff.1 h
  obtain ⟨⟨least', _⟩, -, h⟩ := Option.bind_eq_some_iff.1 h
  obtain ⟨⟨most', last⟩, -, h⟩ := Option.bind_eq_some_iff.1 h
  unfold closing? at h
  split at h
  · split at h
    · cases h
      assumption
    · cases h
  · cases h

/-! ## 2. Escapes -/

theorem severable_fixedHex? (n : Nat) : Severable n 0 (fixedHex? verbose n) := by
  induction n with
  | zero =>
    have same : fixedHex? verbose 0 = fun cs => some ([], cs) := funext fun cs => by rw [fixedHex?]
    rw [same]
    exact .ret []
  | succ n ih =>
    refine .cons (fun c => ?_) rfl
    change Severable n 0 fun cs => if isHexDigit c then
      (fixedHex? verbose n (settle verbose cs)).map fun y => (c :: y.1, y.2) else none
    exact .ite ((Severable.settled verbose ih).map _) .nothing

/-- The end of a hexadecimal number between braces. -/
theorem severable_braced (digits : List Char) : Severable 1 0 fun cs => match cs, digits with
    | '\x7d' :: _, _ :: _ => (charOfHex? digits).bind fun c => some (Primitive.char c, advance verbose cs)
    | _, _ => none := by
  rcases digits with _ | ⟨d, digits⟩
  · have none (cs : List Char) : (match cs, ([] : List Char) with
      | '\x7d' :: _, _ :: _ => (charOfHex? []).bind fun c => some (Primitive.char c, advance verbose cs)
      | _, _ => none) = none := by
      split
      · contradiction
      · rfl
    rw [funext none]
    exact .nothing
  · refine .expect '\x7d'
      (.known _ fun c => .settled verbose (g := fun cs => some (Primitive.char c, cs)) (.ret _))
      fun cs other => ?_
    split
    · exact absurd rfl other
    · rfl

theorem severable_hexEscape? (kind : Char) : Severable 2 0 (hexEscape? verbose kind) := by
  have fixed : Severable 1 0 fun cs =>
      (fixedHex? verbose (if kind = 'x' then 2 else if kind = 'u' then 4 else 8) cs).bind fun y =>
        (charOfHex? y.1).bind fun c => some (Primitive.symbol ⟨c, kind = 'x'⟩, y.2) := by
    refine .weaken (.bind (m := 0) (severable_fixedHex? verbose _) (fun digits => ?_) (Nat.zero_le _)) ?_
      (Nat.le_refl _)
    · exact .known (charOfHex? digits) fun c => .ret (Primitive.symbol ⟨c, kind = 'x'⟩)
    · split
      · omega
      · split <;> omega
  refine .advanced verbose (k := 1) (.head '\x7b' (k := 1) (m := 1)
    (.settled verbose (.spanned verbose isHexDigit (severable_braced verbose))) fixed fun cs other => ?_)
    (Nat.le_refl _)
  split
  · exact absurd rfl other
  · rfl

theorem severable_propertyBraced? (negated : Bool) (name : List Char) :
    Severable 1 0 (propertyBraced? negated name) := by
  refine .expect '\x7d' (.ret _) fun cs other => ?_
  unfold propertyBraced?
  split
  · exact absurd rfl other
  · rfl

theorem severable_propertyLetter? (negated : Bool) : Severable 1 0 (propertyLetter? verbose negated) := by
  refine .cons (k := 0) (fun c => ?_) rfl
  by_cases escape : c = '\\'
  · subst escape
    exact .nothing
  · simp only [propertyLetter?]
    exact .settled verbose (g := fun cs => some (_, cs)) (.ret _)

theorem severable_propertyEscape? (negated : Bool) :
    Severable 2 0 (propertyEscape? verbose negated) := by
  refine .advanced verbose (k := 1) (.head '\x7b' (k := 1) (m := 1)
    (.settled verbose (.spanned verbose (· != '\x7d') (severable_propertyBraced? negated)))
    (severable_propertyLetter? verbose negated) fun cs other => ?_) (Nat.le_refl _)
  split
  · exact absurd rfl other
  · rfl

/-- The word boundary with a name. -/
def boundaryOf? (name : List Char) : Option Assertion :=
  match String.ofList name with
  | "start" => some .wordStart
  | "end" => some .wordEnd
  | "start-half" => some .wordStartHalf
  | "end-half" => some .wordEndHalf
  | _ => none

/-- The name of a word boundary, from its first letter. -/
def namedBoundary? (cs : List Char) : Option (Primitive × List Char) :=
  match (run verbose isBoundaryLetter cs).2 with
  | '\x7d' :: rest =>
    (boundaryOf? (run verbose isBoundaryLetter cs).1).bind fun a => some (.assertion a, rest)
  | _ => none

theorem severable_namedBoundary? : Severable 1 0 (namedBoundary? verbose) := by
  refine .spanned verbose isBoundaryLetter (g := fun name cs => match cs with
    | '\x7d' :: rest => (boundaryOf? name).bind fun a => some (Primitive.assertion a, rest)
    | _ => none) fun name => ?_
  refine .expect '\x7d' (.known (boundaryOf? name) fun a => .ret _) fun cs other => ?_
  split
  · exact absurd rfl other
  · rfl

theorem wordBoundary?_brace (cs : List Char) : wordBoundary? verbose ('\x7b' :: cs) =
    match settle verbose cs with
    | [] => none
    | c :: rest => if isBoundaryLetter c then namedBoundary? verbose (c :: rest)
      else some (.assertion .wordBoundary, '\x7b' :: cs) := by
  rw [wordBoundary?]
  generalize settle verbose cs = letters
  rcases letters with _ | ⟨c, letters⟩
  · rfl
  · dsimp only
    split
    · unfold namedBoundary? boundaryOf? run
      rw [List.length_cons]
      split
      · split <;> simp [*]
      · simp [*]
    · rfl

theorem wordBoundary?_other {cs : List Char} (h : cs.head? ≠ some '\x7b') :
    wordBoundary? verbose cs = some (.assertion .wordBoundary, cs) := by
  unfold wordBoundary?
  split
  · exact absurd rfl h
  · rfl

/-- A word boundary is an assertion. -/
theorem wordBoundary?_assertion {cs rest : List Char} {x : Primitive}
    (h : wordBoundary? verbose cs = some (x, rest)) : ∃ a, x = .assertion a := by
  by_cases brace : cs.head? = some '\x7b'
  · obtain ⟨cs, rfl⟩ := List.head?_eq_some_iff.1 brace
    rw [wordBoundary?_brace] at h
    split at h
    · cases h
    · split at h
      · unfold namedBoundary? at h
        split at h
        · obtain ⟨a, -, same⟩ := Option.bind_eq_some_iff.1 h
          cases same
          exact ⟨a, rfl⟩
        · cases h
      · cases h
        exact ⟨.wordBoundary, rfl⟩
  · rw [wordBoundary?_other verbose brace] at h
    cases h
    exact ⟨.wordBoundary, rfl⟩

/-- What is left begins with a brace, and nothing but blanks stands between that and the parenthesis. -/
def EndsInBrace (left t : List Char) : Prop :=
  ∃ us, left = '\x7b' :: us ∧ settle verbose (us ++ ')' :: t) <:+ ')' :: t

/-- Behind a brace before the parenthesis, a word boundary finds its name before the parenthesis, or the
blanks reach up to that. -/
theorem wordBoundary?_brace_cut {us ys t s : List Char} {x : Primitive} (hs : Closed s)
    (h : wordBoundary? verbose ('\x7b' :: us ++ ')' :: t) = some (x, ys ++ ')' :: t)) :
    wordBoundary? verbose ('\x7b' :: us ++ s) = some (x, ys ++ s) ∨ EndsInBrace verbose ys t := by
  rw [List.cons_append, wordBoundary?_brace] at h
  rw [List.cons_append, wordBoundary?_brace]
  rcases settle_cases verbose us t with past | ⟨c, zs, before⟩
  · refine .inr ?_
    split at h
    · cases h
    next c rest letters =>
      split at h
      · obtain ⟨taken, same, le⟩ := (severable_namedBoundary? verbose).consumes h
        rw [letters, same] at past
        have := past.length_le
        simp only [List.length_append, List.length_cons] at this
        omega
      · have same : '\x7b' :: us ++ ')' :: t = ys ++ ')' :: t := (Prod.mk.inj (Option.some.inj h)).2
        exact ⟨us, (List.append_cancel_right same).symm, past⟩
  · refine .inl ?_
    rw [settle_cut hs before]
    rw [before] at h
    simp only [List.cons_append] at h ⊢
    split at h
    · rw [if_pos ‹_›]
      have cut : namedBoundary? verbose ((c :: zs) ++ s) = some (x, ys ++ s) :=
        (severable_namedBoundary? verbose).cut hs (Nat.zero_le _) h
      exact cut
    · rw [if_neg ‹_›]
      obtain ⟨rfl, same⟩ := Prod.mk.inj (Option.some.inj h)
      have all : '\x7b' :: us ++ ')' :: t = ys ++ ')' :: t := same
      rw [← List.append_cancel_right all]
      rfl

/-- A word boundary is also read before a brace.  It is not known then that the next reader goes on from
there: what the brace begins may be something else where the text ends at the parenthesis. -/
theorem wordBoundary?_cut {xs ys t s : List Char} {x : Primitive} (hs : Closed s)
    (h : wordBoundary? verbose (xs ++ ')' :: t) = some (x, ys ++ ')' :: t)) :
    wordBoundary? verbose (xs ++ s) = some (x, ys ++ s) ∨ EndsInBrace verbose ys t := by
  by_cases brace : xs.head? = some '\x7b'
  · obtain ⟨us, rfl⟩ := List.head?_eq_some_iff.1 brace
    exact wordBoundary?_brace_cut verbose hs h
  · rw [wordBoundary?_other verbose ((Closed.close t).head_append_ne (by decide) brace)] at h
    rw [wordBoundary?_other verbose (hs.head_append_ne (by decide) brace)]
    obtain ⟨rfl, same⟩ := Prod.mk.inj (Option.some.inj h)
    rw [List.append_cancel_right same]
    exact .inl rfl

/-- An escape of one letter reads the same whatever is behind it. -/
theorem escape?_letter {c : Char} (digit : ¬ c.isDigit) (hex : ¬ (c = 'x' ∨ c = 'u' ∨ c = 'U'))
    (property : ¬ (c = 'p' ∨ c = 'P')) (boundary : c ≠ 'b') (cs : List Char) :
    escape? verbose (c :: cs) = ((escape? verbose [c]).map (·.1)).map (·, cs) := by
  simp only [escape?, if_neg digit, if_neg hex, if_neg property]
  split
  · rfl
  · split
    case h_15 => exact absurd rfl boundary
    case h_19 => split <;> rfl
    all_goals rfl

/-- The escapes other than word boundaries. -/
def escapeBut? (cs : List Char) : Option (Primitive × List Char) :=
  if cs.head? = some 'b' then none else escape? verbose cs

theorem severable_escapeBut? : Severable 1 0 (escapeBut? verbose) := by
  refine .cons (k := 0) (fun c => ?_) rfl
  by_cases boundary : c = 'b'
  · subst boundary
    exact .nothing
  · have same (cs : List Char) : escapeBut? verbose (c :: cs) = escape? verbose (c :: cs) :=
      if_neg (by simpa using boundary)
    simp only [same]
    by_cases digit : c.isDigit
    · have none (cs : List Char) : escape? verbose (c :: cs) = none := if_pos digit
      simp only [none]
      exact .nothing
    · by_cases hex : c = 'x' ∨ c = 'u' ∨ c = 'U'
      · have goes (cs : List Char) : escape? verbose (c :: cs) = hexEscape? verbose c (c :: cs) :=
          (if_neg digit).trans (if_pos hex)
        simp only [goes]
        exact .weaken (.behind (severable_hexEscape? verbose c) c) (Nat.zero_le _) (Nat.le_refl _)
      · by_cases property : c = 'p' ∨ c = 'P'
        · have goes (cs : List Char) :
              escape? verbose (c :: cs) = propertyEscape? verbose (c == 'P') (c :: cs) :=
            (if_neg digit).trans ((if_neg hex).trans (if_pos property))
          simp only [goes]
          exact .weaken (.behind (severable_propertyEscape? verbose (c == 'P')) c) (Nat.zero_le _)
            (Nat.le_refl _)
        · obtain ⟨found, goes⟩ : ∃ found, ∀ cs, escape? verbose (c :: cs) = Option.map (·, cs) found :=
            ⟨_, escape?_letter verbose digit hex property boundary⟩
          simp only [goes, Option.map_eq_bind]
          exact .known _ fun x => .ret x

theorem consumes_wordBoundary? : Consumes 0 (wordBoundary? verbose) := by
  intro cs x rest h
  by_cases brace : cs.head? = some '\x7b'
  · obtain ⟨us, rfl⟩ := List.head?_eq_some_iff.1 brace
    rw [wordBoundary?_brace] at h
    split at h
    · cases h
    next c letters here =>
      split at h
      · obtain ⟨taken, same, -⟩ := (severable_namedBoundary? verbose).consumes h
        obtain ⟨skipped, whole⟩ := settle_suffix verbose us
        refine ⟨'\x7b' :: skipped ++ taken, ?_, Nat.zero_le _⟩
        rw [List.append_assoc, ← same, ← here, List.cons_append, ← whole]
      · obtain ⟨rfl, rfl⟩ := Prod.mk.inj (Option.some.inj h)
        exact ⟨[], rfl, Nat.le_refl 0⟩
  · rw [wordBoundary?_other verbose brace] at h
    obtain ⟨rfl, rfl⟩ := Prod.mk.inj (Option.some.inj h)
    exact ⟨[], rfl, Nat.le_refl 0⟩

theorem escape?_boundary (cs : List Char) : escape? verbose ('b' :: cs) = wordBoundary? verbose cs := by
  rw [escape?, if_neg (by decide), if_neg (by decide), if_neg (by decide), if_neg (by decide)]

theorem escape?_but {cs : List Char} (h : cs.head? ≠ some 'b') :
    escape? verbose cs = escapeBut? verbose cs :=
  (if_neg h).symm

theorem consumes_escape? : Consumes 1 (escape? verbose) := by
  intro cs x rest h
  by_cases boundary : cs.head? = some 'b'
  · obtain ⟨cs, rfl⟩ := List.head?_eq_some_iff.1 boundary
    rw [escape?_boundary] at h
    obtain ⟨taken, rfl, -⟩ := consumes_wordBoundary? verbose h
    exact ⟨'b' :: taken, rfl, Nat.le_add_left 1 _⟩
  · rw [escape?_but verbose boundary] at h
    exact (severable_escapeBut? verbose).consumes h

theorem escape?_cut {xs ys t s : List Char} {x : Primitive} (hs : Closed s)
    (h : escape? verbose (xs ++ ')' :: t) = some (x, ys ++ ')' :: t)) :
    escape? verbose (xs ++ s) = some (x, ys ++ s) ∨ EndsInBrace verbose ys t := by
  by_cases boundary : xs.head? = some 'b'
  · obtain ⟨xs, rfl⟩ := List.head?_eq_some_iff.1 boundary
    rw [List.cons_append, escape?_boundary] at h ⊢
    exact wordBoundary?_cut verbose hs h
  · rw [escape?_but verbose ((Closed.close t).head_append_ne (by decide) boundary)] at h
    rw [escape?_but verbose (hs.head_append_ne (by decide) boundary)]
    exact .inl ((severable_escapeBut? verbose).cut hs (Nat.zero_le _) h)

/-- What a character outside escapes reads as. -/
def Primitive.ofChar (c : Char) : Primitive :=
  if c = '.' then dot
  else if c = '^' then assertion .startLine
  else if c = '$' then assertion .endLine
  else char c

theorem primitive?_ofChar {c : Char} (h : c ≠ '\\') (cs : List Char) :
    primitive? verbose (c :: cs) = some (.ofChar c, cs) := by
  unfold primitive? Primitive.ofChar
  split <;> simp_all

theorem consumes_primitive? : Consumes 1 (primitive? verbose) := by
  intro cs x rest h
  rcases cs with _ | ⟨c, cs⟩
  · cases h
  · by_cases escape : c = '\\'
    · subst escape
      obtain ⟨taken, rfl, -⟩ := consumes_escape? verbose h
      exact ⟨'\\' :: taken, rfl, Nat.le_add_left 1 _⟩
    · rw [primitive?_ofChar verbose escape] at h
      obtain ⟨rfl, rfl⟩ := Prod.mk.inj (Option.some.inj h)
      exact ⟨[c], rfl, Nat.le_refl 1⟩

theorem primitive?_cut {xs ys t s : List Char} {x : Primitive} (hs : Closed s)
    (h : primitive? verbose (xs ++ ')' :: t) = some (x, ys ++ ')' :: t)) :
    primitive? verbose (xs ++ s) = some (x, ys ++ s) ∨ EndsInBrace verbose ys t := by
  rcases xs with _ | ⟨c, xs⟩
  · obtain ⟨taken, same, le⟩ := consumes_primitive? verbose h
    have := congrArg List.length same
    simp only [List.length_append, List.length_nil, List.length_cons] at this
    omega
  · rw [List.cons_append] at h ⊢
    by_cases escape : c = '\\'
    · subst escape
      exact escape?_cut verbose hs h
    · rw [primitive?_ofChar verbose escape] at h ⊢
      obtain ⟨rfl, same⟩ := Prod.mk.inj (Option.some.inj h)
      rw [List.append_cancel_right same]
      exact .inl rfl

end LazyPeg.Pattern
