import LazyPeg.Proofs.Pattern.Groups

/-!
# Alternatives can be cut off

The reader of alternatives calls itself for what is in a group, and it has a bound on its steps, so two
readers with different bounds are compared (`ReadsSever`, `readsSever`).  The induction is on the bound.

One part cannot be cut off by itself: a word boundary in front of a brace (`primitive?_cut`).  If nothing but
blanks stands between the brace and the parenthesis, the brace would have to begin the bounds of a
repetition, and these do not end before the parenthesis (`length_le_of_endsInBrace`).  That is shown by what
the reader consumes, which is why the induction has all smaller bounds.
-/
namespace LazyPeg.Pattern

/-- A pattern and the state behind it, as the result of a reader. -/
def asRead (y : Ast × Remaining) : (Ast × Bool × List (List Char)) × List Char :=
  ((y.1, y.2.verbose, y.2.names), y.2.chars)

/-- The alternatives, as a reader. -/
def reads? (n : Nat) (branches items : List Ast) (verbose : Bool) (names : List (List Char))
    (cs : List Char) : Option ((Ast × Bool × List (List Char)) × List Char) :=
  (alternation? n branches items ⟨cs, verbose, names⟩).map asRead

section
variable (n : Nat) (branches items : List Ast) (verbose : Bool) (names : List (List Char))

/-- The alternatives up to the last item. -/
def done : Ast := Ast.ofBranches (Ast.ofItems items.reverse :: branches).reverse

/-- The alternatives behind a group that has opened. -/
def inGroup? (changes : FlagChanges) (inside : List (List Char)) (cs : List Char) :
    Option ((Ast × Bool × List (List Char)) × List Char) :=
  (reads? n [] [] (changes.apply .verbose verbose) inside cs).bind fun y => match y.2 with
    | ')' :: rest => reads? n branches (.group changes y.1.1 :: items) verbose y.1.2.2 rest
    | _ => none

/-- The alternatives behind an opening. -/
def opened? (opening : Opening) (cs : List Char) :
    Option ((Ast × Bool × List (List Char)) × List Char) :=
  match opening with
  | .flags changes => reads? n branches (.flags changes :: items) (changes.apply .verbose verbose) names cs
  | .group changes => inGroup? n branches items verbose changes names cs
  | .named name =>
    if names.contains name then none else inGroup? n branches items verbose [] (name :: names) cs

/-- The alternatives, from a part of them. -/
def fromPart? (cs : List Char) : Option ((Ast × Bool × List (List Char)) × List Char) :=
  match cs with
  | '|' :: rest => reads? n (Ast.ofItems items.reverse :: branches) [] verbose names rest
  | '[' :: _ => (class? verbose cs).bind fun y => reads? n branches (y.1 :: items) verbose names y.2
  | '?' :: rest => (repeatLast? 0 (some 1) items).bind fun items =>
    reads? n branches items verbose names (dropLazy rest)
  | '*' :: rest => (repeatLast? 0 none items).bind fun items =>
    reads? n branches items verbose names (dropLazy rest)
  | '+' :: rest => (repeatLast? 1 none items).bind fun items =>
    reads? n branches items verbose names (dropLazy rest)
  | '\x7b' :: _ => (bounds? verbose cs).bind fun y => (repeatLast? y.1.1 y.1.2 items).bind fun items =>
    reads? n branches items verbose names y.2
  | '(' :: rest => (opening? verbose rest).bind fun y =>
    opened? n branches items verbose names y.1 y.2
  | cs => (primitive? verbose cs).bind fun y => reads? n branches (y.1.ast :: items) verbose names y.2

/-- The alternatives, without blanks before them. -/
def fromSettled? (cs : List Char) : Option ((Ast × Bool × List (List Char)) × List Char) :=
  match cs with
  | [] => some ((done branches items, verbose, names), [])
  | ')' :: rest => some ((done branches items, verbose, names), ')' :: rest)
  | cs => fromPart? n branches items verbose names cs

theorem inGroup?_eq (changes : FlagChanges) (inside : List (List Char)) (cs : List Char) :
    inGroup? n branches items verbose changes inside cs = Option.map asRead
      ((alternation? n [] [] ⟨cs, changes.apply .verbose verbose, inside⟩).bind fun y =>
        match y.2.chars with
        | ')' :: rest => alternation? n branches (.group changes y.1 :: items) ⟨rest, verbose, y.2.names⟩
        | _ => none) := by
  rw [Option.map_bind, inGroup?, reads?, Option.bind_map]
  refine congrArg (Option.bind _) (funext fun y => ?_)
  dsimp only [Function.comp, asRead]
  split <;> rfl

/-- A part that begins with none of the marks is a primitive. -/
theorem fromPart?_primitive {cs : List Char} (bar : ∀ rest, cs ≠ '|' :: rest)
    (bracket : ∀ rest, cs ≠ '[' :: rest) (optional : ∀ rest, cs ≠ '?' :: rest)
    (any : ∀ rest, cs ≠ '*' :: rest) (some : ∀ rest, cs ≠ '+' :: rest)
    (brace : ∀ rest, cs ≠ '\x7b' :: rest) (parenthesis : ∀ rest, cs ≠ '(' :: rest) :
    fromPart? n branches items verbose names cs = (primitive? verbose cs).bind fun y =>
      reads? n branches (y.1.ast :: items) verbose names y.2 := by
  unfold fromPart?
  split
  · exact (bar _ rfl).elim
  · exact (bracket _ rfl).elim
  · exact (optional _ rfl).elim
  · exact (any _ rfl).elim
  · exact (some _ rfl).elim
  · exact (brace _ rfl).elim
  · exact (parenthesis _ rfl).elim
  · rfl

theorem reads?_succ (cs : List Char) : reads? (n + 1) branches items verbose names cs =
    fromSettled? n branches items verbose names (settle verbose cs) := by
  rw [reads?, alternation?]
  unfold fromSettled?
  dsimp only
  generalize settle verbose cs = cs
  split
  · rfl
  · rfl
  · rfl
  · exact Option.map_bind
  · exact Option.map_bind
  · exact Option.map_bind
  · exact Option.map_bind
  · exact Option.map_bind.trans (congrArg (Option.bind _) (funext fun y => Option.map_bind))
  next rest =>
    refine Option.map_bind.trans (congrArg (Option.bind _) (funext fun y => ?_))
    rcases y with ⟨opening, rest⟩
    cases opening with
    | flags changes => rfl
    | group changes => exact (inGroup?_eq n branches items verbose changes names rest).symm
    | named name =>
      by_cases twice : names.contains name = true
      · simp only [Function.comp, opened?, twice, if_true]
        rfl
      · simp only [Function.comp, opened?, twice, Bool.false_eq_true, if_false]
        exact (inGroup?_eq n branches items verbose [] (name :: names) rest).symm
  next _ nil close bar bracket optional any some brace parenthesis =>
    split
    · exact (nil rfl).elim
    · exact (close _ rfl).elim
    · rw [fromPart?_primitive n branches items verbose names bar bracket optional any some brace parenthesis]
      exact Option.map_bind

end

/-- The alternatives can be cut off, with a bound on the number of parts that is large enough. -/
def ReadsSever (n : Nat) : Prop := ∀ m room, room < m → ∀ branches items verbose names,
  Severs 0 0 room (reads? n branches items verbose names) (reads? m branches items verbose names)

theorem ReadsSever.consumes {n : Nat} (h : ReadsSever n) (branches items : List Ast) (verbose : Bool)
    (names : List (List Char)) : Consumes 0 (reads? n branches items verbose names) :=
  (h 1 0 Nat.one_pos branches items verbose names).consumes

/-- Behind a brace that only the parenthesis follows there is no way to stop at the parenthesis. -/
theorem length_le_of_endsInBrace {n : Nat} (below : ∀ k, k < n → ReadsSever k) {branches items : List Ast}
    {verbose : Bool} {names : List (List Char)} {ys t rest : List Char} {y : Ast × Bool × List (List Char)}
    (brace : EndsInBrace verbose ys t)
    (h : reads? n branches items verbose names (ys ++ ')' :: t) = some (y, rest)) :
    rest.length ≤ t.length := by
  obtain ⟨us, rfl, past⟩ := brace
  cases n with
  | zero => cases h
  | succ n =>
    have here : settle verbose ('\x7b' :: us ++ ')' :: t) = '\x7b' :: us ++ ')' :: t := by
      cases verbose with
      | false => rfl
      | true => rfl
    rw [reads?_succ, here] at h
    obtain ⟨⟨⟨least, most⟩, mid⟩, hbounds, h⟩ := Option.bind_eq_some_iff.1 h
    obtain ⟨items', -, h⟩ := Option.bind_eq_some_iff.1 h
    obtain ⟨taken, rfl, -⟩ := (below n (Nat.lt_succ_self n)).consumes branches items' verbose names h
    have short : (taken ++ rest).length < (settle verbose (us ++ ')' :: t)).length :=
      length_lt_of_bounds? verbose hbounds
    have := past.length_le
    simp only [List.length_append, List.length_cons] at short this
    omega

section
variable {n : Nat} (ih : ReadsSever n) {m room : Nat} (enough : room < m) (branches items : List Ast)
  (verbose : Bool) (names : List (List Char))
include ih enough

theorem severs_inGroup? (changes : FlagChanges) (inside : List (List Char)) :
    Severs 0 0 room (inGroup? n branches items verbose changes inside)
      (inGroup? m branches items verbose changes inside) := by
  have behind (a : Ast) (v : Bool) (inside : List (List Char)) (n : Nat) (ih : ReadsSever n) (m room : Nat)
      (enough : room < m) : Severs 1 0 room
      (fun cs => match cs with
        | ')' :: rest => reads? n branches (.group changes a :: items) verbose inside rest
        | _ => none)
      fun cs => match cs with
        | ')' :: rest => reads? m branches (.group changes a :: items) verbose inside rest
        | _ => none := by
    have miss (n : Nat) (cs : List Char) (other : cs.head? ≠ some ')') : (match cs with
        | ')' :: rest => reads? n branches (.group changes a :: items) verbose inside rest
        | _ => none) = none := by
      split
      · exact absurd rfl other
      · rfl
    exact .expect ')' (ih.consumes branches (.group changes a :: items) verbose inside)
      (fun room' less => ih m room' (by omega) branches (.group changes a :: items) verbose inside)
      (miss n) (miss m)
  exact .weaken (.bind (m := 1) (ih m room enough [] [] (changes.apply .verbose verbose) inside)
    (fun y => (behind y.1 y.2.1 y.2.2 n ih 1 0 Nat.one_pos).consumes)
    (fun y room' less => behind y.1 y.2.1 y.2.2 n ih m room' (by omega)) (Nat.zero_le _)) (Nat.zero_le _)
    (Nat.le_refl _)

theorem severs_opened? (opening : Opening) :
    Severs 0 0 room (opened? n branches items verbose names opening)
      (opened? m branches items verbose names opening) := by
  cases opening with
  | flags changes => exact ih m room enough branches _ _ names
  | group changes => exact severs_inGroup? ih enough branches items verbose changes names
  | named name => exact .ite .nothing (severs_inGroup? ih enough branches items verbose [] (name :: names))

/-- A repetition takes the mark for few matches with it. -/
theorem severs_repeated (least : Nat) (most : Option Nat) : Severs 0 0 room
    (fun cs => (repeatLast? least most items).bind fun items =>
      reads? n branches items verbose names (dropLazy cs))
    fun cs => (repeatLast? least most items).bind fun items =>
      reads? m branches items verbose names (dropLazy cs) :=
  .known _ fun items =>
    .dropped dropLazy_suffix dropLazy_stops (ih m room enough branches items verbose names)

theorem severs_primitive (below : ∀ k, k < n → ReadsSever k) (c : Char) : Severs 0 0 room
    (fun cs => (primitive? verbose (c :: cs)).bind fun y =>
      reads? n branches (y.1.ast :: items) verbose names y.2)
    fun cs => (primitive? verbose (c :: cs)).bind fun y =>
      reads? m branches (y.1.ast :: items) verbose names y.2 := by
  have consumes : Consumes 0 fun cs => primitive? verbose (c :: cs) := fun {cs x rest} h => by
    obtain ⟨taken, same, le⟩ := consumes_primitive? verbose h
    obtain ⟨d, taken, rfl⟩ := List.exists_cons_of_length_pos le
    exact ⟨taken, (List.cons.inj same).2, Nat.zero_le _⟩
  refine .bind_unless (k := 0) (m := 0) (l := 0) consumes (fun {t s xs x ys} hs _ _ h => ?_)
    (fun x => ih.consumes branches (x.ast :: items) verbose names)
    (fun x room' less => ih m room' (by omega) branches (x.ast :: items) verbose names) (Nat.zero_le _)
  have here : primitive? verbose (c :: xs ++ ')' :: t) = some (x, ys ++ ')' :: t) := h
  refine (primitive?_cut verbose hs here).imp_right fun brace y zs stops => ?_
  have := length_le_of_endsInBrace below brace stops
  simp only [List.length_append, List.length_cons] at this
  omega

theorem severs_fromPart? (below : ∀ k, k < n → ReadsSever k) (c : Char) : Severs 0 0 room
    (fun cs => fromPart? n branches items verbose names (c :: cs))
    fun cs => fromPart? m branches items verbose names (c :: cs) := by
  by_cases bar : c = '|'
  · subst bar
    exact ih m room enough _ _ verbose names
  by_cases bracket : c = '['
  · subst bracket
    have inside := ((severable_class? verbose).weaken (Nat.le_succ 1) (Nat.le_refl _)).behind '['
    exact .bind (k := 0) (m := 0) (inside room) (fun a => ih.consumes branches (a :: items) verbose names)
      (fun a room' less => ih m room' (by omega) branches (a :: items) verbose names) (Nat.zero_le _)
  by_cases optional : c = '?'
  · subst optional
    exact severs_repeated ih enough branches items verbose names 0 (some 1)
  by_cases any : c = '*'
  · subst any
    exact severs_repeated ih enough branches items verbose names 0 none
  by_cases some : c = '+'
  · subst some
    exact severs_repeated ih enough branches items verbose names 1 none
  by_cases brace : c = '\x7b'
  · subst brace
    have inside := ((severable_bounds? verbose).weaken (Nat.le_succ 1) (Nat.le_refl _)).behind '\x7b'
    have repeated (bounds : Nat × Option Nat) (m room : Nat) (enough : room < m) : Severs 0 0 room
        (fun cs => (repeatLast? bounds.1 bounds.2 items).bind fun items =>
          reads? n branches items verbose names cs)
        fun cs => (repeatLast? bounds.1 bounds.2 items).bind fun items =>
          reads? m branches items verbose names cs :=
      .known _ fun items => ih m room enough branches items verbose names
    exact .bind (k := 0) (m := 0) (inside room) (fun bounds => (repeated bounds 1 0 Nat.one_pos).consumes)
      (fun bounds room' less => repeated bounds m room' (by omega)) (Nat.zero_le _)
  by_cases parenthesis : c = '('
  · subst parenthesis
    exact .bind (k := 0) (m := 0) (severable_opening? verbose room)
      (fun opening => (severs_opened? ih Nat.one_pos branches items verbose names opening).consumes)
      (fun opening room' less => severs_opened? ih (by omega) branches items verbose names opening)
      (Nat.zero_le _)
  have primitive (n : Nat) (cs : List Char) : fromPart? n branches items verbose names (c :: cs) =
      (primitive? verbose (c :: cs)).bind fun y =>
        reads? n branches (y.1.ast :: items) verbose names y.2 := by
    apply fromPart?_primitive <;> simp [*]
  simp only [primitive]
  exact severs_primitive ih enough branches items verbose names below c

end

/-- **Alternatives can be cut off**: they are read the same where the text ends at the parenthesis at which
they stop. -/
theorem readsSever (n : Nat) : ReadsSever n := by
  induction n using Nat.strongRecOn with
  | _ n below =>
    cases n with
    | zero => exact fun _ _ _ _ _ _ _ => .nothing
    | succ n =>
      intro m room enough branches items verbose names
      obtain ⟨m, rfl⟩ := Nat.exists_eq_add_one_of_ne_zero (Nat.ne_zero_of_lt enough)
      have ih := below n (Nat.lt_succ_self n)
      have earlier (k : Nat) (hk : k < n) : ReadsSever k := below k (Nat.lt_succ_of_lt hk)
      have parts : Severs 1 0 room (fromPart? n branches items verbose names)
          (fromPart? m branches items verbose names) :=
        .cons (k := 0)
          (fun c => (severs_fromPart? ih Nat.one_pos branches items verbose names earlier c).consumes)
          (fun c room' less => severs_fromPart? ih (by omega) branches items verbose names earlier c) rfl
      have parts : Severs 0 0 room (fromPart? n branches items verbose names)
          (fromPart? m branches items verbose names) := parts.weaken (Nat.zero_le _) (Nat.le_refl _)
      rw [funext (reads?_succ n branches items verbose names),
        funext (reads?_succ m branches items verbose names)]
      refine .settled verbose (.stop (x := (done branches items, verbose, names)) parts rfl (fun _ => rfl)
        (fun _ => rfl) rfl (fun c cs other => ?_) fun c cs other => ?_)
      · simp [fromSettled?, other]
      · simp [fromSettled?, other]

end LazyPeg.Pattern
