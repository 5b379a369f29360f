import LazyPeg.Proofs.Pattern.Items
import LazyPeg.Proofs.Pattern.Documented
import LazyPeg.Pattern.Standard

/-!
# The engine that programs run with

The standard engine does what is documented of engines (`documented_standard`).

The readers of patterns can be cut off where a group closes (`readsSever`), so the text in a group is read
there as it is read alone.  `Closes` says so of a text, and that nothing in it is still open at its end.
A group has such a text in it, and what follows is read behind the group (`exists_closes`).
-/
namespace LazyPeg.Pattern

/-! ## 1. Texts of patterns -/

theorem parse?_eq_some {text : List Char} {a : Ast} : Ast.parse? text = some a ↔
    ∃ verbose names, reads? (text.length + 1) [] [] false [] text = some ((a, verbose, names), []) ∧
      a.depth ≤ nestLimit := by
  unfold Ast.parse? reads? asRead
  rcases alternation? (text.length + 1) [] [] ⟨text, false, []⟩ with _ | ⟨b, rest, verbose, names⟩
  · simp
  · rcases rest with _ | ⟨c, rest⟩
    · by_cases shallow : b.depth ≤ nestLimit
      · simp only [if_pos shallow, Option.map_some, Option.some.injEq, Prod.mk.injEq, and_true]
        constructor
        · rintro rfl
          exact ⟨verbose, names, ⟨rfl, rfl, rfl⟩, shallow⟩
        · rintro ⟨-, -, ⟨rfl, -, -⟩, -⟩
          rfl
      · simp only [if_neg shallow, Option.map_some, Option.some.injEq, Prod.mk.injEq, and_true]
        constructor
        · exact nofun
        · rintro ⟨-, -, ⟨rfl, -, -⟩, deep⟩
          exact absurd deep shallow
    · simp

/-- A text whose alternatives stop before its end is no pattern. -/
theorem parse?_eq_none {text rest : List Char} {c : Char} {x : Ast × Bool × List (List Char)}
    (h : reads? (text.length + 1) [] [] false [] text = some (x, c :: rest)) : Ast.parse? text = none := by
  refine Option.eq_none_iff_forall_ne_some.2 fun a ha => ?_
  obtain ⟨verbose, names, all, -⟩ := parse?_eq_some.1 ha
  cases h.symm.trans all

theorem read?_eq_some {text : List Char} {p : Pattern} : read? text = some p ↔
    ∃ a f, Ast.parse? text = some a ∧ a.meaning? .initial = some (p, f) := by
  simp [read?, Option.bind_eq_some_iff]

/-- The bounds of repetitions are in order in a pattern that was read. -/
theorem proper_of_read? {text : List Char} {p : Pattern} (h : read? text = some p) : p.Proper := by
  obtain ⟨a, f, parsed, meaning⟩ := read?_eq_some.1 h
  obtain ⟨verbose, names, all, -⟩ := parse?_eq_some.1 parsed
  exact proper_of_meaning? a (proper_of_reads? all nofun nofun) meaning

/-! ## 2. Texts in groups -/

/-- The alternatives of a text are read up to its end, if the end of a group or of everything follows. -/
def Closes (text : List Char) (x : Ast × Bool × List (List Char)) : Prop :=
  ∀ m s, text.length < m → Closed s → reads? m [] [] false [] (text ++ s) = some (x, s)

section
variable {text behind : List Char} {x : Ast × Bool × List (List Char)}

/-- Where the alternatives stop at a parenthesis, those before it are a text that closes. -/
theorem exists_closes_of_reads? {n : Nat} {cs : List Char}
    (h : reads? n [] [] false [] cs = some (x, ')' :: behind)) :
    ∃ text, cs = text ++ ')' :: behind ∧ Closes text x := by
  have sever (m room : Nat) (enough : room < m) := readsSever n m room enough [] [] false []
  obtain ⟨text, rfl, -⟩ := (sever 1 0 Nat.one_pos).consumes h
  refine ⟨text, rfl, fun m s enough closed => ?_⟩
  have cut : reads? m [] [] false [] (text ++ s) = some (x, [] ++ s) :=
    (sever m text.length enough).cut closed (Nat.le_refl _) (Nat.zero_le _) h
  exact cut

theorem Closes.parse? (h : Closes text x) (shallow : x.1.depth ≤ nestLimit) :
    Ast.parse? text = some x.1 := by
  have alone := h _ _ (Nat.lt_succ_self _) .nil
  rw [List.append_nil] at alone
  exact parse?_eq_some.2 ⟨x.2.1, x.2.2, alone, shallow⟩

/-- A parenthesis behind a text that closes is too much. -/
theorem Closes.parse?_append_close (h : Closes text x) (behind : List Char) :
    Ast.parse? (text ++ ')' :: behind) = none := by
  have enough : text.length < (text ++ ')' :: behind).length + 1 := by
    rw [List.length_append]
    omega
  exact parse?_eq_none (h _ _ enough (.close behind))

theorem reads?_startLine (n : Nat) (items : List Ast) (names : List (List Char)) (cs : List Char) :
    reads? (n + 1) [] items false names ('^' :: cs) =
      reads? n [] (.assertion .startLine :: items) false names cs := by
  rw [reads?_succ]
  rfl

theorem reads?_endLine (n : Nat) (items : List Ast) (names : List (List Char)) (cs : List Char) :
    reads? (n + 1) [] items false names ('$' :: cs) =
      reads? n [] (.assertion .endLine :: items) false names cs := by
  rw [reads?_succ]
  rfl

theorem reads?_nil (n : Nat) (items : List Ast) (names : List (List Char)) :
    reads? (n + 1) [] items false names [] = some ((done [] items, false, names), []) := by
  rw [reads?_succ]
  rfl

theorem reads?_group (n : Nat) (items : List Ast) (cs : List Char) :
    reads? (n + 1) [] items false [] ('(' :: '?' :: ':' :: cs) = inGroup? n [] items false [] [] cs := by
  have opens (cs : List Char) : reads? (n + 1) [] items false [] ('(' :: cs) =
      (opening? false cs).bind fun y => opened? n [] items false [] y.1 y.2 := by
    rw [reads?_succ]
    rfl
  have opening : opening? false ('?' :: ':' :: cs) = some (.group [], cs) := by
    simp [opening?, settle, flags?_end]
  rw [opens, opening]
  rfl

/-- A group around a text that closes is one part. -/
theorem Closes.reads?_group (h : Closes text x) {n : Nat} (enough : text.length < n) (items : List Ast) :
    reads? (n + 1) [] items false [] ('(' :: '?' :: ':' :: (text ++ ')' :: behind)) =
      reads? n [] (.group [] x.1 :: items) false x.2.2 behind := by
  have inside : reads? n [] [] (FlagChanges.apply [] .verbose false) [] (text ++ ')' :: behind) =
      some (x, ')' :: behind) := h _ _ enough (.close behind)
  rw [Pattern.reads?_group, inGroup?, inside]
  rfl

/-- **A group has a text in it that closes**, and what follows is read behind the group. -/
theorem exists_closes {n : Nat} {items : List Ast} {cs : List Char} {y : Ast × Bool × List (List Char)}
    (h : reads? (n + 1) [] items false [] ('(' :: '?' :: ':' :: cs) = some (y, [])) :
    ∃ text behind x, cs = text ++ ')' :: behind ∧ Closes text x ∧
      reads? n [] (.group [] x.1 :: items) false x.2.2 behind = some (y, []) := by
  rw [reads?_group] at h
  obtain ⟨⟨x, rest⟩, first, h⟩ := Option.bind_eq_some_iff.1 h
  dsimp only at h
  split at h
  next behind =>
    obtain ⟨text, split, closes⟩ := exists_closes_of_reads? first
    exact ⟨text, behind, x, split, closes, h⟩
  next => cases h

/-! ## 3. Patterns in groups -/

/-- A text that closes, with a pattern that is not nested too deeply for a group around it. -/
structure Fits (text : List Char) (x : Ast × Bool × List (List Char)) : Prop where
  closes : Closes text x
  shallow : x.1.depth < nestLimit

theorem Fits.parse? (h : Fits text x) : Ast.parse? text = some x.1 :=
  h.closes.parse? (Nat.le_of_lt h.shallow)

/-- A group around the text means what the text means. -/
theorem Fits.read?_grouped (h : Fits text x) :
    read? ('(' :: '?' :: ':' :: (text ++ [')'])) = read? text := by
  have parsed : Ast.parse? ('(' :: '?' :: ':' :: (text ++ [')'])) = some (.group [] x.1) := by
    refine parse?_eq_some.2 ⟨false, x.2.2, ?_, h.shallow⟩
    have room : ('(' :: '?' :: ':' :: (text ++ [')'])).length + 1 = text.length + 3 + 1 + 1 := by simp
    rw [room, h.closes.reads?_group (by omega), reads?_nil]
    rfl
  have unchanged : Flags.initial.change [] = Flags.initial := rfl
  rw [read?, read?, parsed, h.parse?, Option.bind_some, Option.bind_some, Ast.meaning?, unchanged]
  cases x.1.meaning? .initial <;> rfl

/-- The meaning of a group between marks for both ends. -/
theorem meaning?_anchored {b : Ast} {q : Pattern} {f : Flags}
    (h : Ast.meaning? .initial (.concat [.assertion .startLine, .group [] b, .assertion .endLine]) =
      some (q, f)) :
    ∃ p f', b.meaning? .initial = some (p, f') ∧
      q = .concat (.look .startText) (.concat p (.concat (.look .endText) .empty)) := by
  have unchanged : Flags.initial.change [] = Flags.initial := rfl
  simp only [Ast.meaning?, Ast.itemsMeaning?, unchanged, Option.pure_def, Option.bind_eq_bind,
    Option.bind_some] at h
  obtain ⟨behind, hbehind, h⟩ := Option.bind_eq_some_iff.1 h
  obtain ⟨group, hgroup, hbehind⟩ := Option.bind_eq_some_iff.1 hbehind
  obtain ⟨⟨p, f'⟩, hp, hgroup⟩ := Option.bind_eq_some_iff.1 hgroup
  cases hgroup
  cases hbehind
  cases h
  exact ⟨p, f', hp, rfl⟩

/-- Between marks for both ends the group stands between their conditions. -/
theorem Fits.exists_of_read?_anchored (h : Fits text x) {q : Pattern}
    (hq : read? ('^' :: '(' :: '?' :: ':' :: (text ++ [')', '$'])) = some q) :
    ∃ p, read? text = some p ∧
      q = .concat (.look .startText) (.concat p (.concat (.look .endText) .empty)) := by
  obtain ⟨a, f, parsed, meaning⟩ := read?_eq_some.1 hq
  obtain ⟨verbose, names, all, -⟩ := parse?_eq_some.1 parsed
  have room : ('^' :: '(' :: '?' :: ':' :: (text ++ [')', '$'])).length + 1 =
      text.length + 3 + 1 + 1 + 1 + 1 := by simp
  rw [room, reads?_startLine, h.closes.reads?_group (by omega), reads?_endLine, reads?_nil] at all
  cases all
  obtain ⟨p, f', hp, rfl⟩ := meaning?_anchored meaning
  exact ⟨p, read?_eq_some.2 ⟨x.1, f', h.parse?, hp⟩, rfl⟩

/-- What opens a group behind the mark for the start is a pattern only if a pattern stands in that group. -/
theorem exists_fits {cs : List Char} {p : Pattern} (h : read? ('^' :: '(' :: '?' :: ':' :: cs) = some p) :
    ∃ text behind x, cs = text ++ ')' :: behind ∧ Fits text x ∧ (read? text).isSome := by
  obtain ⟨a, f, parsed, meaning⟩ := read?_eq_some.1 h
  obtain ⟨verbose, names, all, shallow⟩ := parse?_eq_some.1 parsed
  have room : ('^' :: '(' :: '?' :: ':' :: cs).length + 1 = cs.length + 3 + 1 + 1 := by simp
  rw [room, reads?_startLine] at all
  obtain ⟨text, behind, x, split, closes, rest⟩ := exists_closes all
  have nested := maxDepth_le_of_reads? rest
  simp only [Ast.maxDepth, Ast.depth] at nested
  have fits : Fits text x := ⟨closes, by omega⟩
  have gathered : ((done [] [.group [] x.1, .assertion .startLine]).after? .initial).isSome :=
    isSome_after?_of_reads? rest (by rw [Ast.after?, meaning]; rfl)
  have last : (done [] [.group [] x.1, .assertion .startLine]).after? .initial =
      (Ast.group [] x.1).after? .initial := by
    rw [after?_done]
    exact bind_pure ((Ast.group [] x.1).after? .initial)
  have unchanged : Flags.initial.change [] = Flags.initial := rfl
  rw [last, after?_group, Option.isSome_map, unchanged, Ast.after?, Option.isSome_map] at gathered
  refine ⟨text, behind, x, split, fits, ?_⟩
  rwa [read?, fits.parse?, Option.bind_some, Option.isSome_map]

/-- A text before a parenthesis is what closes there, if it is a pattern. -/
theorem Fits.of_close {cs tail : List Char} (free : ')' ∉ tail) (h : Fits text x)
    (split : cs ++ ')' :: tail = text ++ ')' :: behind) (alone : (read? cs).isSome) : Fits cs x := by
  rcases close_cases free split with rfl | ⟨more, rfl⟩
  · exact h
  · rw [read?, h.closes.parse?_append_close] at alone
    cases alone

/-- If a pattern is one in a group, too, then nothing in it is still open at its end. -/
theorem exists_fits_of_grouped {cs : List Char} {p q : Pattern} (alone : read? cs = some p)
    (group : read? ('(' :: '?' :: ':' :: (cs ++ [')'])) = some q) : ∃ x, Fits cs x := by
  obtain ⟨a, f, parsed, -⟩ := read?_eq_some.1 group
  obtain ⟨verbose, names, all, shallow⟩ := parse?_eq_some.1 parsed
  have room : ('(' :: '?' :: ':' :: (cs ++ [')'])).length + 1 = cs.length + 4 + 1 := by simp
  rw [room] at all
  obtain ⟨text, behind, x, split, closes, rest⟩ := exists_closes all
  have nested := maxDepth_le_of_reads? rest
  simp only [Ast.maxDepth, Ast.depth] at nested
  have fits : Fits text x := ⟨closes, by omega⟩
  exact ⟨x, fits.of_close List.not_mem_nil split (alone ▸ rfl)⟩

/-- If a pattern is one between marks for both ends, too, then nothing in it is still open at its end. -/
theorem exists_fits_of_anchored {cs : List Char} {p q : Pattern} (alone : read? cs = some p)
    (whole : read? ('^' :: '(' :: '?' :: ':' :: (cs ++ [')', '$'])) = some q) : ∃ x, Fits cs x := by
  obtain ⟨text, behind, x, split, fits, -⟩ := exists_fits whole
  exact ⟨x, fits.of_close (by decide) split (alone ▸ rfl)⟩

end

/-! ## 4. The laws -/

/-- What the patterns of the standard engine match. -/
def standardMeaning : Meaning := fun text chars i j =>
  ∃ p, read? text.toList = some p ∧ p.Matches chars i j

theorem standardMeaning_iff {text : String} {p : Pattern} (h : read? text.toList = some p)
    {chars : List Char} {i j : Nat} : standardMeaning text chars i j ↔ p.Matches chars i j := by
  simp [standardMeaning, h]

theorem accepts_standard_iff {text : String} :
    standard.Accepts text ↔ ∃ p, read? text.toList = some p := by
  simp only [Engine.Accepts, standard_new_eq_ok_iff]
  exact ⟨fun ⟨_, p, read, _⟩ => ⟨p, read⟩, fun ⟨p, read⟩ => ⟨_, p, read, rfl⟩⟩

/-- A pattern is found in a character if it matches some stretch of it. -/
theorem isFoundIn_iff {p : Pattern} (proper : p.Proper) (c : Char) :
    p.isFoundIn c ↔ ∃ i j, p.Matches [c] i j := by
  have span := describes_span c proper
  simp only [isFoundIn, Span.any, Bool.or_eq_true, ← span.before, ← span.across, ← span.after]
  constructor
  · rintro ((found | found) | found) <;> exact ⟨_, _, found⟩
  · rintro ⟨i, j, found⟩
    obtain ⟨le, inside⟩ := span.inside found
    obtain rfl | rfl := Nat.le_one_iff_eq_zero_or_eq_one.1 inside
    · obtain rfl := Nat.le_zero.1 le
      exact .inl (.inl found)
    · obtain rfl | rfl := Nat.le_one_iff_eq_zero_or_eq_one.1 le
      · exact .inl (.inr found)
      · exact .inr found

/-- The mark for the start matches the empty stretch before the first character. -/
theorem matches_startText_iff {chars : List Char} {i j : Nat} :
    (look .startText).Matches chars i j ↔ i = 0 ∧ j = 0 := by
  simp only [Matches, Look.holds, Option.isNone_iff_eq_none]
  constructor
  · rintro ⟨rfl, inside, none⟩
    cases i with
    | zero => exact ⟨rfl, rfl⟩
    | succ i =>
      rw [charBefore, List.getElem?_eq_none_iff] at none
      omega
  · rintro ⟨rfl, rfl⟩
    exact ⟨rfl, Nat.zero_le _, rfl⟩

/-- The mark for the end matches the empty stretch behind the last character. -/
theorem matches_endText_iff {chars : List Char} {i j : Nat} :
    (look .endText).Matches chars i j ↔ i = chars.length ∧ j = chars.length := by
  simp only [Matches, Look.holds, Option.isNone_iff_eq_none, List.getElem?_eq_none_iff]
  omega

/-- A pattern between both marks matches stretches one after the other. -/
theorem matches_anchored_iff {p : Pattern} {chars : List Char} {i l : Nat} :
    (concat (look .startText) (concat p (concat (look .endText) empty))).Matches chars i l ↔
      ∃ j k, (look .startText).Matches chars i j ∧ p.Matches chars j k ∧
        (look .endText).Matches chars k l := by
  constructor
  · rintro ⟨j, start, k, inside, m, finish, rfl, -⟩
    exact ⟨j, k, start, inside, finish⟩
  · rintro ⟨j, k, start, inside, finish⟩
    exact ⟨j, start, k, inside, l, finish, rfl, Nat.le_of_eq (matches_endText_iff.1 finish).2⟩

theorem toList_grouped (text : String) :
    (grouped text).toList = '(' :: '?' :: ':' :: (text.toList ++ [')']) := by
  simp [grouped]

theorem toList_anchored (text : String) :
    (anchored text).toList = '^' :: '(' :: '?' :: ':' :: (text.toList ++ [')', '$']) := by
  simp [anchored]

theorem exists_fits_of_accepts {text : String} (alone : standard.Accepts text)
    (group : standard.Accepts (grouped text)) : ∃ x, Fits text.toList x := by
  obtain ⟨p, hp⟩ := accepts_standard_iff.1 alone
  obtain ⟨q, hq⟩ := accepts_standard_iff.1 group
  exact exists_fits_of_grouped hp (toList_grouped text ▸ hq)

/-- **The standard engine does what is documented of engines.** -/
theorem documented_standard : standard.Documented standardMeaning where
  isMatch_iff {text regex} h c := by
    obtain ⟨p, read, rfl⟩ := standard_new_eq_ok_iff.1 h
    simp only [isFoundIn_iff (proper_of_read? read), standardMeaning_iff read]
  start_iff := (standardMeaning_iff rfl).trans matches_startText_iff
  finish_iff := (standardMeaning_iff rfl).trans matches_endText_iff
  grouped_iff {text} alone group chars i j := by
    obtain ⟨x, fits⟩ := exists_fits_of_accepts alone group
    unfold standardMeaning
    rw [toList_grouped, fits.read?_grouped]
  anchored_iff {text} alone anchored chars i l := by
    obtain ⟨p, hp⟩ := accepts_standard_iff.1 alone
    obtain ⟨q, hq⟩ := accepts_standard_iff.1 anchored
    rw [toList_anchored] at hq
    obtain ⟨x, fits⟩ := exists_fits_of_anchored hp hq
    obtain ⟨p', hp', rfl⟩ := fits.exists_of_read?_anchored hq
    have group : read? (grouped text).toList = some p' := by rw [toList_grouped, fits.read?_grouped, hp']
    rw [standardMeaning_iff (toList_anchored text ▸ hq), matches_anchored_iff]
    refine exists₂_congr fun j k => and_congr (standardMeaning_iff rfl).symm (and_congr ?_ ?_)
    · exact (standardMeaning_iff group).symm
    · exact (standardMeaning_iff rfl).symm
  exists_close {text} h := by
    obtain ⟨p, hp⟩ := accepts_standard_iff.1 h
    have opened : ("^(?:" ++ text).toList = '^' :: '(' :: '?' :: ':' :: text.toList := by simp
    obtain ⟨inside, behind, x, split, fits, read⟩ := exists_fits (opened ▸ hp)
    obtain ⟨p', hp'⟩ := Option.isSome_iff_exists.1 read
    refine ⟨String.ofList inside, String.ofList behind, String.toList_inj.1 (by simp [split]), ?_, ?_⟩
    · exact accepts_standard_iff.2 ⟨p', by rwa [String.toList_ofList]⟩
    · exact accepts_standard_iff.2 ⟨p', by rwa [toList_grouped, String.toList_ofList, fits.read?_grouped]⟩
  not_accepts_close {text behind} alone group accepts := by
    obtain ⟨x, fits⟩ := exists_fits_of_accepts alone group
    obtain ⟨p, hp⟩ := accepts_standard_iff.1 accepts
    obtain ⟨a, f, parsed, -⟩ := read?_eq_some.1 hp
    have open' : (text ++ ")" ++ behind).toList = text.toList ++ ')' :: behind.toList := by simp
    rw [open', fits.closes.parse?_append_close] at parsed
    cases parsed

end LazyPeg.Pattern
