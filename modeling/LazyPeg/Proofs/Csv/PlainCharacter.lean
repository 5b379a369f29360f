import LazyPeg.Proofs.Csv.Accepts
import LazyPeg.Pattern.Standard

/-!
# The characters of plain fields

The grammar of tables describes a plain character by a pattern,
`[\x20-\x7E&&[^"` with the escaped separator and `]]` behind it.  This module reads the pattern for
any separator with the engine that programs run with.  It matches the printable ASCII characters other than
a quote mark and the separator, as it should (`readsPlain_standard`).

Most of the text is known, so the reader is followed part by part.  The separator is not; what it needs
is that an escaped character stands for itself whatever it is (`classRest?_escaped`), which is the
only place that looks at the characters with a meaning in patterns.
-/
namespace LazyPeg.Pattern

/-! ## 1. An escaped character in a class -/

/-- An escaped character at the end of a class is read as itself. -/
theorem classItem?_escaped (c : Char) (rest : List Char) :
    classItem? false (escaped c ++ ']' :: rest) =
      some (.symbol ⟨c, false⟩, ']' :: rest) := by
  cases h : isMeta c with
  | false =>
    have noEscape : c ≠ '\\' := by rintro rfl; exact absurd h (by decide)
    simp [escaped, h, classItem?, classPrimitive?, settle, peekNext, Primitive.char, Primitive.item?]
  | true =>
    have known : c ∈ "\\.+*?()|[]\x7b\x7d^$#&-~".toList := by simpa [isMeta] using h
    simp only [escaped, h, if_true]
    simp only [String.reduceToList, List.mem_cons, List.not_mem_nil, or_false] at known
    rcases known with rfl | rfl | rfl | rfl | rfl | rfl | rfl | rfl | rfl | rfl | rfl | rfl | rfl |
      rfl | rfl | rfl | rfl | rfl <;> rfl

/-- An escaped character is a member of the class that it ends. -/
theorem classRest?_escaped (c : Char) (n : Nat) (pending : Option (SetOperator × ClassSet))
    (items : List ClassItem) (rest : List Char) :
    classRest? false (n + 1) pending items (escaped c ++ ']' :: rest) =
      classRest? false n pending (.symbol ⟨c, false⟩ :: items) (']' :: rest) := by
  have item := classItem?_escaped c rest
  cases h : isMeta c with
  | false =>
    have noClose : c ≠ ']' := by rintro rfl; exact absurd h (by decide)
    have noOpen : c ≠ '[' := by rintro rfl; exact absurd h (by decide)
    have noAnd : c ≠ '&' := by rintro rfl; exact absurd h (by decide)
    have noMinus : c ≠ '-' := by rintro rfl; exact absurd h (by decide)
    have noTilde : c ≠ '~' := by rintro rfl; exact absurd h (by decide)
    simp only [escaped, h, Bool.false_eq_true, if_false, List.cons_append,
      List.nil_append] at item ⊢
    rw [classRest?]
    simp [settle, operator?, noClose, noOpen, noAnd, noMinus, noTilde, item]
  | true =>
    simp only [escaped, h, if_true, List.cons_append, List.nil_append]
      at item ⊢
    rw [classRest?]
    simp [settle, operator?, item]

theorem classRest?_close (n : Nat) (pending : Option (SetOperator × ClassSet))
    (items : List ClassItem) (rest : List Char) :
    classRest? false (n + 1) pending items (']' :: rest) =
      some (combine pending items.reverse, rest) := by
  rw [classRest?]
  simp [settle]

/-! ## 2. The class -/

/-- The class of the printable characters of ASCII. -/
def printableItem : ClassItem := .range ⟨' ', true⟩ ⟨'~', true⟩

/-- The class of the characters other than a quote mark and another character. -/
def otherItem (c : Char) : ClassItem :=
  .bracketed true (.union [.symbol ⟨'"', false⟩, .symbol ⟨c, false⟩])

theorem classItem?_printable (rest : List Char) :
    classItem? false ("\\x20-\\x7E".toList ++ '&' :: rest) = some (printableItem, '&' :: rest) := rfl

theorem classRest?_and (n : Nat) (items : List ClassItem) (rest : List Char) :
    classRest? false (n + 1) none items ('&' :: '&' :: rest) =
      classRest? false n (some (.intersection, combine none items.reverse)) [] rest := by
  rw [classRest?]
  simp [settle, operator?]

/-- The first set of the class, up to the operator behind it. -/
theorem classRest?_printable (n : Nat) (rest : List Char) :
    classRest? false (n + 2) none [] ("\\x20-\\x7E&&".toList ++ rest) =
      classRest? false n (some (.intersection, .union [printableItem])) [] rest := by
  have item := classItem?_printable ('&' :: rest)
  have split : "\\x20-\\x7E&&".toList ++ rest = "\\x20-\\x7E".toList ++ '&' :: '&' :: rest := by simp
  rw [split, classRest?]
  simp only [String.reduceToList, List.cons_append, List.nil_append] at item ⊢
  simp [settle, operator?, item, classRest?_and, combine]

/-- A quote mark in a class is a member by itself, as what follows does not make it a range. -/
theorem classRest?_quoteMark (c : Char) (n : Nat) (pending : Option (SetOperator × ClassSet))
    (items : List ClassItem) (rest : List Char) :
    classRest? false (n + 1) pending items ('"' :: (escaped c ++ rest)) =
      classRest? false n pending (.symbol ⟨'"', false⟩ :: items) (escaped c ++ rest) := by
  obtain ⟨e, more, he, noRange⟩ : ∃ e more, escaped c = e :: more ∧ e ≠ '-' := by
    cases h : isMeta c with
    | false => exact ⟨c, [], by simp [escaped, h], by rintro rfl; exact absurd h (by decide)⟩
    | true => exact ⟨'\\', [c], by simp [escaped, h], by decide⟩
  rw [classRest?, he]
  simp [settle, operator?, classItem?, classPrimitive?, noRange, Primitive.char, Primitive.item?]

/-- The second set of the class, which is a class of its own. -/
theorem classRest?_other (c : Char) (n : Nat) (pending : Option (SetOperator × ClassSet))
    (rest : List Char) :
    classRest? false (n + 4) pending []
        ('[' :: '^' :: '"' :: (escaped c ++ ']' :: rest)) =
      classRest? false (n + 3) pending [otherItem c] rest := by
  have opening (cs : List Char) :
      classOpening? false ('[' :: '^' :: '"' :: cs) = some (true, [], '"' :: cs) := by
    simp [classOpening?, advance?, advance, settle, leadingHyphens]
  have inner : classRest? false (n + 3) none [] ('"' :: (escaped c ++ ']' :: rest)) =
      some (.union [.symbol ⟨'"', false⟩, .symbol ⟨c, false⟩], rest) := by
    rw [classRest?_quoteMark, classRest?_escaped, classRest?_close]
    rfl
  rw [classRest?]
  simp [settle, asciiClass?, opening, inner, otherItem]

/-- The set that the pattern of a plain character describes. -/
def plainSet (separator : Char) : ClassSet :=
  .operation .intersection (.union [printableItem]) (.union [otherItem separator])

theorem toList_escapeChar (c : Char) : (standard.escapeChar c).toList = escaped c := by
  have one : c.toString.toList = [c] := by simp [Char.toString]
  rw [Engine.escapeChar, standard, String.toList_ofList, one, List.flatMap_singleton]

theorem toList_plainPattern (separator : Char) :
    (Csv.plainPattern standard separator).toList = '[' :: ("\\x20-\\x7E&&".toList ++
      '[' :: '^' :: '"' :: (escaped separator ++ [']', ']'])) := by
  -- Not by `rw`: an equation for a text is looked for byte by byte.
  delta Csv.plainPattern
  rw [String.toList_append, String.toList_append, toList_escapeChar]
  simp only [String.reduceToList, List.cons_append, List.nil_append]

/-- The class is read as a whole. -/
theorem class?_plainPattern (separator : Char) (rest : List Char) :
    class? false ((Csv.plainPattern standard separator).toList ++ rest) =
      some (.bracketed false (plainSet separator), rest) := by
  have text : (Csv.plainPattern standard separator).toList ++ rest =
      '[' :: ("\\x20-\\x7E&&".toList ++
        '[' :: '^' :: '"' :: (escaped separator ++ ']' :: ']' :: rest)) := by
    simp only [toList_plainPattern, List.cons_append, List.append_assoc, List.nil_append]
  have opening (cs : List Char) :
      classOpening? false ('[' :: '\\' :: cs) = some (false, [], '\\' :: cs) := by
    simp [classOpening?, advance?, advance, settle, leadingHyphens]
  have inner (n : Nat) : classRest? false (n + 6) none [] ("\\x20-\\x7E&&".toList ++
      '[' :: '^' :: '"' :: (escaped separator ++ ']' :: ']' :: rest)) =
        some (plainSet separator, rest) := by
    rw [classRest?_printable, classRest?_other, classRest?_close]
    rfl
  obtain ⟨n, room⟩ : ∃ n, ('[' :: ("\\x20-\\x7E&&".toList ++ '[' :: '^' :: '"' ::
      (escaped separator ++ ']' :: ']' :: rest))).length + 1 = n + 6 :=
    Nat.exists_eq_add_of_le' (by simp)
  rw [text, class?, room]
  simp only [String.reduceToList, List.cons_append, List.nil_append] at inner ⊢
  simp [opening, inner]

/-! ## 3. The anchored pattern -/

section
variable (n : Nat) (branches items : List Ast) (rest : List Char) (names : List (List Char))

theorem alternation?_startLine :
    alternation? (n + 1) branches items ⟨'^' :: rest, false, names⟩ =
      alternation? n branches (.assertion .startLine :: items) ⟨rest, false, names⟩ := by
  rw [alternation?]
  simp [settle, primitive?, Primitive.ast]

theorem alternation?_endLine :
    alternation? (n + 1) branches items ⟨'$' :: rest, false, names⟩ =
      alternation? n branches (.assertion .endLine :: items) ⟨rest, false, names⟩ := by
  rw [alternation?]
  simp [settle, primitive?, Primitive.ast]

theorem alternation?_nil :
    alternation? (n + 1) branches items ⟨[], false, names⟩ =
      some (Ast.ofBranches (Ast.ofItems items.reverse :: branches).reverse, ⟨[], false, names⟩) := by
  rw [alternation?]
  simp [settle]

theorem alternation?_close :
    alternation? (n + 1) branches items ⟨')' :: rest, false, names⟩ =
      some (Ast.ofBranches (Ast.ofItems items.reverse :: branches).reverse,
        ⟨')' :: rest, false, names⟩) := by
  rw [alternation?]
  simp [settle]

end

/-- A group that is not kept is one part. -/
theorem alternation?_group {n : Nat} {cs rest : List Char} {names : List (List Char)} {a : Ast}
    (inner : alternation? n [] [] ⟨cs, false, names⟩ = some (a, ⟨')' :: rest, false, names⟩))
    (branches items : List Ast) :
    alternation? (n + 1) branches items ⟨'(' :: '?' :: ':' :: cs, false, names⟩ =
      alternation? n branches (.group [] a :: items) ⟨rest, false, names⟩ := by
  rw [alternation?]
  simp [settle, opening?, flags?, FlagChanges.apply, inner]

/-- The class is all that stands in the group. -/
theorem alternation?_plainPattern (separator : Char) (n : Nat) (rest : List Char)
    (names : List (List Char)) :
    alternation? (n + 2) [] [] ⟨(Csv.plainPattern standard separator).toList ++ ')' :: rest, false, names⟩ =
      some (.bracketed false (plainSet separator), ⟨')' :: rest, false, names⟩) := by
  have read := class?_plainPattern separator (')' :: rest)
  obtain ⟨inside, text⟩ : ∃ inside, (Csv.plainPattern standard separator).toList = '[' :: inside :=
    ⟨_, toList_plainPattern separator⟩
  rw [text, List.cons_append] at read ⊢
  rw [alternation?]
  simp only [settle, Bool.false_eq_true, if_false, read, Option.bind_eq_bind, Option.bind_some]
  rw [alternation?_close]
  rfl

/-- The class between the marks for both ends of the text. -/
def plainAst (separator : Char) : Ast :=
  .concat [.assertion .startLine, .group [] (.bracketed false (plainSet separator)),
    .assertion .endLine]

theorem depth_plainAst (separator : Char) : (plainAst separator).depth = 6 := rfl

/-- The anchored pattern is read as a whole. -/
theorem parse?_plainPattern (separator : Char) :
    Ast.parse? (anchored (Csv.plainPattern standard separator)).toList = some (plainAst separator) := by
  have text : (anchored (Csv.plainPattern standard separator)).toList =
      '^' :: '(' :: '?' :: ':' :: ((Csv.plainPattern standard separator).toList ++ [')', '$']) := by
    simp [anchored]
  obtain ⟨n, room⟩ : ∃ n, ('^' :: '(' :: '?' :: ':' ::
      ((Csv.plainPattern standard separator).toList ++ [')', '$'])).length + 1 = n + 6 :=
    Nat.exists_eq_add_of_le' (by simp)
  rw [text, Ast.parse?, room, alternation?_startLine,
    alternation?_group (alternation?_plainPattern separator _ ['$'] []), alternation?_endLine,
    alternation?_nil]
  have shallow : (plainAst separator).depth ≤ nestLimit := by
    rw [depth_plainAst]
    decide
  exact if_pos shallow

end LazyPeg.Pattern

namespace LazyPeg.Csv

open LazyPeg.Pattern

/-- **The pattern of plain characters can be read, and it matches them alone.** -/
theorem readsPlain_standard (separator : Char) : ReadsPlain standard separator := by
  let set : CharSet := .intersection (.union (.range ' ' '~') .none)
    (.union (.complement (.union (.single '"') (.union (.single separator) .none))) .none)
  let whole : Pattern := .concat (.look .startText) (.concat (.set set) (.concat (.look .endText) .empty))
  have read : read? (anchored (plainPattern standard separator)).toList = some whole := by
    rw [read?, parse?_plainPattern]
    rfl
  refine ⟨_, standard_new_eq_ok_iff.2 ⟨whole, read, rfl⟩, fun c => ?_⟩
  have member : set.contains c.toNat = isPlain separator c := by
    have lower : ' ' ≤ c ↔ 32 ≤ c.toNat := Iff.rfl
    have upper : c ≤ '~' ↔ c.toNat ≤ 126 := Iff.rfl
    simp [set, CharSet.contains, CharSet.contains_range, CharSet.contains_single, isPlain, lower,
      upper, bne, Bool.and_assoc]
  simp [whole, isFoundIn, Pattern.span, Look.holds, Span.concat, Span.any, member]

end LazyPeg.Csv
