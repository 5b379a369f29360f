import LazyPeg.Literal
import LazyPeg.Token

/-!
# Values

What a parser produces is a tree over tokens: repetitions give lists, sequences give tuples, options
give `some` or `none`, and the rest are leaves.  What is computed from a value goes over its leaves from
left to right (`foldLeaves_eq`).
-/
namespace LazyPeg

/-- The value of a successful parse. -/
inductive Value (α : Type) where
  /-- A token of the input. -/
  | token (t : α)
  /-- What a repetition collected, or a run of tokens. -/
  | list (items : List (Value α))
  /-- An option that was not there. -/
  | none
  /-- An option that was there. -/
  | some (v : Value α)
  /-- What a sequence collected. -/
  | tuple (items : List (Value α))
  /-- The end of the input. -/
  | endOfInput
  /-- A count, a position or a sum. -/
  | number (n : Int)
  /-- A text. -/
  | text (s : String)
  /-- A constant of the description. -/
  | constant (l : Literal)
  /-- A value with a mark around it. -/
  | wrapped (v : Value α)
  deriving Repr, Inhabited

namespace Value

variable {α : Type}

/-! ## 1. Leaves -/

mutual

/-- Go over the leaves from left to right.  Lists, tuples, present options and wraps are inner nodes;
an absent option is an inner node without children; everything else is a leaf. -/
def foldLeaves {β : Type} (f : β → Value α → β) (b : β) : Value α → β
  | token t => f b (token t)
  | list items => foldLeavesAll f b items
  | none => b
  | some v => foldLeaves f b v
  | tuple items => foldLeavesAll f b items
  | endOfInput => f b endOfInput
  | number n => f b (number n)
  | text s => f b (text s)
  | constant l => f b (constant l)
  | wrapped v => foldLeaves f b v

/-- Go over the leaves of several values from left to right. -/
def foldLeavesAll {β : Type} (f : β → Value α → β) (b : β) : List (Value α) → β
  | [] => b
  | v :: vs => foldLeavesAll f (foldLeaves f b v) vs

end

mutual

/-- The leaves from left to right. -/
def leaves : Value α → List (Value α)
  | token t => [token t]
  | list items => leavesAll items
  | none => []
  | some v => leaves v
  | tuple items => leavesAll items
  | endOfInput => [endOfInput]
  | number n => [number n]
  | text s => [text s]
  | constant l => [constant l]
  | wrapped v => leaves v

/-- The leaves of several values from left to right. -/
def leavesAll : List (Value α) → List (Value α)
  | [] => []
  | v :: vs => leaves v ++ leavesAll vs

end

mutual

theorem foldLeaves_eq {β : Type} (f : β → Value α → β) (b : β) :
    (v : Value α) → foldLeaves f b v = v.leaves.foldl f b
  | token t => rfl
  | list items => by simp only [foldLeaves, leaves, foldLeavesAll_eq f b items]
  | none => rfl
  | some v => by simp only [foldLeaves, leaves, foldLeaves_eq f b v]
  | tuple items => by simp only [foldLeaves, leaves, foldLeavesAll_eq f b items]
  | endOfInput => rfl
  | number n => rfl
  | text s => rfl
  | constant l => rfl
  | wrapped v => by simp only [foldLeaves, leaves, foldLeaves_eq f b v]

theorem foldLeavesAll_eq {β : Type} (f : β → Value α → β) (b : β) :
    (vs : List (Value α)) → foldLeavesAll f b vs = (leavesAll vs).foldl f b
  | [] => rfl
  | v :: vs => by
    simp only [foldLeavesAll, leavesAll, List.foldl_append, foldLeaves_eq f b v,
      foldLeavesAll_eq f _ vs]

end

theorem leavesAll_eq (vs : List (Value α)) : leavesAll vs = vs.flatMap leaves := by
  induction vs with
  | nil => rfl
  | cons v vs ih => simp [leavesAll, ih]

/-- The token of a leaf that is one. -/
def asToken? : Value α → Option α
  | token t => .some t
  | _ => .none

/-- The tokens among the leaves, from left to right. -/
def tokens (v : Value α) : List α :=
  (v.foldLeaves (fun found leaf => leaf.asToken?.toList ++ found) []).reverse

/-- The first token among the leaves. -/
def firstToken? (v : Value α) : Option α :=
  v.foldLeaves (fun found leaf => found.or leaf.asToken?) .none

theorem tokens_eq (v : Value α) : v.tokens = v.leaves.filterMap asToken? := by
  have onto (leaves : List (Value α)) (found : List α) :
      leaves.foldl (fun found leaf => leaf.asToken?.toList ++ found) found =
        (leaves.filterMap asToken?).reverse ++ found := by
    induction leaves generalizing found with
    | nil => simp
    | cons leaf leaves ih => cases h : leaf.asToken? <;> simp [ih, h]
  simp [tokens, foldLeaves_eq, onto]

@[simp] theorem tokens_token (t : α) : (token t).tokens = [t] := rfl

@[simp] theorem tokens_none : (none : Value α).tokens = [] := rfl

@[simp] theorem tokens_some (v : Value α) : (some v).tokens = v.tokens := rfl

@[simp] theorem tokens_wrapped (v : Value α) : (wrapped v).tokens = v.tokens := rfl

@[simp] theorem tokens_list (vs : List (Value α)) : (list vs).tokens = vs.flatMap tokens := by
  simp only [tokens_eq, leaves, leavesAll_eq, List.filterMap_flatMap, funext tokens_eq]

@[simp] theorem tokens_tuple (vs : List (Value α)) : (tuple vs).tokens = vs.flatMap tokens := by
  simp only [tokens_eq, leaves, leavesAll_eq, List.filterMap_flatMap, funext tokens_eq]

theorem firstToken?_eq (v : Value α) : v.firstToken? = v.tokens.head? := by
  have onto (leaves : List (Value α)) (found : Option α) :
      leaves.foldl (fun found leaf => found.or leaf.asToken?) found =
        found.or (leaves.filterMap asToken?).head? := by
    induction leaves generalizing found with
    | nil => cases found <;> simp
    | cons leaf leaves ih => cases h : leaf.asToken? <;> simp [ih, h]
  simp [firstToken?, tokens_eq, foldLeaves_eq, onto]

/-! ## 2. Equality -/

section Equality

variable [DecidableEq α]

mutual

/-- Whether two values are the same. -/
def same : Value α → Value α → Bool
  | token t, token u => t == u
  | list vs, list ws => sameAll vs ws
  | none, none => true
  | some v, some w => same v w
  | tuple vs, tuple ws => sameAll vs ws
  | endOfInput, endOfInput => true
  | number m, number n => m == n
  | text s, text t => s == t
  | constant k, constant l => k == l
  | wrapped v, wrapped w => same v w
  | _, _ => false

/-- Whether two lists hold the same values in the same order. -/
def sameAll : List (Value α) → List (Value α) → Bool
  | [], [] => true
  | v :: vs, w :: ws => same v w && sameAll vs ws
  | _, _ => false

end

mutual

theorem same_iff : (v w : Value α) → (same v w = true ↔ v = w)
  | token t, w => by cases w <;> simp [same]
  | list vs, w => by cases w <;> simp [same, sameAll_iff]
  | none, w => by cases w <;> simp [same]
  | some v, w => by cases w <;> simp [same, same_iff v]
  | tuple vs, w => by cases w <;> simp [same, sameAll_iff]
  | endOfInput, w => by cases w <;> simp [same]
  | number n, w => by cases w <;> simp [same]
  | text s, w => by cases w <;> simp [same]
  | constant l, w => by cases w <;> simp [same]
  | wrapped v, w => by cases w <;> simp [same, same_iff v]

theorem sameAll_iff : (vs ws : List (Value α)) → (sameAll vs ws = true ↔ vs = ws)
  | [], ws => by cases ws <;> simp [sameAll]
  | v :: vs, ws => by cases ws <;> simp [sameAll, same_iff v, sameAll_iff vs]

end

instance : DecidableEq (Value α) := fun v w => decidable_of_iff (same v w = true) (same_iff v w)

end Equality

/-! ## 3. Views -/

variable [Token α]

/-- The text of a leaf: that of a token or a text, nothing for other leaves. -/
def leafText : Value α → String
  | token t => Token.text t
  | text s => s
  | _ => ""

/-- The number of a leaf: that of a token, or a number itself; other leaves count as zero. -/
def leafNumber : Value α → Int
  | token t => Token.number t
  | number n => n
  | _ => 0

/-- The texts of all leaves joined. -/
def concat (v : Value α) : String := v.foldLeaves (fun s leaf => s ++ leaf.leafText) ""

/-- The sum of the numbers of all leaves. -/
def sum (v : Value α) : Int := v.foldLeaves (fun n leaf => n + leaf.leafNumber) 0

/-- How many items a list or tuple has, or characters a text; an absent option has none and every
other value counts as one. -/
def size : Value α → Nat
  | list items => items.length
  | tuple items => items.length
  | text s => s.length
  | none => 0
  | _ => 1

/-- One more than a number; every other value gives one. -/
def increment : Value α → Value α
  | number n => number (n + 1)
  | _ => number 1

/-! ## 4. The shown form -/

/-- Items between parentheses; a single item is followed by a comma. -/
def parenthesised : List String → String
  | [item] => "(" ++ item ++ ",)"
  | items => "(" ++ ", ".intercalate items ++ ")"

mutual

/-- How a value is shown. -/
def quoted : Value α → String
  | token t => Token.quoted t
  | list items => Text.bracketed (quotedAll items [])
  | none => "None"
  | some v => "Some(" ++ v.quoted ++ ")"
  | tuple items => parenthesised (quotedAll items [])
  | endOfInput => "Eos"
  | number n => toString n
  | text s => Text.quoteString s
  | constant l => l.render
  | wrapped v => "Wrap(" ++ v.quoted ++ ")"

/-- How several values are shown, after those shown before, which stand in reverse. -/
def quotedAll : List (Value α) → List String → List String
  | [], shown => shown.reverse
  | v :: vs, shown => quotedAll vs (v.quoted :: shown)

end

theorem quotedAll_eq (vs : List (Value α)) (shown : List String) :
    quotedAll vs shown = shown.reverse ++ vs.map quoted := by
  induction vs generalizing shown with
  | nil => simp [quotedAll]
  | cons v vs ih => simp [quotedAll, ih]

end Value

end LazyPeg
