import LazyPeg.Parser.Eval

/-!
# Handles of rules

A rule is declared before it is defined, so that its own body can refer to it.  While a program puts
parsers together it holds them by handles: a handle of a rule that is still to be defined, or a handle
of a parser.  A `Shelf` is the state of such a program, an `Act` is what it does next, and
`Shelf.grammar` are the rules as a parse finds them.

References do not keep a rule alive, since a rule that refers to itself would then never go away.  What
keeps it alive are the handle of its declaration and, once it is defined, the parser that `define` gave
and the clones of it, wherever they stand: in a handle, in a parser that was composed of them, or in the
body of another rule.  They are counted.  When the last one goes, the body goes too, and with it whatever
the body alone kept alive.
-/
namespace LazyPeg

/-! ## 1. What is held -/

/-- A parser, and the rules that it keeps alive, each as often as a strong handle of it stands in the
parser. -/
structure Held (α : Type) where
  parser : Parser α
  keeps : List RuleId

/-- What a program holds by a handle. -/
inductive Handle (α : Type) where
  /-- A rule that is to be defined. -/
  | rule (id : RuleId) (name : String)
  | parser (held : Held α)

namespace Handle

variable {α : Type}

/-- The rules that a handle keeps alive. -/
def keeps : Handle α → List RuleId
  | rule id _ => [id]
  | parser held => held.keeps

end Handle

/-- A rule: how many strong handles of it there are, and its body once it is defined and as long as it is
alive. -/
structure Cell (α : Type) where
  strong : Nat
  body : Option (Held α)

/-! ## 2. Counting -/

namespace Cell

variable {α : Type}

/-- The rules that the body of a rule keeps alive. -/
def keeps (cell : Cell α) : List RuleId := (cell.body.map Held.keeps).getD []

@[simp] theorem keeps_none (strong : Nat) : (⟨strong, none⟩ : Cell α).keeps = [] := rfl

@[simp] theorem keeps_some (strong : Nat) (held : Held α) :
    (⟨strong, some held⟩ : Cell α).keeps = held.keeps := rfl

/-- The rules that the bodies of all rules keep alive, each as often as it is kept. -/
def kept (cells : List (Cell α)) : List RuleId := cells.flatMap keeps

/-- Where one entry of a list is replaced, what is gathered from the entries changes by what comes from
this entry. -/
theorem flatMap_set_perm {β γ : Type} (f : β → List γ) (y : β) {xs : List β} {i : Nat} {x : β}
    (h : xs[i]? = some x) : ((xs.set i y).flatMap f ++ f x).Perm (xs.flatMap f ++ f y) := by
  induction xs generalizing i with
  | nil => exact absurd h (by simp)
  | cons z xs ih =>
    cases i with
    | zero =>
      obtain rfl := Option.some.inj h
      have swap : (f y ++ (xs.flatMap f ++ f z)).Perm (xs.flatMap f ++ f z ++ f y) :=
        List.perm_append_comm
      simp only [List.set_cons_zero, List.flatMap_cons, List.append_assoc] at swap ⊢
      exact swap.trans (List.perm_append_comm_assoc _ _ _)
    | succ i =>
      simp only [List.set_cons_succ, List.flatMap_cons, List.append_assoc]
      exact (ih h).append_left _

/-- One more strong handle. -/
def retained (cell : Cell α) : Cell α := { cell with strong := cell.strong + 1 }

/-- Count one more strong handle of each of some rules. -/
def retain (ids : List RuleId) (cells : List (Cell α)) : List (Cell α) :=
  ids.foldl (fun cells id => cells.modify id retained) cells

/-- Let go of a strong handle of each of some rules, one after the other.  The last one takes the body of
the rule with it, and what the body kept alive is let go of next. -/
def release : List RuleId → List (Cell α) → List (Cell α)
  | [], cells => cells
  | id :: ids, cells =>
    match _h : cells[id]? with
    | none => release ids cells
    | some cell =>
      if cell.strong ≤ 1 then release (cell.keeps ++ ids) (cells.set id ⟨0, none⟩)
      else release ids (cells.set id { cell with strong := cell.strong - 1 })
termination_by ids cells => ids.length + (kept cells).length
decreasing_by
  · simp
  · have gone := (flatMap_set_perm keeps (⟨0, none⟩ : Cell α) _h).length_eq
    simp only [List.length_append, keeps_none, List.length_nil] at gone
    simp only [kept, List.length_append, List.length_cons]
    omega
  · have same :=
      (flatMap_set_perm keeps ({ cell with strong := cell.strong - 1 } : Cell α) _h).length_eq
    simp only [List.length_append] at same
    change _ + cell.keeps.length = _ + cell.keeps.length at same
    simp only [kept, List.length_cons]
    omega

end Cell

/-! ## 3. Acts -/

/-- The rules and the handles of a program.  A handle that was used up or dropped is gone, and its number
is not used again. -/
structure Shelf (α : Type) where
  cells : List (Cell α)
  handles : List (Option (Handle α))

/-- What can be done with rules and parsers.  Handles are given by their numbers. -/
inductive Act (α : Type) where
  /-- Declare a rule. -/
  | declare (name : String)
  /-- Refer to a rule that is to be defined. -/
  | refer (rule : Nat)
  /-- Clone a parser: a reference, a defined rule, or whatever was composed. -/
  | clone (parser : Nat)
  /-- Use up some parsers for a new one, of which they are parts. -/
  | compose (shape : List (Parser α) → Parser α) (parts : List Nat)
  /-- Use up a declaration and a parser: the rule is defined to be the parser. -/
  | define (rule body : Nat)
  /-- Let go of a handle. -/
  | drop (handle : Nat)

namespace Shelf

variable {α : Type}

/-- A program that holds nothing. -/
def empty : Shelf α := ⟨[], []⟩

/-- What a handle holds. -/
def handle? (s : Shelf α) (h : Nat) : Option (Handle α) := (s.handles[h]?).join

/-- Hold something by a new handle. -/
def put (x : Handle α) (s : Shelf α) : Shelf α := ⟨s.cells, s.handles ++ [some x]⟩

/-- Do not hold it any more. -/
def remove (h : Nat) (s : Shelf α) : Shelf α := ⟨s.cells, s.handles.set h none⟩

/-- Use up some parsers, which may not name one handle twice. -/
def takeAll : List Nat → Shelf α → Option (List (Held α) × Shelf α)
  | [], s => some ([], s)
  | h :: hs, s =>
    match s.handle? h with
    | some (.parser held) => (takeAll hs (s.remove h)).map fun (rest, s) => (held :: rest, s)
    | _ => none

/-- Do something.  What names a handle that is not there, or not of the right kind, changes nothing. -/
def act (s : Shelf α) : Act α → Shelf α
  | .declare name => (⟨s.cells ++ [⟨1, none⟩], s.handles⟩ : Shelf α).put (.rule s.cells.length name)
  | .refer rule =>
    match s.handle? rule with
    | some (.rule id name) => s.put (.parser ⟨.rule id name, []⟩)
    | _ => s
  | .clone parser =>
    match s.handle? parser with
    | some (.parser held) => (⟨Cell.retain held.keeps s.cells, s.handles⟩ : Shelf α).put (.parser held)
    | _ => s
  | .compose shape parts =>
    match s.takeAll parts with
    | some (held, s) => s.put (.parser ⟨shape (held.map Held.parser), held.flatMap Held.keeps⟩)
    | none => s
  | .define rule body =>
    match s.handle? rule, s.handle? body with
    | some (.rule id name), some (.parser held) =>
      let rest := (s.remove rule).remove body
      (⟨rest.cells.modify id fun cell => { cell with body := some held }, rest.handles⟩ : Shelf α).put
        (.parser ⟨.rule id name, [id]⟩)
    | _, _ => s
  | .drop handle =>
    match s.handle? handle with
    | some x => ⟨Cell.release x.keeps s.cells, (s.remove handle).handles⟩
    | none => s

/-! ## 4. Parsing -/

/-- The rules as a parse finds them. -/
def grammar (s : Shelf α) : Parser.Grammar α := (s.cells.map fun cell => cell.body.map Held.parser).toArray

/-- Parse through a handle at a position.  Only parsers can do that. -/
def parse [Token α] [DecidableEq α] (s : Shelf α) (handle : Nat) (p : Position) :
    Option (Parsing α (Result α)) :=
  match s.handle? handle with
  | some (.parser held) => some (held.parser.parse s.grammar p)
  | _ => none

end Shelf

end LazyPeg
