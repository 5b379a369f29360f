import LazyPeg.Unicode.Property

/-!
# The syntax of patterns

A pattern describes texts.  This module holds what a pattern is as it is written, before flags are
applied: literals, classes, assertions, repetitions, groups and alternatives, and how deeply they may
be nested.
-/
namespace LazyPeg.Pattern

/-! ## 1. Flags -/

/-- What a flag changes. -/
inductive Flag where
  /-- `i`: letters match in either case. -/
  | caseInsensitive
  /-- `m`: line assertions match at every line. -/
  | multiLine
  /-- `s`: a dot matches line breaks too. -/
  | dotAll
  /-- `U`: repetitions prefer few matches. -/
  | swapGreed
  /-- `u`: classes are those of Unicode. -/
  | unicode
  /-- `R`: a carriage return and line feed break a line. -/
  | crlf
  /-- `x`: blanks and comments in the pattern are skipped. -/
  | verbose
  deriving DecidableEq, Repr

/-- The letter of a flag. -/
def Flag.ofLetter? : Char → Option Flag
  | 'i' => some .caseInsensitive
  | 'm' => some .multiLine
  | 's' => some .dotAll
  | 'U' => some .swapGreed
  | 'u' => some .unicode
  | 'R' => some .crlf
  | 'x' => some .verbose
  | _ => none

/-- Flags as they are set or, after a hyphen, cleared. -/
abbrev FlagChanges := List (Flag × Bool)

/-- What changes make of one flag. -/
def FlagChanges.apply (changes : FlagChanges) (flag : Flag) (before : Bool) : Bool :=
  (List.lookup flag changes).getD before

/-! ## 2. Characters and classes -/

/-- A character that stands for itself.  `isByte` if it is written as two hexadecimal digits, which
mean a byte where classes are not those of Unicode. -/
structure Symbol where
  char : Char
  isByte : Bool
  deriving DecidableEq, Repr

/-- The classes with an escape of one letter. -/
inductive ShortClass where
  | digit | blank | word
  deriving DecidableEq, Repr

/-- The classes of ASCII characters that have a name between `[:` and `:]`. -/
inductive AsciiClass where
  | alnum | alpha | ascii | blank | cntrl | digit | graph | lower | print | punct | space | upper
  | word | xdigit
  deriving DecidableEq, Repr

/-- The class that goes by a name. -/
def AsciiClass.ofName? (name : String) : Option AsciiClass :=
  List.lookup name
    [("alnum", alnum), ("alpha", alpha), ("ascii", ascii), ("blank", blank), ("cntrl", cntrl),
     ("digit", digit), ("graph", graph), ("lower", lower), ("print", print), ("punct", punct),
     ("space", space), ("upper", upper), ("word", word), ("xdigit", xdigit)]

/-- How two sets in a class are combined. -/
inductive SetOperator where
  | intersection | difference | symmetricDifference
  deriving DecidableEq, Repr

mutual

/-- A member of a class in brackets. -/
inductive ClassItem where
  | symbol (s : Symbol)
  | range (first last : Symbol)
  | ascii (negated : Bool) (c : AsciiClass)
  | property (negated : Bool) (query : Unicode.PropertyQuery)
  | short (negated : Bool) (c : ShortClass)
  | bracketed (negated : Bool) (set : ClassSet)

/-- What stands between brackets: members, or two sets and an operator. -/
inductive ClassSet where
  | union (items : List ClassItem)
  | operation (op : SetOperator) (left right : ClassSet)

end

/-! ## 3. Patterns -/

/-- A condition on a place of a text. -/
inductive Assertion where
  | startLine | endLine | startText | endText
  | wordBoundary | notWordBoundary
  | wordStart | wordEnd | wordStartHalf | wordEndHalf
  deriving DecidableEq, Repr

/-- A pattern as it is written. -/
inductive Ast where
  | empty
  | flags (changes : FlagChanges)
  | symbol (s : Symbol)
  | dot
  | assertion (a : Assertion)
  | property (negated : Bool) (query : Unicode.PropertyQuery)
  | short (negated : Bool) (c : ShortClass)
  | bracketed (negated : Bool) (set : ClassSet)
  | repetition (least : Nat) (most : Option Nat) (a : Ast)
  | group (changes : FlagChanges) (a : Ast)
  | alternation (branches : List Ast)
  | concat (items : List Ast)

/-! ## 4. Nesting -/

mutual

/-- How deeply the member of a class is nested. -/
def ClassItem.depth : ClassItem → Nat
  | .bracketed _ set => set.depth + 1
  | _ => 0

/-- How deeply a set in a class is nested.  A single member is no level of its own. -/
def ClassSet.depth : ClassSet → Nat
  | .union [] => 0
  | .union [item] => item.depth
  | .union items => ClassSet.itemsDepth items + 1
  | .operation _ left right => max left.depth right.depth + 1

/-- The deepest nesting among several members. -/
def ClassSet.itemsDepth : List ClassItem → Nat
  | [] => 0
  | item :: items => max item.depth (ClassSet.itemsDepth items)

end

mutual

/-- How deeply a pattern is nested. -/
def Ast.depth : Ast → Nat
  | .bracketed _ set => set.depth + 1
  | .repetition _ _ a => a.depth + 1
  | .group _ a => a.depth + 1
  | .alternation branches => Ast.maxDepth branches + 1
  | .concat items => Ast.maxDepth items + 1
  | _ => 0

/-- The deepest nesting among several patterns. -/
def Ast.maxDepth : List Ast → Nat
  | [] => 0
  | a :: as => max a.depth (Ast.maxDepth as)

end

/-- The deepest nesting that a pattern may have. -/
def nestLimit : Nat := 250

/-- Patterns one after the other; a single one stands for itself. -/
def Ast.ofItems : List Ast → Ast
  | [] => .empty
  | [a] => a
  | items => .concat items

/-- Patterns as alternatives; a single one stands for itself. -/
def Ast.ofBranches : List Ast → Ast
  | [a] => a
  | branches => .alternation branches

end LazyPeg.Pattern
