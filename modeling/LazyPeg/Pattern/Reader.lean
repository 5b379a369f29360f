import LazyPeg.Pattern.Syntax
import LazyPeg.Unicode.NameCharacter

/-!
# Reading patterns

`Ast.parse?` reads a pattern from its text, or finds that the text is none.  The readers here go over a
list of characters and give what they read together with the characters behind it; `none` means that
the text is no pattern.

In verbose mode (flag `x`) blanks and comments may stand between the parts of a pattern; the
parameter `verbose` says whether they are skipped.
-/
namespace LazyPeg.Pattern

/-! ## 1. Blanks -/

/-- A blank character. -/
def isBlank (c : Char) : Bool := Unicode.whiteSpace.contains c.toNat

/-- Skip blanks and comments; a comment goes from `#` to the end of the line. -/
def skipBlanks (inComment : Bool) : List Char → List Char
  | [] => []
  | c :: cs =>
    if inComment then skipBlanks (c != '\n') cs
    else if isBlank c then skipBlanks false cs
    else if c = '#' then skipBlanks true cs
    else c :: cs

/-- Skip blanks and comments where they are skipped. -/
def settle (verbose : Bool) (cs : List Char) : List Char :=
  if verbose then skipBlanks false cs else cs

/-- Go past a character and what is skipped behind it. -/
def advance (verbose : Bool) (cs : List Char) : List Char := settle verbose cs.tail

/-- Go past a character as `advance` does; something has to follow. -/
def advance? (verbose : Bool) (cs : List Char) : Option (List Char) :=
  match advance verbose cs with
  | [] => none
  | rest => some rest

/-- The character behind blanks and one comment mark; without any, what follows directly. -/
def peekOver (afterMark : Bool) : List Char → Option Char
  | [] => none
  | c :: cs =>
    if isBlank c then peekOver afterMark cs
    else if c = '#' && !afterMark then peekOver true cs
    else some c

/-- The character that follows the first one, blanks skipped where they are skipped. -/
def peekNext (verbose : Bool) (cs : List Char) : Option Char :=
  if verbose then (peekOver false cs.tail).or cs.tail.head? else cs.tail.head?

/-! ## 2. Numbers -/

/-- A hexadecimal digit. -/
def isHexDigit (c : Char) : Bool :=
  c.isDigit || ('a' ≤ c && c ≤ 'f') || ('A' ≤ c && c ≤ 'F')

/-- The value of a hexadecimal digit. -/
def hexValue (c : Char) : Nat :=
  if c.isDigit then c.toNat - '0'.toNat
  else if 'a' ≤ c then c.toNat - 'a'.toNat + 10
  else c.toNat - 'A'.toNat + 10

/-- The character with a hexadecimal number, if there is one. -/
def charOfHex? (digits : List Char) : Option Char :=
  let n := digits.foldl (fun n c => n * 16 + hexValue c) 0
  if n.isValidChar then some (Char.ofNat n) else none

/-- The longest run of characters with a property, and what follows.  `verbose` blanks between them
are skipped; the limit is the number of characters looked at. -/
def spanSettled (verbose : Bool) (p : Char → Bool) : Nat → List Char → List Char × List Char
  | 0, cs => ([], cs)
  | _ + 1, [] => ([], [])
  | limit + 1, c :: cs =>
    if p c then
      let (run, rest) := spanSettled verbose p limit (settle verbose cs)
      (c :: run, rest)
    else ([], c :: cs)

/-- A decimal number below 2^32, blanks around it skipped. -/
def decimal? (verbose : Bool) (cs : List Char) : Option (Nat × List Char) :=
  let (digits, rest) := spanSettled verbose Char.isDigit cs.length (cs.dropWhile isBlank)
  let (_, rest) := spanSettled verbose isBlank rest.length rest
  let n := digits.foldl (fun n c => n * 10 + (c.toNat - '0'.toNat)) 0
  if digits ≠ [] ∧ n < 0x100000000 then some (n, rest) else none

/-- Go past a mark of repetition and the question mark that asks for few matches. -/
def dropLazy : List Char → List Char
  | '?' :: cs => cs
  | cs => cs

/-- The most matches of a counted repetition, behind the comma. -/
def most? (verbose : Bool) (cs : List Char) : Option (Option Nat × List Char) :=
  match cs with
  | '\x7d' :: _ => some (none, cs)
  | cs => (decimal? verbose cs).map fun y => (some y.1, y.2)

/-- The most matches of a counted repetition, from what follows the least number. -/
def upper? (verbose : Bool) (least : Nat) (cs : List Char) : Option (Option Nat × List Char) :=
  match cs with
  | ',' :: _ => (advance? verbose cs).bind (most? verbose)
  | cs => some (some least, cs)

/-- The end of a counted repetition.  Its bounds have to be in order. -/
def closing? (verbose : Bool) (least : Nat) (most : Option Nat) (cs : List Char) :
    Option ((Nat × Option Nat) × List Char) :=
  match cs with
  | '\x7d' :: rest =>
    if most.all (least ≤ ·) then some ((least, most), dropLazy (settle verbose rest)) else none
  | _ => none

/-- The bounds of a counted repetition, behind the brace. -/
def boundsBehind? (verbose : Bool) (cs : List Char) : Option ((Nat × Option Nat) × List Char) :=
  (decimal? verbose cs).bind fun y => (upper? verbose y.1 y.2).bind fun z => closing? verbose y.1 z.1 z.2

/-- The bounds of a counted repetition, from the opening brace. -/
def bounds? (verbose : Bool) (cs : List Char) : Option ((Nat × Option Nat) × List Char) :=
  (advance? verbose cs).bind (boundsBehind? verbose)

/-! ## 3. Escapes -/

/-- What an escape or a single character reads as. -/
inductive Primitive where
  | symbol (s : Symbol)
  | dot
  | assertion (a : Assertion)
  | property (negated : Bool) (query : Unicode.PropertyQuery)
  | short (negated : Bool) (c : ShortClass)

/-- A character that stands for itself. -/
def Primitive.char (c : Char) : Primitive := .symbol ⟨c, false⟩

/-- A given number of hexadecimal digits, blanks between them skipped. -/
def fixedHex? (verbose : Bool) : Nat → List Char → Option (List Char × List Char)
  | 0, cs => some ([], cs)
  | n + 1, c :: cs =>
    if isHexDigit c then
      (fixedHex? verbose n (settle verbose cs)).map fun (digits, rest) => (c :: digits, rest)
    else none
  | _ + 1, [] => none

/-- The character of a hexadecimal escape, from the letter that begins it.  `\x`, `\u` and `\U` take
two, four and eight digits, or any number of them between braces. -/
def hexEscape? (verbose : Bool) (kind : Char) (cs : List Char) :
    Option (Primitive × List Char) := do
  match ← advance? verbose cs with
  | '\x7b' :: cs =>
    let cs := settle verbose cs
    let (digits, cs) := spanSettled verbose isHexDigit cs.length cs
    match cs, digits with
    | '\x7d' :: _, _ :: _ => some (.char (← charOfHex? digits), advance verbose cs)
    | _, _ => none
  | cs =>
    let width := if kind = 'x' then 2 else if kind = 'u' then 4 else 8
    let (digits, cs) ← fixedHex? verbose width cs
    some (.symbol ⟨← charOfHex? digits, kind = 'x'⟩, cs)

/-- Split at the first place where a text begins. -/
def splitAt? (mark : List Char) : List Char → Option (List Char × List Char)
  | [] => none
  | c :: cs =>
    if mark.isPrefixOf (c :: cs) then some ([], (c :: cs).drop mark.length)
    else (splitAt? mark cs).map fun (before, after) => (c :: before, after)

/-- The property that a name between braces asks for.  A family and a value may be separated by
`!=`, which asks for the other characters, or by `:` or `=`. -/
def propertyNamed (negated : Bool) (name : List Char) : Primitive :=
  let valued (negated : Bool) : List Char × List Char → Primitive := fun (family, value) =>
    .property negated (.valued (String.ofList family) (String.ofList value))
  match splitAt? ['!', '='] name with
  | some parts => valued (!negated) parts
  | none =>
    match (splitAt? [':'] name).or (splitAt? ['='] name) with
    | some parts => valued negated parts
    | none => .property negated (.named (String.ofList name))

/-- The end of the name of a property that stands between braces. -/
def propertyBraced? (negated : Bool) (name cs : List Char) : Option (Primitive × List Char) :=
  match cs with
  | '\x7d' :: rest => some (propertyNamed negated name, rest)
  | _ => none

/-- A property whose name is one letter. -/
def propertyLetter? (verbose negated : Bool) (cs : List Char) : Option (Primitive × List Char) :=
  match cs with
  | '\\' :: _ => none
  | c :: cs => some (.property negated (.named c.toString), settle verbose cs)
  | [] => none

/-- The property escape, from the letter that begins it. -/
def propertyEscape? (verbose negated : Bool) (cs : List Char) : Option (Primitive × List Char) :=
  (advance? verbose cs).bind fun cs =>
    match cs with
    | '\x7b' :: cs =>
      let (name, cs) := spanSettled verbose (· != '\x7d') (settle verbose cs).length (settle verbose cs)
      propertyBraced? negated name cs
    | cs => propertyLetter? verbose negated cs

/-- A letter that may stand in the name of a special word boundary. -/
def isBoundaryLetter (c : Char) : Bool := c.isAlpha || c == '-'

/-- A word boundary, from the place behind `\b`.  A name between braces asks for one side of it; what
cannot begin a name is left alone, since a brace may also begin a repetition. -/
def wordBoundary? (verbose : Bool) (cs : List Char) : Option (Primitive × List Char) :=
  match cs with
  | '\x7b' :: rest =>
    match settle verbose rest with
    | [] => none
    | c :: cs' =>
      if isBoundaryLetter c then
        let (name, cs') := spanSettled verbose isBoundaryLetter (cs'.length + 1) (c :: cs')
        match cs' with
        | '\x7d' :: rest =>
          match String.ofList name with
          | "start" => some (.assertion .wordStart, rest)
          | "end" => some (.assertion .wordEnd, rest)
          | "start-half" => some (.assertion .wordStartHalf, rest)
          | "end-half" => some (.assertion .wordEndHalf, rest)
          | _ => none
        | _ => none
      else some (.assertion .wordBoundary, cs)
  | cs => some (.assertion .wordBoundary, cs)

/-- A character with a meaning of its own in patterns. -/
def isMeta (c : Char) : Bool := "\\.+*?()|[]\x7b\x7d^$#&-~".toList.contains c

/-- An escape, from the character behind the backslash. -/
def escape? (verbose : Bool) : List Char → Option (Primitive × List Char)
  | [] => none
  | c :: cs =>
    if c.isDigit then none
    else if c = 'x' ∨ c = 'u' ∨ c = 'U' then hexEscape? verbose c (c :: cs)
    else if c = 'p' ∨ c = 'P' then propertyEscape? verbose (c == 'P') (c :: cs)
    else if isMeta c then some (.char c, cs)
    else match c with
      | 'd' => some (.short false .digit, cs)
      | 'D' => some (.short true .digit, cs)
      | 's' => some (.short false .blank, cs)
      | 'S' => some (.short true .blank, cs)
      | 'w' => some (.short false .word, cs)
      | 'W' => some (.short true .word, cs)
      | 'a' => some (.char '\x07', cs)
      | 'f' => some (.char '\x0c', cs)
      | 't' => some (.char '\t', cs)
      | 'n' => some (.char '\n', cs)
      | 'r' => some (.char '\r', cs)
      | 'v' => some (.char '\x0b', cs)
      | 'A' => some (.assertion .startText, cs)
      | 'z' => some (.assertion .endText, cs)
      | 'b' => wordBoundary? verbose cs
      | 'B' => some (.assertion .notWordBoundary, cs)
      | '<' => some (.assertion .wordStart, cs)
      | '>' => some (.assertion .wordEnd, cs)
      | c => if c.toNat < 0x80 ∧ ¬ c.isAlpha then some (.char c, cs) else none

/-! ## 4. Classes -/

/-- A member of a class that is no range, as a primitive. -/
def classPrimitive? (verbose : Bool) : List Char → Option (Primitive × List Char)
  | [] => none
  | '\\' :: cs => escape? verbose cs
  | c :: cs => some (.char c, cs)

/-- A primitive as a member of a class; dots and assertions are none. -/
def Primitive.item? : Primitive → Option ClassItem
  | symbol s => some (.symbol s)
  | property negated query => some (.property negated query)
  | short negated c => some (.short negated c)
  | _ => none

/-- A member of a class or a range of them. -/
def classItem? (verbose : Bool) (cs : List Char) : Option (ClassItem × List Char) := do
  let (first, cs) ← classPrimitive? verbose cs
  match settle verbose cs with
  | [] => none
  | c :: cs =>
    let following := peekNext verbose (c :: cs)
    if c != '-' || following == some ']' || following == some '-' then
      some (← first.item?, c :: cs)
    else
      let (last, cs) ← classPrimitive? verbose (← advance? verbose (c :: cs))
      match first, last with
      | .symbol first, .symbol last =>
        if first.char ≤ last.char then some (.range first last, cs) else none
      | _, _ => none

/-- A named class of ASCII characters, from its bracket. -/
def asciiClass? (cs : List Char) : Option (ClassItem × List Char) := do
  let (negated, cs) ← match cs with
    | '[' :: ':' :: '^' :: cs => some (true, cs)
    | '[' :: ':' :: cs => some (false, cs)
    | _ => none
  let (name, cs) ← splitAt? [':'] cs
  match cs with
  | ']' :: rest => (AsciiClass.ofName? (String.ofList name)).map fun c => (.ascii negated c, rest)
  | _ => none

/-- Hyphens at the start of a class stand for themselves. -/
def leadingHyphens (verbose : Bool) : Nat → List Char → List ClassItem × List Char
  | limit + 1, '-' :: cs =>
    let (items, rest) := leadingHyphens verbose limit (settle verbose cs)
    (.symbol ⟨'-', false⟩ :: items, rest)
  | _, cs => ([], cs)

/-- The opening of a class: whether it is negated, and the characters that stand for themselves only
because they stand first. -/
def classOpening? (verbose : Bool) (cs : List Char) :
    Option (Bool × List ClassItem × List Char) := do
  let cs ← advance? verbose cs
  let (negated, cs) ← match cs with
    | '^' :: _ => (advance? verbose cs).map fun cs => (true, cs)
    | cs => some (false, cs)
  let (items, cs) := leadingHyphens verbose cs.length cs
  match items, cs with
  | _, [] => none
  | [], ']' :: _ => (advance? verbose cs).map fun cs => (negated, [.symbol ⟨']', false⟩], cs)
  | items, cs => some (negated, items, cs)

/-- Members, combined with the set before the last operator if there is one. -/
def combine (pending : Option (SetOperator × ClassSet)) (items : List ClassItem) : ClassSet :=
  match pending with
  | none => .union items
  | some (op, left) => .operation op left (.union items)

/-- The operator that two characters write. -/
def operator? : List Char → Option (SetOperator × List Char)
  | '&' :: '&' :: cs => some (.intersection, cs)
  | '-' :: '-' :: cs => some (.difference, cs)
  | '~' :: '~' :: cs => some (.symmetricDifference, cs)
  | _ => none

/-- The rest of a class up to its closing bracket.  `items` holds the members since the last operator
in reverse; `fuel` bounds the number of parts. -/
def classRest? (verbose : Bool) : (fuel : Nat) → Option (SetOperator × ClassSet) →
    (items : List ClassItem) → List Char → Option (ClassSet × List Char)
  | 0, _, _, _ => none
  | fuel + 1, pending, items, cs =>
    match settle verbose cs with
    | [] => none
    | ']' :: rest => some (combine pending items.reverse, rest)
    | '[' :: rest =>
      match asciiClass? ('[' :: rest) with
      | some (item, rest) => classRest? verbose fuel pending (item :: items) rest
      | none => do
        let (negated, first, cs) ← classOpening? verbose ('[' :: rest)
        let (inner, cs) ← classRest? verbose fuel none first.reverse cs
        classRest? verbose fuel pending (.bracketed negated inner :: items) cs
    | cs =>
      match operator? cs with
      | some (op, rest) => classRest? verbose fuel (some (op, combine pending items.reverse)) [] rest
      | none => do
        let (item, cs) ← classItem? verbose cs
        classRest? verbose fuel pending (item :: items) cs

/-- A class, from its bracket. -/
def class? (verbose : Bool) (cs : List Char) : Option (Ast × List Char) := do
  let (negated, first, rest) ← classOpening? verbose cs
  let (inner, rest) ← classRest? verbose (cs.length + 1) none first.reverse rest
  some (.bracketed negated inner, rest)

/-! ## 5. Groups -/

/-- A character that may stand in the name of a group. -/
def isNameChar (first : Bool) (c : Char) : Bool :=
  c == '_' || Unicode.nameLetters.contains c.toNat
    || (!first && (c == '.' || c == '[' || c == ']' || Unicode.nameNumbers.contains c.toNat))

/-- The name of a group up to `>`. -/
def groupName? (cs : List Char) : Option (List Char × List Char) :=
  match splitAt? ['>'] cs with
  | some (c :: name, rest) =>
    if isNameChar true c && name.all (isNameChar false) then some (c :: name, rest) else none
  | _ => none

/-- Flags up to the `:` or `)` behind them, which is left.  `cleared` after a hyphen; the last flag is
not a hyphen, no flag stands twice, and neither does the hyphen. -/
def flags? (cleared : Bool) : FlagChanges → List Char → Option (FlagChanges × List Char)
  | _, [] => none
  | changes, c :: cs =>
    if c = ':' ∨ c = ')' then some (changes, c :: cs)
    else if c = '-' then
      if cleared then none
      else match cs with
        | [] => none
        | next :: _ => if next = ':' ∨ next = ')' then none else flags? true changes cs
    else match Flag.ofLetter? c with
      | none => none
      | some flag =>
        if changes.any (·.1 == flag) then none else flags? cleared (changes ++ [(flag, !cleared)]) cs

/-- What opens with a parenthesis. -/
inductive Opening where
  /-- Flags for the rest of the group around them. -/
  | flags (changes : FlagChanges)
  /-- A group with flags of its own. -/
  | group (changes : FlagChanges)
  /-- A group with a name. -/
  | named (name : List Char)

/-- What a parenthesis opens, from the place behind it.  Assertions about what stands around a place
are not part of the syntax. -/
def opening? (verbose : Bool) (cs : List Char) : Option (Opening × List Char) :=
  match settle verbose cs with
  | '?' :: '=' :: _ => none
  | '?' :: '!' :: _ => none
  | '?' :: '<' :: '=' :: _ => none
  | '?' :: '<' :: '!' :: _ => none
  | '?' :: 'P' :: '<' :: cs => (groupName? cs).map fun (name, rest) => (.named name, rest)
  | '?' :: '<' :: cs => (groupName? cs).map fun (name, rest) => (.named name, rest)
  | '?' :: cs =>
    match flags? false [] cs with
    | some ([], ')' :: _) => none
    | some (changes, ')' :: rest) => some (.flags changes, rest)
    | some (changes, _ :: rest) => some (.group changes, rest)
    | _ => none
  | cs => some (.group [], cs)

/-! ## 6. Patterns -/

/-- What is left to read: the characters, whether blanks are skipped, and the names of the groups so
far. -/
structure Remaining where
  chars : List Char
  verbose : Bool
  names : List (List Char)

/-- A primitive as a pattern. -/
def Primitive.ast : Primitive → Ast
  | symbol s => .symbol s
  | dot => .dot
  | assertion a => .assertion a
  | property negated query => .property negated query
  | short negated c => .short negated c

/-- A primitive of a pattern. -/
def primitive? (verbose : Bool) : List Char → Option (Primitive × List Char)
  | [] => none
  | '\\' :: cs => escape? verbose cs
  | '.' :: cs => some (.dot, cs)
  | '^' :: cs => some (.assertion .startLine, cs)
  | '$' :: cs => some (.assertion .endLine, cs)
  | c :: cs => some (.char c, cs)

/-- Repeat the last of the items, which stand in reverse.  There has to be one that can be repeated. -/
def repeatLast? (least : Nat) (most : Option Nat) : List Ast → Option (List Ast)
  | [] => none
  | .flags _ :: _ => none
  | a :: items => some (.repetition least most a :: items)

/-- The alternatives up to a closing parenthesis or the end.  `branches` holds the alternatives before
and `items` the parts of the one being read, both in reverse; `fuel` bounds the number of parts. -/
def alternation? : (fuel : Nat) → (branches items : List Ast) → Remaining →
    Option (Ast × Remaining)
  | 0, _, _, _ => none
  | fuel + 1, branches, items, r =>
    let done := Ast.ofBranches ((Ast.ofItems items.reverse :: branches).reverse)
    let continue? (items : List Ast) (rest : List Char) :=
      alternation? fuel branches items { r with chars := rest }
    match settle r.verbose r.chars with
    | [] => some (done, { r with chars := [] })
    | ')' :: rest => some (done, { r with chars := ')' :: rest })
    | '|' :: rest =>
      alternation? fuel (Ast.ofItems items.reverse :: branches) [] { r with chars := rest }
    | '[' :: rest => do
      let (a, rest) ← class? r.verbose ('[' :: rest)
      continue? (a :: items) rest
    | '?' :: rest => do continue? (← repeatLast? 0 (some 1) items) (dropLazy rest)
    | '*' :: rest => do continue? (← repeatLast? 0 none items) (dropLazy rest)
    | '+' :: rest => do continue? (← repeatLast? 1 none items) (dropLazy rest)
    | '\x7b' :: rest => do
      let ((least, most), rest) ← bounds? r.verbose ('\x7b' :: rest)
      continue? (← repeatLast? least most items) rest
    | '(' :: rest => do
      match ← opening? r.verbose rest with
      | (.flags changes, rest) =>
        let verbose := FlagChanges.apply changes .verbose r.verbose
        alternation? fuel branches (.flags changes :: items) { r with chars := rest, verbose }
      | (opening, rest) =>
        let (changes, names) ← match opening with
          | .named name => if r.names.contains name then none else some ([], name :: r.names)
          | .flags changes => some (changes, r.names)
          | .group changes => some (changes, r.names)
        let verbose := FlagChanges.apply changes .verbose r.verbose
        let (a, inner) ← alternation? fuel [] [] ⟨rest, verbose, names⟩
        match inner.chars with
        | ')' :: rest =>
          alternation? fuel branches (.group changes a :: items)
            ⟨rest, r.verbose, inner.names⟩
        | _ => none
    | cs => do
      let (p, rest) ← primitive? r.verbose cs
      continue? (p.ast :: items) rest

/-- The pattern that a text writes. -/
def Ast.parse? (text : List Char) : Option Ast :=
  match alternation? (text.length + 1) [] [] ⟨text, false, []⟩ with
  | some (a, ⟨[], _, _⟩) => if a.depth ≤ nestLimit then some a else none
  | _ => none

end LazyPeg.Pattern
