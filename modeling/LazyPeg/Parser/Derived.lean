import LazyPeg.Parser.Basic

/-!
# Combinators

The usual combinators, each defined by the constructors of `Parser`.  Their laws follow from those of
the constructors.
-/
namespace LazyPeg.Parser

variable {α : Type} [Token α]

/-! ## 1. Single tokens -/

/-- Match any token. -/
def any : Parser α := satisfy "any" fun _ => true

/-- Match a given token. -/
def eq [DecidableEq α] (t : α) : Parser α :=
  satisfy (Token.quoted t) fun u => u == t

/-- Match any token but a given one. -/
def neq [DecidableEq α] (t : α) : Parser α :=
  satisfy ("not " ++ Token.quoted t) fun u => u != t

/-- Match any of the given tokens. -/
def oneOf [DecidableEq α] (ts : List α) : Parser α :=
  satisfy ("one of " ++ Text.bracketed (ts.map Token.quoted)) fun u => ts.contains u

/-- A token is after one bound and before another; a bound that is not there holds. -/
def isBetween (after before : Option α) (t : α) : Bool :=
  after.all (fun bound => Token.precedes bound t) && before.all (fun bound => Token.precedes t bound)

/-- Match a token between two bounds, both left out. -/
def between (name : String) (after before : Option α) : Parser α :=
  satisfy name (isBetween after before)

/-! ## 2. Sequences -/

/-- The last item of a tuple. -/
def lastItem (v : Value α) : Value α :=
  match v with
  | .tuple items => items.getLastD .none
  | v => v

/-- The first item of a tuple. -/
def firstItem (v : Value α) : Value α :=
  match v with
  | .tuple items => items.headD .none
  | v => v

/-- Match several parsers in a row and give the last value. -/
def seq (ps : List (Parser α)) : Parser α := map lastItem (group "seq" ps)

/-- Match several parsers in a row and give all values. -/
def tuple (ps : List (Parser α)) : Parser α := group "tuple" ps

/-- Match `p`, then `q`, and give the value of `q`. -/
def andThen (p q : Parser α) : Parser α := seq [p, q]

/-- Match `p`, then `q`, and give both values. -/
def and (p q : Parser α) : Parser α := tuple [p, q]

/-- Match `p` after `before` and give the value of `p`. -/
def preceded (p before : Parser α) : Parser α := seq [before, p]

/-- Match `p`, then `after`, and give the value of `p`. -/
def terminated (p after : Parser α) : Parser α := map firstItem (tuple [p, after])

/-- Match `p`, or `q` where `p` does not match. -/
def or (p q : Parser α) : Parser α := choice [p, q]

/-! ## 3. Values -/

/-- Match `p` and give a fixed value. -/
def constant (v : Value α) (p : Parser α) : Parser α := map (fun _ => v) p

/-- A parser stands for itself. -/
def boxed (p : Parser α) : Parser α := p

/-! ## 4. Separated lists -/

/-- Put the first item of a pair in front of the list that is the second. -/
def prependFirst (v : Value α) : Value α :=
  match v with
  | .tuple [first, .list rest] => .list (first :: rest)
  | v => v

/-- The value of an option, or the empty list if there is none. -/
def orEmptyList (v : Value α) : Value α :=
  match v with
  | .some v => v
  | _ => .list []

/-- Match one or more `p` with `separator` between two of them, and give the values of the `p`.  A
separator without a `p` behind it is left in the input. -/
def sepBy1 (p separator : Parser α) : Parser α :=
  named (p.name ++ ".many_sep1(" ++ separator.name ++ ")")
    (map prependFirst (tuple [p, many .any (seq [separator, p])]))

/-- Match any number of `p` with `separator` between two of them, and give the values of the `p`. -/
def sepBy0 (p separator : Parser α) : Parser α :=
  named (p.name ++ ".many_sep0(" ++ separator.name ++ ")")
    (map orEmptyList (optional (sepBy1 p separator)))

/-! ## 5. Recursion and continuation -/

/-- Match `p`, then what the continuation makes of its value. -/
def bind1 (noted : Bool) (p : Parser α) (continuation : Value α → Parser α) : Parser α :=
  bind noted [p] fun values => continuation (values.headD .none)

end LazyPeg.Parser
