import LazyPeg.Pattern.CharSet

/-!
# What patterns mean

Once flags are applied, a pattern is an expression over sets of characters and conditions on places.
`Ast.meaning?` applies the flags; a pattern that asks for what its flags rule out has no meaning and
is refused.  `Pattern.span` then says what an expression matches in a text of one character.

**Without Unicode classes** (flag `u` cleared) a class is a class of bytes.  Only the bytes of ASCII are
characters, so whatever could match another byte is refused: a dot, a complement, a byte above 0x7F,
a property.
-/
namespace LazyPeg.Pattern

/-! ## 1. Expressions -/

/-- A condition on the place between two characters of a text. -/
inductive Look where
  | startText | endText
  | startLine (crlf : Bool) | endLine (crlf : Bool)
  | wordBoundary (unicode : Bool) | notWordBoundary (unicode : Bool)
  | wordStart (unicode : Bool) | wordEnd (unicode : Bool)
  | wordStartHalf (unicode : Bool) | wordEndHalf (unicode : Bool)
  deriving DecidableEq, Repr

end LazyPeg.Pattern

/-- A pattern with its flags applied. -/
inductive LazyPeg.Pattern where
  | empty
  | set (s : LazyPeg.Pattern.CharSet)
  | look (l : LazyPeg.Pattern.Look)
  | concat (p q : LazyPeg.Pattern)
  | either (p q : LazyPeg.Pattern)
  | times (least : Nat) (most : Option Nat) (p : LazyPeg.Pattern)
  deriving Inhabited

namespace LazyPeg.Pattern

/-- A word character beside a place. -/
def isWord (unicode : Bool) (c : Option Char) : Bool :=
  c.any fun c => (ShortClass.word.set unicode).contains c.toNat

/-- Whether a condition holds between two characters; there is none at either end of a text. -/
def Look.holds (before after : Option Char) : Look → Bool
  | startText => before.isNone
  | endText => after.isNone
  | startLine false => before.all (· == '\n')
  | endLine false => after.all (· == '\n')
  | startLine true => before.all fun c => c == '\n' || (c == '\r' && after != some '\n')
  | endLine true => after.all fun c => c == '\r' || (c == '\n' && before != some '\r')
  | wordBoundary u => isWord u before != isWord u after
  | notWordBoundary u => isWord u before == isWord u after
  | wordStart u => !isWord u before && isWord u after
  | wordEnd u => isWord u before && !isWord u after
  | wordStartHalf u => !isWord u before
  | wordEndHalf u => !isWord u after

/-! ## 2. Texts of one character -/

/-- What a pattern matches in a text of one character: nothing at the place before it, the character,
nothing at the place after it. -/
structure Span where
  before : Bool
  across : Bool
  after : Bool
  deriving DecidableEq, Repr

namespace Span

/-- One match, then another that begins where the first ends. -/
def concat (s t : Span) : Span :=
  ⟨s.before && t.before, (s.before && t.across) || (s.across && t.after), s.after && t.after⟩

/-- A match of one or of the other. -/
def either (s t : Span) : Span :=
  ⟨s.before || t.before, s.across || t.across, s.after || t.after⟩

/-- At least `least` and at most `most` matches in a row.  Of several matches only one can be the
character, so the others are before it or after it. -/
def times (least : Nat) (most : Option Nat) (s : Span) : Span :=
  let some? := most != some 0
  ⟨least == 0 || (some? && s.before),
   some? && s.across && (least ≤ 1 || s.before || s.after),
   least == 0 || (some? && s.after)⟩

/-- Something matches. -/
def any (s : Span) : Bool := s.before || s.across || s.after

end Span

/-- What a pattern matches in the text that is the character `c`. -/
def span (c : Char) : Pattern → Span
  | empty => ⟨true, false, true⟩
  | set s => ⟨false, s.contains c.toNat, false⟩
  | look l => ⟨l.holds none (some c), false, l.holds (some c) none⟩
  | concat p q => (p.span c).concat (q.span c)
  | either p q => (p.span c).either (q.span c)
  | times least most p => (p.span c).times least most

/-! ## 3. Flags -/

/-- The flags that bear on what a pattern matches. -/
structure Flags where
  caseInsensitive : Bool
  multiLine : Bool
  dotAll : Bool
  unicode : Bool
  crlf : Bool
  deriving DecidableEq, Repr

/-- The flags at the start of a pattern: only the classes of Unicode are on. -/
def Flags.initial : Flags := ⟨false, false, false, true, false⟩

/-- Set and clear flags. -/
def Flags.change (f : Flags) (changes : FlagChanges) : Flags where
  caseInsensitive := changes.apply .caseInsensitive f.caseInsensitive
  multiLine := changes.apply .multiLine f.multiLine
  dotAll := changes.apply .dotAll f.dotAll
  unicode := changes.apply .unicode f.unicode
  crlf := changes.apply .crlf f.crlf

/-! ## 4. Classes -/

/-- The characters of a set in either case, if case does not matter. -/
def Flags.fold (f : Flags) (s : CharSet) : CharSet :=
  if f.caseInsensitive then (if f.unicode then .anyCase s else .anyAsciiCase s) else s

/-- A set or its complement.  There is no complement without Unicode classes. -/
def Flags.negate? (f : Flags) (negated : Bool) (s : CharSet) : Option CharSet :=
  if negated && !f.unicode then none else some (.negateIf negated s)

/-- A symbol in a class.  Without Unicode classes it is a byte of ASCII. -/
def Symbol.member? (f : Flags) (s : Symbol) : Option Char :=
  if f.unicode || s.char.toNat < 0x80 then some s.char else none

/-- The set of a property, which there is only among Unicode classes. -/
def propertySet? (f : Flags) (negated : Bool) (query : Unicode.PropertyQuery) : Option CharSet :=
  if f.unicode then query.find?.bind fun runs => f.negate? negated (f.fold (.ranges runs)) else none

mutual

/-- The set of a member of a class. -/
def ClassItem.meaning? (f : Flags) : ClassItem → Option CharSet
  | .symbol s => (s.member? f).map .single
  | .range first last => do return .range (← first.member? f) (← last.member? f)
  | .ascii negated c => f.negate? negated (f.fold c.set)
  | .property negated query => propertySet? f negated query
  | .short negated c => f.negate? negated (c.set f.unicode)
  | .bracketed negated members => do f.negate? negated (f.fold (← members.meaning? f))

/-- The set between brackets.  An operator works on sets that are closed under change of case where
case does not matter. -/
def ClassSet.meaning? (f : Flags) : ClassSet → Option CharSet
  | .union items => ClassSet.unionMeaning? f items
  | .operation op left right => do
    return .combine op (f.fold (← left.meaning? f)) (f.fold (← right.meaning? f))

/-- The union of the sets of several members. -/
def ClassSet.unionMeaning? (f : Flags) : List ClassItem → Option CharSet
  | [] => some .none
  | item :: items => do return .union (← item.meaning? f) (← ClassSet.unionMeaning? f items)

end

/-! ## 5. Patterns -/

/-- A symbol that stands for itself.  Without Unicode classes a byte above 0x7F is no character; a
character outside ASCII still is one, though it has no case. -/
def Symbol.meaning? (f : Flags) (s : Symbol) : Option Pattern :=
  if !f.unicode && s.isByte && 0x80 ≤ s.char.toNat && s.char.toNat ≤ 0xFF then none
  else some (.set (f.fold (.single s.char)))

/-- The characters that a dot matches. -/
def Flags.dot? (f : Flags) : Option CharSet :=
  if !f.unicode then none
  else if f.dotAll then some .all
  else if f.crlf then some (.complement (.union (.single '\n') (.single '\r')))
  else some (.complement (.single '\n'))

/-- The condition of an assertion. -/
def Assertion.look (f : Flags) : Assertion → Look
  | startLine => if f.multiLine then .startLine f.crlf else .startText
  | endLine => if f.multiLine then .endLine f.crlf else .endText
  | startText => .startText
  | endText => .endText
  | wordBoundary => .wordBoundary f.unicode
  | notWordBoundary => .notWordBoundary f.unicode
  | wordStart => .wordStart f.unicode
  | wordEnd => .wordEnd f.unicode
  | wordStartHalf => .wordStartHalf f.unicode
  | wordEndHalf => .wordEndHalf f.unicode

mutual

/-- The meaning of a pattern under some flags, and the flags behind it: those that a pattern changes
stay changed up to the end of the group around it. -/
def Ast.meaning? (f : Flags) : Ast → Option (Pattern × Flags)
  | .empty => some (.empty, f)
  | .flags changes => some (.empty, f.change changes)
  | .symbol s => do return (← s.meaning? f, f)
  | .dot => do return (.set (← f.dot?), f)
  | .assertion a => some (.look (a.look f), f)
  | .property negated query => do return (.set (← propertySet? f negated query), f)
  | .short negated c => do return (.set (← f.negate? negated (c.set f.unicode)), f)
  | .bracketed negated members => do
    return (.set (← f.negate? negated (f.fold (← members.meaning? f))), f)
  | .repetition least most a => do
    let (p, f) ← a.meaning? f
    return (.times least most p, f)
  | .group changes a => do
    let (p, _) ← a.meaning? (f.change changes)
    return (p, f)
  | .alternation branches => Ast.branchesMeaning? f branches
  | .concat items => Ast.itemsMeaning? f items

/-- The meaning of patterns one after the other. -/
def Ast.itemsMeaning? (f : Flags) : List Ast → Option (Pattern × Flags)
  | [] => some (.empty, f)
  | a :: items => do
    let (p, f) ← a.meaning? f
    let (q, f) ← Ast.itemsMeaning? f items
    return (.concat p q, f)

/-- The meaning of alternatives. -/
def Ast.branchesMeaning? (f : Flags) : List Ast → Option (Pattern × Flags)
  | [] => some (.set .none, f)
  | a :: branches => do
    let (p, f) ← a.meaning? f
    let (q, f) ← Ast.branchesMeaning? f branches
    return (.either p q, f)

end

end LazyPeg.Pattern
