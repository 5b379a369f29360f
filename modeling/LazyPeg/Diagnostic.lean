import LazyPeg.Parser.Eval

/-!
# Diagnostics

`Parser.run` asks for more than `Parser.parse`: the whole input has to be matched.  What went wrong is
reported as a `Diagnostic`: the message, the place with its line and column where tokens are
characters, and the token found there.
-/
namespace LazyPeg

/-- A report of why an input was not accepted. -/
structure Diagnostic where
  kind : FailureKind
  message : String
  /-- What the input is called. -/
  filename : String
  offset : Nat
  /-- Line and column, both from one, where they are known. -/
  lineColumn : Option (Nat × Nat)
  /-- The token at the place as it is shown, unless the input ends there. -/
  found : Option String
  deriving DecidableEq, Repr

namespace Diagnostic

/-- Where the report points: line and column, or else the offset. -/
def location (d : Diagnostic) : String :=
  match d.lineColumn with
  | some (line, column) => d.filename ++ ":" ++ toString line ++ ":" ++ toString column
  | none => d.filename ++ ":" ++ toString d.offset

/-- The report as text: what went wrong, then where and what was found there. -/
def describe (colours : Bool) (d : Diagnostic) : String :=
  let style (s : Text.Style) := s.paint colours
  style (.heavily .red) "parse error" ++ style .heavy ":" ++ " " ++ style .heavy d.message ++ "\n "
    ++ style (.heavily .blue) "-->" ++ " " ++ d.location
    ++ ", found " ++ d.found.getD "end of input"

end Diagnostic

/-! ## Lines and columns -/

namespace Parsing

variable {α σ π : Type} [Medium α σ π]

/-- Go on from a place at `line` and `column` by `distance` places and give the line and column
reached, or nothing if the sequence ends before. -/
def countLines (toChar : α → Char) :
    (distance : Nat) → π → (line column : Nat) → ParsingIn α σ π (Option (Nat × Nat))
  | 0, _, line, column => return some (line, column)
  | distance + 1, p, line, column => do
    match ← head? p with
    | none => return none
    | some t =>
      let next ← tail p
      if toChar t = '\n' then countLines toChar distance next (line + 1) 1
      else countLines toChar distance next line (column + 1)

/-- The line and column of `place`, counted from `start`, if tokens are characters. -/
def lineColumn? [Token α] (start place : π) : ParsingIn α σ π (Option (Nat × Nat)) :=
  match Token.chars? (α := α) with
  | none => return none
  | some toChar => do countLines toChar ((← offset place) - (← offset start)) start 1 1

/-- Report a failure at `place` in the input that begins at `start`. -/
def report [Token α] (filename : String) (start place : π) (reason : Reason) :
    ParsingIn α σ π Diagnostic := do
  let found := (← head? place).map Token.quoted
  let lineColumn ← lineColumn? start place
  return { kind := reason.kind, message := reason.message, filename, offset := ← offset place,
           lineColumn, found }

end Parsing

/-! ## Whole inputs -/

namespace Parser

variable {α σ π : Type} [Token α] [DecidableEq α] [Medium α σ π]

/-- Match the whole input from a place on. -/
def run (grammar : Grammar α) (q : Parser α) (filename : String) (start : π) :
    ParsingIn α σ π (Except Diagnostic (Value α)) := do
  match ← q.parse grammar start with
  | .success v next =>
    match ← Parsing.head? next with
    | none => return .ok v
    | some _ => return .error (← Parsing.report filename start next (.missing (endOfInput : Parser α).name))
  | .failure reason place => return .error (← Parsing.report filename start place reason)

end Parser

end LazyPeg
