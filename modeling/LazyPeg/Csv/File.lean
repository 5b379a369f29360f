import LazyPeg.Value

/-!
# Tables

A comma-separated file is a table: records of fields, and perhaps a header.
-/
namespace LazyPeg.Csv

/-- The fields of a line. -/
abbrev Record := List String

/-- A table. -/
structure File where
  header : Option Record
  records : List Record
  deriving DecidableEq, Repr

/-! ## 1. Text -/

/-- A record between brackets, its fields quoted. -/
def Record.describe (r : Record) : String := Text.bracketed (r.map Text.quoteString)

/-- A number with blanks before it up to a width of four. -/
def lineNumber (n : Nat) : String :=
  let digits := toString n
  String.ofList (List.replicate (4 - digits.length) ' ') ++ digits

/-- The lines of records, counted from `n`. -/
def describeRecords : Nat → List Record → List String
  | _, [] => []
  | n, r :: records => (lineNumber n ++ ": " ++ Record.describe r ++ "\n") :: describeRecords (n + 1) records

/-- A table as text: the header if there is one, then the records with their numbers. -/
def File.describe (f : File) : String :=
  let header := match f.header with
    | some h => "header: " ++ Record.describe h ++ "\n"
    | none => ""
  header ++ String.join (describeRecords 1 f.records)

/-! ## 2. Tables as values of parsers -/

section
variable {α : Type}

/-- A record as a value. -/
def Record.toValue (r : Record) : Value α := .list (r.map .text)

/-- A table as a value: a pair of the header and the records. -/
def File.toValue (f : File) : Value α :=
  .tuple [
    match f.header with
      | some h => .some h.toValue
      | none => .none,
    .list (f.records.map Record.toValue)]

/-- The text of a value that is one. -/
def fieldOf? : Value α → Option String
  | .text s => some s
  | _ => none

/-- The record that a value stands for. -/
def Record.ofValue? : Value α → Option Record
  | .list fields => fields.mapM fieldOf?
  | _ => none

/-- The table that a value stands for. -/
def File.ofValue? : Value α → Option File
  | .tuple [.some h, .list records] => do
    return ⟨some (← Record.ofValue? h), ← records.mapM Record.ofValue?⟩
  | .tuple [.none, .list records] => do return ⟨none, ← records.mapM Record.ofValue?⟩
  | _ => none

theorem fieldOf?_text (s : String) : fieldOf? (.text s : Value α) = some s := rfl

/-- What turns each item back turns a list of them back. -/
theorem mapM_map_eq_some {β γ : Type} {f : β → γ} {g : γ → Option β} (h : ∀ b, g (f b) = some b)
    (items : List β) : (items.map f).mapM g = some items := by
  induction items with
  | nil => rfl
  | cons item items ih => simp [h, ih]

@[simp] theorem Record.ofValue?_toValue (r : Record) : ofValue? (r.toValue : Value α) = some r := by
  simp [ofValue?, toValue, -List.mapM_map, mapM_map_eq_some fieldOf?_text]

/-- A table is found again in its value. -/
@[simp] theorem File.ofValue?_toValue (f : File) : ofValue? (f.toValue : Value α) = some f := by
  obtain ⟨_ | h, records⟩ := f <;>
    simp [ofValue?, toValue, mapM_map_eq_some Record.ofValue?_toValue]

end

end LazyPeg.Csv
