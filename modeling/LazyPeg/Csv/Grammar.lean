import LazyPeg.Csv.File
import LazyPeg.Diagnostic
import LazyPeg.Pattern.Engine

/-!
# The grammar of comma-separated files

A file is a sequence of lines, a line a record of fields with separators between them.  A field is
plain, a run of printable ASCII characters without quote marks and separators, or it stands between
quote marks; then it may hold separators and line breaks too, and a quote mark in it is written twice.
A line ends with a line feed, with or without a carriage return before it.  The end of the last line
is optional.

The first line can be a header, if it is terminated.  A single line that is not is a record.
-/
namespace LazyPeg.Csv

/-- What is not fixed by the grammar. -/
structure Config where
  /-- What separates fields. -/
  separator : Char
  /-- Whether the first line is a header. -/
  header : Bool
  deriving DecidableEq, Repr

/-- Commas, and a header. -/
def Config.standard : Config := ⟨',', true⟩

/-! ## 1. Fields -/

open LazyPeg.Parser

/-- A carriage return. -/
def cr : Parser Char := eq '\r'

/-- A line feed. -/
def lf : Parser Char := eq '\n'

/-- A quote mark. -/
def quoteMark : Parser Char := eq '"'

/-- The end of a line. -/
def lineEnd : Parser Char := choice [seq [cr, lf], lf]

/-- The pattern of a character of a plain field: printable ASCII except quote marks and separators. -/
def plainPattern (engine : Pattern.Engine) (separator : Char) : String :=
  "[\\x20-\\x7E&&[^\"" ++ engine.escapeChar separator ++ "]]"

/-- Join what a repetition collected to one text. -/
def joined (v : Value Char) : Value Char := .text v.concat

/-- A character between quote marks. -/
def quotedChar (separator : Char) (plain : Parser Char) : Parser Char :=
  choice [plain, eq separator, cr, lf, seq [quoteMark, quoteMark]]

/-- A field between quote marks. -/
def quotedField (separator : Char) (plain : Parser Char) : Parser Char :=
  map joined (((many .any (quotedChar separator plain)).preceded quoteMark).terminated quoteMark)

/-- A plain field, which may be empty. -/
def plainField (plain : Parser Char) : Parser Char := map joined (many .any plain)

/-- A field. -/
def field (separator : Char) (plain : Parser Char) : Parser Char :=
  named "field" (choice [quotedField separator plain, plainField plain])

/-! ## 2. Lines -/

/-- A record. -/
def record (separator : Char) (plain : Parser Char) : Parser Char :=
  named "record" ((field separator plain).sepBy1 (eq separator))

/-- The header line, if there is to be one. -/
def headerLine (header : Bool) (record : Parser Char) : Parser Char :=
  if header then optional (record.terminated lineEnd) else result .none

/-- Drop the records at the end that have a single empty field: the end of the last line leaves such a
record behind it. -/
def dropBlankTail (records : List Record) : List Record :=
  (records.reverse.dropWhile (· == [""])).reverse

/-- The table of a header, a first record and further ones, as parsing gave them. -/
def assemble (values : List (Value Char)) : File :=
  match values with
  | [header, first, .list rest] =>
    let recordOf (v : Value Char) : Record := (Record.ofValue? v).getD []
    { header := match header with
        | .some h => some (recordOf h)
        | _ => none
      records := dropBlankTail (recordOf first :: rest.map recordOf) }
  | _ => ⟨none, []⟩

/-- A file whose plain characters a parser matches. -/
def fileOf (config : Config) (plain : Parser Char) : Parser Char :=
  let record := record config.separator plain
  named "CSV file"
    (bind false [headerLine config.header record, record, many .any (seq [lineEnd, record])]
      fun values => constant (assemble values).toValue (optional lineEnd))

/-- The parser of files.  An engine reads the pattern of the characters of plain fields. -/
def file (engine : Pattern.Engine) (config : Config) : Except Pattern.Rejection (Parser Char) :=
  (matching engine id (plainPattern engine config.separator)).map (fileOf config)

/-! ## 3. Reading files -/

/-- What reading a file came to: the table or a report, and the status of the reader if the file came
from one.  The grammar has no rules, so parsing always comes to an outcome. -/
structure Reading where
  outcome : Except Stop (Except Diagnostic File)
  status : Option (Option String)

/-- Read a file as a table. -/
def readWith (engine : Pattern.Engine) (config : Config) (filename : String) (input : Input Char) :
    Except Pattern.Rejection Reading := do
  let parser ← file engine config
  let (start, store) := Store.new.start input
  let (outcome, world) := (ExceptT.run (parser.run #[] filename start)).run ⟨store, []⟩
  return {
    outcome := outcome.map (·.map fun v => (File.ofValue? v).getD ⟨none, []⟩)
    status := world.store.status? 0 }

end LazyPeg.Csv
