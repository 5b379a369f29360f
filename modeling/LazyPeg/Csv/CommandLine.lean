import LazyPeg.Csv.Grammar
import LazyPeg.Pattern.Standard

/-!
# The command line

The program reads a comma-separated file from standard input and prints its records.  What it does
depends on its arguments and the bytes of its input alone, and on the engine that reads the pattern of
plain characters (`executeWith`).
-/
namespace LazyPeg.Csv

/-! ## 1. What the program does -/

/-- What the program writes and the code it ends with. -/
structure Finish where
  code : Nat
  stdout : String
  stderr : String
  deriving DecidableEq, Repr

/-- A failure with a message. -/
def Finish.failure (message : String) : Finish := ⟨1, "", message ++ "\n"⟩

/-- How the program is called. -/
def usage : String := "usage: csv [--separator CHAR] [--no-header] < input.csv"

/-- The separator that an argument names: a single character, or a tab written as an escape. -/
def separator? (argument : String) : Option Char :=
  if argument = "\\t" then some '\t'
  else
    match argument.toList with
    | [c] => some c
    | _ => none

/-- What the arguments ask for; later ones override earlier ones. -/
def configure? (config : Config) : List String → Option Config
  | [] => some config
  | "--no-header" :: args => configure? { config with header := false } args
  | "--separator" :: argument :: args =>
    match separator? argument with
    | some separator => configure? { config with separator } args
    | none => none
  | _ :: _ => none

/-- Run the program on a reader.  A fault ends the input early, which can look like a shorter file, so
it is reported whatever was read. -/
def executeWith (engine : Pattern.Engine) (args : List String) (input : Reader.Script) : Finish :=
  match configure? .standard args with
  | none => .failure usage
  | some config =>
    match readWith engine config "stdin" (.feed (.reader (.ofScript input) id)) with
    | .error rejection => .failure ("invalid separator: " ++ rejection.message)
    | .ok ⟨_, some (some fault)⟩ => .failure ("error reading stdin: " ++ fault)
    | .ok ⟨.ok (.ok file), _⟩ => ⟨0, file.describe, ""⟩
    | .ok ⟨.ok (.error d), _⟩ => .failure (d.describe false)
    | .ok ⟨.error why, _⟩ => .failure why.message

/-! ## 2. The engine -/

/-- Read a file as a table. -/
def read (config : Config) (filename : String) (input : Input Char) :
    Except Pattern.Refusal Reading :=
  (readWith Pattern.standard config filename input).mapError (·.refusal)

/-- Run the program on a reader. -/
def execute (args : List String) (input : Reader.Script) : Finish :=
  executeWith Pattern.standard args input

end LazyPeg.Csv
