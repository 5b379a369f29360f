import LazyPeg.Unicode.RangeSet
import LazyPeg.Unicode.Category
import LazyPeg.Unicode.Script
import LazyPeg.Unicode.ScriptExtension
import LazyPeg.Unicode.Age
import LazyPeg.Unicode.Segmentation
import LazyPeg.Unicode.Binary

/-!
# Properties by name

A property is asked for by one name (`Greek`, `Lu`, `White_Space`) or by a family and a value
(`Script=Greek`, `Age=3.2`).  Spelling is loose: `foldName` says which names are the same.
-/
namespace LazyPeg.Unicode

/-! ## 1. Names -/

/-- Drop blanks, underscores, hyphens and everything outside ASCII, and write capitals small. -/
def foldLetters (name : List Char) : List Char :=
  (name.filter fun c => c != ' ' && c != '_' && c != '-' && c.toNat < 0x80).map Char.toLower

/-- The loose form of a name: letters folded and a leading `is` dropped, except that `isc` keeps its
own meaning. -/
def foldName (name : String) : String :=
  match name.toList with
  | i :: s :: rest =>
    if (i == 'i' || i == 'I') && (s == 's' || s == 'S') then
      let folded := foldLetters rest
      if folded = ['c'] then "isc" else String.ofList folded
    else String.ofList (foldLetters (i :: s :: rest))
  | short => String.ofList (foldLetters short)

/-! ## 2. Families -/

/-- The union of the two-letter categories whose first name is listed. -/
def categoryUnion (names : List String) : RangeSet :=
  names.foldl (fun s name => s.union ((categories.find? name).getD ⟨[]⟩)) ⟨[]⟩

/-- The groups of general categories and the three sets that are asked for like one, each with the
two-letter categories it joins. -/
def categoryGroups : List (List String × List String) := [
  (["c", "other"], ["cc", "cf", "cn", "co"]),
  (["l", "letter"], ["ll", "lm", "lo", "lt", "lu"]),
  (["lc", "casedletter"], ["ll", "lt", "lu"]),
  (["m", "mark", "combiningmark"], ["mc", "me", "mn"]),
  (["n", "number"], ["nd", "nl", "no"]),
  (["p", "punctuation", "punct"], ["pc", "pd", "pe", "pf", "pi", "po", "ps"]),
  (["s", "symbol"], ["sc", "sk", "sm", "so"]),
  (["z", "separator"], ["zl", "zp", "zs"]),
  (["assigned"], ["cc", "cf", "co", "ll", "lm", "lo", "lt", "lu", "mc", "me", "mn", "nd", "nl", "no",
    "pc", "pd", "pe", "pf", "pi", "po", "ps", "sc", "sk", "sm", "so", "zl", "zp", "zs"])]

/-- The general category, or group of them, that goes by a folded name. -/
def findCategory? (name : String) : Option RangeSet :=
  if name = "any" then some ⟨[(0, 0x10FFFF)]⟩
  else if name = "ascii" then some ⟨[(0, 0x7F)]⟩
  else match categoryGroups.find? fun group => group.1.contains name with
    | some group => some (categoryUnion group.2)
    | none => categories.find? name

/-- The characters assigned in the version that goes by a folded name, or before it. -/
def findAge? (name : String) : Option RangeSet :=
  let older := ages.takeWhile fun entry => !entry.1.contains name
  match ages.drop older.length with
  | [] => none
  | entry :: _ => some ((older ++ [entry]).foldl (fun s e => s.union (.ofCode e.2)) ⟨[]⟩)

/-- The families whose values can be asked for. -/
inductive Family
  | category | script | scriptExtension | age | graphemeBreak | wordBreak | sentenceBreak
  deriving DecidableEq, Repr

/-- The family that goes by a folded name. -/
def Family.ofName? (name : String) : Option Family :=
  [(Family.category, ["gc", "generalcategory", "category"]),
   (.script, ["sc", "script"]),
   (.scriptExtension, ["scx", "scriptextensions"]),
   (.age, ["age"]),
   (.graphemeBreak, ["gcb", "graphemeclusterbreak"]),
   (.wordBreak, ["wb", "wordbreak"]),
   (.sentenceBreak, ["sb", "sentencebreak"])].find? (fun entry => entry.2.contains name)
  |>.map (·.1)

/-- The value of a family that goes by a folded name. -/
def Family.find? (name : String) : Family → Option RangeSet
  | .category => findCategory? name
  | .script => scripts.find? name
  | .scriptExtension => scriptExtensions.find? name
  | .age => findAge? name
  | .graphemeBreak => graphemeBreaks.find? name
  | .wordBreak => wordBreaks.find? name
  | .sentenceBreak => sentenceBreaks.find? name

/-! ## 3. Queries -/

/-- A property by one name, or by family and value. -/
inductive PropertyQuery
  | named (name : String)
  | valued (family value : String)
  deriving DecidableEq, Repr

/-- The set that a query asks for, if there is one.  One name is looked up among the binary
properties, then the general categories, then the scripts; `cf`, `sc` and `lc` name general
categories although families of mappings go by the same letters. -/
def PropertyQuery.find? : PropertyQuery → Option RangeSet
  | .named name =>
    let name := foldName name
    (binaryProperties.find? name).or ((findCategory? name).or (scripts.find? name))
  | .valued family value => (Family.ofName? (foldName family)).bind (Family.find? (foldName value))

/-! ## 4. Sets that other modules use -/

/-- The members of the binary property that goes by a folded name. -/
def binarySet (name : String) : RangeSet := (binaryProperties.find? name).getD ⟨[]⟩

/-- Blank characters. -/
def whiteSpace : RangeSet := binarySet "whitespace"

/-- Letters, and what counts as one. -/
def alphabetic : RangeSet := binarySet "alphabetic"

/-- Decimal digits. -/
def decimalDigits : RangeSet := categoryUnion ["nd"]

/-- Every kind of number. -/
def numbers : RangeSet := categoryUnion ["nd", "nl", "no"]

/-- The characters of words: letters, marks, decimal digits, connectors and joiners. -/
def wordCharacters : RangeSet :=
  (alphabetic.union (categoryUnion ["mc", "me", "mn", "nd", "pc"])).union (binarySet "joincontrol")

end LazyPeg.Unicode
