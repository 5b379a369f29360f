import LazyPeg.Proofs.Csv.PlainCharacter
import Mathlib.Data.List.TakeWhile
import Mathlib.Data.Set.List

/-!
# Writing tables

How a table is written is left open by the grammar: each field with or without quote marks, each line
with one or the other end.  Whatever is chosen, the text is a document that stands for the table
(`Layout.exists_document`), and so it is read back as it was (`read_written`).  Only records at the end
that have a single empty field are lost, since a line end behind the last line leaves one behind.

* §1 says what `dropBlankTail` keeps.
* §2 has tables with a choice of how they are written.
* §3 is the result about reading without a header.
-/
namespace LazyPeg.Csv

/-! ## 1. Blank records at the end -/

/-- What is kept of some records are those before a run of records with a single empty field. -/
def WithoutBlankTail (records kept : List Record) : Prop :=
  (∃ n, records = kept ++ List.replicate n [""]) ∧ kept.getLast? ≠ some [""]

theorem withoutBlankTail_dropBlankTail (records : List Record) :
    WithoutBlankTail records (dropBlankTail records) := by
  have split := List.takeWhile_append_dropWhile (p := (· == [""])) (l := records.reverse)
  have blank : records.reverse.takeWhile (· == [""]) =
      List.replicate (records.reverse.takeWhile (· == [""])).length [""] :=
    List.eq_replicate_of_mem fun r hr => by simpa using List.mem_takeWhile_imp hr
  refine ⟨⟨(records.reverse.takeWhile (· == [""])).length, ?_⟩, ?_⟩
  · have whole := congrArg List.reverse split
    rw [List.reverse_append, List.reverse_reverse, blank, List.reverse_replicate] at whole
    simpa [dropBlankTail] using whole.symm
  · rw [dropBlankTail, List.getLast?_reverse]
    intro last
    have := List.head?_dropWhile_not (· == [""]) records.reverse
    simp [last] at this

/-- Of all records in a row just the run at the end is dropped, and all of it. -/
theorem withoutBlankTail_iff {records kept : List Record} :
    WithoutBlankTail records kept ↔ kept = dropBlankTail records := by
  constructor
  · rintro ⟨⟨n, rfl⟩, last⟩
    rw [dropBlankTail, List.reverse_append, List.reverse_replicate,
      List.dropWhile_append_of_pos (by simp)]
    rcases List.eq_nil_or_concat kept with rfl | ⟨before, r, rfl⟩
    · simp
    · have notBlank : (r == [""]) = false := by simpa using last
      simp [notBlank]
  · rintro rfl
    exact withoutBlankTail_dropBlankTail records

/-! ## 2. Tables and how they are written -/

/-- A character that a field can hold. -/
def Writable (s : Separator) (c : Char) : Prop :=
  isPlain s.char c ∨ c = s.char ∨ c = '\r' ∨ c = '\n' ∨ c = '"'

instance (s : Separator) (c : Char) : Decidable (Writable s c) :=
  inferInstanceAs (Decidable (_ ∨ _ ∨ _ ∨ _ ∨ _))

theorem Writable.exists_quotedChar {s : Separator} {c : Char} (h : Writable s c) :
    ∃ d : Written.QuotedChar s, d.char = c := by
  rcases h with plain | rfl | rfl | rfl | rfl
  · exact ⟨.plain ⟨c, plain⟩, rfl⟩
  · exact ⟨.separator, rfl⟩
  · exact ⟨.cr, rfl⟩
  · exact ⟨.lf, rfl⟩
  · exact ⟨.quote, rfl⟩

namespace Layout

/-- A field of a table, to be written with or without quote marks. -/
structure Cell where
  content : String
  quoted : Bool

namespace Cell

/-- A cell as it is written; between quote marks a quote mark is written twice. -/
def text : Cell → List Char
  | ⟨content, false⟩ => content.toList
  | ⟨content, true⟩ =>
    '"' :: ((content.toList.flatMap fun c => if c = '"' then ['"', '"'] else [c]) ++ ['"'])

/-- A cell holds what a field can hold, and it has quote marks if that needs them. -/
def Legal (s : Separator) (cell : Cell) : Prop :=
  ∀ c ∈ cell.content.toList, if cell.quoted then Writable s c else isPlain s.char c

instance (s : Separator) (cell : Cell) : Decidable (cell.Legal s) :=
  -- By the cell's characters; without this the instance that tries every character may be found.
  List.decidableBAll (fun c => if cell.quoted then Writable s c else isPlain s.char c) _

end Cell

/-- A cell that can be written is a field with the same text. -/
theorem Cell.exists_field {s : Separator} {cell : Cell} (h : cell.Legal s) :
    ∃ x : Written.Field s, x.text = cell.text ∧ x.content = cell.content := by
  obtain ⟨content, quoted⟩ := cell
  cases quoted with
  | false =>
    obtain ⟨cs, hcs⟩ : content.toList ∈ Set.range (List.map (Written.PlainChar.char (s := s))) := by
      rw [Set.range_list_map]
      exact fun c hc => ⟨⟨c, by simpa [Legal] using h c hc⟩, rfl⟩
    refine ⟨.plain cs, ?_, by simp [Written.Field.content, hcs]⟩
    rw [text, ← hcs, List.map_eq_flatMap]
    rfl
  | true =>
    obtain ⟨ds, hds⟩ : content.toList ∈ Set.range (List.map (Written.QuotedChar.char (s := s))) := by
      rw [Set.range_list_map]
      exact fun c hc => (h c hc).exists_quotedChar
    refine ⟨.quoted ds, ?_, by simp [Written.Field.content, hds]⟩
    rw [text, ← hds, List.flatMap_map, ← funext Written.QuotedChar.text_eq]
    rfl

/-- Cells with separators between them. -/
abbrev Line := Chain Unit Cell

/-- Lines with line ends between them. -/
abbrev Table := Chain Written.LineEnd Line

def Line.text (s : Separator) (line : Line) : List Char := Chain.text Cell.text (fun _ => [s.char]) line

def Line.record (line : Line) : Record := line.items.map Cell.content

namespace Table

def text (s : Separator) (table : Table) : List Char :=
  Chain.text (Line.text s) Written.lineEndCode.text table

def records (table : Table) : List Record := table.items.map Line.record

/-- All cells can be written. -/
def Legal (s : Separator) (table : Table) : Prop :=
  ∀ line ∈ table.items, ∀ cell ∈ line.items, cell.Legal s

instance (s : Separator) (table : Table) : Decidable (table.Legal s) :=
  inferInstanceAs (Decidable (∀ line ∈ table.items, ∀ cell ∈ line.items, cell.Legal s))

end Table

/-- **However a table is written, the text is a document that stands for it.** -/
theorem Table.exists_document {s : Separator} {table : Table} (h : table.Legal s) :
    ∃ d : Written.Document s, d.text = table.text s ∧ d.records = table.records :=
  Chain.exists_rebuilt _ table fun line hline =>
    Chain.exists_rebuilt (fun _ => [s.char]) line fun cell hcell => Cell.exists_field (h line hline cell hcell)

end Layout

/-! ## 3. Reading what was written -/

open Written

/-- **Reading accepts what is written and gives it back.**  Without a header a text is accepted if and
only if it is a document; there is then only one such document, and its records are what reading gives,
but for the run of blank records at the end.  So a table is read back as it was, however it was
written.  The bound on the length is that of a machine word. -/
theorem read_written {engine : Pattern.Engine} (s : Separator) (reads : ReadsPlain engine s.char)
    (filename text : String) (fits : text.length ≤ unlimited) :
    (∀ table : File, ReadsAs engine ⟨s.char, false⟩ filename text table ↔
      ∃ d : Document s, d.text = text.toList ∧ table.header = none ∧
        WithoutBlankTail d.records table.records) ∧
    (∀ d d' : Document s, d.text = text.toList → d'.text = text.toList → d = d') ∧
    ∀ written : Layout.Table, written.Legal s → written.text s = text.toList →
      ∃ table, ReadsAs engine ⟨s.char, false⟩ filename text table ∧ table.header = none ∧
        WithoutBlankTail written.records table.records := by
  have accepts (table : File) : ReadsAs engine ⟨s.char, false⟩ filename text table ↔
      ∃ d : Document s, d.text = text.toList ∧ table.header = none ∧
        WithoutBlankTail d.records table.records := by
    rw [readsAs_iff reads fits]
    refine exists_congr fun d => and_congr_right fun _ => ?_
    rw [withoutBlankTail_iff]
    exact ⟨fun h => h ▸ ⟨rfl, rfl⟩, fun ⟨h, h'⟩ => by cases table; simp_all [Document.file]⟩
  refine ⟨accepts, fun d d' h h' => Document.text_injective (h.trans h'.symm), fun written legal h => ?_⟩
  obtain ⟨d, htext, hrecords⟩ := Layout.Table.exists_document legal
  have kept := withoutBlankTail_dropBlankTail written.records
  exact ⟨⟨none, dropBlankTail written.records⟩, (accepts _).2 ⟨d, htext.trans h, rfl, hrecords ▸ kept⟩,
    rfl, kept⟩

/-- A table of two lines with a field that needs quote marks; the second line is blank. -/
def Layout.blankBelow : Layout.Table :=
  ⟨⟨⟨"a", false⟩, [((), ⟨"b\"c", true⟩)]⟩, [(.crlf, ⟨⟨"", true⟩, []⟩)]⟩

theorem read_written_blankBelow :
    ReadsPlain Pattern.standard ',' ∧ "a,\"b\"\"c\"\r\n\"\"".length ≤ unlimited ∧
      ReadsAs Pattern.standard ⟨',', false⟩ "table.csv" "a,\"b\"\"c\"\r\n\"\"" ⟨none, [["a", "b\"c"]]⟩ := by
  have fits : "a,\"b\"\"c\"\r\n\"\"".length ≤ unlimited := by decide
  obtain ⟨⟨header, records⟩, reads, rfl, kept⟩ :=
    (read_written .comma (readsPlain_standard ',') "table.csv" _ fits).2.2 Layout.blankBelow
      (by decide) (by decide)
  rw [withoutBlankTail_iff] at kept
  obtain rfl : records = [["a", "b\"c"]] := kept.trans (by decide)
  exact ⟨readsPlain_standard ',', fits, reads⟩

end LazyPeg.Csv
