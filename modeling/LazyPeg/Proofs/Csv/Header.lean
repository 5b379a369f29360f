import LazyPeg.Proofs.Csv.Lines

/-!
# The header

Whether a table is read with a header or without one makes no difference to which texts are tables, nor
to the report on the others (`read_header`).  It is a question of what the first of several lines is
called: with a header it stands before the records, and without one it is the first of them.

It can be seen there only because blank records at the end are dropped last.  If all lines behind the
first are blank, then without a header the first is among those at the end, and it is dropped with them
if it is blank itself.
-/
namespace LazyPeg.Csv

open Written

variable {s : Separator}

/-! ## 1. Blank records behind others -/

/-- Blank records that are dropped anyway can be there or not. -/
theorem WithoutBlankTail.append_replicate {records kept : List Record}
    (h : WithoutBlankTail records kept) (n : Nat) :
    WithoutBlankTail (records ++ List.replicate n [""]) kept := by
  obtain ⟨⟨m, rfl⟩, last⟩ := h
  exact ⟨⟨m + n, by rw [List.append_assoc, List.replicate_add]⟩, last⟩

/-- Records can be put before others whose blank tail is dropped already. -/
theorem dropBlankTail_append_dropBlankTail (before records : List Record) :
    dropBlankTail (before ++ dropBlankTail records) = dropBlankTail (before ++ records) := by
  obtain ⟨n, split⟩ := (withoutBlankTail_dropBlankTail records).1
  have dropped := withoutBlankTail_dropBlankTail (before ++ dropBlankTail records)
  have longer := dropped.append_replicate n
  rw [List.append_assoc, ← split] at longer
  exact withoutBlankTail_iff.1 longer

/-! ## 2. The first line -/

/-- The table of a document of several lines, with and without a header. -/
theorem Written.Document.file_of_lines (r r' : Written.Record s) (e : LineEnd)
    (more : List (LineEnd × Written.Record s)) :
    ∃ records, file true ⟨r, (e, r') :: more⟩ = ⟨some r.fields, records⟩ ∧
      file false ⟨r, (e, r') :: more⟩ = ⟨none, dropBlankTail (r.fields :: records)⟩ := by
  refine ⟨_, rfl, ?_⟩
  have behind := dropBlankTail_append_dropBlankTail [r.fields] (records ⟨r', more⟩)
  rw [List.singleton_append, List.singleton_append] at behind
  rw [behind]
  rfl

/-- **The header is the first of several lines and nothing else.**  With a header and without one the
same texts are tables, and the reports on the others are the same.  A text of a single line is the same
table.  Of several lines the first is the header, and without a header it is a record before the other
ones, dropped only if it and all behind it are blank.  The bound on the length is that of a machine
word. -/
theorem read_header {engine : Pattern.Engine} (reads : ReadsPlain engine s.char) {filename text : String}
    (fits : text.length ≤ unlimited) :
    (∃ headed bare : File, ReadsAs engine ⟨s.char, true⟩ filename text headed ∧
      ReadsAs engine ⟨s.char, false⟩ filename text bare ∧ bare.header = none ∧
      ((lines text).length = 1 → headed.header = none ∧ headed.records = bare.records) ∧
      (1 < (lines text).length → ∃ r : Written.Record s, (lines text).head? = some r.text ∧
        headed.header = some r.fields ∧
        WithoutBlankTail (r.fields :: headed.records) bare.records)) ∨
    ∃ e, Reports engine ⟨s.char, true⟩ filename text e ∧ Reports engine ⟨s.char, false⟩ filename text e := by
  rcases Document.exists_document (s := s) text.toList with ⟨d, htext⟩ | ⟨d, v, h, hv, left⟩
  · have textLines : lines text = d.items.map Record.text := by rw [lines, ← htext, splitLines_document]
    refine .inl ⟨d.file true, d.file false, readsAs_of_document reads fits true filename htext,
      readsAs_of_document reads fits false filename htext, rfl, ?_, ?_⟩
    · intro one
      obtain ⟨r, more⟩ := d
      obtain rfl : more = [] := by simpa [textLines, Chain.items] using one
      exact ⟨rfl, rfl⟩
    · intro several
      obtain ⟨r, more⟩ := d
      cases more with
      | nil => simp [textLines, Chain.items] at several
      | cons m more =>
        obtain ⟨records, headed, bare⟩ := Document.file_of_lines r m.2 m.1 more
        rw [headed, bare]
        refine ⟨r, by rw [textLines]; rfl, rfl, ?_⟩
        exact withoutBlankTail_dropBlankTail (r.fields :: records)
  · exact .inr ⟨_, reports_of_rest reads fits true filename h hv left,
      reports_of_rest reads fits false filename h hv left⟩

/-- Two lines with nothing written on them. -/
def Written.blankLines : Document .comma := ⟨Record.blank, [(.lf, Record.blank)]⟩

/-- With a header a blank line is found, and without one it is lost with those at the end. -/
theorem read_header_blankLines :
    "\n".length ≤ unlimited ∧ ReadsAs Pattern.standard ⟨',', true⟩ "blank.csv" "\n" ⟨some [""], []⟩ ∧
      ReadsAs Pattern.standard ⟨',', false⟩ "blank.csv" "\n" ⟨none, []⟩ := by
  have fits : "\n".length ≤ unlimited := by decide
  have several : 1 < (lines "\n").length := by decide
  have headed : ReadsAs Pattern.standard ⟨',', true⟩ "blank.csv" "\n" ⟨some [""], []⟩ :=
    (readsAs_iff (s := .comma) (readsPlain_standard ',') fits).2 ⟨blankLines, by decide, by decide⟩
  refine ⟨fits, headed, ?_⟩
  rcases read_header (s := .comma) (readsPlain_standard ',') fits with
    ⟨table, bare, htable, hbare, none, _, first⟩ | ⟨e, rejected, _⟩
  · obtain rfl := htable.unique headed
    obtain ⟨r, _, hr, kept⟩ := first several
    rw [withoutBlankTail_iff, ← Option.some.inj hr] at kept
    obtain ⟨header, records⟩ := bare
    obtain rfl : header = _ := none
    obtain rfl : records = [] := kept.trans (by decide)
    exact hbare
  · exact absurd rejected headed.not_reports

end LazyPeg.Csv
