import LazyPeg.Proofs.Csv.Writing

/-!
# The lines of a table

A text has lines, whatever is written on them: it is split at the line ends that stand outside quote
marks (`lines`).  In a table each line holds a record (`splitLines_document`).  Two results about reading
are said in terms of lines.

* §2: a line end behind the last line changes nothing (`read_lineEnd`), except for a text of one line
  if there is to be a header.  Without the line end this line is a record, with it a header.
* §3: every line that something is written on is among the records (`read_lines`), except at the end.
  There also a line is lost that holds nothing but two quote marks.
-/
namespace LazyPeg.Csv

open Written

variable {s : Separator}

/-! ## 1. Lines -/

/-- The lines of a text, split at the line ends outside quote marks; `quoted` if the text begins
between quote marks. -/
def splitLines : (quoted : Bool) → List Char → List (List Char)
  | _, [] => [[]]
  | false, '\r' :: '\n' :: cs => [] :: splitLines false cs
  | false, '\n' :: cs => [] :: splitLines false cs
  | quoted, c :: cs => (splitLines (if c = '"' then !quoted else quoted) cs).modifyHead (c :: ·)

/-- The lines of a text. -/
def lines (text : String) : List (List Char) := splitLines false text.toList

/-- Some characters belong to the line in which they begin.  Behind them the text is quoted or not. -/
def Stays (quoted after : Bool) (cs : List Char) : Prop :=
  ∀ v, splitLines quoted (cs ++ v) = (splitLines after v).modifyHead (cs ++ ·)

theorem stays_nil (quoted : Bool) : Stays quoted quoted [] := by
  intro v
  cases h : splitLines quoted v <;> simp [h]

theorem Stays.append {q q' q'' : Bool} {cs ds : List Char} (h : Stays q q' cs) (h' : Stays q' q'' ds) :
    Stays q q'' (cs ++ ds) := by
  intro v
  rw [List.append_assoc, h, h', List.modifyHead_modifyHead]
  simp [Function.comp_def]

theorem stays_flatMap {δ : Type} {q : Bool} {text : δ → List Char} (h : ∀ d, Stays q q (text d))
    (ds : List δ) : Stays q q (ds.flatMap text) := by
  induction ds with
  | nil => exact stays_nil q
  | cons d ds ih => exact (h d).append ih

theorem stays_quote (q : Bool) : Stays q (!q) ['"'] := by
  intro v
  cases q <;> simp [splitLines]

/-- Outside quote marks every character stays in its line that cannot end it. -/
theorem stays_char {c : Char} (quote : c ≠ '"') (cr : c ≠ '\r') (lf : c ≠ '\n') (q : Bool) :
    Stays q q [c] := by
  intro v
  cases q <;> simp [splitLines, quote, cr, lf]

/-- Between quote marks every other character stays in its line. -/
theorem stays_quoted {c : Char} (quote : c ≠ '"') : Stays true true [c] := by
  intro v
  simp [splitLines, quote]

theorem stays_plain (c : PlainChar s) (q : Bool) : Stays q q [c.char] :=
  stays_char (c.ne_of_not_isPlain (isPlain_quote _)) (c.ne_of_not_isPlain (isPlain_cr _))
    (c.ne_of_not_isPlain (isPlain_lf _)) q

theorem stays_quotedChar (d : QuotedChar s) : Stays true true d.text := by
  cases d with
  | plain c => exact stays_plain c true
  | separator => exact stays_quoted s.ne_quote
  | cr => exact stays_quoted (c := '\r') (by decide)
  | lf => exact stays_quoted (c := '\n') (by decide)
  | quote => exact (stays_quote true).append (stays_quote false)

theorem stays_field (x : Written.Field s) : Stays false false x.text := by
  cases x with
  | plain cs => exact stays_flatMap (stays_plain · false) cs
  | quoted ds =>
    exact (stays_quote false).append ((stays_flatMap stays_quotedChar ds).append (stays_quote true))

theorem stays_record (r : Written.Record s) : Stays false false r.text := by
  have more : Stays false false ((fieldCut s).moreText (separatorCode s) r.more) :=
    stays_flatMap (fun m : Unit × Written.Field s =>
      (stays_char s.ne_quote s.ne_cr s.ne_lf false).append (stays_field m.2)) r.more
  exact (stays_field r.first).append more

theorem splitLines_lineEnd (e : LineEnd) (v : List Char) :
    splitLines false (lineEndCode.text e ++ v) = [] :: splitLines false v := by
  cases e <;> simp [lineEndCode, splitLines]

/-- **The lines of a document are the texts of its records.** -/
theorem splitLines_document (d : Document s) : splitLines false d.text = d.items.map Record.text := by
  obtain ⟨r, more⟩ := d
  induction more generalizing r with
  | nil =>
    have line := stays_record r []
    rw [List.append_nil] at line
    rw [show Document.text ⟨r, []⟩ = r.text from List.append_nil _, line]
    simp [splitLines, Chain.items]
  | cons m more ih =>
    obtain ⟨e, r'⟩ := m
    rw [Document.text_cons, stays_record, splitLines_lineEnd, ih]
    simp [Chain.items]

/-! ## 2. A line end behind the last line -/

/-- Without blank records at the end, one more of them makes no difference. -/
theorem dropBlankTail_append_blank (records : List Record) :
    dropBlankTail (records ++ [[""]]) = dropBlankTail records := by
  simp [dropBlankTail]

/-- A document of more than one line, or without a header, stands for the same table if its last line
is ended. -/
theorem file_terminated {header : Bool} (e : LineEnd) {d : Document s}
    (h : header = false ∨ d.more ≠ []) : (d.terminated e).file header = d.file header := by
  obtain ⟨r, more⟩ := d
  match header, more with
  | false, _ =>
    simp only [Document.file, Document.records_terminated, dropBlankTail_append_blank]
  | true, [] => simp at h
  | true, m :: more =>
    have rest := Document.records_terminated e ⟨m.2, more⟩
    simp only [Document.file, Document.terminated, List.cons_append] at rest ⊢
    rw [rest, dropBlankTail_append_blank]

/-- **A line end behind the last line.**  It is accepted, and it changes nothing, unless the text is a
single line and there is to be a header: this line is a record if it is not ended, and the header of a
table without records if it is. -/
theorem read_lineEnd {engine : Pattern.Engine} (reads : ReadsPlain engine s.char) {header : Bool}
    {filename text : String} {table : File} (e : LineEnd) (fits : (text ++ e.string).length ≤ unlimited)
    (h : ReadsAs engine ⟨s.char, header⟩ filename text table) :
    (header = false ∨ 1 < (lines text).length →
      ReadsAs engine ⟨s.char, header⟩ filename (text ++ e.string) table) ∧
    (header = true → (lines text).length = 1 → ∃ r : Written.Record s, r.text = text.toList ∧
      table = ⟨none, dropBlankTail [r.fields]⟩ ∧
      ReadsAs engine ⟨s.char, header⟩ filename (text ++ e.string) ⟨some r.fields, []⟩) := by
  have shorter : text.length ≤ unlimited := by
    rw [String.length_append] at fits
    omega
  obtain ⟨d, htext, rfl⟩ := (readsAs_iff reads shorter).1 h
  have ended : (d.terminated e).text = (text ++ e.string).toList := by
    rw [Document.text_terminated, htext, String.toList_append, LineEnd.string, String.toList_ofList]
  have count : (lines text).length = d.more.length + 1 := by
    rw [lines, ← htext, splitLines_document]
    simp [Chain.items]
  refine ⟨fun more => (readsAs_iff reads fits).2 ⟨d.terminated e, ended, file_terminated e ?_⟩, ?_⟩
  · refine more.imp_right fun many => ?_
    intro single
    simp [single] at count
    omega
  · rintro rfl one
    obtain ⟨r, more⟩ := d
    obtain rfl : more = [] := by simpa [one] using count
    refine ⟨r, ?_, ?_, (readsAs_iff reads fits).2 ⟨_, ended, ?_⟩⟩
    · exact (List.append_nil _).symm.trans htext
    · simp [Document.file, Document.records, Chain.items]
    · simp [Document.file, Document.terminated, Document.records, Chain.items, Record.fields,
        Record.blank, Field.content, dropBlankTail]

/-- A single line. -/
def Written.singleLine : Document .comma := ⟨⟨.plain [⟨'a', by decide⟩], []⟩, []⟩

theorem readsAs_singleLine : ReadsAs Pattern.standard ⟨',', true⟩ "names.csv" "a" ⟨none, [["a"]]⟩ :=
  (readsAs_iff (s := .comma) (readsPlain_standard ',') (by decide)).2 ⟨singleLine, by decide, by decide⟩

theorem read_lineEnd_singleLine :
    ReadsAs Pattern.standard ⟨',', true⟩ "names.csv" "a" ⟨none, [["a"]]⟩ ∧ (lines "a").length = 1 ∧
      ∃ r, ReadsAs Pattern.standard ⟨',', true⟩ "names.csv" "a\n" ⟨some r, []⟩ := by
  have single : (lines "a").length = 1 := by decide
  obtain ⟨r, _, _, header⟩ :=
    (read_lineEnd (s := .comma) (readsPlain_standard ',') .lf (by decide) readsAs_singleLine).2 rfl single
  exact ⟨readsAs_singleLine, single, r.fields, header⟩

/-- It is not so that a line end behind the last line never matters: behind a single line it makes a
header of it. -/
theorem not_always_same_lineEnd :
    ¬ ∀ (s : Separator) (header : Bool) (filename text : String) (table : File) (e : LineEnd),
      (text ++ e.string).length ≤ unlimited → ReadsAs Pattern.standard ⟨s.char, header⟩ filename text table →
        ReadsAs Pattern.standard ⟨s.char, header⟩ filename (text ++ e.string) table := by
  intro same
  have record := same .comma true _ _ _ .lf (by decide) readsAs_singleLine
  have header :
      ReadsAs Pattern.standard ⟨',', true⟩ "names.csv" ("a" ++ LineEnd.lf.string) ⟨some ["a"], []⟩ :=
    (readsAs_iff (s := .comma) (readsPlain_standard ',') (by decide)).2
      ⟨singleLine.terminated .lf, by decide, by decide⟩
  exact absurd (record.unique header) (by decide)

/-! ## 3. What becomes of the lines -/

/-- **What becomes of the lines.**  Each line holds a record.  The records of the lines are kept, those
at the end excepted that hold nothing or two quote marks.  So no line that something is written on is
lost, unless the last such line is two quote marks. -/
theorem read_lines {engine : Pattern.Engine} (reads : ReadsPlain engine s.char) {filename text : String}
    {table : File} (fits : text.length ≤ unlimited) (h : ReadsAs engine ⟨s.char, false⟩ filename text table) :
    ∃ kept lost : List (Written.Record s), (kept ++ lost).map Record.text = lines text ∧
      table = ⟨none, kept.map Record.fields⟩ ∧
      (∀ r ∈ lost, r.text = [] ∨ r.text = ['"', '"']) ∧
      ((∀ r, ((kept ++ lost).filter (·.text ≠ [])).getLast? = some r → r.text ≠ ['"', '"']) →
        (((kept ++ lost).filter (·.text ≠ [])).map Record.fields).Sublist table.records) := by
  obtain ⟨d, htext, rfl⟩ := (readsAs_iff reads fits).1 h
  obtain ⟨n, split⟩ := (withoutBlankTail_dropBlankTail d.records).1
  obtain ⟨kept, lost, items, hkept, hlost⟩ := List.map_eq_append_iff.1 split
  have blank : ∀ r ∈ lost, r.text = [] ∨ r.text = ['"', '"'] := by
    intro r hr
    refine Record.text_of_fields_blank (List.eq_of_mem_replicate (n := n) ?_)
    exact hlost ▸ List.mem_map_of_mem hr
  refine ⟨kept, lost, ?_, ?_, blank, fun last => ?_⟩
  · rw [← items, ← splitLines_document, htext, lines]
  · rw [hkept]
    rfl
  · -- a written record among the lost ones would make the last such line two quote marks
    have noneLost : lost.filter (·.text ≠ []) = [] := by
      by_contra anyLost
      obtain ⟨r, hr⟩ := Option.isSome_iff_exists.1 (List.getLast?_isSome.2 anyLost)
      obtain ⟨hlost, written⟩ := List.mem_filter.1 (List.mem_of_getLast? hr)
      have marks := (blank r hlost).resolve_left (by simpa using written)
      refine last r ?_ marks
      rw [List.filter_append, List.getLast?_append, hr]
      rfl
    rw [List.filter_append, noneLost, List.append_nil]
    have written : ((kept.filter (·.text ≠ [])).map Record.fields).Sublist (kept.map Record.fields) :=
      List.filter_sublist.map _
    rwa [hkept] at written

/-- Two lines, the second with two quote marks. -/
def Written.marksBelow : Document .comma :=
  ⟨⟨.plain [⟨'a', by decide⟩], []⟩, [(.lf, ⟨.quoted [], []⟩)]⟩

theorem readsAs_marksBelow : ReadsAs Pattern.standard ⟨',', false⟩ "names.csv" "a\n\"\"" ⟨none, [["a"]]⟩ :=
  (readsAs_iff (s := .comma) (readsPlain_standard ',') (by decide)).2 ⟨marksBelow, by decide, by decide⟩

theorem read_lines_marksBelow :
    ∃ kept lost : List (Written.Record .comma),
      (kept ++ lost).map Record.text = [['a'], ['"', '"']] ∧ kept.map Record.fields = [["a"]] ∧
        ∀ r ∈ lost, r.text = [] ∨ r.text = ['"', '"'] := by
  obtain ⟨kept, lost, all, table, blank, _⟩ :=
    read_lines (s := .comma) (readsPlain_standard ',') (by decide) readsAs_marksBelow
  exact ⟨kept, lost, all.trans (by decide), (congrArg File.records table).symm, blank⟩

/-- Not every line that something is written on is kept: two quote marks on the last line are a record
with a single empty field, which is lost. -/
theorem not_all_lines_kept :
    ¬ ∀ (s : Separator) (filename text : String) (table : File), text.length ≤ unlimited →
      ReadsAs Pattern.standard ⟨s.char, false⟩ filename text table →
        ∃ rs : List (Written.Record s), rs.map Record.text = lines text ∧
          ((rs.filter (·.text ≠ [])).map Record.fields).Sublist table.records := by
  intro kept
  obtain ⟨rs, texts, sublist⟩ := kept .comma _ _ _ (by decide) readsAs_marksBelow
  have count : (rs.filter (·.text ≠ [])).length = ((lines "a\n\"\"").filter (· ≠ [])).length := by
    rw [← texts, List.filter_map, List.length_map]
    rfl
  have two : ((lines "a\n\"\"").filter (· ≠ [])).length = 2 := by decide
  have one := sublist.length_le
  rw [List.length_map, count, two] at one
  exact absurd one (by decide)

end LazyPeg.Csv
