import LazyPeg.Csv.Grammar
import LazyPeg.Proofs.Cut.Basic

/-!
# Written tables

The grammar of tables without a parser: a `Written.Document` is a derivation of it, a chain of records
with the line ends between them, and a record is a chain of fields.  A document has a text and a table
of contents, and nothing else is said of it.

A text can be cut in one way only (`Written.documentCut`): a field that is not quoted goes on as long
as plain characters follow, a quoted one up to the first quote mark that is no part of a pair, a record
as long as separators follow, and a document as long as line ends follow.  Only one place needs more
than a look at the next character: where a field begins, a quote mark opens a quoted field if that field
is closed somewhere, and otherwise stands behind a field that is empty (`Written.Field.Stops`).
-/
namespace LazyPeg.Csv

/-! ## 1. Characters -/

/-- A character that can separate fields: it means nothing else. -/
structure Separator where
  char : Char
  ne_quote : char ≠ '"'
  ne_cr : char ≠ '\r'
  ne_lf : char ≠ '\n'

/-- The usual separator. -/
def Separator.comma : Separator := ⟨',', by decide, by decide, by decide⟩

variable {s : Separator}

/-- A character that a plain field may have. -/
def isPlain (separator c : Char) : Bool :=
  ' ' ≤ c && c ≤ '~' && c != '"' && c != separator

theorem isPlain_quote (separator : Char) : isPlain separator '"' = false := by
  simp [isPlain]

theorem isPlain_separator (separator : Char) : isPlain separator separator = false := by
  simp [isPlain]

theorem isPlain_cr (separator : Char) : isPlain separator '\r' = false := by
  simp [isPlain]

theorem isPlain_lf (separator : Char) : isPlain separator '\n' = false := by
  simp [isPlain]

namespace Written

/-- The end of a line. -/
inductive LineEnd where
  | lf | crlf
  deriving DecidableEq

/-- A character of a plain field. -/
structure PlainChar (s : Separator) where
  char : Char
  isPlain : isPlain s.char char

/-- A character of a quoted field. -/
inductive QuotedChar (s : Separator) where
  | plain (c : PlainChar s)
  | separator
  | cr
  | lf
  | quote

/-- What a character of a quoted field stands for. -/
def QuotedChar.char : QuotedChar s → Char
  | plain c => c.char
  | separator => s.char
  | cr => '\r'
  | lf => '\n'
  | quote => '"'

/-- A quote mark is written twice. -/
def QuotedChar.text : QuotedChar s → List Char
  | quote => ['"', '"']
  | d => [d.char]

theorem PlainChar.char_injective {c c' : PlainChar s} (h : c.char = c'.char) : c = c' := by
  obtain ⟨c, hc⟩ := c
  obtain ⟨c', hc'⟩ := c'
  obtain rfl : c = c' := h
  rfl

theorem PlainChar.ne_of_not_isPlain (c : PlainChar s) {d : Char} (h : Csv.isPlain s.char d = false) :
    c.char ≠ d := by
  rintro rfl
  exact absurd c.isPlain (by simp [h])

/-- The character of a quoted field that stands for a given one. -/
def QuotedChar.ofChar? (c : Char) : Option (QuotedChar s) :=
  if h : Csv.isPlain s.char c then some (.plain ⟨c, h⟩)
  else if c = s.char then some .separator
  else if c = '\r' then some .cr
  else if c = '\n' then some .lf
  else if c = '"' then some .quote
  else none

theorem QuotedChar.ofChar?_char (d : QuotedChar s) : ofChar? d.char = some d := by
  cases d with
  | plain c => simp [ofChar?, char, c.isPlain]
  | separator => simp [ofChar?, char, isPlain_separator]
  | cr => simp [ofChar?, char, isPlain_cr, s.ne_cr.symm]
  | lf => simp [ofChar?, char, isPlain_lf, s.ne_lf.symm]
  | quote => simp [ofChar?, char, isPlain_quote, s.ne_quote.symm]

/-- No two characters of a quoted field stand for the same. -/
theorem QuotedChar.char_injective {d d' : QuotedChar s} (h : d.char = d'.char) : d = d' := by
  have same := congrArg (ofChar? (s := s)) h
  rw [ofChar?_char, ofChar?_char] at same
  exact Option.some.inj same

theorem QuotedChar.text_eq (d : QuotedChar s) :
    d.text = if d.char = '"' then ['"', '"'] else [d.char] := by
  cases d with
  | plain c => exact (if_neg (c.ne_of_not_isPlain (isPlain_quote _))).symm
  | separator => exact (if_neg s.ne_quote).symm
  | cr => rfl
  | lf => rfl
  | quote => rfl

theorem QuotedChar.exists_text_eq (d : QuotedChar s) : ∃ more, d.text = d.char :: more := by
  cases d <;> exact ⟨_, rfl⟩

/-! ## 2. Words -/

/-- The ends of lines. -/
def lineEndCode : Code LineEnd Char where
  text
    | .lf => ['\n']
    | .crlf => ['\r', '\n']
  text_ne_nil e := by cases e <;> simp
  unique {e e'} v v' h := by cases e <;> cases e' <;> simp at h ⊢

/-- The end of a line as a text. -/
def LineEnd.string (e : LineEnd) : String := String.ofList (lineEndCode.text e)

/-- The separator. -/
def separatorCode (s : Separator) : Code Unit Char where
  text _ := [s.char]
  text_ne_nil _ := by simp
  unique _ := rfl

/-- The characters of plain fields. -/
def plainCode (s : Separator) : Code (PlainChar s) Char where
  text c := [c.char]
  text_ne_nil _ := by simp
  unique h := PlainChar.char_injective (List.cons.inj h).1

/-- The characters of quoted fields. -/
def quotedCode (s : Separator) : Code (QuotedChar s) Char where
  text := QuotedChar.text
  text_ne_nil d := by
    obtain ⟨more, hd⟩ := d.exists_text_eq
    simp [hd]
  unique {d d'} v v' h := by
    obtain ⟨more, hd⟩ := d.exists_text_eq
    obtain ⟨more', hd'⟩ := d'.exists_text_eq
    rw [hd, hd'] at h
    exact QuotedChar.char_injective (List.cons.inj h).1

/-- No plain character stands before one that is none. -/
theorem not_begins_plain {c : Char} (h : isPlain s.char c = false) (v : List Char) :
    ¬ (plainCode s).Begins (c :: v) := by
  rintro ⟨d, w, hd⟩
  exact d.ne_of_not_isPlain h (List.cons.inj hd).1.symm

/-- A single quote mark is no character of a quoted field. -/
theorem not_begins_quoted {v : List Char} (h : v.head? ≠ some '"') :
    ¬ (quotedCode s).Begins ('"' :: v) := by
  rintro ⟨d, w, hd⟩
  obtain rfl : d = .quote := by
    obtain ⟨more, htext⟩ := d.exists_text_eq
    rw [show (quotedCode s).text d = _ from htext] at hd
    exact QuotedChar.char_injective (List.cons.inj hd).1.symm
  rw [show v = '"' :: w from (List.cons.inj hd).2] at h
  exact h rfl

/-! ## 3. Fields -/

/-- A field as it is written. -/
inductive Field (s : Separator) where
  | plain (cs : List (PlainChar s))
  | quoted (ds : List (QuotedChar s))

namespace Field

def text : Field s → List Char
  | plain cs => (plainCode s).run.text cs
  | quoted ds => '"' :: ((quotedCode s).run.text ds ++ ['"'])

/-- What a field holds. -/
def content : Field s → String
  | plain cs => String.ofList (cs.map PlainChar.char)
  | quoted ds => String.ofList (ds.map QuotedChar.char)

/-- A text begins with a quoted field. -/
def Opens (s : Separator) (v : List Char) : Prop :=
  ∃ (ds : List (QuotedChar s)) (w : List Char), v = (quoted ds).text ++ w ∧ w.head? ≠ some '"'

/-- A plain field ends where no plain character follows; but what can be a quoted field is no empty
field before a quote mark.  A quoted field ends at a quote mark that is no part of a pair. -/
def Stops : Field s → List Char → Prop
  | plain cs, v => ¬ (plainCode s).Begins v ∧ (cs = [] → ¬ Opens s v)
  | quoted _, v => v.head? ≠ some '"'

theorem not_opens {v : List Char} (h : v.head? ≠ some '"') : ¬ Opens s v := by
  rintro ⟨ds, w, rfl, _⟩
  exact h rfl

theorem exists_cut (cs : List Char) : ∃ (x : Field s) (v : List Char), cs = x.text ++ v ∧ x.Stops v := by
  by_cases h : Opens s cs
  · obtain ⟨ds, v, hcs, hv⟩ := h
    exact ⟨quoted ds, v, hcs, hv⟩
  · obtain ⟨ds, v, rfl, stop⟩ := (plainCode s).run.exists_cut cs
    refine ⟨plain ds, v, rfl, stop, ?_⟩
    rintro rfl
    exact h

/-- A quoted field is nothing that a plain field can begin with. -/
theorem quoted_ne_plain {ds : List (QuotedChar s)} {cs : List (PlainChar s)} {v v' : List Char}
    (h : (quoted ds).text ++ v = (plain cs).text ++ v') (hv : v.head? ≠ some '"')
    (hv' : (plain cs).Stops v') : False := by
  cases cs with
  | nil => exact hv'.2 rfl ⟨ds, v, h.symm, hv⟩
  | cons c cs => exact c.ne_of_not_isPlain (isPlain_quote _) (List.cons.inj h).1.symm

theorem unique {x x' : Field s} {v v' : List Char} (h : x.text ++ v = x'.text ++ v') (hv : x.Stops v)
    (hv' : x'.Stops v') : x = x' := by
  cases x with
  | plain cs =>
    cases x' with
    | plain cs' => rw [(plainCode s).run.unique h hv.1 hv'.1]
    | quoted ds' => exact (quoted_ne_plain h.symm hv' hv).elim
  | quoted ds =>
    cases x' with
    | plain cs' => exact (quoted_ne_plain h hv hv').elim
    | quoted ds' =>
      have inside := (List.cons.inj h).2
      rw [List.append_eq, List.append_eq, List.append_assoc, List.append_assoc] at inside
      rw [(quotedCode s).run.unique inside (not_begins_quoted hv) (not_begins_quoted hv')]

end Field

/-- Fields are cut in one way. -/
def fieldCut (s : Separator) : Cut (Field s) Char where
  text := Field.text
  Stops := Field.Stops
  exists_cut := Field.exists_cut
  unique := Field.unique

/-- A field stops before every character that is neither plain nor a quote mark. -/
theorem fieldCut_stops (x : Field s) {c : Char} (plain : isPlain s.char c = false) (quote : c ≠ '"')
    (v : List Char) : (fieldCut s).Stops x (c :: v) := by
  have head : (c :: v).head? ≠ some '"' := by simpa using quote
  cases x with
  | plain cs => exact ⟨not_begins_plain plain v, fun _ => Field.not_opens head⟩
  | quoted ds => exact head

theorem fieldCut_stops_nil (x : Field s) : (fieldCut s).Stops x [] := by
  cases x with
  | plain cs => exact ⟨Code.not_begins_nil _, fun _ => Field.not_opens (by simp)⟩
  | quoted ds => simp [fieldCut, Field.Stops]

/-! ## 4. Records -/

/-- A record as it is written: fields with separators between them. -/
abbrev Record (s : Separator) := Chain Unit (Field s)

theorem fieldCut_stops_separator (x : Field s) (d : Unit) (v : List Char) :
    (fieldCut s).Stops x ((separatorCode s).text d ++ v) :=
  fieldCut_stops x (isPlain_separator _) s.ne_quote v

/-- Records are cut in one way. -/
def recordCut (s : Separator) : Cut (Record s) Char := (fieldCut s).chain fieldCut_stops_separator

def Record.text (r : Record s) : List Char := (recordCut s).text r

/-- What a record holds. -/
def Record.fields (r : Record s) : Csv.Record := r.items.map Field.content

theorem recordCut_stops_lineEnd (r : Record s) (e : LineEnd) (v : List Char) :
    (recordCut s).Stops r (lineEndCode.text e ++ v) := by
  refine ⟨?_, ?_⟩
  · cases e with
    | lf => exact fieldCut_stops _ (isPlain_lf _) (by decide) _
    | crlf => exact fieldCut_stops _ (isPlain_cr _) (by decide) _
  · rintro ⟨d, w, h⟩
    cases e with
    | lf => exact s.ne_lf (List.cons.inj h).1.symm
    | crlf => exact s.ne_cr (List.cons.inj h).1.symm

theorem recordCut_stops_nil (r : Record s) : (recordCut s).Stops r [] :=
  ⟨fieldCut_stops_nil _, Code.not_begins_nil _⟩

/-- The record of a line that nothing is written on. -/
def Record.blank : Record s := ⟨.plain [], []⟩

/-- A record with a single empty field is written as nothing or as two quote marks. -/
theorem Record.text_of_fields_blank {r : Record s} (h : r.fields = [""]) :
    r.text = [] ∨ r.text = ['"', '"'] := by
  obtain ⟨x, more⟩ := r
  obtain ⟨hx, hmore⟩ := List.cons.inj h
  obtain rfl : more = [] := by simpa using hmore
  cases x with
  | plain cs =>
    obtain rfl : cs = [] := by simpa [Field.content] using congrArg String.toList hx
    exact .inl rfl
  | quoted ds =>
    obtain rfl : ds = [] := by simpa [Field.content] using congrArg String.toList hx
    exact .inr rfl

/-! ## 5. Documents -/

/-- A table as it is written: records with line ends between them. -/
abbrev Document (s : Separator) := Chain LineEnd (Record s)

/-- Documents are cut in one way. -/
def documentCut (s : Separator) : Cut (Document s) Char :=
  (recordCut s).chain (k := lineEndCode) recordCut_stops_lineEnd

namespace Document

def text (d : Document s) : List Char := (documentCut s).text d

/-- The records of all lines. -/
def records (d : Document s) : List Csv.Record := d.items.map Record.fields

/-- The table that a document stands for: with a header, if there is to be one and more than one
line. -/
def file (header : Bool) (d : Document s) : File :=
  match header, d.more with
  | true, m :: more => ⟨some d.first.fields, dropBlankTail (records ⟨m.2, more⟩)⟩
  | _, _ => ⟨none, dropBlankTail d.records⟩

theorem text_cons (r : Record s) (e : LineEnd) (r' : Record s) (more : List (LineEnd × Record s)) :
    text ⟨r, (e, r') :: more⟩ = r.text ++ (lineEndCode.text e ++ text ⟨r', more⟩) :=
  congrArg (r.text ++ ·) (Cut.moreText_cons e r' more)

theorem stops_nil (d : Document s) : (documentCut s).Stops d [] :=
  ⟨recordCut_stops_nil _, Code.not_begins_nil _⟩

/-- **A text is a document in one way at most.** -/
theorem text_injective {d d' : Document s} (h : d.text = d'.text) : d = d' :=
  (documentCut s).unique (congrArg (· ++ []) h) d.stops_nil d'.stops_nil

/-- A text is a document, or it begins with one that it cannot go on with. -/
theorem exists_document (cs : List Char) :
    (∃ d : Document s, d.text = cs) ∨
      ∃ (d : Document s) (v : List Char), cs = d.text ++ v ∧ (documentCut s).Stops d v ∧ v ≠ [] := by
  obtain ⟨d, v, h, hv⟩ := (documentCut s).exists_cut cs
  by_cases whole : v = []
  · exact .inl ⟨d, by rw [h, whole, List.append_nil]; rfl⟩
  · exact .inr ⟨d, v, h, hv, whole⟩

/-- A document with a line end behind its last line. -/
def terminated (e : LineEnd) (d : Document s) : Document s :=
  ⟨d.first, d.more ++ [(e, Record.blank)]⟩

theorem text_terminated (e : LineEnd) (d : Document s) :
    (d.terminated e).text = d.text ++ lineEndCode.text e := by
  have last : (recordCut s).moreText lineEndCode [(e, Record.blank)] = lineEndCode.text e := by
    rw [Cut.moreText_cons, Cut.moreText_nil]
    exact List.append_nil _
  have more := Cut.moreText_append (c := recordCut s) (k := lineEndCode) d.more [(e, Record.blank)]
  rw [last] at more
  exact (congrArg (d.first.text ++ ·) more).trans (List.append_assoc _ _ _).symm

theorem records_terminated (e : LineEnd) (d : Document s) :
    (d.terminated e).records = d.records ++ [[""]] := by
  simp [records, terminated, Chain.items, Record.fields, Record.blank, Field.content]

end Document

end Written

end LazyPeg.Csv
