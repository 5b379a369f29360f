import LazyPeg.Proofs.Csv.Writing

/-!
# Where texts that are no tables break off

A text that is no table is reported at one place: where the document ends that the text begins with.
What stands before this place is a table.  What stands behind it cannot go on with that table, and
`Written.Document.EndsBefore` says why by the next few characters alone: no field, record or line can
begin there or go on.  Only a quote mark behind an empty field takes a look ahead, for a quoted field
that is never closed is none (`closes`).

* §1 reads on behind an opening quote mark.
* §2 says by the next characters where fields and documents end.
* §3 is the result about reading, and that the parser of files itself never fails.
-/
namespace LazyPeg.Csv

open LazyPeg.Parser Written

variable {s : Separator}

/-! ## 1. Quote marks -/

/-- Whether a quoted field is closed, read on from behind its opening quote mark.  Two quote marks are
a quote mark in it, and every other character must be one that it may hold. -/
def closes (s : Separator) : List Char → Bool
  | '"' :: '"' :: cs => closes s cs
  | '"' :: _ => true
  | c :: cs => decide (Writable s c) && closes s cs
  | [] => false

theorem writable_quotedChar (d : QuotedChar s) : Writable s d.char := by
  cases d with
  | plain c => exact .inl c.isPlain
  | separator => exact .inr (.inl rfl)
  | cr => exact .inr (.inr (.inl rfl))
  | lf => exact .inr (.inr (.inr (.inl rfl)))
  | quote => exact .inr (.inr (.inr (.inr rfl)))

theorem closes_quotedChar (d : QuotedChar s) (v : List Char) : closes s (d.text ++ v) = closes s v := by
  by_cases quote : d.char = '"'
  · rw [d.text_eq, if_pos quote]
    rfl
  · rw [d.text_eq, if_neg quote, List.singleton_append]
    simp [closes, quote, writable_quotedChar d]

/-- Behind a quote mark that is no part of a pair nothing more is looked at. -/
theorem closes_quote {v : List Char} (h : v.head? ≠ some '"') : closes s ('"' :: v) = true := by
  cases v with
  | nil => rfl
  | cons c v =>
    have other : c ≠ '"' := by simpa using h
    simp [closes, other]

theorem closes_run (ds : List (QuotedChar s)) {v : List Char} (h : v.head? ≠ some '"') :
    closes s ((quotedCode s).run.text ds ++ '"' :: v) = true := by
  induction ds with
  | nil => exact closes_quote h
  | cons d ds ih =>
    have parts : (quotedCode s).run.text (d :: ds) ++ '"' :: v =
        d.text ++ ((quotedCode s).run.text ds ++ '"' :: v) := List.append_assoc ..
    rw [parts, closes_quotedChar, ih]

/-- What is between the quote marks of a closed field. -/
theorem exists_run_of_closes {cs : List Char} (h : closes s cs = true) :
    ∃ (ds : List (QuotedChar s)) (v : List Char),
      cs = (quotedCode s).run.text ds ++ '"' :: v ∧ v.head? ≠ some '"' := by
  fun_induction closes s cs with
  | case1 cs ih =>
    obtain ⟨ds, v, rfl, hv⟩ := ih h
    exact ⟨.quote :: ds, v, rfl, hv⟩
  | case2 cs single =>
    refine ⟨[], cs, rfl, ?_⟩
    intro again
    obtain ⟨rest, rfl⟩ := List.head?_eq_some_iff.1 again
    exact single rest rfl
  | case3 c cs pair quote ih =>
    obtain ⟨writable, closed⟩ := by simpa using h
    obtain ⟨ds, v, rfl, hv⟩ := ih closed
    obtain ⟨d, rfl⟩ := writable.exists_quotedChar
    refine ⟨d :: ds, v, ?_, hv⟩
    have text : d.text = [d.char] := d.text_eq.trans (if_neg quote)
    rw [show (quotedCode s).run.text (d :: ds) = d.text ++ (quotedCode s).run.text ds from rfl, text]
    rfl
  | case4 => simp at h

/-- **A text begins with a quoted field exactly if its first quote mark is closed.** -/
theorem Written.Field.opens_cons (rest : List Char) :
    Opens s ('"' :: rest) ↔ closes s rest = true := by
  constructor
  · rintro ⟨ds, v, h, hv⟩
    have inside : rest = (quotedCode s).run.text ds ++ '"' :: v := by simpa [text] using h
    rw [inside, closes_run ds hv]
  · intro h
    obtain ⟨ds, v, rfl, hv⟩ := exists_run_of_closes h
    exact ⟨ds, v, by simp [text], hv⟩

/-! ## 2. Where fields and documents end -/

namespace Written

/-- A field stands between quote marks. -/
def Field.IsQuoted : Field s → Prop
  | plain _ => False
  | quoted _ => True

theorem begins_plain_iff {v : List Char} :
    (plainCode s).Begins v ↔ ∃ c, v.head? = some c ∧ isPlain s.char c := by
  constructor
  · rintro ⟨c, w, rfl⟩
    exact ⟨c.char, rfl, c.isPlain⟩
  · rintro ⟨c, hc, plain⟩
    obtain ⟨w, rfl⟩ := List.head?_eq_some_iff.1 hc
    exact ⟨⟨c, plain⟩, w, rfl⟩

theorem begins_separator_iff {v : List Char} :
    (separatorCode s).Begins v ↔ v.head? = some s.char := by
  constructor
  · rintro ⟨_, w, rfl⟩
    rfl
  · intro h
    obtain ⟨w, rfl⟩ := List.head?_eq_some_iff.1 h
    exact ⟨(), w, rfl⟩

theorem begins_lineEnd_iff {v : List Char} :
    lineEndCode.Begins v ↔ v.head? = some '\n' ∨ ['\r', '\n'] <+: v := by
  constructor
  · rintro ⟨e, w, rfl⟩
    cases e with
    | lf => exact .inl rfl
    | crlf => exact .inr ⟨w, rfl⟩
  · rintro (h | ⟨w, rfl⟩)
    · obtain ⟨w, rfl⟩ := List.head?_eq_some_iff.1 h
      exact ⟨.lf, w, rfl⟩
    · exact ⟨.crlf, w, rfl⟩

/-- A field ends before a plain character only if it is quoted, and before a quote mark only if it is
not; but an empty field ends there only if the quote mark is not closed. -/
theorem Field.stops_iff (x : Field s) (v : List Char) :
    x.Stops v ↔ (∀ c, v.head? = some c → isPlain s.char c → x.IsQuoted) ∧
      (v.head? = some '"' → ¬ x.IsQuoted) ∧
      ∀ rest, v = '"' :: rest → x = plain [] → closes s rest = false := by
  cases x with
  | quoted ds => simp [Stops, IsQuoted]
  | plain cs =>
    have opens : ¬ Opens s v ↔ ∀ rest, v = '"' :: rest → closes s rest = false := by
      constructor
      · rintro no rest rfl
        rw [opens_cons] at no
        simpa using no
      · intro unclosed opened
        by_cases quote : v.head? = some '"'
        · obtain ⟨rest, rfl⟩ := List.head?_eq_some_iff.1 quote
          rw [opens_cons, unclosed rest rfl] at opened
          exact absurd opened (by decide)
        · exact not_opens quote opened
    simp only [Stops, IsQuoted, begins_plain_iff, opens, not_exists, not_and, plain.injEq,
      not_false_eq_true, implies_true, true_and]
    constructor
    · rintro ⟨noPlain, unclosed⟩
      exact ⟨fun c hc plain => noPlain c hc plain, fun rest hv hcs => unclosed hcs rest hv⟩
    · rintro ⟨noPlain, unclosed⟩
      exact ⟨fun c hc plain => noPlain c hc plain, fun hcs rest hv => unclosed rest hv hcs⟩

/-- The last field on the last line. -/
def Document.lastField (d : Document s) : Field s := d.last.last

/-- A document cannot go on with `v`. -/
structure Document.EndsBefore (d : Document s) (v : List Char) : Prop where
  no_separator : v.head? ≠ some s.char
  no_lf : v.head? ≠ some '\n'
  no_crlf : ¬ ['\r', '\n'] <+: v
  /-- No plain character follows, unless a quoted field was closed before it. -/
  quoted_of_plain : ∀ c, v.head? = some c → isPlain s.char c → d.lastField.IsQuoted
  /-- A quote mark behind a quoted field would be one in it. -/
  plain_of_quote : v.head? = some '"' → ¬ d.lastField.IsQuoted
  /-- A quote mark behind an empty field would open a quoted one, if that was closed. -/
  unclosed : ∀ rest, v = '"' :: rest → d.lastField = .plain [] → closes s rest = false

/-- **Where a document ends is settled by what follows its last field.** -/
theorem Document.stops_iff_endsBefore (d : Document s) (v : List Char) :
    (documentCut s).Stops d v ↔ d.EndsBefore v := by
  have parts : (documentCut s).Stops d v ↔ (d.lastField.Stops v ∧ ¬ (separatorCode s).Begins v) ∧
      ¬ lineEndCode.Begins v := Iff.rfl
  rw [parts, Field.stops_iff, begins_separator_iff, begins_lineEnd_iff, not_or]
  constructor
  · rintro ⟨⟨⟨quoted, plain, unclosed⟩, separator⟩, lf, crlf⟩
    exact ⟨separator, lf, crlf, quoted, plain, unclosed⟩
  · intro h
    exact ⟨⟨⟨h.quoted_of_plain, h.plain_of_quote, h.unclosed⟩, h.no_separator⟩, h.no_lf, h.no_crlf⟩

end Written

/-! ## 3. Reports -/

/-- Where a text is at first a document and cannot go on is one place only. -/
theorem Written.Document.EndsBefore.unique {d d' : Document s} {v v' : List Char} (h : d.EndsBefore v)
    (h' : d'.EndsBefore v') (same : d.text ++ v = d'.text ++ v') : d = d' ∧ v = v' :=
  (documentCut s).unique_rest same ((d.stops_iff_endsBefore v).2 h) ((d'.stops_iff_endsBefore v').2 h')

/-- The parser of files succeeds wherever it is tried. -/
theorem parse_file {engine : Pattern.Engine} (s : Separator) (reads : ReadsPlain engine s.char)
    (header : Bool) :
    ∃ q, file engine ⟨s.char, header⟩ = .ok q ∧ ∀ (w : World Char) (p : Position) (ts : List Char),
      w.store.Shows p ts p.offset → ts.length ≤ unlimited →
        ∃ v next w', (ExceptT.run (q.parse #[] p)).run w = (.ok (.success v next), w') := by
  obtain ⟨name, accepts, built, plain⟩ := exists_file ⟨s.char, header⟩ reads
  refine ⟨_, built, fun w p ts shows fits => ?_⟩
  obtain ⟨d, v, h, hv⟩ := (documentCut s).exists_cut (ts.drop p.offset)
  have takes : (fileOf ⟨s.char, header⟩ (Parser.satisfy name accepts)).Takes ts (callDepth #[] ts 0) p.offset
      (d.file header).toValue (p.offset + d.text.length) :=
    takes_fileOf fits (spells_plain name plain) header h hv
  obtain ⟨events, reach, taken⟩ := takes
  have parsed := parse_of_reads likeGrammars_of_none (Nat.le_refl _) (matchesOnly_any built).alike shows
    ⟨0, taken⟩
  rw [Position.moveTo_offset] at parsed
  exact ⟨_, _, _, parsed⟩

/-- **Reports point at the offending place.**  A text that is not accepted is reported with the end of
the input missed.  Before the place of the report stands a table, whose last field is settled; behind it
stands something that this table cannot go on with; and no other place of the text is like that.  The
parser of files itself never fails, wherever it is tried.  The bound on the lengths is that of a machine
word. -/
theorem read_rejected {engine : Pattern.Engine} (s : Separator) (reads : ReadsPlain engine s.char)
    (header : Bool) :
    (∀ filename text, text.length ≤ unlimited →
      (¬ ∃ table, ReadsAs engine ⟨s.char, header⟩ filename text table) →
        ∃ e, Reports engine ⟨s.char, header⟩ filename text e ∧ e.kind = .expected ∧
          e.message = "EOS is expected" ∧ e.offset < text.length ∧
          ∃ d : Document s, d.text = text.toList.take e.offset ∧
            ReadsAs engine ⟨s.char, header⟩ filename (String.ofList (text.toList.take e.offset))
              (d.file header) ∧
            d.EndsBefore (text.toList.drop e.offset) ∧
            ∀ (d' : Document s) (v : List Char), text.toList = d'.text ++ v → d'.EndsBefore v →
              d'.text.length = e.offset) ∧
    ∃ q, file engine ⟨s.char, header⟩ = .ok q ∧ ∀ (w : World Char) (p : Position) (ts : List Char),
      w.store.Shows p ts p.offset → ts.length ≤ unlimited →
        ∃ v next w', (ExceptT.run (q.parse #[] p)).run w = (.ok (.success v next), w') := by
  refine ⟨fun filename text fits rejected => ?_, parse_file s reads header⟩
  rcases Document.exists_document (s := s) text.toList with ⟨d, htext⟩ | ⟨d, v, h, hv, left⟩
  · exact absurd ⟨_, readsAs_of_document reads fits header filename htext⟩ rejected
  · have before : text.toList.take d.text.length = d.text := h ▸ List.take_left
    have behind : text.toList.drop d.text.length = v := h ▸ List.drop_left
    have ends := (d.stops_iff_endsBefore v).1 hv
    have shorter : d.text.length < text.length := by
      rw [← text.length_toList, h, List.length_append]
      exact Nat.lt_add_of_pos_right (List.length_pos_iff.2 left)
    have fits' : (String.ofList d.text).length ≤ unlimited := by
      rw [String.length_ofList]
      omega
    have accepted := readsAs_of_document reads fits' header filename (d := d) String.toList_ofList.symm
    refine ⟨_, reports_of_rest reads fits header filename h hv left, rfl, rfl, shorter, d, before.symm,
      ?_, ?_, ?_⟩
    · exact before.symm ▸ accepted
    · exact behind.symm ▸ ends
    · intro d' v' h' ends'
      obtain ⟨rfl, -⟩ := ends'.unique ends (h'.symm.trans h)
      rfl

/-- Two fields, the second between quote marks. -/
def Written.letters : Document .comma :=
  ⟨⟨.plain [⟨'a', rfl⟩], [((), .quoted [.plain ⟨'b', rfl⟩])]⟩, []⟩

theorem Written.endsBefore_letters : letters.EndsBefore ['c'] where
  no_separator := by decide
  no_lf := by decide
  no_crlf := by decide
  quoted_of_plain _ _ _ := trivial
  plain_of_quote h := by simp at h
  unclosed rest h := by simp at h

theorem read_rejected_letters :
    "a,\"b\"c".length ≤ unlimited ∧
      (¬ ∃ table, ReadsAs Pattern.standard ⟨',', false⟩ "letters.csv" "a,\"b\"c" table) ∧
      (∃ e, Reports Pattern.standard ⟨',', false⟩ "letters.csv" "a,\"b\"c" e ∧ e.message = "EOS is expected" ∧
        e.offset = 5) ∧
      ∃ q, file Pattern.standard ⟨',', false⟩ = .ok q ∧ ∃ v next w', (ExceptT.run (q.parse #[] (.mark 0 0))).run
        ⟨(Store.new.start (.ofText "a,\"b\"c")).2, []⟩ = (.ok (.success v next), w') := by
  have fits : "a,\"b\"c".length ≤ unlimited := by decide
  have text : "a,\"b\"c".toList = letters.text ++ ['c'] := by decide
  have rejected : ¬ ∃ table, ReadsAs Pattern.standard ⟨',', false⟩ "letters.csv" "a,\"b\"c" table := by
    rintro ⟨table, accepted⟩
    have stops := (letters.stops_iff_endsBefore ['c']).2 endsBefore_letters
    have reported := reports_of_rest (s := .comma) (readsPlain_standard ',') fits false "letters.csv"
      text stops (by simp)
    exact accepted.not_reports reported
  obtain ⟨reports, q, built, parses⟩ := read_rejected .comma (readsPlain_standard ',') false
  obtain ⟨e, reported, -, message, -, d, -, -, -, only⟩ := reports "letters.csv" _ fits rejected
  have shows := (Store.new.reached_start (.ofText "a,\"b\"c")).shows
  rw [Store.sequence_start] at shows
  exact ⟨fits, rejected,
    ⟨e, reported, message, (only letters ['c'] text endsBefore_letters).symm⟩,
    q, built, parses _ _ _ shows fits⟩

end LazyPeg.Csv
