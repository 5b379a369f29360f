import LazyPeg.Csv.Grammar
import LazyPeg.Proofs.Csv.Written
import LazyPeg.Proofs.Cut.Parsers

/-!
# The parser of tables cuts written tables

Each parser of the grammar of tables follows the piece of the same name: the parsers of characters and
line ends match the words of their codes, the parsers of fields and records take what `fieldCut` and
`recordCut` cut, and the parser of files takes a document.  So the parser of files succeeds on every
text, and what it takes is the document that the text begins with (`takes_fileOf`); whether that is the
whole text is asked by the caller.
-/
namespace LazyPeg.Csv

open LazyPeg.Parser Written

variable {ts : List Char} {call : RuleId → String → Nat → LazyPeg.Reading Char (Outcome Char Nat)}
  {s : Separator} {plain : Parser Char} {i o : Nat}

/-- Characters are joined to the text of their list. -/
theorem joined_tokens {δ : Type} (char : δ → Char) (ds : List δ) :
    joined (.list (ds.map fun d => .token (char d))) = .text (String.ofList (ds.map char)) := by
  have onto (t : String) : (ds.map fun d => Value.token (char d)).foldl
      (fun u leaf => u ++ leaf.leafText) t = t ++ String.ofList (ds.map char) := by
    induction ds generalizing t with
    | nil => simp
    | cons d ds ih =>
      have one : (Value.token (char d)).leafText = String.singleton (char d) := rfl
      rw [List.map_cons, List.foldl_cons, ih, List.map_cons, String.append_assoc,
        String.ofList_cons, one]
  have leaves : (Value.list (ds.map fun d => Value.token (char d))).leaves =
      ds.map fun d => Value.token (char d) := by
    rw [Value.leaves, Value.leavesAll_eq, List.flatMap_map, List.map_eq_flatMap]
    rfl
  rw [joined, Value.concat, Value.foldLeaves_eq, leaves, onto, String.empty_append]

theorem takes_char {c : Char} {v : List Char} (h : ts.drop i = c :: v) :
    (eq c).Takes ts call i (.token c) (i + 1) :=
  takes_eq (by rw [← List.head?_drop, h]; rfl)

theorem refuses_char {c : Char} (h : (ts.drop i).head? ≠ some c) : (eq c).Refuses ts call i :=
  refuses_eq (by rwa [← List.head?_drop])

/-! ## 1. Words -/

theorem spells_separator (s : Separator) :
    Spells ts call (eq s.char) (separatorCode s) fun _ => .token s.char where
  takes h := takes_char h
  refuses {i} h := by
    refine refuses_char fun head => h ?_
    obtain ⟨v, hv⟩ := List.head?_eq_some_iff.1 head
    exact ⟨(), v, hv⟩

/-- Two characters in a row are not matched where the text does not begin with both. -/
theorem refuses_pair {c d : Char} (h : ∀ v, ts.drop i ≠ c :: d :: v) :
    (seq [eq c, eq d]).Refuses ts call i := by
  by_cases first : (ts.drop i).head? = some c
  · obtain ⟨v, hv⟩ := List.head?_eq_some_iff.1 first
    have second : (ts.drop (i + 1)).head? ≠ some d := by
      intro head
      obtain ⟨w, hw⟩ := List.head?_eq_some_iff.1 head
      have behind : ts.drop (i + 1) = v := drop_add_length (a := [c]) hv
      exact h w (by rw [hv, ← behind, hw])
    exact (takes_char hv).seq_refuses (refuses_char second)
  · exact (refuses_char first).seq [eq d]

theorem takes_pair {c d : Char} {v : List Char} (h : ts.drop i = c :: d :: v) :
    (seq [eq c, eq d]).Takes ts call i (.token d) (i + 2) := by
  have second : (eq d).Takes ts call (i + 1) (.token d) (i + 2) :=
    takes_char (drop_add_length (a := [c]) h)
  exact (takes_char h).seq second

theorem spells_lineEnd : Spells ts call lineEnd lineEndCode fun _ => .token '\n' where
  takes {i e v} h := by
    cases e with
    | lf =>
      have noCr : (seq [cr, lf]).Refuses ts call i :=
        refuses_pair fun w hw => by simp [h, lineEndCode] at hw
      exact takes_choice [seq [cr, lf]] (by simpa using noCr) (takes_char h)
    | crlf => exact takes_choice [] (by simp) (takes_pair h)
  refuses {i} h := by
    have noPair : (seq [cr, lf]).Refuses ts call i := refuses_pair fun v hv => h ⟨.crlf, v, hv⟩
    have noLf : lf.Refuses ts call i := by
      refine refuses_char fun head => h ?_
      obtain ⟨v, hv⟩ := List.head?_eq_some_iff.1 head
      exact ⟨.lf, v, hv⟩
    exact refuses_choice (by simpa using ⟨noPair, noLf⟩)

/-- A parser of single characters matches the plain ones. -/
theorem spells_plain (name : String) {accepts : Char → Bool} (h : ∀ c, accepts c = isPlain s.char c) :
    Spells ts call (satisfy name accepts) (plainCode s) fun c => .token c.char where
  takes {i c v} hi := by
    refine takes_satisfy (t := c.char) ?_ ((h c.char).trans c.isPlain)
    rw [← List.head?_drop, hi]
    rfl
  refuses {i} hi := by
    refine refuses_satisfy fun c hc => ?_
    rw [← List.head?_drop] at hc
    obtain ⟨v, hv⟩ := List.head?_eq_some_iff.1 hc
    exact Bool.eq_false_iff.2 fun yes => hi ⟨⟨c, (h c).symm.trans yes⟩, v, hv⟩

theorem spells_quotedChar (hp : Spells ts call plain (plainCode s) fun c => .token c.char) :
    Spells ts call (quotedChar s.char plain) (quotedCode s) fun d => .token d.char where
  takes {i d v} h := by
    -- the alternatives before the one that matches look at a character that is not theirs
    have noPlain {c : Char} (hc : isPlain s.char c = false) {w : List Char} (hi : ts.drop i = c :: w) :
        plain.Refuses ts call i := hp.refuses (hi ▸ not_begins_plain hc w)
    have no {c d : Char} (hcd : c ≠ d) {w : List Char} (hi : ts.drop i = c :: w) :
        (eq d).Refuses ts call i := refuses_char (by simpa [hi] using hcd)
    cases d with
    | plain c => exact takes_choice [] (by simp) (hp.takes h)
    | separator =>
      refine takes_choice [plain] ?_ (takes_char h)
      simpa using noPlain (isPlain_separator _) h
    | cr =>
      refine takes_choice [plain, eq s.char] ?_ (takes_char h)
      simpa using ⟨noPlain (isPlain_cr _) h, no s.ne_cr.symm h⟩
    | lf =>
      refine takes_choice [plain, eq s.char, cr] ?_ (takes_char h)
      simpa using ⟨noPlain (isPlain_lf _) h, no s.ne_lf.symm h, no (c := '\n') (by decide) h⟩
    | quote =>
      refine takes_choice [plain, eq s.char, cr, lf] ?_ (takes_pair h)
      simpa using ⟨noPlain (isPlain_quote _) h, no s.ne_quote.symm h, no (by decide) h,
        no (by decide) h⟩
  refuses {i} h := by
    have no (d : QuotedChar s) (hd : (quotedCode s).text d = [d.char]) :
        (eq d.char).Refuses ts call i := by
      refine refuses_char fun head => h ?_
      obtain ⟨v, hv⟩ := List.head?_eq_some_iff.1 head
      exact ⟨d, v, by rw [hd, hv]; rfl⟩
    have noPlain : plain.Refuses ts call i :=
      hp.refuses fun ⟨c, v, hv⟩ => h ⟨.plain c, v, hv⟩
    have noPair : (seq [quoteMark, quoteMark]).Refuses ts call i :=
      refuses_pair fun v hv => h ⟨.quote, v, hv⟩
    exact refuses_choice (by simpa using ⟨noPlain, no .separator rfl, no .cr rfl, no .lf rfl, noPair⟩)

/-! ## 2. Fields -/

section Fields

variable (fits : ts.length ≤ unlimited)
  (hp : Spells ts call plain (plainCode s) fun c => .token c.char)

include fits hp

/-- What stands behind an opening quote mark, as far as it can be part of the field. -/
theorem takes_opened {ds : List (QuotedChar s)} {v : List Char}
    (h : ts.drop i = '"' :: ((quotedCode s).run.text ds ++ v)) (hv : ¬ (quotedCode s).Begins v) :
    ((many .any (quotedChar s.char plain)).preceded quoteMark).Takes ts call i
      (.list (ds.map fun d => .token d.char)) (i + 1 + ((quotedCode s).run.text ds).length) := by
  have inside := (spells_quotedChar hp).many fits (drop_add_length (a := ['"']) h) hv
  exact (takes_char h).seq inside

omit fits hp in
theorem drop_opened {ds : List (QuotedChar s)} {v : List Char}
    (h : ts.drop i = '"' :: ((quotedCode s).run.text ds ++ v)) :
    ts.drop (i + 1 + ((quotedCode s).run.text ds).length) = v :=
  drop_add_length (drop_add_length (a := ['"']) h)

theorem takes_quotedField {ds : List (QuotedChar s)} {v : List Char}
    (h : ts.drop i = (Field.quoted ds).text ++ v) (hv : v.head? ≠ some '"') :
    (quotedField s.char plain).Takes ts call i (.text (Field.quoted ds).content)
      (i + (Field.quoted ds).text.length) := by
  have h : ts.drop i = '"' :: ((quotedCode s).run.text ds ++ '"' :: v) := by
    simpa [Field.text] using h
  have opened := takes_opened fits hp h (not_begins_quoted hv)
  have row := TakesRow.cons opened (.cons (takes_char (drop_opened h)) (.nil _))
  have field : (quotedField s.char plain).Takes ts call i
      (joined (.list (ds.map fun d => .token d.char))) _ :=
    ((row.group "tuple").map firstItem).map joined
  have behind : i + (Field.quoted ds).text.length =
      i + 1 + ((quotedCode s).run.text ds).length + 1 := by
    simp only [Field.text, List.length_cons, List.length_append, List.length_nil]
    omega
  rw [joined_tokens] at field
  rwa [behind]

/-- A quoted field that is not closed is none. -/
theorem refuses_quotedField (h : ¬ Field.Opens s (ts.drop i)) :
    (quotedField s.char plain).Refuses ts call i := by
  by_cases first : (ts.drop i).head? = some '"'
  · obtain ⟨rest, hrest⟩ := List.head?_eq_some_iff.1 first
    obtain ⟨ds, v, rfl, stop⟩ := (quotedCode s).run.exists_cut rest
    refine (((takes_opened fits hp hrest stop).group_refuses "tuple"
      (refuses_char fun head => ?_)).map firstItem).map joined
    rw [drop_opened hrest] at head
    obtain ⟨w, rfl⟩ := List.head?_eq_some_iff.1 head
    refine h ⟨ds, w, by simp [hrest, Field.text], fun again => stop ?_⟩
    obtain ⟨w', rfl⟩ := List.head?_eq_some_iff.1 again
    exact ⟨.quote, w', rfl⟩
  · have noMark : quoteMark.Refuses ts call i := refuses_char first
    have opening := noMark.seq [many .any (quotedChar s.char plain)]
    exact ((opening.group "tuple" [quoteMark]).map firstItem).map joined

theorem takes_plainField {cs : List (PlainChar s)} {v : List Char}
    (h : ts.drop i = (Field.plain cs).text ++ v) (hv : ¬ (plainCode s).Begins v) :
    (plainField plain).Takes ts call i (.text (Field.plain cs).content)
      (i + (Field.plain cs).text.length) := by
  have run : (plainField plain).Takes ts call i (joined (.list (cs.map fun c => .token c.char))) _ :=
    (hp.many fits h hv).map joined
  rwa [joined_tokens] at run

theorem cuts_field : Cuts ts call (field s.char plain) (fieldCut s) fun x => .text x.content := by
  intro i x v h hv
  cases x with
  | quoted ds => exact takes_choice [] (by simp) (takes_quotedField fits hp h hv)
  | plain cs =>
    have closed : ¬ Field.Opens s (ts.drop i) := by
      cases cs with
      | nil => exact h ▸ hv.2 rfl
      | cons c cs =>
        have head : c.char ≠ '"' := c.ne_of_not_isPlain (isPlain_quote _)
        exact h ▸ Field.not_opens fun quote => head (Option.some.inj quote)
    refine takes_choice [quotedField s.char plain] ?_ (takes_plainField fits hp h hv.1)
    simpa using refuses_quotedField fits hp closed

/-! ## 3. Records and files -/

theorem cuts_record : Cuts ts call (record s.char plain) (recordCut s) fun r => r.fields.toValue := by
  have value : (fun r : Written.Record s => (r.fields.toValue : Value Char)) =
      fun r => .list (r.items.map fun x => .text x.content) := by
    funext r
    rw [Record.fields, Csv.Record.toValue, List.map_map]
    rfl
  rw [value]
  intro i r v h hv
  exact (Cuts.sepBy1 (cuts_field fits hp) (spells_separator s) fieldCut_stops_separator fits
    h hv).named "record"

omit fits hp in
/-- A table is put together from the values of its records. -/
theorem assemble_toValue (header : Option Csv.Record) (first : Csv.Record) (rest : List Csv.Record) :
    assemble [header.elim .none fun r => .some r.toValue, first.toValue,
      .list (rest.map Csv.Record.toValue)] = ⟨header, dropBlankTail (first :: rest)⟩ := by
  cases header <;> simp [assemble, Function.comp_def]

/-- The lines behind the header are the records, with or without a header. -/
theorem takes_lines {header : Bool} (before : Option Csv.Record) {d : Document s} {v : List Char}
    (hh : (headerLine header (record s.char plain)).Takes ts call o
      (before.elim .none fun r => .some r.toValue) i)
    (h : ts.drop i = d.text ++ v) (hv : (documentCut s).Stops d v) :
    (fileOf ⟨s.char, header⟩ plain).Takes ts call o
      (⟨before, dropBlankTail d.records⟩ : File).toValue (i + d.text.length) := by
  have parts : ts.drop i = (recordCut s).text d.first ++ ((recordCut s).moreText lineEndCode d.more ++ v) := by
    rw [h, ← List.append_assoc]
    rfl
  have first := cuts_record fits hp parts (Cut.stops_more recordCut_stops_lineEnd hv.1)
  have more := spells_lineEnd.many_seq (cuts_record fits hp) recordCut_stops_lineEnd fits
    (drop_add_length parts) hv.1 hv.2
  have last : lineEnd.Refuses ts call (i + d.text.length) :=
    spells_lineEnd.refuses (drop_add_length h ▸ hv.2)
  have length : i + d.text.length = i + ((recordCut s).text d.first).length +
      ((recordCut s).moreText lineEndCode d.more).length := by
    rw [Nat.add_assoc, ← List.length_append]
    rfl
  have values : (d.more.map fun m => m.2.fields.toValue) =
      (d.more.map fun m => m.2.fields).map (Csv.Record.toValue (α := Char)) := by
    rw [List.map_map]
    rfl
  have records : dropBlankTail d.records =
      dropBlankTail (d.first.fields :: d.more.map fun m => m.2.fields) := by
    rw [Document.records, Chain.items, List.map_cons, List.map_map]
    rfl
  rw [records, ← assemble_toValue, ← values]
  rw [← length] at more
  exact ((TakesRow.cons hh (.cons first (.cons more (.nil _)))).bind false
    (last.optional.map fun _ => _)).named "CSV file"

/-- **The parser of files takes the document that the text begins with.** -/
theorem takes_fileOf (header : Bool) {d : Document s} {v : List Char} (h : ts.drop o = d.text ++ v)
    (hv : (documentCut s).Stops d v) :
    (fileOf ⟨s.char, header⟩ plain).Takes ts call o (d.file header).toValue (o + d.text.length) := by
  have whole (hh : (headerLine header (record s.char plain)).Takes ts call o .none o) :
      (fileOf ⟨s.char, header⟩ plain).Takes ts call o
        (⟨none, dropBlankTail d.records⟩ : File).toValue (o + d.text.length) :=
    takes_lines fits hp none hh h hv
  have parts : ts.drop o =
      (recordCut s).text d.first ++ ((recordCut s).moreText lineEndCode d.more ++ v) := by
    rw [h, ← List.append_assoc]
    rfl
  have first := cuts_record fits hp parts (Cut.stops_more recordCut_stops_lineEnd hv.1)
  match header, d, whole with
  | false, _, whole => exact whole (takes_result .none o)
  | true, ⟨r, []⟩, whole =>
    have noEnd : lineEnd.Refuses ts call (o + ((recordCut s).text r).length) :=
      spells_lineEnd.refuses (drop_add_length parts ▸ hv.2)
    exact whole ((first.group_refuses "tuple" noEnd).map firstItem).optional
  | true, ⟨r, (e, r') :: more⟩, _ =>
    have line := drop_add_length parts
    rw [Cut.moreText_cons, List.append_assoc] at line
    have row := TakesRow.cons first (.cons (spells_lineEnd.takes line) (.nil _))
    have header : (headerLine true (record s.char plain)).Takes ts call o
        ((some r.fields).elim .none fun r => .some r.toValue) _ :=
      ((row.group "tuple").map firstItem).optional
    have rest := takes_lines fits hp (some r.fields) (d := ⟨r', more⟩) header (drop_add_length line) hv
    have length : o + (Document.text ⟨r, (e, r') :: more⟩).length =
        o + ((recordCut s).text r).length + (lineEndCode.text e).length +
          (Document.text ⟨r', more⟩).length := by
      rw [Document.text_cons, List.length_append, List.length_append, ← Nat.add_assoc, ← Nat.add_assoc]
      rfl
    rwa [← length] at rest

end Fields

end LazyPeg.Csv
