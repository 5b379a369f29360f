import LazyPeg.Proofs.Csv.Parse
import LazyPeg.Proofs.Reading.Matched
import LazyPeg.Proofs.Simulation.Verdict

/-!
# Which texts are tables

Reading accepts exactly the texts that are written tables, and what it gives is what was written.  For
the parser of files takes the document that a text begins with, whatever the text is: the text is
accepted if nothing is left of it (`readsAs_iff`), and otherwise reported where the document ends
(`reports_iff`).  All that has to be known of the engine is that it reads the pattern of plain characters
as it is meant (`ReadsPlain`).

* §1 has the parser of files, for every separator.
* §2 is about every input: what reading it comes to is settled by its tokens (`readWith_of_reads`).
* §3 is about texts.  For these the separator has no other meaning in the grammar.
-/
namespace LazyPeg.Csv

open LazyPeg.Parser Written

variable {engine : Pattern.Engine} {s : Separator}

/-! ## 1. The parser of files -/

section
variable {config : Config}

theorem matchesOnly_eq {P : Char → Prop} {c : Char} (h : P c) : (eq c).MatchesOnly P := by
  intro t ht
  obtain rfl : t = c := by simpa using ht
  exact h

/-- The parser of files matches plain characters, separators, line breaks and quote marks. -/
theorem matchesOnly_fileOf (config : Config) {plain : Parser Char} {P : Char → Prop}
    (hp : plain.MatchesOnly P) (hs : P config.separator) (hc : P '\r') (hl : P '\n') (hq : P '"') :
    (fileOf config plain).MatchesOnly P := by
  have separator := matchesOnly_eq hs
  have cr := matchesOnly_eq hc
  have lf := matchesOnly_eq hl
  have quote := matchesOnly_eq hq
  have lineEnd : lineEnd.MatchesOnly P := ⟨⟨cr, lf, trivial⟩, lf, trivial⟩
  have quotedChar : (quotedChar config.separator plain).MatchesOnly P :=
    ⟨hp, separator, cr, lf, ⟨quote, quote, trivial⟩, trivial⟩
  have quotedField : (quotedField config.separator plain).MatchesOnly P :=
    ⟨⟨quote, quotedChar, trivial⟩, quote, trivial⟩
  have field : (field config.separator plain).MatchesOnly P := ⟨quotedField, hp, trivial⟩
  have record : (record config.separator plain).MatchesOnly P :=
    ⟨field, ⟨separator, field, trivial⟩, trivial⟩
  have header : (headerLine config.header (Csv.record config.separator plain)).MatchesOnly P := by
    unfold headerLine
    split
    · exact ⟨record, lineEnd, trivial⟩
    · trivial
  exact ⟨⟨header, record, ⟨lineEnd, record, trivial⟩, trivial⟩, fun _ => lineEnd⟩

/-- An engine reads the pattern of plain characters, and finds it in these alone. -/
def ReadsPlain (engine : Pattern.Engine) (separator : Char) : Prop :=
  ∃ regex, engine.new (Pattern.anchored (plainPattern engine separator)) = .ok regex ∧
    ∀ c, regex.isMatch c = isPlain separator c

/-- If there is a parser of files, it has the plain characters of the engine. -/
theorem file_eq_ok_iff {q : Parser Char} : file engine config = .ok q ↔
    ∃ regex, engine.new (Pattern.anchored (plainPattern engine config.separator)) = .ok regex ∧
      q = fileOf config (satisfy ("/" ++ plainPattern engine config.separator ++ "/") regex.isMatch) := by
  unfold file matching Pattern.Engine.compile
  cases engine.new (Pattern.anchored (plainPattern engine config.separator)) with
  | ok regex => simp [Except.map, eq_comm]
  | error message =>
    cases engine.new (plainPattern engine config.separator) <;> simp [Except.map]

/-- There is a parser of files for every separator with which plain characters are read. -/
theorem exists_file (config : Config) (reads : ReadsPlain engine config.separator) :
    ∃ name accepts, file engine config = .ok (fileOf config (satisfy name accepts)) ∧
      ∀ c, accepts c = isPlain config.separator c := by
  obtain ⟨regex, new, plain⟩ := reads
  exact ⟨_, _, file_eq_ok_iff.2 ⟨regex, new, rfl⟩, plain⟩

/-- What a parser of files matches if its plain characters, the separator, line breaks and quote marks
have some property. -/
theorem matchesOnly_of_file (reads : ReadsPlain engine config.separator) {q : Parser Char}
    (built : file engine config = .ok q) {P : Char → Prop} (hp : ∀ c, isPlain config.separator c → P c)
    (hs : P config.separator) (hc : P '\r') (hl : P '\n') (hq : P '"') : q.MatchesOnly P := by
  obtain ⟨name, accepts, built', plain⟩ := exists_file config reads
  obtain rfl := Except.ok.inj (built'.symm.trans built)
  exact matchesOnly_fileOf config (fun c hc => hp c ((plain c).symm.trans hc)) hs hc hl hq

/-- The parser of files calls no rules. -/
theorem matchesOnly_any {q : Parser Char} (built : file engine config = .ok q) :
    q.MatchesOnly fun _ => True := by
  obtain ⟨regex, -, rfl⟩ := file_eq_ok_iff.1 built
  exact matchesOnly_fileOf config (fun _ _ => trivial) trivial trivial trivial trivial

end

/-! ## 2. Every input -/

/-- **What reading an input comes to** is the verdict on what the parser of files does with its tokens.
For that the input is read as far as the parser looks, and the status is the one after that. -/
theorem readWith_of_reads {config : Config} {q : Parser Char} (built : file engine config = .ok q)
    (filename : String) (input : Input Char) {c : Course Char (Outcome Char Nat)} {r : Outcome Char Nat}
    (hc : q.Reads #[] input.tokens 0 c) (hr : c.answer = .ok r) :
    readWith engine config filename input = .ok
      ⟨.ok ((r.verdict input.tokens filename 0).map fun v => (File.ofValue? v).getD ⟨none, []⟩),
        ((Store.new.start input).2.forceTo (Store.new.start input).1 c.reach).status? 0⟩ := by
  let p := (Store.new.start input).1
  let w : World Char := ⟨(Store.new.start input).2, []⟩
  have start : p.offset = 0 := Store.new.offset_start input
  have shows : w.store.Shows p input.tokens p.offset := by
    have reached := (Store.new.reached_start input).shows
    rwa [Store.sequence_start] at reached
  have run := run_of_reads filename likeGrammars_of_none (Nat.le_refl _) (matchesOnly_any built).alike shows
    (start.symm ▸ hc)
  have ran : readWith engine config filename input = .ok
      ⟨((ExceptT.run (q.run #[] filename p)).run w).1.map
          (·.map fun v => (File.ofValue? v).getD ⟨none, []⟩),
        ((ExceptT.run (q.run #[] filename p)).run w).2.store.status? 0⟩ := by
    rw [readWith, built]
    rfl
  rw [ran, run, Course.answerWith, hr, start]
  rfl

/-- What is accepted was matched up to the end. -/
theorem exists_success {r : Outcome Char Nat} {ts : List Char} {filename : String}
    {f : Value Char → File} {table : File} (h : (r.verdict ts filename 0).map f = .ok table) :
    ∃ v, r = .success v ts.length := by
  rcases verdict : r.verdict ts filename 0 with e | v
  · rw [verdict] at h
    exact absurd h nofun
  · exact ⟨v, Outcome.verdict_eq_ok.1 verdict⟩

/-- On every input a parser of files comes to an outcome. -/
theorem exists_outcome {config : Config} {q : Parser Char} (built : file engine config = .ok q)
    (ts : List Char) : ∃ c r, q.Reads #[] ts 0 c ∧ c.answer = .ok r :=
  (matchesOnly_any built).exists_reads (Nat.zero_le ts.length)

/-- An input is accepted if it is a document as a whole.  Otherwise the end of the input is missed where
the document ends that the input begins with. -/
theorem readWith_outcome (reads : ReadsPlain engine s.char) (header : Bool) (filename : String)
    (input : Input Char)
    (fits : input.tokens.length ≤ unlimited) {d : Document s} {v : List Char}
    (h : input.tokens = d.text ++ v) (hv : (documentCut s).Stops d v) :
    ∃ r, readWith engine ⟨s.char, header⟩ filename input = .ok r ∧
      r.outcome = .ok (if v = [] then .ok (d.file header)
        else .error (.report input.tokens filename 0 d.text.length (.missing "EOS"))) := by
  obtain ⟨name, accepts, built, plain⟩ := exists_file ⟨s.char, header⟩ reads
  have takes : (fileOf ⟨s.char, header⟩ (satisfy name accepts)).Takes input.tokens
      (callDepth #[] input.tokens 0) 0 (d.file header).toValue (0 + d.text.length) :=
    takes_fileOf fits (spells_plain name plain) header h hv
  rw [Nat.zero_add] at takes
  obtain ⟨events, reach, taken⟩ := takes
  refine ⟨_, readWith_of_reads built filename input ⟨0, taken⟩ rfl, ?_⟩
  have length : d.text.length = input.tokens.length ↔ v = [] := by
    rw [h, List.length_append, ← List.length_eq_zero_iff]
    omega
  simp only [Outcome.verdict, length]
  split
  · simp [Except.map]
  · rfl

/-! ## 3. Texts -/

/-- A text is accepted and read as a table. -/
def ReadsAs (engine : Pattern.Engine) (config : Config) (filename text : String) (table : File) : Prop :=
  ∃ r, readWith engine config filename (.ofText text) = .ok r ∧ r.outcome = .ok (.ok table)

/-- A text is not accepted, and this is the report. -/
def Reports (engine : Pattern.Engine) (config : Config) (filename text : String) (e : Diagnostic) :
    Prop :=
  ∃ r, readWith engine config filename (.ofText text) = .ok r ∧ r.outcome = .ok (.error e)

/-- A text is read as one table at most. -/
theorem ReadsAs.unique {config : Config} {filename text : String} {table table' : File}
    (h : ReadsAs engine config filename text table) (h' : ReadsAs engine config filename text table') :
    table = table' := by
  obtain ⟨r, hr, accepted⟩ := h
  obtain ⟨r', hr', accepted'⟩ := h'
  obtain rfl : r = r' := Except.ok.inj (hr.symm.trans hr')
  simpa using accepted.symm.trans accepted'

/-- There is one report on a text at most. -/
theorem Reports.unique {config : Config} {filename text : String} {e e' : Diagnostic}
    (h : Reports engine config filename text e) (h' : Reports engine config filename text e') : e = e' := by
  obtain ⟨r, hr, rejected⟩ := h
  obtain ⟨r', hr', rejected'⟩ := h'
  obtain rfl : r = r' := Except.ok.inj (hr.symm.trans hr')
  simpa using rejected.symm.trans rejected'

/-- A text that is accepted is not reported. -/
theorem ReadsAs.not_reports {config : Config} {filename text : String} {table : File} {e : Diagnostic}
    (h : ReadsAs engine config filename text table) : ¬ Reports engine config filename text e := by
  intro h'
  obtain ⟨r, hr, accepted⟩ := h
  obtain ⟨r', hr', rejected⟩ := h'
  obtain rfl : r = r' := Except.ok.inj (hr.symm.trans hr')
  simp [accepted] at rejected

/-- A text that is accepted was matched as a whole, so all its characters have passed a test. -/
theorem ReadsAs.forall_mem {config : Config} {filename text : String} {table : File}
    (h : ReadsAs engine config filename text table) (reads : ReadsPlain engine config.separator)
    {P : Char → Prop} (hp : ∀ c, isPlain config.separator c → P c) (hs : P config.separator) (hc : P '\r')
    (hl : P '\n') (hq : P '"') : ∀ c ∈ text.toList, P c := by
  obtain ⟨name, accepts, built, -⟩ := exists_file config reads
  obtain ⟨c, r, course, answer⟩ := exists_outcome built text.toList
  obtain ⟨result, hresult, accepted⟩ := h
  have comes := readWith_of_reads built filename (.ofText text) course answer
  obtain rfl := Except.ok.inj (hresult.symm.trans comes)
  obtain ⟨v, rfl⟩ := exists_success (Except.ok.inj accepted)
  exact ((matchesOnly_of_file reads built hp hs hc hl hq).between course answer).forall_mem

section

variable (reads : ReadsPlain engine s.char) {header : Bool} {filename text : String}
  (fits : text.length ≤ unlimited)

include reads fits

/-- A text that is a document is accepted. -/
theorem readsAs_of_document (header : Bool) (filename : String) {d : Document s}
    (h : d.text = text.toList) : ReadsAs engine ⟨s.char, header⟩ filename text (d.file header) := by
  have whole : (Input.ofText text).tokens = d.text ++ [] := by
    rw [List.append_nil, h]
    rfl
  obtain ⟨r, hr, outcome⟩ :=
    readWith_outcome reads header filename (.ofText text) (text.length_toList ▸ fits) whole d.stops_nil
  exact ⟨r, hr, outcome⟩

/-- A text that goes on behind the document that it begins with is reported. -/
theorem reports_of_rest (header : Bool) (filename : String) {d : Document s} {v : List Char}
    (h : text.toList = d.text ++ v) (hv : (documentCut s).Stops d v) (left : v ≠ []) :
    Reports engine ⟨s.char, header⟩ filename text
      (.report text.toList filename 0 d.text.length (.missing "EOS")) := by
  obtain ⟨r, hr, outcome⟩ :=
    readWith_outcome reads header filename (.ofText text) (text.length_toList ▸ fits) h hv
  exact ⟨r, hr, outcome.trans (by rw [if_neg left]; rfl)⟩

/-- **Accepted texts are written tables.**  Reading accepts them all and nothing else, and it gives what
was written. -/
theorem readsAs_iff {table : File} :
    ReadsAs engine ⟨s.char, header⟩ filename text table ↔
      ∃ d : Document s, d.text = text.toList ∧ d.file header = table := by
  constructor
  · intro accepted
    rcases Document.exists_document (s := s) text.toList with ⟨d, h⟩ | ⟨d, v, h, hv, left⟩
    · exact ⟨d, h, (readsAs_of_document reads fits header filename h).unique accepted⟩
    · exact absurd (reports_of_rest reads fits header filename h hv left) accepted.not_reports
  · rintro ⟨d, h, rfl⟩
    exact readsAs_of_document reads fits header filename h

/-- **Other texts are reported.**  The report is that the end of the input is missed where the document
ends that the text begins with, and there is one such document only. -/
theorem reports_iff {e : Diagnostic} :
    Reports engine ⟨s.char, header⟩ filename text e ↔
      ∃ (d : Document s) (v : List Char), text.toList = d.text ++ v ∧ (documentCut s).Stops d v ∧ v ≠ [] ∧
        e = .report text.toList filename 0 d.text.length (.missing "EOS") := by
  constructor
  · intro rejected
    rcases Document.exists_document (s := s) text.toList with ⟨d, h⟩ | ⟨d, v, h, hv, left⟩
    · exact absurd rejected (readsAs_of_document reads fits header filename h).not_reports
    · exact ⟨d, v, h, hv, left, rejected.unique (reports_of_rest reads fits header filename h hv left)⟩
  · rintro ⟨d, v, h, hv, left, rfl⟩
    exact reports_of_rest reads fits header filename h hv left

end

end LazyPeg.Csv
