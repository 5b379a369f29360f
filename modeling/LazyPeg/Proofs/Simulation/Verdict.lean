import LazyPeg.Diagnostic
import LazyPeg.Proofs.Simulation.Terms

/-!
# The verdict on a whole input

A run parses, asks whether anything is left, and reports what went wrong.  All of it is settled by the
reading: `Outcome.verdict` is what a run makes of an outcome over a list of tokens, and it says where a
report points, in lines and columns (`Diagnostic.placeIn`).  **A run in a store gives the verdict of its
reading and reads no farther than the parse does** (`Parser.run_of_reads`), since a report only looks
back.
-/
namespace LazyPeg

variable {α : Type}

/-! ## 1. Lines and columns -/

namespace Diagnostic

/-- The line and column behind one more token. -/
def step (toChar : α → Char) : Nat × Nat → α → Nat × Nat
  | (line, column), t => if toChar t = '\n' then (line + 1, 1) else (line, column + 1)

/-- The line and column behind some tokens: one more than the line breaks, and one more than the tokens
behind the last of them. -/
def placeBehind (toChar : α → Char) (passed : List α) : Nat × Nat :=
  (1 + passed.countP (toChar · = '\n'), 1 + (passed.reverse.takeWhile (toChar · ≠ '\n')).length)

theorem foldl_step (toChar : α → Char) (passed : List α) :
    passed.foldl (step toChar) (1, 1) = placeBehind toChar passed := by
  induction passed using List.reverseRecOn with
  | nil => rfl
  | append_singleton passed t ih =>
    rw [List.foldl_concat, ih, placeBehind, placeBehind, List.countP_append, List.reverse_concat]
    by_cases ht : toChar t = '\n'
    · simp [step, ht, Nat.add_assoc]
    · simp [step, ht, Nat.add_comm]

end Diagnostic

namespace Parsing

variable {w : World α} {p : Position} {ts : List α} {i j : Nat}

/-- Counting lines on the way to a place that was reached reads nothing. -/
theorem run_countLines (toChar : α → Char) (hw : w.store.Shows p ts j) (distance : Nat)
    (le : i + distance ≤ j) (line column : Nat) :
    (ExceptT.run (countLines toChar distance (p.moveTo i) line column)).run w =
      (.ok (some (((ts.drop i).take distance).foldl (Diagnostic.step toChar) (line, column))), w) := by
  induction distance generalizing i line column with
  | zero => rfl
  | succ distance ih =>
    have le_length := hw.le_length
    have inside : i < ts.length := by omega
    have here := hw.forceTo (o := 0) (j := i) (Nat.zero_le _) (by omega)
    rw [hw.forceTo_eq_self (Nat.zero_le _)] at here
    have moved : w.store.tail (p.moveTo i) = (p.moveTo (i + 1), w.store) := by
      rw [here.tail inside, hw.forceTo_eq_self (by omega)]
    have rest := ih (i := i + 1) (by omega)
    rw [countLines, run_bind, run_head?, here.head?, List.getElem?_eq_getElem inside]
    simp only [run_bind, run_tail, moved]
    rw [List.drop_eq_getElem_cons inside, List.take_succ_cons, List.foldl_cons, Diagnostic.step]
    split
    next => exact rest (line + 1) 1
    next => exact rest line (column + 1)

end Parsing

/-! ## 2. Verdicts -/

variable [Token α]

/-- The report of a failure at offset `j` in the tokens from offset `i` on. -/
def Diagnostic.report (ts : List α) (filename : String) (i j : Nat) (reason : Reason) : Diagnostic where
  kind := reason.kind
  message := reason.message
  filename := filename
  offset := j
  lineColumn := (Token.chars? (α := α)).map fun toChar => placeBehind toChar ((ts.drop i).take (j - i))
  found := ts[j]?.map Token.quoted

/-- What a run makes of an outcome: the value, if nothing is left behind it, and a report otherwise. -/
def Outcome.verdict (ts : List α) (filename : String) (i : Nat) :
    Outcome α Nat → Except Diagnostic (Value α)
  | .success v j =>
    if j = ts.length then .ok v
    else .error (.report ts filename i j (.missing (Parser.endOfInput : Parser α).name))
  | .failure reason j => .error (.report ts filename i j reason)

/-- The verdict is a value if it was matched up to the end. -/
theorem Outcome.verdict_eq_ok {ts : List α} {filename : String} {i : Nat} {r : Outcome α Nat}
    {v : Value α} : r.verdict ts filename i = .ok v ↔ r = .success v ts.length := by
  cases r with
  | failure reason j => simp [verdict]
  | success v' j =>
    by_cases last : j = ts.length
    · simp [verdict, last]
    · simp [verdict, last]

theorem Parsing.run_report {w : World α} {p : Position} {ts : List α} {j : Nat} (filename : String)
    (hw : w.store.Shows p ts j) (le : p.offset ≤ j) (reason : Reason) :
    (ExceptT.run (report filename p (p.moveTo j) reason)).run w =
      (.ok (.report ts filename p.offset j reason), w) := by
  rw [report, run_bind, run_head?, hw.head?]
  simp only [run_bind]
  have counted : (ExceptT.run (lineColumn? p (p.moveTo j))).run w =
      (.ok ((Token.chars? (α := α)).map fun toChar =>
        Diagnostic.placeBehind toChar ((ts.drop p.offset).take (j - p.offset))), w) := by
    unfold lineColumn?
    cases Token.chars? (α := α) with
    | none => rfl
    | some toChar =>
      have run := run_countLines (i := p.offset) toChar hw (j - p.offset) (by omega) 1 1
      rw [Position.moveTo_offset, Diagnostic.foldl_step] at run
      simp only [run_bind, run_offset, hw.offset_moveTo]
      exact run
  rw [counted]
  simp only [run_offset, hw.offset_moveTo]
  rfl

/-! ## 3. Runs -/

namespace Parser

variable [DecidableEq α] {rules : RuleId → RuleId → Prop} {grammar grammar' : Grammar α} {q q' : Parser α}
  {w : World α} {p : Position} {ts : List α}


/-- **A run gives the verdict of its reading.** -/
theorem run_of_reads (filename : String) (hg : LikeGrammars rules grammar grammar')
    (hsize : grammar'.size ≤ grammar.size) (h : Alike rules q q') (hw : w.store.Shows p ts p.offset)
    {c : Course α (Outcome α Nat)} (hc : Reads grammar' ts q' p.offset c) :
    (ExceptT.run (q.run grammar filename p)).run w =
      (c.answerWith (Outcome.verdict ts filename p.offset), w.follow p c) := by
  have parsed := parse_of_reads hg hsize h hw hc
  rw [Position.moveTo_offset] at parsed
  rw [run, Parsing.run_bind, parsed]
  cases hr : c.answer with
  | error name => simp only [Course.answerWith, hr]
  | ok r =>
    obtain ⟨le, seen⟩ := hc.place_mem hw.le_length hr
    have behind : (w.follow p c).store.Shows p ts r.place := hw.forceTo (hc.reach_le hw.le_length) seen
    simp only [Course.answerWith, hr]
    cases r with
    | failure reason j =>
      have reported := Parsing.run_report filename (j := j) behind le reason
      simp only [Outcome.mapPlace, Parsing.run_bind, reported]
      rfl
    | success v j =>
      have looked : (w.follow p c).store.head? (p.moveTo j) = ts[j]? := behind.head?
      have le_length : j ≤ ts.length := behind.le_length
      simp only [Outcome.mapPlace, Outcome.verdict]
      rw [Parsing.run_bind, Parsing.run_head?, looked]
      rcases Nat.lt_or_eq_of_le le_length with more | last
      · have reported := Parsing.run_report filename (j := j) behind le
          (.missing (endOfInput : Parser α).name)
        rw [List.getElem?_eq_getElem more, if_neg (Nat.ne_of_lt more)]
        simp only [Parsing.run_bind, reported]
        rfl
      · rw [List.getElem?_eq_none (Nat.le_of_eq last.symm), if_pos last]
        rfl

/-- A run whose reading does not end. -/
theorem run_endless (filename : String) (hg : LikeGrammars rules grammar grammar') (h : Alike rules q q')
    (hw : w.store.Shows p ts p.offset) (hc : ∀ c, ¬ Reads grammar' ts q' p.offset c) :
    ((ExceptT.run (q.run grammar filename p)).run w).1 = .error .endless := by
  have parsed := parse_endless hg h hw hc
  rw [Position.moveTo_offset] at parsed
  rw [run, Parsing.run_bind]
  rcases hr : (ExceptT.run (q.parse grammar p)).run w with ⟨why | r, w'⟩ <;> rw [hr] at parsed
  · exact congrArg Except.error (Except.error.inj parsed)
  · exact absurd parsed nofun

end Parser

end LazyPeg
