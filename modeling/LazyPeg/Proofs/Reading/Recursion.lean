import LazyPeg.Proofs.Reading.Splitting

/-!
# Recursion and iteration

A rule that matches a parser and then itself, or else nothing, does what a repetition of the parser does.
Its value is a tuple of the first match and of the value of the rest (`nestTuples`), where the repetition
has the list of all matches.

At a depth that is enough a rule is read as its body is (`read_rule`).  So a rule with such a body is read
as one match and the rule behind it (`read_recursion_step`).  This is the equation of the loop, as far as the
parser moves on; by induction on the tokens that are left, the two are the same reading, with the same
events and the same reach (`read_recursion`).
-/
namespace LazyPeg.Parser

variable {α : Type}

/-- The items one in another, each in a tuple with those behind it. -/
def nestTuples (last : Value α) (items : List (Value α)) : Value α :=
  items.foldr (fun v rest => .tuple [v, rest]) last

/-- A list, one item in another. -/
def nestItems (last : Value α) (v : Value α) : Value α :=
  match v with
  | .list items => nestTuples last items
  | v => v

/-- Match a parser and then a rule, or else nothing. -/
def orNothing (q : Parser α) (id : RuleId) (name : String) (last : Value α) : Parser α :=
  choice [tuple [q, rule id name], result last]

variable [Token α] [DecidableEq α] {grammar : Grammar α} {ts : List α} {q : Parser α} {id : RuleId}
  {name : String} {last : Value α} {i depth depth' : Nat}

/-- Depths that are enough make no difference. -/
theorem readDepth_eq (enough : grammar.size * (ts.length + 1) ≤ depth)
    (enough' : grammar.size * (ts.length + 1) ≤ depth') (hi : i ≤ ts.length) :
    q.readDepth grammar ts depth i = q.readDepth grammar ts depth' i := by
  have reads (c : Course α (Outcome α Nat)) :
      q.readDepth grammar ts depth i = .ended c ↔ q.readDepth grammar ts depth' i = .ended c := by
    rw [← reads_iff_readDepth enough q hi, ← reads_iff_readDepth enough' q hi]
  cases h : q.readDepth grammar ts depth i with
  | ended c => exact ((reads c).1 h).symm
  | endless =>
    cases h' : q.readDepth grammar ts depth' i with
    | endless => rfl
    | ended c => cases h.symm.trans ((reads c).2 h')

/-- A rule is read as its body is. -/
theorem read_rule {body : Parser α} (defined : (grammar[id]?).join = some body)
    (enough : grammar.size * (ts.length + 1) ≤ depth) (hi : i ≤ ts.length) :
    (rule id name).readDepth grammar ts depth i = body.readDepth grammar ts depth i := by
  rw [readDepth_eq enough (Nat.le_succ_of_le enough) hi]
  simp only [readDepth, read, callDepth, defined]

/-- One step of the recursion. -/
theorem read_recursion_step (defined : (grammar[id]?).join = some (orNothing q id name last))
    (enough : grammar.size * (ts.length + 1) ≤ depth) (hi : i ≤ ts.length) :
    (rule id name).readDepth grammar ts depth i = (do
      match ← q.readDepth grammar ts depth i with
      | .failure .. => return .success last i
      | .success v j =>
        match ← (rule id name).readDepth grammar ts depth j with
        | .failure .. => return .success last i
        | .success w k => return .success (.tuple [v, w]) k) := by
  rw [read_rule defined enough hi, orNothing, readDepth, read, readFirst, read_tuple_pair]
  simp only [Reading.bind_assoc]
  refine Reading.bind_congr_of_gives fun r _ => ?_
  cases r with
  | failure reason j => simp only [Reading.pure_bind, readFirst, read]
  | success v j =>
    simp only [Reading.bind_assoc]
    refine Reading.bind_congr_of_gives fun r' _ => ?_
    cases r' with
    | failure reason k => simp only [Reading.pure_bind, readFirst, read]
    | success w k => simp only [Reading.pure_bind]

/-- **The recursion is the loop**, as long as there is room for a match of each token and one more. -/
theorem read_recursion (defined : (grammar[id]?).join = some (orNothing q id name last))
    (consumes : q.Consumes grammar) (enough : grammar.size * (ts.length + 1) ≤ depth) {room : Nat}
    (hi : i ≤ ts.length) (fits : ts.length < i + room) :
    (rule id name).readDepth grammar ts depth i =
      Reading.repeated (q.readDepth grammar ts depth) room 0 i >>= fun row =>
        pure (.success (nestTuples last row.1) row.2) := by
  have moves : Reading.Moves ts (q.readDepth grammar ts depth) := consumes.moves depth
  induction room generalizing i with
  | zero => omega
  | succ room ih =>
    rw [read_recursion_step defined enough hi, Reading.repeated_succ moves hi, Reading.bind_assoc]
    refine Reading.bind_congr_of_gives fun r hr => ?_
    cases r with
    | failure reason j => exact (Reading.pure_bind _ _).symm
    | success v j =>
      obtain ⟨on, inside⟩ := moves i hi v j hr
      simp only [ih inside (show ts.length < j + room by omega), Reading.bind_assoc, Reading.pure_bind]
      rfl

/-- **A rule that repeats a parser by recursion has the courses of its repetition**, but for the shape of
the value. -/
theorem reads_recursion_iff (defined : (grammar[id]?).join = some (orNothing q id name last))
    (consumes : q.Consumes grammar) (hi : i ≤ ts.length) (fits : ts.length < i + unlimited)
    {c : Course α (Outcome α Nat)} :
    (rule id name).Reads grammar ts i c ↔ ∃ d, (many .any q).Reads grammar ts i d ∧
      c = { d with answer := d.answer.map (Outcome.mapValue (nestItems last)) } := by
  have enough := Nat.le_refl (grammar.size * (ts.length + 1))
  have same : (rule id name).readDepth grammar ts (grammar.size * (ts.length + 1)) i =
      (map (nestItems last) (many .any q)).readDepth grammar ts (grammar.size * (ts.length + 1)) i := by
    rw [read_recursion defined consumes enough hi fits, readDepth, read, read, Reading.bind_assoc]
    exact Reading.bind_congr_of_gives fun row _ => (Reading.pure_bind _ _).symm
  rw [← reads_map_iff, reads_iff_readDepth enough _ hi, reads_iff_readDepth enough _ hi, same]

/-- A repetition without bounds of its own answers nothing but lists. -/
theorem exists_items_of_answers (hi : i ≤ ts.length) {r : Outcome α Nat}
    (h : (many .any q).Answers grammar ts i r) : ∃ items k, r = .success (.list items) k := by
  obtain ⟨items, k, -, same⟩ := gives_many_any.1 ((answers_iff_gives (Nat.le_refl _) hi).1 h)
  exact ⟨items, k, same⟩

/-- It answers if the parser comes to an outcome from its start on. -/
theorem exists_matches_many_of_decides (hi : i ≤ ts.length)
    (h : ∀ j, i ≤ j → j ≤ ts.length → q.Decides grammar ts j) :
    ∃ items k, (many .any q).Matches grammar ts i (.list items) k := by
  obtain ⟨offsets, values, k, rfl, repeats⟩ :=
    exists_repeats_of_decides hi h Repetition.any.least Repetition.any.most
  obtain ⟨tries, reach, -, reads⟩ := repeats.reads_many hi
  exact ⟨_, _, _, reads, congrArg Except.ok (if_pos (Nat.zero_le k))⟩

/-- **Where the repetition has a list, the rule has the items of the list one in another**, and nothing
else is answered by the rule. -/
theorem answers_recursion_iff (defined : (grammar[id]?).join = some (orNothing q id name last))
    (consumes : q.Consumes grammar) (hi : i ≤ ts.length) (fits : ts.length < i + unlimited)
    {r : Outcome α Nat} :
    (rule id name).Answers grammar ts i r ↔ ∃ items k,
      (many .any q).Matches grammar ts i (.list items) k ∧ r = .success (nestTuples last items) k := by
  have courses : (rule id name).Answers grammar ts i r ↔
      (map (nestItems last) (many .any q)).Answers grammar ts i r := by
    simp only [Answers, reads_map_iff, reads_recursion_iff defined consumes hi fits]
  rw [courses, answers_map_iff]
  constructor
  · rintro ⟨r', answer, rfl⟩
    obtain ⟨items, k, rfl⟩ := exists_items_of_answers hi answer
    exact ⟨items, k, answer, rfl⟩
  · rintro ⟨items, k, matched, rfl⟩
    exact ⟨_, matched, rfl⟩

end LazyPeg.Parser
