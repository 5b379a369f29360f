import LazyPeg.Parser.Derived
import LazyPeg.Proofs.Cut.Basic
import LazyPeg.Proofs.Reading.Answers

/-!
# Parsers that cut

A parser follows a code if it matches each of its words and fails where none begins
(`Parser.Spells`).  It follows a cut if it takes exactly the piece that the text begins with
(`Parser.Cuts`); as every text begins with one, such a parser never fails.  Repetitions of words cut
runs (`Spells.many`), and separated lists cut chains (`Cuts.sepBy1`).

A repetition counts what it has collected in a machine word, so the texts are those that have at most
`unlimited` tokens.
-/
namespace LazyPeg.Parser

variable {α δ ι : Type} [Token α] [DecidableEq α] {ts : List α}
  {call : RuleId → String → Nat → Reading α (Outcome α Nat)}

/-- A parser matches the words of a code and nothing else. -/
structure Spells (ts : List α) (call : RuleId → String → Nat → Reading α (Outcome α Nat))
    (q : Parser α) (k : Code δ α) (value : δ → Value α) : Prop where
  takes : ∀ {i : Nat} {d : δ} {v : List α}, ts.drop i = k.text d ++ v →
    q.Takes ts call i (value d) (i + (k.text d).length)
  refuses : ∀ {i : Nat}, ¬ k.Begins (ts.drop i) → q.Refuses ts call i

/-- A parser takes the piece that the text begins with. -/
def Cuts (ts : List α) (call : RuleId → String → Nat → Reading α (Outcome α Nat)) (q : Parser α)
    (c : Cut ι α) (value : ι → Value α) : Prop :=
  ∀ {i : Nat} {x : ι} {v : List α}, ts.drop i = c.text x ++ v → c.Stops x v →
    q.Takes ts call i (value x) (i + (c.text x).length)

omit [Token α] [DecidableEq α] in
/-- Behind what the text begins with stands the rest. -/
theorem drop_add_length {i : Nat} {a v : List α} (h : ts.drop i = a ++ v) :
    ts.drop (i + a.length) = v := by
  rw [← List.drop_drop, h, List.drop_left]

omit [Token α] [DecidableEq α] in
theorem length_le_of_drop {i : Nat} {a v : List α} (h : ts.drop i = a ++ v) :
    a.length ≤ ts.length := by
  have := congrArg List.length h
  simp only [List.length_drop, List.length_append] at this
  omega

/-- A list of matches within the tokens is no longer than they are. -/
theorem TakesMany.length_le {q : Parser α} {i : Nat} {vs : List (Value α)} {a v : List α}
    (h : TakesMany ts call q i vs (i + a.length)) (ha : ts.drop i = a ++ v) : vs.length ≤ ts.length := by
  have := h.add_length_le
  have := length_le_of_drop ha
  omega

/-! ## 1. Words -/

namespace Spells

variable {p q : Parser α} {k : Code δ α} {c : Cut ι α} {value : δ → Value α} {value' : ι → Value α}

/-- One match after the other takes a run of words. -/
theorem takesMany (h : Spells ts call q k value) {ds : List δ} {i : Nat} {v : List α}
    (hi : ts.drop i = ds.flatMap k.text ++ v) :
    TakesMany ts call q i (ds.map value) (i + (ds.flatMap k.text).length) := by
  induction ds generalizing i with
  | nil => exact .nil i
  | cons d ds ih =>
    rw [List.flatMap_cons, List.append_assoc] at hi
    have rest := ih (drop_add_length hi)
    rw [List.flatMap_cons, List.length_append, ← Nat.add_assoc]
    exact .cons (h.takes hi) (Nat.lt_add_of_pos_right (k.length_text_pos d)) rest

/-- **A repetition of words cuts runs.** -/
theorem many (h : Spells ts call q k value) (fits : ts.length ≤ unlimited) :
    Cuts ts call (many .any q) k.run fun ds => .list (ds.map value) := by
  intro i ds v hi hv
  have row := h.takesMany hi
  refine takes_many row (h.refuses ?_) (Nat.le_trans (row.length_le hi) fits)
  exact (drop_add_length hi).symm ▸ hv

/-- Words and pieces taken in turn, behind a piece that is not part of the row. -/
theorem takesMany_seq (hp : Spells ts call p k value) (hq : Cuts ts call q c value')
    (hs : ∀ x d v, c.Stops x (k.text d ++ v)) {x : ι} {more : List (δ × ι)} {i : Nat} {v : List α}
    (hi : ts.drop i = c.moreText k more ++ v) (hv : c.Stops (Chain.lastOf x more) v) :
    TakesMany ts call (seq [p, q]) i (more.map fun m => value' m.2)
      (i + (c.moreText k more).length) := by
  induction more generalizing x i with
  | nil => exact .nil i
  | cons m more ih =>
    obtain ⟨d, y⟩ := m
    rw [Cut.moreText_cons, List.append_assoc, List.append_assoc] at hi
    have word := hp.takes hi
    have piece := hq (drop_add_length hi) (Cut.stops_more hs hv)
    have rest := ih (x := y) (drop_add_length (drop_add_length hi)) hv
    rw [Cut.moreText_cons, List.length_append, List.length_append, ← Nat.add_assoc, ← Nat.add_assoc]
    have := k.length_text_pos d
    exact .cons (word.seq piece) (by omega) rest

/-- **A repetition of words and pieces cuts what follows the first piece of a chain.** -/
theorem many_seq (hp : Spells ts call p k value) (hq : Cuts ts call q c value')
    (hs : ∀ x d v, c.Stops x (k.text d ++ v)) (fits : ts.length ≤ unlimited) {x : ι}
    {more : List (δ × ι)} {i : Nat} {v : List α} (hi : ts.drop i = c.moreText k more ++ v)
    (hv : c.Stops (Chain.lastOf x more) v) (hk : ¬ k.Begins v) :
    (Parser.many .any (seq [p, q])).Takes ts call i (.list (more.map fun m => value' m.2))
      (i + (c.moreText k more).length) := by
  have row := hp.takesMany_seq hq hs hi hv
  refine takes_many row (.seq [q] (hp.refuses ?_)) (Nat.le_trans (row.length_le hi) fits)
  exact (drop_add_length hi).symm ▸ hk

end Spells

/-! ## 2. Pieces -/

namespace Cuts

variable {p q : Parser α} {k : Code δ α} {c : Cut ι α} {value : δ → Value α} {value' : ι → Value α}

/-- **A separated list cuts chains.** -/
theorem sepBy1 (hq : Cuts ts call q c value') (hp : Spells ts call p k value)
    (hs : ∀ x d v, c.Stops x (k.text d ++ v)) (fits : ts.length ≤ unlimited) :
    Cuts ts call (sepBy1 q p) (c.chain hs) fun ch => .list (ch.items.map value') := by
  intro i ch v hi ⟨hv, hk⟩
  have hi : ts.drop i = c.text ch.first ++ (c.moreText k ch.more ++ v) := by
    rw [hi, ← List.append_assoc]
    rfl
  have first := hq hi (Cut.stops_more hs hv)
  have more := hp.many_seq hq hs fits (drop_add_length hi) hv hk
  have all := first.sepBy1 more
  have value : value' ch.first :: ch.more.map (fun m => value' m.2) = ch.items.map value' := by
    simp only [Chain.items, List.map_cons, List.map_map, Function.comp_def]
  have behind : i + ((c.chain hs).text ch).length =
      i + (c.text ch.first).length + (c.moreText k ch.more).length := by
    rw [Nat.add_assoc, ← List.length_append]
    rfl
  rw [value, ← behind] at all
  exact all

end Cuts

end LazyPeg.Parser
