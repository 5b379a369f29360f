/-!
# Cutting texts

A grammar without choices to guess reads a text from the left: it cuts a piece off the front, and
where the piece ends is settled by what follows it.  A `Cut` is such a way of reading.  Every text
begins with a piece at which it stops (`exists_cut`), and with one only (`unique`); so a text that is a
piece as a whole is so in one way.

The smallest pieces are the words of a `Code`, none of which begins with another.  From them larger
pieces are put together:

* §2, a run of words (`Code.run`), which stops where no word begins;
* §3, a chain of pieces with a word between two of them (`Cut.chain`), which stops where the last piece
  stops and no word begins.  All that it needs is that a word ends every piece before it.
-/
namespace LazyPeg

variable {α δ ι : Type}

/-! ## 1. Words and pieces -/

/-- Words, none of which is empty or begins with another. -/
structure Code (δ α : Type) where
  text : δ → List α
  text_ne_nil : ∀ d, text d ≠ []
  unique : ∀ {d d' : δ} {v v' : List α}, text d ++ v = text d' ++ v' → d = d'

/-- A text begins with a word. -/
def Code.Begins (k : Code δ α) (cs : List α) : Prop := ∃ d v, cs = k.text d ++ v

/-- A way to cut pieces off the front of texts.  `Stops x v` says that the piece `x` ends where the
text goes on with `v`. -/
structure Cut (ι α : Type) where
  text : ι → List α
  Stops : ι → List α → Prop
  exists_cut : ∀ cs, ∃ x v, cs = text x ++ v ∧ Stops x v
  unique : ∀ {x x' : ι} {v v' : List α},
    text x ++ v = text x' ++ v' → Stops x v → Stops x' v' → x = x'

/-- What is left of a text is the same whichever way it is cut. -/
theorem Cut.unique_rest (c : Cut ι α) {x x' : ι} {v v' : List α} (h : c.text x ++ v = c.text x' ++ v')
    (hs : c.Stops x v) (hs' : c.Stops x' v') : x = x' ∧ v = v' := by
  obtain rfl := c.unique h hs hs'
  exact ⟨rfl, List.append_cancel_left h⟩

theorem Code.begins_text (k : Code δ α) (d : δ) (v : List α) : k.Begins (k.text d ++ v) := ⟨d, v, rfl⟩

theorem Code.not_begins_nil (k : Code δ α) : ¬ k.Begins [] := by
  rintro ⟨d, v, h⟩
  exact k.text_ne_nil d (List.append_eq_nil_iff.1 h.symm).1

theorem Code.length_text_pos (k : Code δ α) (d : δ) : 0 < (k.text d).length :=
  List.length_pos_iff.2 (k.text_ne_nil d)

/-! ## 2. Runs -/

namespace Code

variable (k : Code δ α)

theorem exists_run (cs : List α) : ∃ (ds : List δ) (v : List α), cs = ds.flatMap k.text ++ v ∧ ¬ k.Begins v := by
  induction hn : cs.length using Nat.strongRecOn generalizing cs with
  | ind n ih =>
    by_cases h : k.Begins cs
    · obtain ⟨d, rest, rfl⟩ := h
      have := k.length_text_pos d
      obtain ⟨ds, v, rfl, stop⟩ := ih rest.length (by simp only [← hn, List.length_append]; omega) rest rfl
      exact ⟨d :: ds, v, by simp only [List.flatMap_cons, List.append_assoc], stop⟩
    · exact ⟨[], cs, rfl, h⟩

theorem run_unique {ds ds' : List δ} {v v' : List α}
    (h : ds.flatMap k.text ++ v = ds'.flatMap k.text ++ v') (hv : ¬ k.Begins v) (hv' : ¬ k.Begins v') :
    ds = ds' := by
  induction ds generalizing ds' with
  | nil =>
    cases ds' with
    | nil => rfl
    | cons d' ds' =>
      refine absurd ?_ hv
      rw [show v = _ from h, List.flatMap_cons, List.append_assoc]
      exact k.begins_text d' _
  | cons d ds ih =>
    rw [List.flatMap_cons, List.append_assoc] at h
    cases ds' with
    | nil =>
      refine absurd ?_ hv'
      rw [show v' = _ from h.symm]
      exact k.begins_text d _
    | cons d' ds' =>
      rw [List.flatMap_cons, List.append_assoc] at h
      obtain rfl := k.unique h
      rw [ih (List.append_cancel_left h)]

/-- As many words as there are. -/
def run : Cut (List δ) α where
  text ds := ds.flatMap k.text
  Stops _ v := ¬ k.Begins v
  exists_cut := k.exists_run
  unique := k.run_unique

end Code

/-! ## 3. Chains -/

/-- One or more pieces with something between two of them. -/
structure Chain (δ ι : Type) where
  first : ι
  more : List (δ × ι)
  deriving DecidableEq

namespace Chain

/-- The pieces of a chain. -/
def items (ch : Chain δ ι) : List ι := ch.first :: ch.more.map Prod.snd

/-- The last of the pieces that begin with `x`. -/
def lastOf : ι → List (δ × ι) → ι
  | x, [] => x
  | _, (_, y) :: more => lastOf y more

/-- The last piece of a chain. -/
def last (ch : Chain δ ι) : ι := lastOf ch.first ch.more

/-- What a chain is written as, given how its pieces and the words between them are written. -/
def text (piece : ι → List α) (word : δ → List α) (ch : Chain δ ι) : List α :=
  piece ch.first ++ ch.more.flatMap fun m => word m.1 ++ piece m.2

/-- A chain can be rebuilt from other pieces if each of its pieces can. -/
theorem exists_rebuilt {κ β : Type} {piece : ι → List α} {piece' : κ → List α} {value : ι → β}
    {value' : κ → β} (word : δ → List α) (ch : Chain δ ι)
    (h : ∀ x ∈ ch.items, ∃ y, piece' y = piece x ∧ value' y = value x) :
    ∃ ch' : Chain δ κ, ch'.text piece' word = ch.text piece word ∧
      ch'.items.map value' = ch.items.map value := by
  obtain ⟨x, more⟩ := ch
  induction more generalizing x with
  | nil =>
    obtain ⟨y, hp, hv⟩ := h x (List.mem_singleton_self x)
    exact ⟨⟨y, []⟩, by simp [text, hp], by simp [items, hv]⟩
  | cons m more ih =>
    obtain ⟨y, hp, hv⟩ := h x List.mem_cons_self
    obtain ⟨⟨z, rest⟩, htext, hitems⟩ := ih m.2 fun x hx => h x (List.mem_cons_of_mem _ hx)
    refine ⟨⟨y, (m.1, z) :: rest⟩, ?_, ?_⟩
    · simp only [text, List.flatMap_cons, hp, List.append_assoc] at htext ⊢
      rw [htext]
    · simp only [items, List.map_cons, hv] at hitems ⊢
      rw [hitems]

end Chain

namespace Cut

variable (c : Cut ι α) (k : Code δ α)

/-- The text of a chain behind its first piece. -/
def moreText (more : List (δ × ι)) : List α := more.flatMap fun m => k.text m.1 ++ c.text m.2

variable {c k}

@[simp] theorem moreText_nil : c.moreText k [] = [] := rfl

@[simp] theorem moreText_cons (d : δ) (x : ι) (more : List (δ × ι)) :
    c.moreText k ((d, x) :: more) = k.text d ++ (c.text x ++ c.moreText k more) := by
  simp only [moreText, List.flatMap_cons, List.append_assoc]

@[simp] theorem moreText_append (more more' : List (δ × ι)) :
    c.moreText k (more ++ more') = c.moreText k more ++ c.moreText k more' := by
  simp only [moreText, List.flatMap_append]

variable (h : ∀ x d v, c.Stops x (k.text d ++ v))

include h in
/-- In a chain every piece stops: before a word, or where the chain stops. -/
theorem stops_more {x : ι} {more : List (δ × ι)} {v : List α} (hv : c.Stops (Chain.lastOf x more) v) :
    c.Stops x (c.moreText k more ++ v) := by
  cases more with
  | nil => exact hv
  | cons m more =>
    rw [show m = (m.1, m.2) from rfl, moreText_cons, List.append_assoc]
    exact h x m.1 _

variable (c k) in
theorem exists_chain (cs : List α) :
    ∃ x more v, cs = c.text x ++ (c.moreText k more ++ v) ∧
      c.Stops (Chain.lastOf x more) v ∧ ¬ k.Begins v := by
  induction hn : cs.length using Nat.strongRecOn generalizing cs with
  | ind n ih =>
    obtain ⟨x, v, rfl, stop⟩ := c.exists_cut cs
    by_cases hv : k.Begins v
    · obtain ⟨d, rest, rfl⟩ := hv
      have := k.length_text_pos d
      obtain ⟨y, more, v, rfl, stops⟩ :=
        ih rest.length (by simp only [← hn, List.length_append]; omega) rest rfl
      exact ⟨x, (d, y) :: more, v, by simp only [moreText_cons, List.append_assoc], stops⟩
    · exact ⟨x, [], v, rfl, stop, hv⟩

include h in
theorem chain_unique {x x' : ι} {more more' : List (δ × ι)} {v v' : List α}
    (ht : c.text x ++ (c.moreText k more ++ v) = c.text x' ++ (c.moreText k more' ++ v'))
    (hv : c.Stops (Chain.lastOf x more) v ∧ ¬ k.Begins v)
    (hv' : c.Stops (Chain.lastOf x' more') v' ∧ ¬ k.Begins v') : x = x' ∧ more = more' := by
  induction more generalizing x x' more' with
  | nil =>
    obtain ⟨rfl, rest⟩ := c.unique_rest ht (stops_more h hv.1) (stops_more h hv'.1)
    cases more' with
    | nil => exact ⟨rfl, rfl⟩
    | cons m' more' =>
      refine absurd ?_ hv.2
      rw [show v = _ from rest, show m' = (m'.1, m'.2) from rfl, moreText_cons, List.append_assoc]
      exact k.begins_text m'.1 _
  | cons m more ih =>
    obtain ⟨d, y⟩ := m
    obtain ⟨rfl, rest⟩ := c.unique_rest ht (stops_more h hv.1) (stops_more h hv'.1)
    rw [moreText_cons, List.append_assoc, List.append_assoc] at rest
    cases more' with
    | nil =>
      refine absurd ?_ hv'.2
      rw [show v' = _ from rest.symm]
      exact k.begins_text d _
    | cons m' more' =>
      obtain ⟨d', y'⟩ := m'
      rw [moreText_cons, List.append_assoc, List.append_assoc] at rest
      obtain rfl := k.unique rest
      obtain ⟨rfl, rfl⟩ := ih (List.append_cancel_left rest) hv hv'
      exact ⟨rfl, rfl⟩

/-- Pieces with a word between two of them, as many as there are. -/
def chain : Cut (Chain δ ι) α where
  text ch := c.text ch.first ++ c.moreText k ch.more
  Stops ch v := c.Stops ch.last v ∧ ¬ k.Begins v
  exists_cut cs := by
    obtain ⟨x, more, v, hcs, stops⟩ := c.exists_chain k cs
    exact ⟨⟨x, more⟩, v, by rw [hcs, List.append_assoc], stops⟩
  unique ht hv hv' := by
    rw [List.append_assoc, List.append_assoc] at ht
    obtain ⟨first, more⟩ := chain_unique h ht hv hv'
    exact (Chain.mk.injEq ..).mpr ⟨first, more⟩

end Cut

end LazyPeg
