import LazyPeg.Proofs.Building.Nodes
import LazyPeg.Proofs.Reading.Anchored
import LazyPeg.Proofs.Session.Parse

/-!
# The places of results

Every result of a parse, a success or a failure, stands where some steps lead from the place of the parse
(`Session.parse_place`), and a failure without continuations and jumps stands at that very place.  So a
parser that has failed can be replaced by another one without going back first.
-/
namespace LazyPeg

namespace Description

variable {α : Type} [Token α] [DecidableEq α] {d : Description α} {ts : List α} {i j : Nat}
  {c : Course α (Outcome α Nat)}

/-- A description without continuations and jumps fails where it was started. -/
theorem Reads.place_of_failure (hb : .bind ∉ d.nodes) (hj : .jump ∉ d.nodes) (h : d.Reads ts i c)
    {reason : Reason} (hc : c.answer = .ok (.failure reason j)) : j = i := by
  obtain ⟨q, w, built, reads⟩ := h
  obtain ⟨hq, bodies⟩ := all_of_build built
  have steady (n : Parser.Node) (hn : Building.Fits [] d.nodes d.misused w n) : n.isSteady := by
    constructor <;> rintro rfl
    · exact hb hn
    · exact hj hn
  exact reads.place_of_failure (fun id body hbody => (bodies id body hbody).mono steady) (hq.mono steady) hc

end Description

namespace Session

variable {α : Type} [Token α] [DecidableEq α] {ds : List (Description α)} {s : Session α}
  {feeds : List (Feed α)} {forced : List Position} {place parser : Nat} {p : Position}
  {d : Description α}

/-- **Where results stand.**  The place of a result is reached from the place of the parse by moving on
some number of times, so its offset is not smaller.  If the description has no continuation and no jump,
a failure stands where the parse was started. -/
theorem parse_place (h : Reaches ds s feeds forced) (hp : s.position? place = some p)
    (hd : ds[parser]? = some d) (hl : d.isLocal) {n m : Nat} {r : Result α}
    {events : List (Event α Position)}
    (hr : (s.step (.parse place parser)).1 = .parsed n m r events) :
    (∃ k, (Medium.skip k s.store p).1 = r.place) ∧ p.offset ≤ r.place.offset ∧
      (.bind ∉ d.nodes → .jump ∉ d.nodes → r.isSuccess = false → r.place = p) := by
  obtain ⟨c, r', hc, ha, rfl, -⟩ := h.reads_of_parsed hp hd hl hr
  obtain ⟨q, w, -, reads⟩ := id hc
  have shows := h.shows hp
  obtain ⟨le, seen⟩ := reads.place_mem shows.le_length ha
  have reach := reads.reach_le shows.le_length
  have inside : r'.place ≤ (p.tokensOf feeds).length :=
    Nat.le_trans seen (Nat.max_le.2 ⟨shows.le_length, reach⟩)
  refine ⟨⟨r'.place - p.offset, ?_⟩, ?_, fun hb hj failed => ?_⟩
  · have walk := shows.skip (r'.place - p.offset)
    rw [Position.moveTo_offset, Nat.add_sub_cancel' le, Nat.min_eq_left inside] at walk
    rw [walk, Outcome.place_mapPlace]
  · rw [Outcome.place_mapPlace, (shows.forceTo reach seen).offset_moveTo]
    exact le
  · cases r' with
    | success v j => cases failed
    | failure reason j =>
      obtain rfl := hc.place_of_failure hb hj ha
      exact p.moveTo_offset

/-- Two letters in a row, or else a place before a third one. -/
def abOrC : Description Char := .choice [.seq [.eq 'a', .eq 'b'], .named "c" (.peek (.eq 'c'))]

/-- Both ways have looked at letters, and the failure stands where the parse was started. -/
theorem parse_place_abOrC :
    ∃ s feeds forced, Reaches [abOrC] s feeds forced ∧ s.position? 1 = some (.mark 0 1) ∧
      ∃ n m r events, (s.step (.parse 1 0)).1 = .parsed n m r events ∧ r.isSuccess = false ∧
        r.place = .mark 0 1 ∧ ∃ k, (Medium.skip k s.store (.mark 0 1)).1 = r.place := by
  have begun : Reaches [abOrC] _ [] [] := .begin rfl
  have moved := begun.after [.start (.feed (.items ['a', 'a', 'd'])), .tail 0 1]
  have described : [abOrC][0]? = some abOrC := rfl
  obtain ⟨walk, -, start⟩ :=
    @parse_place _ _ _ _ _ _ _ 1 0 (.mark 0 1) abOrC moved rfl described rfl _ _ _ _ rfl
  exact ⟨_, _, _, moved, rfl, _, _, _, _, rfl, rfl, start (by decide) (by decide) rfl, walk⟩

end Session

end LazyPeg
