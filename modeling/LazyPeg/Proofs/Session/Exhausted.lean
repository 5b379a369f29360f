import LazyPeg.Proofs.Reading.Exhausted
import LazyPeg.Proofs.Session.Places
import LazyPeg.Proofs.Session.Run

/-!
# Who says that the input has ended

An unexpected failure is the one that tells a caller that nothing else can match, so it must not come from
a place where a token stands.  **Every description without negations and jumps keeps to that**
(`Session.unexpected_at_end`): whatever its continuations, lookahead and rules do, an unexpected failure
has the message for the end of the input and stands there, and a run reports that it has found the end.

Such a description is local (`Description.isLocal_of_nodes`): only jumps have sequences of their own.
-/
namespace LazyPeg

/-! ## 1. Descriptions -/

namespace Description

variable {α : Type}

mutual

theorem isLocal_of_within :
    (d : Description α) → (∀ e ∈ d.within, .jump ∉ e.topNodes) → d.isLocal = true
  | .jump .., h => absurd List.mem_cons_self (h _ List.mem_cons_self)
  | .constant _ of, h => isLocal_of_within of (List.forall_mem_cons.1 h).2
  | .named _ of, h => isLocal_of_within of (List.forall_mem_cons.1 h).2
  | .boxed of, h => isLocal_of_within of (List.forall_mem_cons.1 h).2
  | .change _ of, h => isLocal_of_within of (List.forall_mem_cons.1 h).2
  | .seq of, h => allLocal_of_within of (List.forall_mem_cons.1 h).2
  | .tuple of, h => allLocal_of_within of (List.forall_mem_cons.1 h).2
  | .choice of, h => allLocal_of_within of (List.forall_mem_cons.1 h).2
  | .pair _ of other, h => by
    obtain ⟨left, right⟩ := List.forall_mem_append.1 (List.forall_mem_cons.1 h).2
    exact Bool.and_eq_true_iff.2 ⟨isLocal_of_within of left, isLocal_of_within other right⟩
  | .optional of, h => isLocal_of_within of (List.forall_mem_cons.1 h).2
  | .many _ of, h => isLocal_of_within of (List.forall_mem_cons.1 h).2
  | .peek of, h => isLocal_of_within of (List.forall_mem_cons.1 h).2
  | .not of, h => isLocal_of_within of (List.forall_mem_cons.1 h).2
  | .bind _ of continuation, h => by
    obtain ⟨row, rest⟩ := List.forall_mem_append.1 (List.forall_mem_cons.1 h).2
    exact Bool.and_eq_true_iff.2 ⟨allLocal_of_within of row, continuationLocal_of_within continuation rest⟩
  | .observed _ of, h => isLocal_of_within of (List.forall_mem_cons.1 h).2
  | .traced of, h => isLocal_of_within of (List.forall_mem_cons.1 h).2
  | .recursive _ _ body, h => isLocal_of_within body (List.forall_mem_cons.1 h).2
  | .any, _ | .endOfInput, _ | .offset, _ | .eq _, _ | .neq _, _ | .oneOf _, _ | .between .., _
  | .token _, _ | .pattern .., _ | .expected _, _ | .result _, _ | .call _, _ => rfl

theorem allLocal_of_within :
    (ds : List (Description α)) → (∀ e ∈ allWithin ds, .jump ∉ e.topNodes) → allLocal ds = true
  | [], _ => rfl
  | d :: ds, h => by
    obtain ⟨first, rest⟩ := List.forall_mem_append.1 h
    exact Bool.and_eq_true_iff.2 ⟨isLocal_of_within d first, allLocal_of_within ds rest⟩

theorem casesLocal_of_within :
    (cases : List (α × Description α)) → (∀ e ∈ casesWithin cases, .jump ∉ e.topNodes) →
      casesLocal cases = true
  | [], _ => rfl
  | (_, d) :: cases, h => by
    obtain ⟨first, rest⟩ := List.forall_mem_append.1 h
    exact Bool.and_eq_true_iff.2 ⟨isLocal_of_within d first, casesLocal_of_within cases rest⟩

theorem continuationLocal_of_within :
    (k : Continuation α) → (∀ e ∈ continuationWithin k, .jump ∉ e.topNodes) →
      continuationLocal k = true
  | .firstToken .., _ | .tokens _, _ | .values, _ => rfl
  | .repeated _ of, h => isLocal_of_within of h
  | .always of, h => isLocal_of_within of h
  | .switch _ cases otherwise, h => by
    obtain ⟨chosen, rest⟩ := List.forall_mem_append.1 h
    exact Bool.and_eq_true_iff.2 ⟨casesLocal_of_within cases chosen, isLocal_of_within otherwise rest⟩

end

/-- A description without jumps has no sequences of its own. -/
theorem isLocal_of_nodes {d : Description α} (hj : .jump ∉ d.nodes) : d.isLocal :=
  isLocal_of_within d fun e he hmem => hj (List.mem_flatMap.2 ⟨e, he, hmem⟩)

variable [Token α] [DecidableEq α] {d : Description α} {ts : List α} {i : Nat}
  {c : Course α (Outcome α Nat)} {r : Outcome α Nat}

/-- A description without negations and jumps fails as unexpected only where the tokens have run out. -/
theorem Reads.exhausted (hn : .not ∉ d.nodes) (hj : .jump ∉ d.nodes) (h : d.Reads ts i c)
    (hc : c.answer = .ok r) : Parser.Exhausted ts r := by
  obtain ⟨q, w, built, reads⟩ := h
  obtain ⟨hq, bodies⟩ := all_of_build built
  have forthright (n : Parser.Node) (fits : Building.Fits [] d.nodes d.misused w n) :
      n.isForthright := by
    constructor <;> rintro rfl
    · exact hn fits
    · exact hj fits
  exact reads.exhausted (fun id body hbody => (bodies id body hbody).mono forthright)
    (hq.mono forthright) hc

/-- Its unexpected failures stand at the end. -/
theorem Reads.place_of_unexpected (hn : .not ∉ d.nodes) (hj : .jump ∉ d.nodes) (h : d.Reads ts i c)
    (hi : i ≤ ts.length) {reason : Reason} {j : Nat} (hc : c.answer = .ok (.failure reason j))
    (unexpected : reason.kind = .unexpected) : reason.message = "EOS" ∧ j = ts.length := by
  obtain ⟨message, last⟩ := h.exhausted hn hj hc reason j rfl unexpected
  obtain ⟨q, w, -, reads⟩ := h
  have inside : j ≤ ts.length :=
    Nat.le_trans (reads.place_mem hi hc).2 (Nat.max_le.2 ⟨hi, reads.reach_le hi⟩)
  exact ⟨message, Nat.le_antisymm inside (List.getElem?_eq_none_iff.1 last)⟩

end Description

/-! ## 2. Reports -/

/-- A report that points at no token says that the input has ended. -/
theorem Diagnostic.describe_of_found_none {e : Diagnostic} (h : e.found = none) (colours : Bool) :
    ∃ report, e.describe colours = report ++ ", found end of input" := by
  rw [describe, h, Option.getD_none, String.append_assoc]
  exact ⟨_, rfl⟩

/-- A failure that a run reports is the one that its parse came to, or tokens were left over and the end
was expected. -/
theorem Outcome.verdict_eq_error {α : Type} [Token α] {ts : List α} {filename : String} {i : Nat}
    {r : Outcome α Nat} {e : Diagnostic} (h : r.verdict ts filename i = .error e) :
    e.kind = .expected ∨ ∃ reason j, r = .failure reason j ∧ e = .report ts filename i j reason := by
  cases r with
  | failure reason j => exact .inr ⟨reason, j, rfl, (Except.error.inj h).symm⟩
  | success v j =>
    rw [verdict] at h
    split at h
    · cases h
    · exact .inl (Except.error.inj h ▸ rfl)

/-- What a run reports is the verdict on the answer of its course. -/
theorem Course.runReply_eq_rejected {α : Type} [Token α] {p : Position} {ts : List α}
    {filename : String} {c : Course α (Outcome α Nat)} {e : Diagnostic}
    {events : List (Event α Position)} (h : c.runReply p ts filename = .rejected e events) :
    ∃ r, c.answer = .ok r ∧ r.verdict ts filename p.offset = .error e := by
  rcases ha : c.answer with name | r
  · simp [runReply, answerWith, ha] at h
  · rcases hv : r.verdict ts filename p.offset with e' | v
    · simp only [runReply, answerWith, ha, hv] at h
      cases h
      exact ⟨r, rfl, hv⟩
    · simp [runReply, answerWith, ha, hv] at h

/-! ## 3. Sessions -/

namespace Session

variable {α : Type} [Token α] [DecidableEq α] {ds : List (Description α)} {s : Session α}
  {feeds : List (Feed α)} {forced : List Position} {place parser : Nat} {p : Position}
  {d : Description α}

/-- **The end of the input is never claimed where a token stands.**  If a description without negations
and jumps fails as unexpected, its message is the one for the end, and the failure stands at the end: the
place that it names answers so.  If a run of it reports something unexpected, the report stands there, has
that message, and ends by saying that the end of the input was found. -/
theorem unexpected_at_end (h : Reaches ds s feeds forced) (hp : s.position? place = some p)
    (hd : ds[parser]? = some d) (hn : .not ∉ d.nodes) (hj : .jump ∉ d.nodes) :
    (∀ n m reason next events,
      (s.step (.parse place parser)).1 = .parsed n m (.failure reason next) events →
      reason.kind = .unexpected →
        reason.message = "EOS" ∧ next.offset = (p.tokensOf feeds).length ∧
        (s.step (.parse place parser)).2.position? n = some next ∧
        ((s.step (.parse place parser)).2.step (.isEnd n)).1 = .flag true) ∧
    ∀ filename e events, (s.step (.run place parser filename)).1 = .rejected e events →
      e.kind = .unexpected →
        e.message = "EOS" ∧ e.offset = (p.tokensOf feeds).length ∧ e.found = none ∧
        ∀ colours, ∃ report, e.describe colours = report ++ ", found end of input" := by
  have hl := Description.isLocal_of_nodes hj
  have shows := h.shows hp
  refine ⟨fun n m reason next events hr unexpected => ?_, fun filename e events hr unexpected => ?_⟩
  · obtain ⟨c, r', hc, ha, same, -⟩ := h.reads_of_parsed hp hd hl hr
    obtain ⟨j, rfl, rfl⟩ : ∃ j, r' = .failure reason j ∧ next = p.moveTo j := by
      cases r' with
      | success v j => cases same
      | failure reason' j =>
        obtain ⟨rfl, rfl⟩ := Outcome.failure.inj same
        exact ⟨j, rfl, rfl⟩
    obtain ⟨message, last⟩ := hc.place_of_unexpected hn hj shows.le_length ha unexpected
    have stepped := h.parse_eq hp hd hl hc
    have numbered : n = s.positions.size :=
      (Course.reply_eq_parsed ((congrArg Prod.fst stepped).symm.trans hr)).1
    obtain ⟨noted, offset, -⟩ := afterCourse_place (s := s) shows hc ha
    obtain ⟨q, w, -, reads⟩ := hc
    have behind := shows.forceTo (reads.reach_le shows.le_length) (reads.place_mem shows.le_length ha).2
    have ends : (s.store.forceTo p c.reach).isEnd (p.moveTo j) = true := behind.isEnd_iff.2 last
    rw [stepped, numbered]
    refine ⟨message, offset.trans last, noted, ?_⟩
    have store : (s.afterCourse p c).store = s.store.forceTo p c.reach := by
      simp only [afterCourse, ha]
      rfl
    rw [← store] at ends
    simp only [Session.step, look, atPlace, noted, Outcome.place]
    exact congrArg Reply.flag ends
  · obtain ⟨c, hc⟩ : ∃ c, d.Reads (p.tokensOf feeds) p.offset c := by
      by_contra none
      obtain ⟨events', stopped⟩ : ∃ events, (s.step (.run place parser filename)).1 =
          .stopped .endless events :=
        step_run_endless (h.holds hd hl) hp shows fun c hc => none ⟨c, hc⟩
      cases stopped.symm.trans hr
    rw [step_run (h.holds hd hl) hp shows hc] at hr
    obtain ⟨r, ha, verdict⟩ := Course.runReply_eq_rejected hr
    rcases Outcome.verdict_eq_error verdict with expected | ⟨reason, j, rfl, rfl⟩
    · cases expected.symm.trans unexpected
    · obtain ⟨message, last⟩ := hc.place_of_unexpected hn hj shows.le_length ha unexpected
      have found : (Diagnostic.report (p.tokensOf feeds) filename p.offset j reason).found = none := by
        simp only [Diagnostic.report, List.getElem?_eq_none (Nat.le_of_eq last.symm), Option.map_none]
      exact ⟨message, last, found, Diagnostic.describe_of_found_none found⟩

/-- A letter, and behind it another one that is only looked at. -/
def letterBeforeAnother : Description Char := .bind false [.any] (.always (.peek .any))

/-- The failure comes from the lookahead in the continuation, one place behind the start. -/
theorem unexpected_at_end_letterBeforeAnother :
    ∃ s feeds forced, Reaches [letterBeforeAnother] s feeds forced ∧
      s.position? 1 = some (.mark 0 1) ∧
      (s.step (.parse 1 0)).1 = .parsed 2 0 (.failure .endOfInput (.mark 0 2)) [] ∧
      ((s.step (.parse 1 0)).2.step (.isEnd 2)).1 = .flag true ∧
      ∃ e events, (s.step (.run 1 0 "letters")).1 = .rejected e events ∧ e.found = none ∧
        e.offset = 2 := by
  have begun : Reaches [letterBeforeAnother] _ [] [] := .begin rfl
  have moved := begun.after [.start (.feed (.items ['a', 'b'])), .tail 0 1]
  have described : [letterBeforeAnother][0]? = some letterBeforeAnother := rfl
  have reads : letterBeforeAnother.Reads ['a', 'b'] 1 ⟨.ok (.failure .endOfInput 2), [], 2⟩ := by
    refine ⟨_, _, rfl, 0, ?_⟩
    simp [Parser.readDepth, Parser.read, Parser.readAll]
    rfl
  have shows := @Reaches.shows _ _ _ _ _ _ _ moved 1 (.mark 0 1) rfl
  have holds := moved.holds described rfl
  have parses := congrArg Prod.fst (@step_parse _ _ _ _ 1 _ _ _ _ _ holds rfl shows reads)
  have runs := congrArg Prod.fst (@step_run _ _ _ _ 1 _ _ _ _ _ "letters" holds rfl shows reads)
  obtain ⟨parsed, ran⟩ := @unexpected_at_end _ _ _ _ _ _ _ 1 0 (.mark 0 1) letterBeforeAnother moved rfl
    described (by decide) (by decide)
  obtain ⟨-, -, -, ends⟩ := parsed _ _ .endOfInput (.mark 0 2) [] parses rfl
  obtain ⟨-, offset, found, -⟩ := ran "letters" _ [] runs rfl
  exact ⟨_, _, _, moved, rfl, parses, ends, _, _, runs, found, offset⟩

end Session

end LazyPeg
