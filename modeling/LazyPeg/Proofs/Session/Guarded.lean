import LazyPeg.Proofs.Building.Nodes
import LazyPeg.Proofs.Reading.Guarded
import LazyPeg.Proofs.Session.Parse

/-!
# Guarded descriptions

A description is guarded if none of its rules comes back to itself before a token was consumed.  A parse
of a guarded description ends, in every session and at every place (`Session.parse_ends`).
-/
namespace LazyPeg

/-- Outside all rules, what fits is a call of a rule that is defined or misused. -/
theorem Building.Fits.callable {α : Type} {kinds : List Parser.Node} {misused : List String}
    {w : Workshop α} {n : Parser.Node} (h : Building.Fits [] kinds misused w n) :
    Parser.Callable w.grammar misused n := by
  cases n with
  | rule id name => exact h.resolve_left List.not_mem_nil
  | _ => trivial

namespace Description

variable {α : Type} [Token α] [DecidableEq α] {d : Description α} {ts : List α} {i : Nat}

/-- On every way from the body of a rule to a call of this rule, be it through the bodies of other rules
or through continuations, the call follows a parser in a row that cannot succeed without consuming a
token. -/
def Guarded (d : Description α) : Prop :=
  ∀ q w, (d.build []).run ⟨Store.new, #[]⟩ = .ok (q, w) → Parser.Guarded w.grammar

/-- A guarded description that was built has a course everywhere.  It is stopped only at rules that it
misuses. -/
theorem Guarded.exists_reads (h : d.Guarded) {q : Parser α} {w : Workshop α}
    (built : (d.build []).run ⟨Store.new, #[]⟩ = .ok (q, w)) (hi : i ≤ ts.length) :
    ∃ c, d.Reads ts i c ∧ ∀ name, c.answer = .error name → name ∈ d.misused := by
  obtain ⟨hq, bodies⟩ := all_of_build built
  obtain ⟨c, reads, stops⟩ := Parser.exists_reads (h q w built)
    (fun id body hbody => (bodies id body hbody).mono fun _ hn => hn.callable)
    (hq.mono fun _ hn => hn.callable) hi
  exact ⟨c, ⟨q, w, built, reads⟩, stops⟩

end Description

namespace Session

variable {α : Type} [Token α] [DecidableEq α] {ds : List (Description α)} {s : Session α}
  {feeds : List (Feed α)} {forced : List Position} {place parser : Nat} {p : Position}
  {d : Description α}

/-- **A parse of a guarded description ends.**  The tokens are read to an end, and the parse comes to a
result, unless it calls a rule that the description never defines or gives up. -/
theorem parse_ends (h : Reaches ds s feeds forced) (hp : s.position? place = some p)
    (hd : ds[parser]? = some d) (hl : d.isLocal) (hg : d.Guarded) :
    (∃ c, d.Reads (p.tokensOf feeds) p.offset c) ∧
      ((∃ n m r events, (s.step (.parse place parser)).1 = .parsed n m r events) ∨
        ∃ name ∈ d.misused, ∃ events,
          (s.step (.parse place parser)).1 = .stopped (.undefinedRule name) events) := by
  obtain ⟨-, q, w, -, -, built, -⟩ := h.holds hd hl
  obtain ⟨c, reads, stops⟩ := hg.exists_reads built (h.shows hp).le_length
  have reply := congrArg Prod.fst (h.parse_eq hp hd hl reads)
  refine ⟨⟨c, reads⟩, ?_⟩
  cases ha : c.answer with
  | ok r => exact .inl ⟨_, _, _, _, by rw [reply, Course.reply, ha]⟩
  | error name => exact .inr ⟨name, stops name ha, _, by rw [reply, Course.reply, ha]⟩

/-- Nested lists.  An item is a list, or any token but a closing bracket; a minus sign stands before
another item.  An item may be left out. -/
def nestedLists : Description Char :=
  .recursive "list" .defined <| .seq
    [.eq '(', .many .any (.optional item), .eq ')']
where
  item : Description Char :=
    .recursive "item" .defined <| .choice
      [.call "list", .bind false [.neq ')'] (.switch 0 [('-', .call "item")] (.result (.text "leaf")))]

/-- A list starts with a bracket.  An item may start with a list, but it is followed by another item
only behind a minus sign. -/
theorem guarded_nestedLists : nestedLists.Guarded := by
  rintro q w built
  obtain ⟨-, rfl⟩ := Prod.mk.inj (Except.ok.inj built)
  refine Parser.guarded_of_rank (fun id => id) ?_
  rintro id id' ⟨body, hbody, ahead⟩
  match id with
  | 0 =>
    obtain rfl := Option.some.inj hbody
    obtain bracket | ⟨passes, -⟩ := ahead
    · exact bracket.elim
    · exact absurd (Parser.consumes_satisfy _ _ _) passes
  | 1 =>
    obtain rfl := Option.some.inj hbody
    obtain list | (token | ⟨passes, -⟩) | none := ahead
    · obtain rfl : 0 = id' := list
      exact Nat.one_pos
    · exact token.elim
    · exact absurd (Parser.consumes_satisfy _ _ _) passes
    · exact none.elim
  | id + 2 => exact absurd hbody nofun

/-- A list is left open behind a minus sign, and the parse ends all the same. -/
theorem parse_ends_nestedLists :
    ∃ s feeds forced, Reaches [nestedLists] s feeds forced ∧ s.position? 0 = some (.mark 0 0) ∧
      nestedLists.Guarded ∧
      ∃ n m r events, (s.step (.parse 0 0)).1 = .parsed n m r events := by
  have begun : Reaches [nestedLists] _ [] [] := .begin rfl
  have opened := begun.step (.start (.feed (.items ['(', 'a', '(', '-', 'b', ')', '-'])))
  have described : [nestedLists][0]? = some nestedLists := rfl
  obtain ⟨-, parsed | ⟨name, misused, -⟩⟩ :=
    @parse_ends _ _ _ _ _ _ _ 0 0 (.mark 0 0) nestedLists opened rfl described rfl guarded_nestedLists
  · exact ⟨_, _, _, opened, rfl, guarded_nestedLists, parsed⟩
  · exact absurd misused List.not_mem_nil

end Session

end LazyPeg
