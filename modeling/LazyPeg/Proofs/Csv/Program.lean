import LazyPeg.Csv.CommandLine
import LazyPeg.Proofs.Csv.PlainCharacter
import LazyPeg.Proofs.Store.Readers

/-!
# What the program does

The program accepts some inputs and fails on all others, and what it does is settled by its arguments, by
the bytes before the first stop of its input, and by the fault of that stop (`execute_finish`).

* §1 says which arguments are understood: those that are the words of some flags (`configure?_eq_some`).
* §2 reads the input.  It is read as the text that its bytes encode.  If the text is accepted, its end
  was seen, and then the status is decided.
* §3 is the program.
-/
namespace LazyPeg.Csv

open LazyPeg.Parser Reader

variable {engine : Pattern.Engine}

/-! ## 1. Arguments -/

/-- What can be asked for by arguments. -/
inductive Flag where
  | noHeader
  | separator (c : Char)
  /-- The separator is a tab. -/
  | tab
  deriving DecidableEq

namespace Flag

/-- The arguments that ask for it. -/
def words : Flag → List String
  | noHeader => ["--no-header"]
  | separator c => ["--separator", String.singleton c]
  | tab => ["--separator", "\\t"]

/-- The separator that is asked for. -/
def char? : Flag → Option Char
  | noHeader => none
  | separator c => some c
  | tab => some '\t'

/-- What some flags make of a configuration: the last separator counts, and one flag is enough to have
no header. -/
def adjust (config : Config) (flags : List Flag) : Config where
  separator := (flags.filterMap char?).getLastD config.separator
  header := config.header && !flags.contains noHeader

/-- The configuration that some flags ask for. -/
def config (flags : List Flag) : Config := adjust .standard flags

theorem adjust_nil (config : Config) : adjust config [] = config := by
  simp [adjust]

theorem adjust_noHeader (config : Config) (flags : List Flag) :
    adjust config (noHeader :: flags) = adjust { config with header := false } flags := by
  simp [adjust, char?]

theorem adjust_of_char? {flag : Flag} {c : Char} (h : flag.char? = some c) (config : Config)
    (flags : List Flag) : adjust config (flag :: flags) = adjust { config with separator := c } flags := by
  have other : (noHeader == flag) = false := by
    rw [beq_eq_false_iff_ne]
    rintro rfl
    exact absurd h nofun
  simp only [adjust, List.filterMap_cons_some h, List.getLastD_cons, List.contains_cons, other,
    Bool.false_or]

end Flag

theorem separator?_singleton (c : Char) : separator? (String.singleton c) = some c := by
  have one : (String.singleton c).toList = [c] := by simp
  have noEscape : String.singleton c ≠ "\\t" := by
    intro same
    have two : ("\\t" : String).toList.length = 2 := by decide
    rw [← same, one] at two
    exact absurd two (by simp)
  rw [separator?, if_neg noEscape, one]

/-- An argument names a separator by one character, or a tab by its escape. -/
theorem separator?_eq_some {argument : String} {c : Char} (h : separator? argument = some c) :
    argument = String.singleton c ∨ argument = "\\t" ∧ c = '\t' := by
  unfold separator? at h
  split at h
  next tab => exact .inr ⟨tab, (Option.some.inj h).symm⟩
  next =>
    split at h
    next d one =>
      obtain rfl := Option.some.inj h
      exact .inl (String.toList_inj.1 (one.trans (by simp)))
    next => exact absurd h nofun

/-- The words of flags are understood. -/
theorem configure?_words (config : Config) (flags : List Flag) :
    configure? config (flags.flatMap Flag.words) = some (Flag.adjust config flags) := by
  induction flags generalizing config with
  | nil => rw [Flag.adjust_nil]; rfl
  | cons flag flags ih =>
    cases flag with
    | noHeader => rw [Flag.adjust_noHeader, ← ih]; rfl
    | separator c =>
      rw [Flag.adjust_of_char? (c := c) rfl, ← ih, List.flatMap_cons]
      simp only [Flag.words, List.cons_append, List.nil_append, configure?, separator?_singleton]
    | tab => rw [Flag.adjust_of_char? (c := '\t') rfl, ← ih]; rfl

/-- No other arguments are understood. -/
theorem exists_flags {config config' : Config} {args : List String}
    (h : configure? config args = some config') :
    ∃ flags : List Flag, args = flags.flatMap Flag.words := by
  fun_induction configure? config args with
  | case1 config => exact ⟨[], rfl⟩
  | case2 config args ih =>
    obtain ⟨flags, rfl⟩ := ih h
    exact ⟨.noHeader :: flags, rfl⟩
  | case3 config argument args c hc ih =>
    obtain ⟨flags, rfl⟩ := ih h
    rcases separator?_eq_some hc with rfl | ⟨rfl, -⟩
    · exact ⟨.separator c :: flags, rfl⟩
    · exact ⟨.tab :: flags, rfl⟩
  | case4 config argument args none => exact absurd h nofun
  | case5 => exact absurd h nofun

/-- **The arguments that are understood** are the words of flags. -/
theorem configure?_eq_some {args : List String} {config : Config} :
    configure? .standard args = some config ↔
      ∃ flags, args = flags.flatMap Flag.words ∧ config = Flag.config flags := by
  constructor
  · intro h
    obtain ⟨flags, rfl⟩ := exists_flags h
    rw [configure?_words] at h
    exact ⟨flags, rfl, (Option.some.inj h).symm⟩
  · rintro ⟨flags, rfl, rfl⟩
    exact configure?_words _ _

/-! ## 2. The input -/

/-- The text that the bytes before the first stop encode. -/
def textOf (stdin : List Chunk) : String := String.ofList (Utf8.decode (firstSegment stdin).bytes)

/-- When the input was read up to its end, the fault is known of the stop that ended it. -/
theorem status_at_end (stdin : List Chunk) {o : Nat} {stream : Input Char}
    (h : stream = .feed (.reader (.ofScript (.ofChunks stdin)) id)) (inside : o ≤ stream.tokens.length)
    (all : stream.tokens.length ≤ o) :
    ((Store.new.start stream).2.forceTo (Store.new.start stream).1 o).status? 0 =
      some (firstSegment stdin).fault := by
  subst h
  have reached := (Store.new.reached_start (.feed (.reader (.ofScript (.ofChunks stdin)) id))).shows
  rw [Store.sequence_start] at reached
  exact Store.status?_of_ended reached inside (Nat.le_trans all (Nat.le_max_right _ _)) rfl
    ((Source.owes_ofFeed stdin id).pull rfl)

/-- **Input is read as its text.**  If it is accepted its end was seen, so the fault is known of the stop
that ended it. -/
theorem readWith_stream {config : Config} {q : Parser Char} (built : file engine config = .ok q)
    (filename : String) (stdin : List Chunk) :
    ∃ r status, readWith engine config filename (.feed (.reader (.ofScript (.ofChunks stdin)) id)) =
        .ok ⟨.ok r, status⟩ ∧
      (∀ table, r = .ok table ↔ ReadsAs engine config filename (textOf stdin) table) ∧
      ∀ table, r = .ok table → status = some (firstSegment stdin).fault := by
  let stream : Input Char := .feed (.reader (.ofScript (.ofChunks stdin)) id)
  have tokens : stream.tokens = (textOf stdin).toList := by
    rw [textOf, String.toList_ofList]
    exact (Feed.tokens_reader stdin id).trans (List.map_id _)
  obtain ⟨c, r, hc, hr⟩ := exists_outcome built (textOf stdin).toList
  have streamed := readWith_of_reads built filename stream (tokens.symm ▸ hc) hr
  have typed := readWith_of_reads built filename (.ofText (textOf stdin)) hc hr
  rw [tokens] at streamed
  refine ⟨_, _, streamed, fun table => ?_, fun table accepted => ?_⟩
  · constructor
    · intro accepted
      exact ⟨_, typed, congrArg Except.ok accepted⟩
    · rintro ⟨result, hresult, accepted⟩
      obtain rfl := Except.ok.inj (hresult.symm.trans typed)
      exact Except.ok.inj accepted
  · obtain ⟨v, rfl⟩ := exists_success accepted
    obtain ⟨-, seen⟩ := hc.place_mem (Nat.zero_le _) hr
    rw [Nat.zero_max] at seen
    exact status_at_end stdin rfl (tokens ▸ hc.reach_le (Nat.zero_le _)) (tokens ▸ seen)

/-- Bytes that encode no text are not accepted, unless what replaces them can separate fields. -/
theorem ReadsAs.exists_encoding {config : Config} {filename : String} {stdin : List Chunk} {table : File}
    (h : ReadsAs engine config filename (textOf stdin) table) (reads : ReadsPlain engine config.separator)
    (known : config.separator ≠ Utf8.replacement) : ∃ text, (firstSegment stdin).bytes = Utf8.encode text := by
  refine ⟨_, (Utf8.encode_decode fun replaced => ?_).symm⟩
  have passed := h.forall_mem reads (P := (· ≠ Utf8.replacement)) ?_ known (by decide) (by decide) (by decide)
  · rw [textOf, String.toList_ofList] at passed
    exact passed _ replaced rfl
  · rintro c plain rfl
    have high : ¬ Utf8.replacement ≤ '~' := by decide
    simp [isPlain, high] at plain

/-! ## 3. The program -/

theorem Finish.stderr_failure (message : String) : (failure message).stderr ≠ "" := by
  simp [failure]

/-- The arguments settle the configuration. -/
theorem Flag.config_eq_of_words {flags flags' : List Flag}
    (h : flags.flatMap words = flags'.flatMap words) : config flags = config flags' := by
  have same := configure?_words .standard flags
  rw [h, configure?_words] at same
  exact (Option.some.inj same).symm

/-- The program writes the table of a text that was accepted as a whole, or it fails. -/
theorem executeWith_cases (engine : Pattern.Engine) (args : List String) (stdin : List Chunk) :
    (∃ flags table, (firstSegment stdin).fault = none ∧ args = flags.flatMap Flag.words ∧
      ReadsAs engine (Flag.config flags) "stdin" (textOf stdin) table ∧
      executeWith engine args (.ofChunks stdin) = ⟨0, table.describe, ""⟩) ∨
    ((∀ flags table, (firstSegment stdin).fault = none → args = flags.flatMap Flag.words →
      ¬ ReadsAs engine (Flag.config flags) "stdin" (textOf stdin) table) ∧
      ∃ message, executeWith engine args (.ofChunks stdin) = .failure message) := by
  unfold executeWith
  cases understood : configure? .standard args with
  | none =>
    refine .inr ⟨?_, usage, rfl⟩
    rintro flags table - rfl -
    rw [configure?_words] at understood
    cases understood
  | some config =>
    obtain ⟨flags, rfl, rfl⟩ := configure?_eq_some.1 understood
    cases built : file engine (Flag.config flags) with
    | error rejection =>
      have refused (filename : String) (input : Input Char) :
          readWith engine (Flag.config flags) filename input = .error rejection := by
        rw [readWith, built]
        rfl
      simp only [refused]
      refine .inr ⟨?_, _, rfl⟩
      rintro flags' table - words ⟨r, reads, -⟩
      rw [← Flag.config_eq_of_words words, refused] at reads
      cases reads
    | ok q =>
      obtain ⟨r, status, hread, accepted, ended⟩ := readWith_stream built "stdin" stdin
      simp only [hread]
      cases r with
      | ok table =>
        rw [ended table rfl]
        cases fault : (firstSegment stdin).fault with
        | none => exact .inl ⟨flags, table, rfl, rfl, (accepted table).1 rfl, rfl⟩
        | some message => exact .inr ⟨fun _ _ whole => (Option.some_ne_none _ whole).elim, _, rfl⟩
      | error e =>
        refine .inr ⟨?_, ?_⟩
        · rintro flags' table - words reads
          rw [← Flag.config_eq_of_words words] at reads
          cases (accepted table).2 reads
        · rcases status with - | - | message
          · exact ⟨_, rfl⟩
          · exact ⟨_, rfl⟩
          · exact ⟨_, rfl⟩

/-- **What the program does.**  It ends with the code 0 exactly if the arguments are the words of some
flags, the input is not broken off by a fault, and its text is accepted as these flags ask for.  Then it
writes the table that was read and no error.  In all other cases the program ends with the code 1 and
writes nothing but an error.  All this is so whatever the engine makes of the pattern of plain characters.
If it reads the pattern as it is meant, bytes that encode no text are not accepted, unless the separator is
the character that stands in for them. -/
theorem execute_finish (engine : Pattern.Engine) (args : List String) (stdin : List Chunk) :
    let finish := executeWith engine args (.ofChunks stdin)
    (finish.code = 0 ↔ (firstSegment stdin).fault = none ∧
      ∃ flags table, args = flags.flatMap Flag.words ∧
        ReadsAs engine (Flag.config flags) "stdin" (textOf stdin) table) ∧
    (∀ flags table, args = flags.flatMap Flag.words →
      ReadsAs engine (Flag.config flags) "stdin" (textOf stdin) table →
        (finish.code = 0 → finish.stdout = table.describe ∧ finish.stderr = "") ∧
        (ReadsPlain engine (Flag.config flags).separator →
          (Flag.config flags).separator ≠ Utf8.replacement →
            ∃ text, (firstSegment stdin).bytes = Utf8.encode text)) ∧
    (finish.code ≠ 0 → finish.code = 1 ∧ finish.stdout = "" ∧ finish.stderr ≠ "") := by
  intro finish
  rcases executeWith_cases engine args stdin with
    ⟨flags, table, clean, rfl, reads, ends⟩ | ⟨rejected, message, ends⟩
  · have ends : finish = ⟨0, table.describe, ""⟩ := ends
    rw [ends]
    refine ⟨⟨fun _ => ⟨clean, flags, table, rfl, reads⟩, fun _ => rfl⟩, ?_, fun failed => absurd rfl failed⟩
    intro flags' table' words reads'
    refine ⟨fun _ => ?_, reads'.exists_encoding⟩
    rw [← Flag.config_eq_of_words words] at reads'
    rw [reads.unique reads']
    exact ⟨rfl, rfl⟩
  · have ends : finish = .failure message := ends
    rw [ends]
    refine ⟨⟨nofun, ?_⟩, ?_, fun _ => ⟨rfl, rfl, Finish.stderr_failure message⟩⟩
    · rintro ⟨clean, flags, table, words, reads⟩
      exact absurd reads (rejected flags table clean words)
    · intro flags table _ reads
      exact ⟨nofun, reads.exists_encoding⟩

/-- Arguments that ask for a separator twice. -/
def semicolons : List String := ["--separator", ",", "--no-header", "--separator", ";"]

/-- The separator that is asked for last. -/
def Separator.semicolon : Separator := ⟨';', by decide, by decide, by decide⟩

/-- Two letters with a semicolon between them. -/
def Written.lettersApart : Document .semicolon :=
  ⟨⟨.plain [⟨'a', rfl⟩], [((), .plain [⟨'b', rfl⟩])]⟩, []⟩

theorem execute_finish_semicolons :
    semicolons = [Flag.separator ',', .noHeader, .separator ';'].flatMap Flag.words ∧
      ReadsAs Pattern.standard ⟨';', false⟩ "stdin" (textOf [.data [0x61, 0x3B, 0x62]])
        ⟨none, [["a", "b"]]⟩ ∧
      ReadsPlain Pattern.standard ';' ∧
      (execute semicolons (.ofChunks [.data [0x61, 0x3B, 0x62]])).code = 0 ∧
      (execute semicolons (.ofChunks [.data [0x61, 0x3B, 0x62]])).stdout = "   1: [\"a\", \"b\"]\n" ∧
      ∃ text, [0x61, 0x3B, 0x62] = Utf8.encode text := by
  have text : Written.lettersApart.text = (textOf [.data [0x61, 0x3B, 0x62]]).toList := by decide
  have plain := readsPlain_standard ';'
  have reads : ReadsAs Pattern.standard ⟨';', false⟩ "stdin" (textOf [.data [0x61, 0x3B, 0x62]])
      ⟨none, [["a", "b"]]⟩ :=
    (readsAs_iff (s := .semicolon) plain (by decide)).2 ⟨Written.lettersApart, text, by decide⟩
  have words : semicolons = [Flag.separator ',', .noHeader, .separator ';'].flatMap Flag.words := by decide
  obtain ⟨accepts, finish, -⟩ := execute_finish Pattern.standard semicolons [.data [0x61, 0x3B, 0x62]]
  have code := accepts.2 ⟨by decide, _, _, words, reads⟩
  obtain ⟨writes, encodes⟩ := finish _ _ words reads
  have lines : File.describe ⟨none, [["a", "b"]]⟩ = "   1: [\"a\", \"b\"]\n" := by decide
  exact ⟨words, reads, plain, code, lines ▸ (writes code).1, encodes plain (by decide)⟩

end LazyPeg.Csv
