import LazyPeg.Proofs.Session.Reaches
import LazyPeg.Proofs.Store.Readers

/-!
# Readers in a session

What a script means for those who read it, by themselves or through a sequence of a session: **the
segments and nothing else** (`Session.reader_segments`).
-/
namespace LazyPeg

open Reader

namespace Session

/-- **A reader is known by its segments.**  Whatever a decoder is asked for and in which order, it
answers as the listener does, who is told the text of each segment and then its stop, and remembers the
earliest fault that he was told.  So two scripts with the same bytes between the same stops are answered
alike, however the bytes are cut into chunks and wherever the readers are interrupted.  A sequence over
the script holds the text of its first segment in every session, its reader was called no more often
than it takes to meet the first stop, and everything behind that stop is still to be read. -/
theorem reader_segments (chunks : List Chunk) :
    (∀ requests, answers CharReader.respond (.ofScript (.ofChunks chunks)) requests =
      answers Listener.respond (.ofChunks chunks) requests) ∧
    (∀ chunks', chunks'.flatMap Chunk.items = chunks.flatMap Chunk.items → ∀ requests,
      answers CharReader.respond (.ofScript (.ofChunks chunks')) requests =
        answers CharReader.respond (.ofScript (.ofChunks chunks)) requests) ∧
    ∀ {α : Type} [Token α] [DecidableEq α] (ofChar : Char → α) {ds : List (Description α)}
      {s : Session α} {feeds : List (Feed α)} {forced : List Position} {source : Nat},
      Reaches ds s feeds forced →
      feeds[source]? = some (.reader (.ofScript (.ofChunks chunks)) ofChar) →
        (∀ offset, s.store.sequence (.mark source offset) =
          (Utf8.decode (firstSegment chunks).bytes).map ofChar) ∧
        ∃ held r, s.store.sources[source]? = some held ∧ held.feed = .reader r ofChar ∧
          r.bytes.script.reads ≤ (Script.behindStop chunks 0).reads ∧
          (Script.behindStop chunks 0).chunks <:+ r.bytes.script.chunks := by
  refine ⟨CharReader.answers_eq rfl, fun chunks' same requests => ?_, ?_⟩
  · rw [CharReader.answers_eq same, CharReader.answers_eq rfl]
  · intro α _ _ ofChar ds s feeds forced source h hf
    refine ⟨fun offset => ?_, ?_⟩
    · rw [h.goes.tokens_eq, Position.tokensOf, hf]
      exact Feed.tokens_reader chunks ofChar
    · obtain ⟨held, hs, within⟩ := h.goes.keeps hf (P := Source.Within (.behindStop chunks 0) ofChar)
        ⟨_, rfl, rfl⟩ (fun _ hs going => hs.pull going) (fun _ hs => hs.clearStatus)
      obtain ⟨r, hr, called⟩ := within.script
      exact ⟨held, r, hs, hr, called⟩

/-- A reader that breaks off within a character and goes on afterwards. -/
def mended : List Chunk :=
  [.data [0x61, 0xE2, 0x82], .interruption "again", .data [0xAC, 0xE2], .fault "broken", .data [0x62]]

/-- The fault is met while the last character is looked at.  It is told after it, and once. -/
theorem reader_segments_mended :
    answers CharReader.respond (.ofScript (.ofChunks mended))
        [.next, .next, .next, .isOk, .next, .isOk, .takeFault, .next, .collect, .isOk] =
      [.char (some 'a'), .char (some '€'), .char (some Utf8.replacement), .flag true, .char none,
        .flag false, .fault (some "broken"), .char (some 'b'), .text [], .flag true] ∧
    ∃ s feeds forced, Reaches ([] : List (Description Char)) s feeds forced ∧
      feeds[0]? = some (.reader (.ofScript (.ofChunks mended)) id) ∧
      s.store.sequence (.mark 0 0) = ['a', '€', Utf8.replacement] ∧
      ∃ held r, s.store.sources[0]? = some held ∧ held.feed = .reader r id ∧
        r.bytes.script.reads ≤ 4 ∧ [.data [0x62]] <:+ r.bytes.script.chunks := by
  obtain ⟨heard, -, sequences⟩ := reader_segments mended
  have begun : Reaches ([] : List (Description Char)) _ [] [] := .begin rfl
  have opened := begun.step (.start (.feed (.reader (.ofScript (.ofChunks mended)) id)))
  have source : [Feed.reader (.ofScript (.ofChunks mended)) id][0]? = some _ := rfl
  obtain ⟨tokens, script⟩ := sequences id opened source
  exact ⟨(heard _).trans (by decide +kernel), _, _, _, opened, rfl,
    (tokens 0).trans (by decide +kernel), script⟩

end Session

end LazyPeg
