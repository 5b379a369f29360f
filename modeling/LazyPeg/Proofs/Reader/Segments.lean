import LazyPeg.Proofs.Reader.Spelling

/-!
# The segments of a script

The stops of a script are its faults, its empty chunks and its end, where every further call is a stop
again.  They cut its bytes into segments.  A decoder tells the text of the first segment, then its stop,
then the text of the second one, and so on.

* §1 cuts a script (`segments`) and lists what is told of it (`Segment.told`).
* §2 is the listener.  It goes through that list and knows neither bytes nor chunks.  **A decoder answers
  all requests as the listener does**, in any order (`CharReader.answers_eq`).
-/
namespace LazyPeg.Reader

/-! ## 1. Segments -/

/-- The bytes before a stop, and the stop: a fault or the end of the file. -/
structure Segment where
  bytes : List UInt8
  fault : Option String
  deriving DecidableEq, Repr

/-- The segments of a script.  The last of them ends with the script. -/
def segments : List Chunk → List Segment
  | [] => [⟨[], none⟩]
  | .data [] :: chunks => ⟨[], none⟩ :: segments chunks
  | .data (b :: bytes) :: chunks =>
    (segments chunks).modifyHead fun s => ⟨b :: bytes ++ s.bytes, s.fault⟩
  | .fault message :: chunks => ⟨[], some message⟩ :: segments chunks
  | .interruption _ :: chunks => segments chunks

theorem exists_segments_eq_cons (chunks : List Chunk) :
    ∃ s segs, segments chunks = s :: segs := by
  induction chunks with
  | nil => exact ⟨_, _, rfl⟩
  | cons chunk chunks ih =>
    obtain ⟨s, segs, h⟩ := ih
    match chunk with
    | .data [] => exact ⟨_, _, rfl⟩
    | .data (b :: bytes) => exact ⟨⟨b :: bytes ++ s.bytes, s.fault⟩, segs, by rw [segments, h]; rfl⟩
    | .fault message => exact ⟨_, _, rfl⟩
    | .interruption message => exact ⟨s, segs, h⟩

/-- The segment before the first stop. -/
def firstSegment (chunks : List Chunk) : Segment := (segments chunks).headD ⟨[], none⟩

/-- The items of a segment. -/
def Segment.items (s : Segment) : List Item := s.bytes.map .byte ++ [.stop s.fault]

/-- The segments hold the items of the script, and one more stop for its end. -/
theorem flatMap_items_segments (chunks : List Chunk) :
    (segments chunks).flatMap Segment.items = chunks.flatMap Chunk.items ++ [.stop none] := by
  induction chunks with
  | nil => rfl
  | cons chunk chunks ih =>
    match chunk with
    | .data [] => exact congrArg (_ :: ·) ih
    | .data (b :: bytes) =>
      obtain ⟨s, segs, h⟩ := exists_segments_eq_cons chunks
      rw [h] at ih
      simp only [segments, h, List.modifyHead_cons, List.flatMap_cons, Segment.items, Chunk.items,
        List.map_append, List.map_cons, List.append_assoc] at ih ⊢
      rw [← ih, List.cons_append]
    | .fault message => exact congrArg (_ :: ·) ih
    | .interruption message => exact ih

theorem spells_ofScript (chunks : List Chunk) :
    (CharReader.ofScript (.ofChunks chunks)).Spells ((segments chunks).flatMap Segment.items) :=
  ⟨1, (flatMap_items_segments chunks).symm⟩

theorem exists_spells_firstSegment (chunks : List Chunk) :
    ∃ items : List Item, (CharReader.ofScript (.ofChunks chunks)).Spells
      ((firstSegment chunks).bytes.map .byte ++ .stop (firstSegment chunks).fault :: items) := by
  obtain ⟨s, segs, h⟩ := exists_segments_eq_cons chunks
  have spells := spells_ofScript chunks
  rw [h, List.flatMap_cons, Segment.items, List.append_assoc] at spells
  rw [firstSegment, h]
  exact ⟨_, spells⟩

/-- What somebody is told of a script: a character, or that there is none because of a stop. -/
inductive Told where
  | char (c : Char)
  | stop (fault : Option String)
  deriving DecidableEq, Repr

/-- The fault that is told. -/
def Told.fault? : Told → Option String
  | char _ => none
  | stop fault => fault

/-- What is told of a segment: its text, and then its stop. -/
def Segment.told (s : Segment) : List Told := (Utf8.decode s.bytes).map .char ++ [.stop s.fault]

/-! ## 2. The listener -/

/-- What a decoder of characters is asked for.  How often the reader was called is not among it, since
that is a matter of the chunks. -/
inductive Request where
  | next
  | collect
  | isOk
  | takeFault
  | describe

/-- The answer to a request. -/
inductive Response where
  | char (c : Option Char)
  | text (cs : List Char)
  | flag (b : Bool)
  | fault (message : Option String)
  | shown (s : String)
  deriving DecidableEq, Repr

/-- The answers to some requests, one after the other. -/
def answers {σ : Type} (respond : σ → Request → Response × σ) : σ → List Request → List Response
  | _, [] => []
  | state, request :: requests =>
    let (response, state) := respond state request
    response :: answers respond state requests

/-- Two that respond alike, whatever they are asked, give the same answers. -/
theorem answers_eq_of_alike {σ σ' : Type} {respond : σ → Request → Response × σ}
    {respond' : σ' → Request → Response × σ'} {Alike : σ → σ' → Prop}
    (step : ∀ a a' request, Alike a a' → (respond a request).1 = (respond' a' request).1 ∧
      Alike (respond a request).2 (respond' a' request).2)
    {a : σ} {a' : σ'} (h : Alike a a') (requests : List Request) :
    answers respond a requests = answers respond' a' requests := by
  induction requests generalizing a a' with
  | nil => rfl
  | cons request requests ih =>
    obtain ⟨same, alike⟩ := step a a' request h
    simp only [answers]
    rw [same, ih alike]

/-- How a decoder responds. -/
def CharReader.respond (r : CharReader) : Request → Response × CharReader
  | .next => (.char r.next.1, r.next.2)
  | .collect => (.text r.collect.1, r.collect.2)
  | .isOk => (.flag r.isOk, r)
  | .takeFault => (.fault r.takeFault.1, r.takeFault.2)
  | .describe => (.shown (showStatus r.fault), r)

/-- Somebody who is told one thing after the other, and remembers what he was told since he was last
asked to give out a fault. -/
structure Listener where
  ahead : List Told
  since : List Told

namespace Listener

/-- The listener to a script. -/
def ofChunks (chunks : List Chunk) : Listener := ⟨(segments chunks).flatMap Segment.told, []⟩

/-- The earliest fault that he remembers. -/
def fault (l : Listener) : Option String := l.since.findSome? Told.fault?

/-- The next character, if one is told.  When there is nothing left to tell, stops are. -/
def next : Listener → Option Char × Listener
  | ⟨[], since⟩ => (none, ⟨[], since ++ [.stop none]⟩)
  | ⟨.stop fault :: ahead, since⟩ => (none, ⟨ahead, since ++ [.stop fault]⟩)
  | ⟨.char c :: ahead, since⟩ => (some c, ⟨ahead, since ++ [.char c]⟩)

/-- The characters that are told up to the next stop. -/
def collectFrom : List Told → List Told → List Char × Listener
  | [], since => ([], ⟨[], since ++ [.stop none]⟩)
  | .stop fault :: ahead, since => ([], ⟨ahead, since ++ [.stop fault]⟩)
  | .char c :: ahead, since =>
    let (cs, l) := collectFrom ahead (since ++ [.char c])
    (c :: cs, l)

/-- How a listener responds. -/
def respond (l : Listener) : Request → Response × Listener
  | .next => (.char l.next.1, l.next.2)
  | .collect => (.text (collectFrom l.ahead l.since).1, (collectFrom l.ahead l.since).2)
  | .isOk => (.flag l.fault.isNone, l)
  | .takeFault => (.fault l.fault, ⟨l.ahead, []⟩)
  | .describe => (.shown (CharReader.showStatus l.fault), l)

theorem collectFrom_told (s : Segment) (ahead since : List Told) :
    collectFrom (s.told ++ ahead) since = (Utf8.decode s.bytes, ⟨ahead, since ++ s.told⟩) := by
  unfold Segment.told
  generalize Utf8.decode s.bytes = text
  induction text generalizing since with
  | nil => rfl
  | cons c text ih =>
    simp only [List.map_cons, List.cons_append, collectFrom, ih]
    rw [List.append_assoc, List.singleton_append]

end Listener

namespace CharReader

variable {r : CharReader} {l : Listener}

/-- A decoder still has before it what a listener is still told, and keeps the fault that he remembers. -/
structure Tells (r : CharReader) (l : Listener) : Prop where
  ahead : ∃ segs : List Segment,
    r.Spells (segs.flatMap Segment.items) ∧ l.ahead = segs.flatMap Segment.told
  fault : r.fault = l.fault

/-- How the bytes are cut into chunks, and where there are interruptions, is not told. -/
theorem tells_ofChunks {chunks chunks' : List Chunk}
    (h : chunks'.flatMap Chunk.items = chunks.flatMap Chunk.items) :
    (ofScript (.ofChunks chunks')).Tells (.ofChunks chunks) where
  ahead := ⟨segments chunks, ⟨1, by rw [flatMap_items_segments, ← h]; rfl⟩, rfl⟩
  fault := rfl

theorem Tells.next (h : r.Tells l) : r.next.1 = l.next.1 ∧ r.next.2.Tells l.next.2 := by
  obtain ⟨⟨segs, spells, ahead⟩, kept⟩ := h
  obtain ⟨_, since⟩ := l
  subst ahead
  match segs with
  | [] =>
    obtain ⟨s, hs, rest, same⟩ := spells.next_nil
    rw [hs]
    exact ⟨rfl, ⟨[], rest, rfl⟩, by simp [same, kept, Listener.fault, Listener.next, Told.fault?]⟩
  | ⟨[], fault⟩ :: segs =>
    obtain ⟨s, hs, rest, status⟩ := Spells.next_stop spells
    rw [hs]
    refine ⟨rfl, ⟨segs, rest, rfl⟩, ?_⟩
    simp [status, kept, Listener.fault, Listener.next, Segment.told, Told.fault?]
  | ⟨x :: bytes, fault⟩ :: segs =>
    simp only [List.flatMap_cons, Segment.items, List.append_assoc, List.singleton_append] at spells
    obtain ⟨s, hs, rest, same⟩ := Spells.next spells
    rw [hs]
    simp only [List.flatMap_cons, Segment.told, Utf8.decode_cons, List.map_cons, List.cons_append]
    refine ⟨rfl, ⟨⟨_, fault⟩ :: segs, by simpa [Segment.items] using rest, rfl⟩, ?_⟩
    simp [same, kept, Listener.fault, Listener.next, Told.fault?]

theorem Tells.collect (h : r.Tells l) :
    r.collect.1 = (Listener.collectFrom l.ahead l.since).1 ∧
      r.collect.2.Tells (Listener.collectFrom l.ahead l.since).2 := by
  obtain ⟨⟨segs, spells, ahead⟩, kept⟩ := h
  rw [ahead]
  match segs with
  | [] =>
    obtain ⟨s, hs, rest, same⟩ := spells.next_nil
    rw [collect_eq, hs]
    exact ⟨rfl, ⟨[], rest, rfl⟩, by simp [same, kept, Listener.fault, Listener.collectFrom, Told.fault?]⟩
  | seg :: segs =>
    simp only [List.flatMap_cons, Segment.items, List.append_assoc, List.singleton_append] at spells
    obtain ⟨s, hs, rest, status⟩ := Spells.collect spells
    rw [hs, List.flatMap_cons, Listener.collectFrom_told]
    refine ⟨rfl, ⟨segs, rest, rfl⟩, ?_⟩
    have text : ((Utf8.decode seg.bytes).map Told.char).findSome? Told.fault? = none := by
      simp [Told.fault?]
    simp [status, kept, Listener.fault, Segment.told, Told.fault?, text]

/-- A decoder responds as the listener does, and stays with him. -/
theorem Tells.respond (h : r.Tells l) (request : Request) :
    (r.respond request).1 = (l.respond request).1 ∧
      (r.respond request).2.Tells (l.respond request).2 := by
  cases request with
  | next => exact ⟨congrArg Response.char h.next.1, h.next.2⟩
  | collect => exact ⟨congrArg Response.text h.collect.1, h.collect.2⟩
  | isOk => exact ⟨congrArg (fun fault : Option String => Response.flag fault.isNone) h.fault, h⟩
  | takeFault => exact ⟨congrArg Response.fault h.fault, h.ahead, rfl⟩
  | describe => exact ⟨congrArg (fun fault => Response.shown (showStatus fault)) h.fault, h⟩

/-- **A decoder answers all requests as the listener does**, for every script with the same bytes and
stops. -/
theorem answers_eq {chunks chunks' : List Chunk}
    (h : chunks'.flatMap Chunk.items = chunks.flatMap Chunk.items) (requests : List Request) :
    answers respond (ofScript (.ofChunks chunks')) requests =
      answers Listener.respond (.ofChunks chunks) requests :=
  answers_eq_of_alike (fun _ _ request h => h.respond request) (tells_ofChunks h) requests

end CharReader

end LazyPeg.Reader
