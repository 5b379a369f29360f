/-!
# Scripted readers

A reader hands out bytes a call at a time.  What it will do is written down beforehand as a list of
chunks, one for each call: some bytes, a fault, or an interruption, after which the call is worth
repeating.  A chunk without bytes, and every call after the last chunk, gives no bytes, which means
the end of the file for that call.

Behind a buffer only bytes and stops remain: `Buffered.items` lists them, and `Buffered.next_eq` says
that they come one after the other, however the chunks were cut.
-/
namespace LazyPeg.Reader

/-- What a reader does when it is called. -/
inductive Chunk where
  | data (bytes : List UInt8)
  | fault (message : String)
  | interruption (message : String)
  deriving DecidableEq, Repr

/-- A reader: the chunks still to come and how often it was called. -/
structure Script where
  chunks : List Chunk
  reads : Nat
  deriving DecidableEq, Repr

/-- A reader that was never called. -/
def Script.ofChunks (chunks : List Chunk) : Script := ⟨chunks, 0⟩

/-- What a call came to, interruptions apart.  No data is the end of the file. -/
inductive Answer where
  | data (bytes : List UInt8)
  | fault (message : String)
  deriving DecidableEq, Repr

/-- The chunks that remain when `limit` bytes of a chunk were handed out. -/
def putBack (bytes : List UInt8) (limit : Nat) (chunks : List Chunk) : List Chunk :=
  if bytes.length ≤ limit then chunks else .data (bytes.drop limit) :: chunks

/-- Call a reader for at most `limit` bytes, and again as long as it is interrupted. -/
def Script.readFrom (limit : Nat) : List Chunk → Nat → Answer × Script
  | [], reads => (.data [], ⟨[], reads + 1⟩)
  | .data bytes :: chunks, reads =>
    (.data (bytes.take limit), ⟨putBack bytes limit chunks, reads + 1⟩)
  | .fault message :: chunks, reads => (.fault message, ⟨chunks, reads + 1⟩)
  | .interruption _ :: chunks, reads => readFrom limit chunks (reads + 1)

/-- Call a reader for at most `limit` bytes until it gives an answer. -/
def Script.read (limit : Nat) (s : Script) : Answer × Script :=
  readFrom limit s.chunks s.reads

/-! ## The buffer -/

/-- How many bytes the buffer asks for at a time. -/
def bufferSize : Nat := 8192

/-- A reader behind a buffer, which asks for more only when it is empty. -/
structure Buffered where
  script : Script
  buffer : List UInt8
  deriving DecidableEq, Repr

/-- What stands at one place of a stream of bytes: a byte, or a stop, which is the end of the file
or a fault. -/
inductive Item where
  | byte (b : UInt8)
  | stop (fault : Option String)
  deriving DecidableEq, Repr

/-- The item is a byte. -/
def Item.isByte : Item → Bool
  | byte _ => true
  | stop _ => false

/-- Take the next item.  A stop is met once; the reader is asked again after it. -/
def Buffered.next (r : Buffered) : Item × Buffered :=
  match r.buffer with
  | b :: rest => (.byte b, ⟨r.script, rest⟩)
  | [] =>
    match r.script.read bufferSize with
    | (.data (b :: rest), script) => (.byte b, ⟨script, rest⟩)
    | (.data [], script) => (.stop none, ⟨script, []⟩)
    | (.fault message, script) => (.stop (some message), ⟨script, []⟩)

/-! ## What a reader still gives -/

/-- The items of a chunk. -/
def Chunk.items : Chunk → List Item
  | data [] => [.stop none]
  | data (b :: bytes) => .byte b :: bytes.map .byte
  | fault message => [.stop (some message)]
  | interruption _ => []

/-- The items that a reader still gives.  After the last of them every item is an end of the file. -/
def Buffered.items (r : Buffered) : List Item :=
  r.buffer.map .byte ++ r.script.chunks.flatMap Chunk.items

theorem Chunk.items_putBack {b : UInt8} {bytes : List UInt8} {limit : Nat} (chunks : List Chunk) :
    (bytes.take limit).map Item.byte ++ (putBack (b :: bytes) (limit + 1) chunks).flatMap items =
      bytes.map Item.byte ++ chunks.flatMap items := by
  unfold putBack
  split
  next h => rw [List.take_of_length_le (by simpa using h)]
  next h =>
    have rest : bytes.drop limit ≠ [] := by
      simp only [List.length_cons] at h
      simp only [ne_eq, List.drop_eq_nil_iff]
      omega
    obtain ⟨c, cs, hcs⟩ := List.exists_cons_of_ne_nil rest
    have bytes_eq : bytes = bytes.take limit ++ c :: cs := by rw [← hcs, List.take_append_drop]
    rw [show (b :: bytes).drop (limit + 1) = c :: cs from hcs]
    simp only [List.flatMap_cons, items]
    rw [← List.map_cons, ← List.append_assoc, ← List.map_append, ← bytes_eq]

/-- A buffered reader gives its items one after the other. -/
theorem Buffered.next_eq (r : Buffered) :
    r.next.1 = r.items.headD (.stop none) ∧ r.next.2.items = r.items.tail := by
  obtain ⟨⟨chunks, reads⟩, _ | ⟨b, rest⟩⟩ := r
  case cons => simp [next, items]
  case nil =>
    induction chunks generalizing reads with
    | nil => simp [next, items, Script.read, Script.readFrom]
    | cons chunk chunks ih =>
      match chunk with
      | .data [] => simp [next, items, Script.read, Script.readFrom, putBack, Chunk.items]
      | .data (b :: bytes) =>
        simpa [next, items, Script.read, Script.readFrom, Chunk.items, bufferSize]
          using @Chunk.items_putBack b bytes 8191 chunks
      | .fault message => simp [next, items, Script.read, Script.readFrom, Chunk.items]
      | .interruption message =>
        simpa [next, items, Script.read, Script.readFrom, Chunk.items] using ih (reads + 1)

end LazyPeg.Reader
