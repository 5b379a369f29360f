import LazyPeg.Csv.CommandLine

/-!
# The program

Standard input is read to its end and handed to `Csv.execute`; what that writes is written.
-/
open LazyPeg

/-- All bytes of a stream, after those read before. -/
partial def readAll (stream : IO.FS.Stream) (before : ByteArray) : IO ByteArray := do
  let bytes ← stream.read 65536
  if bytes.isEmpty then return before else readAll stream (before ++ bytes)

def main (args : List String) : IO UInt32 := do
  let bytes ← readAll (← IO.getStdin) .empty
  let finish := Csv.execute args (.ofChunks [.data bytes.toList])
  (← IO.getStdout).putStr finish.stdout
  (← IO.getStderr).putStr finish.stderr
  return finish.code.toUInt32
