import LockTrace.Sink.Error

namespace LockTrace

/-- The answer to one call that hands bytes over: how many were taken, or a failure. A call that
was interrupted is made again at once, so that is no answer. -/
inductive WriteOutcome
  | accepted (count : Nat)
  | failed (cause : IoError)
  deriving DecidableEq, Repr

/-- An output of which nothing is assumed but that it answers. -/
class Writer (W : Type) where
  /-- Is offered so many bytes. -/
  write : W → Nat → WriteOutcome × W
  flush : W → Except IoError Unit × W

/-- What arrives at an output: bytes, and the fact that they were flushed. -/
inductive Chunk
  | bytes (content : List UInt8)
  | flushed
  deriving DecidableEq, Repr

/-- A chunk as text; bytes that are no text stand for the code points of their numbers. -/
def Chunk.text : Chunk → String
  | .flushed => "<flush>"
  | .bytes b =>
    String.ofList ((Text.Utf8.decode? b).getD (b.map fun x => Char.ofNat x.toNat))

/-- Neighbouring bytes as one chunk. -/
def Chunk.join : List Chunk → List Chunk
  | .bytes a :: cs =>
    match Chunk.join cs with
    | .bytes b :: rest => .bytes (a ++ b) :: rest
    | rest => .bytes a :: rest
  | .flushed :: cs => .flushed :: Chunk.join cs
  | [] => []

/-- The outcome of writing: what is reported, what arrived, and the output afterwards. -/
structure Written (W : Type) where
  result : Except IoError Unit
  chunks : List Chunk
  after : W

variable {W : Type} [Writer W]

/-- Offers what is left until all is taken. A call that takes nothing would be repeated for ever
and counts as a failure. -/
def writeAll (w : W) : List UInt8 → Written W
  | [] => ⟨.ok (), [], w⟩
  | b :: bs =>
    match Writer.write w (bs.length + 1) with
    | (.failed e, w) => ⟨.error e, [], w⟩
    | (.accepted 0, w) => ⟨.error .nothingWritten, [], w⟩
    | (.accepted (n + 1), w) =>
      let r := writeAll w (bs.drop n)
      { r with chunks := .bytes (b :: bs.take n) :: r.chunks }
termination_by bytes => bytes.length
decreasing_by simp only [List.length_drop, List.length_cons]; omega

/-- Writes all bytes and flushes. -/
def writeRecord (w : W) (bytes : List UInt8) : Written W :=
  let r := writeAll w bytes
  match r.result with
  | .error _ => r
  | .ok () =>
    match Writer.flush r.after with
    | (.ok (), w) => ⟨.ok (), r.chunks ++ [.flushed], w⟩
    | (.error e, w) => ⟨.error e, r.chunks, w⟩

end LockTrace
