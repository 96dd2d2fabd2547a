import LockTrace.Sink.Target
import LockTrace.Sink.Writer

namespace LockTrace

/-- Where the records of an emitter go. -/
inductive Sink (W : Type)
  | stdout
  | stderr
  | discard
  | writer (w : W)

namespace Sink

variable {W : Type}

def ofTarget : Target → Sink W
  | .stdout => .stdout
  | .stderr => .stderr
  | .off => .discard

def describe : Sink W → String
  | .stdout => "Stdout"
  | .stderr => "Stderr"
  | .discard => "Discard"
  | .writer _ => "Writer(..)"

/-- Hands one record over. The streams of the process take every record. -/
def put [Writer W] (sink : Sink W) (bytes : List UInt8) : Written (Sink W) :=
  match sink with
  | .stdout | .stderr => ⟨.ok (), [.bytes bytes, .flushed], sink⟩
  | .discard => ⟨.ok (), [], .discard⟩
  | .writer w =>
    let r := writeRecord w bytes
    ⟨r.result, r.chunks, .writer r.after⟩

end Sink

end LockTrace
