import LockTrace.Data.Table
import LockTrace.Sink.Basic
import LockTrace.Sink.Fault
import LockTrace.Threads.Basic

namespace LockTrace

/-- A named output. Several outputs may have one name and then share what arrives under it, but
each has a flaw of its own. -/
structure Labelled where
  name : String
  output : Faulty
  deriving DecidableEq, Repr

instance : Writer Labelled where
  write w count := let (r, output) := w.output.write count; (r, { w with output })
  flush w := let (r, output) := w.output.flush; (r, { w with output })

/-- The places where records can be seen afterwards. -/
inductive Outlet
  | stdout
  | stderr
  | named (name : String)
  deriving DecidableEq, Repr

def Sink.outlet? : Sink Labelled → Option Outlet
  | .stdout => some .stdout
  | .stderr => some .stderr
  | .discard => none
  | .writer w => some (.named w.name)

/-- The emitters of a process, each with its sink, and what has arrived at each outlet, newest
first. The clock stands still at the given time. -/
structure Desk where
  sinks : Table EmitterId (Sink Labelled) := ⟨.discard, []⟩
  arrived : Table Outlet (List Chunk) := ⟨[], []⟩
  clock : Millis := ⟨0⟩

namespace Desk

/-- Installs a sink and hands back the one before it. -/
def replace (d : Desk) (e : EmitterId) (sink : Sink Labelled) : Sink Labelled × Desk :=
  (d.sinks.get e, { d with sinks := d.sinks.set e sink })

/-- Notes what arrived at the outlet of a sink. -/
def deliver (d : Desk) (sink : Sink Labelled) (chunks : List Chunk) : Desk :=
  match sink.outlet? with
  | none => d
  | some o =>
    if chunks.isEmpty then d
    else { d with arrived := d.arrived.set o (chunks.reverse ++ d.arrived.get o) }

/-- Writes an event to the sink of an emitter. -/
def record (d : Desk) (e : EmitterId) (k : Kind) (tid : String) (lock : LockName) :
    Except TraceError Unit × Desk :=
  let line := Record.encode ⟨k, d.clock, tid, lock⟩
  let sink := d.sinks.get e
  let r := sink.put (Text.Utf8.encode line.toList)
  (r.result.mapError .sink, ({ d with sinks := d.sinks.set e r.after }).deliver sink r.chunks)

instance : Recorder Desk := ⟨record⟩

/-- The bytes that have arrived at an outlet. -/
def bytes (d : Desk) (o : Outlet) : List UInt8 :=
  (d.arrived.get o).reverse.flatMap fun
    | .bytes b => b
    | .flushed => []

end Desk

end LockTrace
