namespace LockTrace

/-- The workloads that can be run. -/
inductive Command
  | barrierRendezvous
  | counterIncrement
  | holdContention
  | mutexLockOrderInversion
  | producerConsumer
  deriving DecidableEq, Repr

namespace Command

def all : List Command :=
  [.barrierRendezvous, .counterIncrement, .holdContention, .mutexLockOrderInversion,
    .producerConsumer]

/-- The word on the command line. -/
def word : Command → String
  | .barrierRendezvous => "barrier-rendezvous"
  | .counterIncrement => "counter-increment"
  | .holdContention => "hold-contention"
  | .mutexLockOrderInversion => "mutex-lock-order-inversion"
  | .producerConsumer => "producer-consumer"

def title : Command → String
  | .barrierRendezvous => "BarrierRendezvous"
  | .counterIncrement => "CounterIncrement"
  | .holdContention => "HoldContention"
  | .mutexLockOrderInversion => "MutexLockOrderInversion"
  | .producerConsumer => "ProducerConsumer"

def ofWord? (s : String) : Option Command := all.find? (·.word = s)

end Command

end LockTrace
