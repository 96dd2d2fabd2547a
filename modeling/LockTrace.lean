import LockTrace.Main
import LockTrace.Proofs.Check.Agreement
import LockTrace.Proofs.Check.Emission
import LockTrace.Proofs.Check.Retry
import LockTrace.Proofs.Record.Spelling
import LockTrace.Proofs.Record.Trailing
import LockTrace.Proofs.Sink.Emissions
import LockTrace.Proofs.Threads.Redirect
import LockTrace.Proofs.Threads.Transparent
import LockTrace.Proofs.Threads.Vigil
import LockTrace.Proofs.Workload.Barrier
import LockTrace.Proofs.Workload.Complaint
import LockTrace.Proofs.Workload.Counter
import LockTrace.Proofs.Workload.Inversion
import LockTrace.Proofs.Workload.Namesake
import LockTrace.Proofs.Workload.Queue
import LockTrace.Session.Run
