import OpenHes.Model.SyncWorker

/-!
# The stop of the sync thread

`services/time/time_sync.c`: `time_sync_stop` beside `sync_worker`, one statement of the one and one
step of the other at a time, in whatever order. The mutex and the condition variable that they
share are those of POSIX threads: who waits on the condition variable lets the mutex go in the same
moment, and has it again before it goes on. A refresh is one step: where it takes the mutex for its
results, it reads no flag.
-/

set_option autoImplicit false

namespace OpenHes.Model

/-- Who holds the mutex. -/
inductive MutexOwner
  | syncThread
  | stopper
  deriving DecidableEq

/-- Where `time_sync_stop` is: not called, behind one of its statements, or back. -/
inductive StopPhase
  | running
  | locked
  | flagged
  | signalled
  | joining
  | joined
  | condDestroyed
  | mutexDestroyed
  | freed
  deriving DecidableEq

/-- `struct time_sync` with the two threads at it; `woken` tells whether the wait of the sync thread
is over, so that it only waits for the mutex. -/
structure SyncThreads where
  worker : Worker
  owner : Option MutexOwner := none
  woken : Bool := false
  stop : Bool := false
  stopper : StopPhase := .running
  deriving DecidableEq

/-- `time_sync_start`, where there is a thread. -/
def syncThreadsStart (cfg : TimeSyncSetup) : SyncThreads where
  worker := workerStart cfg

/-- Who goes on: the sync thread, at a reading of the monotonic clock; the one who stops it; or
nobody, but the wait of the sync thread is over, in time or for no reason. -/
inductive ThreadStep
  | worker (clock : Option Timespec)
  | stopper
  | wakeUp
  deriving DecidableEq

/-- Does the sync thread need the mutex for what it does next? -/
def Worker.needsMutex (w : Worker) : Bool := w.phase = .lock || w.phase = .asleep

/-- Have the mutex and the condition variable begun to go? -/
def StopPhase.destroys : StopPhase → Bool
  | .condDestroyed | .mutexDestroyed | .freed => true
  | _ => false

/-- The sync thread goes on; none where it uses what is destroyed. What it does with the mutex ends
with letting it go: at the end of the turn, or in the wait. -/
def workerGoes (s : SyncThreads) (clock : Option Timespec) : Option SyncThreads :=
  if s.worker.phase = .stopped then some s
  else if s.stopper.destroys then none
  else if s.worker.needsMutex then
    if s.owner = some .syncThread then
      some { s with worker := workerStep s.worker ⟨clock, s.stop⟩, owner := none, woken := false }
    else if s.owner = none ∧ (s.worker.phase = .lock ∨ s.woken = true) then
      some { s with owner := some .syncThread }
    else some s
  else some { s with worker := workerStep s.worker ⟨clock, s.stop⟩ }

/-- `time_sync_stop` goes on; none where it destroys a condition variable that is waited on, or a
mutex that is held. -/
def stopperGoes (s : SyncThreads) : Option SyncThreads :=
  match s.stopper with
  | .running =>
    if s.owner = none then some { s with owner := some .stopper, stopper := .locked } else some s
  | .locked => some { s with stop := true, stopper := .flagged }
  | .flagged =>
    some { s with woken := s.woken || s.worker.phase = .asleep, stopper := .signalled }
  | .signalled => some { s with owner := none, stopper := .joining }
  | .joining => if s.worker.phase = .stopped then some { s with stopper := .joined } else some s
  | .joined =>
    if s.worker.phase = .asleep then none else some { s with stopper := .condDestroyed }
  | .condDestroyed => if s.owner = none then some { s with stopper := .mutexDestroyed } else none
  | .mutexDestroyed => some { s with stopper := .freed }
  | .freed => some s

/-- One step. -/
def threadStep (s : SyncThreads) : ThreadStep → Option SyncThreads
  | .worker clock => workerGoes s clock
  | .stopper => stopperGoes s
  | .wakeUp => some { s with woken := s.woken || s.worker.phase = .asleep }

/-- The steps of a run. -/
def threadRun (s : SyncThreads) (steps : List ThreadStep) : Option SyncThreads :=
  steps.foldlM threadStep s

end OpenHes.Model
