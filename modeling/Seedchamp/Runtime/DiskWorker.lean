import Seedchamp.Runtime.DiskThreads
import Seedchamp.Foundation.TransitionSystem

/-!
The session's disk worker: hash workers that hand verified pieces over, the restart of a dead
backend, and every disk thread that was ever spawned.
-/

namespace Seedchamp.Runtime.DiskWorker
open Runtime.DiskJobs Runtime.DiskThreads Disk.Spans Foundation.KeyedRows

def maxDiskRestarts : Nat := 3

/-- `DISK_RESTART_COOLDOWN` in milliseconds. -/
def diskRestartCooldown : Nat := 5000

inductive DiskBackendKind where
  | thread
  | uring
  | aio
  deriving DecidableEq, Repr

inductive BackendWant where
  | auto
  | thread
  | uring
  | aio
  deriving DecidableEq, Repr

inductive TargetOs where
  | linux
  | freebsd
  | other
  deriving DecidableEq, Repr

/-- `spawn_backend`: the backend of the platform where it is wanted and spawns, else the thread. -/
def spawnBackend (want : BackendWant) (os : TargetOs) (native thread : Bool) :
    Option DiskBackendKind :=
  let fallback := if thread then some .thread else none
  match want, os with
  | .thread, _ => fallback
  | .uring, .linux => if native then some .uring else fallback
  | .uring, _ => fallback
  | .aio, .freebsd => if native then some .aio else fallback
  | .aio, _ => fallback
  | .auto, .linux => if native then some .uring else fallback
  | .auto, .freebsd => if native then some .aio else fallback
  | .auto, .other => fallback

structure Worker where
  channel : Channel
  thread : Thread

def Worker.held (worker : Worker) : List DiskWriteJob := worker.channel.queue ++ worker.thread.held

/-- A disk thread as it is spawned. -/
def Worker.spawn (kind : DiskBackendKind) : Worker where
  channel := ⟨[], true⟩
  thread :=
    match kind with
    | .thread => .sync ⟨none, .receive⟩
    | .uring => .uring ⟨⟨[], Rows.empty, 1, true, .setUp⟩, ⟨[], []⟩⟩
    | .aio => .aio ⟨[], Rows.empty, 1, true, .fill⟩

inductive SubmitError where
  | diskWorkerPermanent
  | diskWorkerStopped
  deriving DecidableEq, Repr

/-- Where a hash worker stands in `handle_verify`; a number is a backend that a local variable
holds. -/
inductive Submit where
  | permanentCheck
  | cloneBackend
  | send (backend : Nat)
  | tryRestart (backend now : Nat)
  | spawn (backend : Nat)
  | install (backend fresh : Nat)
  | cloneAgain (backend : Nat)
  | sendAgain (backend again : Nat)
  | permanentQuery (backend : Nat)
  | refused (error : SubmitError)
  | returned (accepted : Bool)
  deriving DecidableEq, Repr

def Submit.holds : Submit → List Nat
  | .send backend | .tryRestart backend _ | .spawn backend | .cloneAgain backend
  | .permanentQuery backend => [backend]
  | .install backend fresh => [backend, fresh]
  | .sendAgain backend again => [backend, again]
  | _ => []

structure Task where
  job : DiskWriteJob
  phase : Submit
  deriving DecidableEq, Repr

/-- A hash worker that has not passed its job on. -/
def Task.held (task : Task) : List DiskWriteJob :=
  match task.phase with
  | .returned _ => []
  | _ => [task.job]

structure Config where
  want : BackendWant
  os : TargetOs
  disk : DiskThreads.Config
  deriving DecidableEq, Repr

/-- `delivered` and `lost` are history: every outcome sent, and every job that a thread dropped
without one. -/
structure World where
  workers : List Worker
  backend : Nat
  restarts : Nat
  lastRestart : Option Nat
  deadPermanent : Bool
  alive : Bool
  clock : Nat
  tasks : List Task
  delivered : List Delivery
  lost : List DiskWriteJob

inductive Event where
  /-- A hash worker takes a piece; `same` is the SHA-1 comparison. -/
  | verify (index plen : Nat) (data : List UInt8) (layout : StorageLayout) (same : Bool)
  /-- Hash worker `t` takes its next section; the flags say what spawns, if it spawns. -/
  | submit (t : Nat) (native thread : Bool)
  | thread (w : Nat) (event : ThreadEvent)
  | tick (millis : Nat)
  | shutdown

namespace World

/-- Some handle of backend `w` is left, so its channel is not disconnected. -/
def connected (s : World) (w : Nat) : Bool :=
  (s.alive && decide (s.backend = w)) || s.tasks.any (fun task => decide (w ∈ task.phase.holds))

def held (s : World) : List DiskWriteJob :=
  s.tasks.flatMap Task.held ++ s.workers.flatMap Worker.held

def moved (s : World) (t : Nat) (task : Task) (phase : Submit) : World :=
  { s with tasks := s.tasks.set t { task with phase := phase } }

def deliver (s : World) (delivery : Delivery) : World :=
  { s with delivered := s.delivered ++ [delivery] }

/-- The part of `handle_verify` before the disk. -/
def verify (cfg : Config) (s : World) (index plen : Nat) (data : List UInt8)
    (layout : StorageLayout) (same : Bool) : World :=
  let job : DiskWriteJob := ⟨index, plen, data, layout, s.tasks.length⟩
  if !same then
    ({ s with tasks := s.tasks ++ [⟨job, .returned false⟩] } : World).deliver (.hashFail job)
  else if cfg.disk.discardWrites then
    ({ s with tasks := s.tasks ++ [⟨job, .returned false⟩] } : World).deliver (.ok job)
  else { s with tasks := s.tasks ++ [⟨job, .permanentCheck⟩] }

/-- `backend.submit(job)`: blocks while the channel is full, fails once the receiver is gone. -/
def send (cfg : Config) (s : World) (t : Nat) (task : Task) (w : Nat) (dead : Submit) :
    Option World :=
  match s.workers[w]? with
  | none => none
  | some worker =>
    if !worker.channel.receiver then some (s.moved t task dead)
    else if worker.channel.queue.length < cfg.disk.slots then
      some { s.moved t task (.returned true) with
        workers := s.workers.set w { worker with
          channel := { worker.channel with queue := worker.channel.queue ++ [task.job] } } }
    else none

/-- The first section of `try_restart`. -/
def tryRestart (s : World) (t : Nat) (task : Task) (backend now : Nat) : World :=
  if s.deadPermanent then s.moved t task (.permanentQuery backend)
  else if maxDiskRestarts ≤ s.restarts then
    { s.moved t task (.permanentQuery backend) with deadPermanent := true }
  else if s.lastRestart.any (fun last => decide (now - last < diskRestartCooldown)) then
    s.moved t task (.permanentQuery backend)
  else
    { s.moved t task (.spawn backend) with
      restarts := s.restarts + 1
      lastRestart := some now }

/-- `spawn_backend` outside the lock; where it fails, the section after it. -/
def spawn (cfg : Config) (s : World) (t : Nat) (task : Task) (backend : Nat) (native thread : Bool) :
    World :=
  match spawnBackend cfg.want cfg.os native thread with
  | some kind =>
    { s.moved t task (.install backend s.workers.length) with
      workers := s.workers ++ [Worker.spawn kind] }
  | none =>
    { s.moved t task (.permanentQuery backend) with
      deadPermanent := s.deadPermanent || decide (maxDiskRestarts ≤ s.restarts) }

/-- The last section of `try_restart`: the new backend takes the place of the old one. -/
def install (s : World) (t : Nat) (task : Task) (backend fresh : Nat) : World :=
  if s.deadPermanent then s.moved t task (.permanentQuery backend)
  else { s.moved t task (.cloneAgain backend) with backend := fresh }

/-- One section of `submit_write`, or the reply that `handle_verify` sends when it has failed. -/
def submit (cfg : Config) (s : World) (t : Nat) (task : Task) (native thread : Bool) : Option World :=
  match task.phase with
  | .permanentCheck =>
    some (s.moved t task (if s.deadPermanent then .refused .diskWorkerPermanent else .cloneBackend))
  | .cloneBackend => some (s.moved t task (.send s.backend))
  | .send backend => s.send cfg t task backend (.tryRestart backend s.clock)
  | .tryRestart backend now => some (s.tryRestart t task backend now)
  | .spawn backend => some (s.spawn cfg t task backend native thread)
  | .install backend fresh => some (s.install t task backend fresh)
  | .cloneAgain backend => some (s.moved t task (.sendAgain backend s.backend))
  | .sendAgain _ again => s.send cfg t task again (.refused .diskWorkerStopped)
  | .permanentQuery _ =>
    some (s.moved t task
      (.refused (if s.deadPermanent then .diskWorkerPermanent else .diskWorkerStopped)))
  | .refused _ =>
    some ((s.moved t task (.returned false)).deliver
      (.writeFail task.job))
  | .returned _ => none

/-- Disk thread `w` takes a turn. -/
def turn (cfg : Config) (s : World) (w : Nat) (worker : Worker) (event : ThreadEvent) :
    Option World :=
  (worker.thread.step cfg.disk (s.connected w) worker.channel event).map (fun turn =>
    { s with
      workers := s.workers.set w ⟨turn.channel, turn.state⟩
      delivered := s.delivered ++ turn.delivered
      lost := s.lost ++ turn.lost })

end World

def step (cfg : Config) (s : World) : Event → Option World
  | .verify index plen data layout same =>
    if s.alive then some (s.verify cfg index plen data layout same) else none
  | .submit t native thread => (s.tasks[t]?).bind (fun task => s.submit cfg t task native thread)
  | .thread w event => (s.workers[w]?).bind (fun worker => s.turn cfg w worker event)
  | .tick millis => some { s with clock := s.clock + millis }
  | .shutdown =>
    if s.tasks.all (fun task => task.held.isEmpty) then some { s with alive := false } else none

/-- A session that starts with a disk thread of some kind. -/
def initial (kind : DiskBackendKind) : World where
  workers := [Worker.spawn kind]
  backend := 0
  restarts := 0
  lastRestart := none
  deadPermanent := false
  alive := true
  clock := 0
  tasks := []
  delivered := []
  lost := []

end Seedchamp.Runtime.DiskWorker
