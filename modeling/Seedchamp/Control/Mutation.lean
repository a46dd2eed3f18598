import Seedchamp.Session.Lifecycle
import Seedchamp.Foundation.Tasks

/-!
The serial mutation worker over the session: user requests come through one queue, a recheck runs
detached and comes back through the same queue to restart the torrent.
-/

namespace Seedchamp.Control.Mutation
open Session.Registry Session.Lifecycle

inductive MutationJob where
  | start (id : Nat)
  | stop (id : Nat)
  | recheck (id : Nat)
  | syncAfterRecheck (id : Nat) (start : Bool)
  deriving DecidableEq, Repr

/-- Where a detached recheck stands; `hashing` includes writing the bitfield. -/
inductive Phase where
  | hashing
  | reading
  | sending
  | returned
  deriving DecidableEq, Repr

structure Recheck where
  id : Nat
  wasHot : Bool
  start : Bool
  phase : Phase
  deriving DecidableEq, Repr

/-- `resume` is the `SyncAfterRecheck` whose stop is running. `intent` is history: what the last user
request the worker took wants of a torrent, or, without one, whether it was hot when a recheck began. -/
structure Plane where
  session : Runtime
  queue : List MutationJob
  resume : Option (Nat × Bool)
  recheckInflight : Finset Nat
  rechecks : List Recheck
  intent : Nat → Option Bool

inductive Event where
  | requestStart (id : Nat)
  | requestStop (id : Nat)
  | requestRecheck (id : Nat)
  /-- The worker goes on to its next action; a recheck thread may fail to spawn. -/
  | receive (spawned : Bool)
  | worker (reached loads : Bool)
  | tick (s : Nat) (reached loads : Bool)
  | hashed (k : Nat) (ok : Bool)
  | readWant (k : Nat) (reached : Bool)
  | send (k : Nat)
  deriving DecidableEq, Repr

namespace Plane

def isHot (s : Plane) (id : Nat) : Bool := (s.session.registry.getId id).isSome

def ask (s : Plane) (id : Nat) (want : Bool) : Plane :=
  { s with intent := Function.update s.intent id (some want) }

/-- The worker begins `start_torrent`. -/
def beginStart (s : Plane) (id : Nat) : Plane := { s with session := s.session.beginStart id }

/-- The worker begins `stop_torrent`. -/
def beginStop (s : Plane) (id : Nat) : Plane :=
  { s with session := { s.session with worker := .stopFlag id } }

/-- `Recheck`: detached at once, and not while one of the torrent is running. -/
def beginRecheck (s : Plane) (id : Nat) (spawned : Bool) : Plane :=
  if id ∈ s.recheckInflight || !spawned then s
  else
    { s with
      recheckInflight := insert id s.recheckInflight
      rechecks := s.rechecks ++ [⟨id, s.isHot id, false, .hashing⟩]
      intent :=
        if (s.intent id).isNone && s.isHot id then Function.update s.intent id (some true)
        else s.intent }

/-- Carry out a job until it waits for the session. -/
def carryOut (s : Plane) (spawned : Bool) : MutationJob → Plane
  | .start id => (s.ask id true).beginStart id
  | .stop id => (s.ask id false).beginStop id
  | .recheck id => s.beginRecheck id spawned
  | .syncAfterRecheck id start =>
    if s.isHot id then { s.beginStop id with resume := some (id, start) }
    else if start then s.beginStart id
    else s

def receive (s : Plane) (spawned : Bool) : Option Plane :=
  if s.session.worker = .idle then
    match s.resume, s.queue with
    | some (id, start), _ =>
      let rested := { s with resume := none }
      some (if start then rested.beginStart id else rested)
    | none, job :: rest => some ({ s with queue := rest }.carryOut spawned job)
    | none, [] => none
  else none

def enqueue (s : Plane) (job : MutationJob) : Plane := { s with queue := s.queue ++ [job] }

def setRecheck (s : Plane) (k : Nat) (recheck : Recheck) : Plane :=
  { s with rechecks := s.rechecks.set k recheck }

/-- One section of a detached recheck. -/
def advance (s : Plane) (k : Nat) (r : Recheck) : Event → Option Plane
  | .hashed _ ok =>
    if r.phase = .hashing then
      some { s.setRecheck k { r with phase := if ok then .reading else .returned } with
        recheckInflight := s.recheckInflight.erase r.id }
    else none
  | .readWant _ reached =>
    if r.phase = .reading then
      let wantStart := reached && s.session.catalog.wants r.id
      some (s.setRecheck k { r with
        start := r.wasHot || wantStart
        phase := if r.wasHot || wantStart then .sending else .returned })
    else none
  | .send _ =>
    if r.phase = .sending then
      some ((s.setRecheck k { r with phase := .returned }).enqueue (.syncAfterRecheck r.id r.start))
    else none
  | _ => none

end Plane

def step (s : Plane) : Event → Option Plane
  | .requestStart id => some (s.enqueue (.start id))
  | .requestStop id => some (s.enqueue (.stop id))
  | .requestRecheck id => some (s.enqueue (.recheck id))
  | .receive spawned => s.receive spawned
  | .worker reached loads =>
    (s.session.workerStep reached loads).map (fun session => { s with session := session })
  | .tick t reached loads => some { s with session := s.session.syncStep t reached loads }
  | .hashed k ok => (s.rechecks[k]?).bind (fun r => s.advance k r (.hashed k ok))
  | .readWant k reached => (s.rechecks[k]?).bind (fun r => s.advance k r (.readWant k reached))
  | .send k => (s.rechecks[k]?).bind (fun r => s.advance k r (.send k))

/-- The torrents of the catalog that nobody wants started. -/
def unwantedIds (c : Catalog) : Finset Nat :=
  ((c.rows.filter (fun r => !r.wantStart)).map (fun r => r.row.id)).toFinset

/-- A session that begins with these rows: what is not wanted counts as stopped. -/
def initial (catalog : Catalog) (maxPeers maxConnections stagingMemLimit : Nat) : Plane where
  session :=
    { Seedchamp.Session.Lifecycle.initial catalog maxPeers maxConnections stagingMemLimit with
      stopped := unwantedIds catalog }
  queue := []
  resume := none
  recheckInflight := ∅
  rechecks := []
  intent := fun id => if id ∈ unwantedIds catalog then some false else none

end Seedchamp.Control.Mutation
