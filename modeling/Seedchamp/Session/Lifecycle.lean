import Seedchamp.Foundation.TransitionSystem
import Seedchamp.Session.Registry
import Mathlib.Data.Finset.Image
import Mathlib.Data.Finset.Lattice.Basic

/-!
The session's life: the serial worker that starts and stops torrents, the ticks that activate what the
catalog wants, and the connections that come and go. Between two lock regions anyone may move.
-/

namespace Seedchamp.Session.Lifecycle
open Hot.Torrent Session.Registry

/-- An entry of the peer table. `id` is the number of its connection and `torrentId` is 0 until an
inbound peer is bound; a stop flag is named by a number, and `Runtime.raised` lists the set ones. -/
structure LivePeer where
  id : Nat
  torrentId : Nat
  cancel : Nat
  deriving DecidableEq

/-- How far a connection is. The last two phases of a dial are `cleared`, after its flag was read, and
`reserved`, once it is in the peer table; a `bound` one runs its session. -/
inductive Phase where
  | absent
  | accepted
  | handshaking
  | known (t : HotTorrent)
  | candidate (t : HotTorrent)
  | cleared (t : HotTorrent)
  | reserved (t : HotTorrent)
  | bound (t : HotTorrent)
  | ended
  deriving DecidableEq

structure Conn where
  inbound : Bool
  cancel : Nat
  phase : Phase
  deriving DecidableEq

/-- Where the mutation worker stands. `took` tells whether the running stop found a flag to raise. -/
inductive WorkerPc where
  | idle
  | startChecking (id : Nat)
  | startHot (id : Nat)
  | startLoading (id : Nat)
  | startPreparing (id : Nat) (t : HotTorrent)
  | startInserting (id : Nat) (t : HotTorrent)
  | stopFlag (id : Nat)
  | stopLooking (id : Nat) (took : Bool)
  | stopRemoving (id : Nat) (took : Bool) (found : Option (List UInt8))
  | stopSweeping (id : Nat) (took : Bool)
  | stopSaving (id : Nat)
  deriving DecidableEq

/-- Where a run of `sync_want_start` stands. -/
inductive SyncPc where
  | idle
  | listing
  | checking (ids : List Nat)
  | flagging (id : Nat) (rest : List Nat)
  | loading (id : Nat) (rest : List Nat)
  | preparing (t : HotTorrent) (rest : List Nat)
  | inserting (t : HotTorrent) (rest : List Nat)
  deriving DecidableEq

/-- `stopped` is history: the torrents whose last request was a stop, and that stop returned `Ok`. -/
structure Runtime where
  catalog : Catalog
  registry : HotRegistry
  torrentCancel : Nat → Option Nat
  raised : Finset Nat
  nextFlag : Nat
  peers : List LivePeer
  maxPeers : Nat
  maxConnections : Nat
  stagingMemLimit : Nat
  conns : Nat → Conn
  spawned : Nat
  worker : WorkerPc
  syncs : Nat → SyncPc
  stopped : Finset Nat

namespace Runtime

def setConn (w : Runtime) (c : Nat) (conn : Conn) : Runtime :=
  { w with conns := Function.update w.conns c conn }

def setPhase (w : Runtime) (c : Nat) (phase : Phase) : Runtime :=
  w.setConn c { w.conns c with phase := phase }

def setSync (w : Runtime) (s : Nat) (pc : SyncPc) : Runtime :=
  { w with syncs := Function.update w.syncs s pc }

/-- `set_want_start(id, true)`, then the load, in one catalog section; either may fail in SQLite. -/
def wantAndLoad (c : Catalog) (id : Nat) (reached loads : Bool) : Catalog × Option HotTorrent :=
  if reached then
    match c.setWantStart id true with
    | .error _ => (c, none)
    | .ok wanted => (wanted, if loads then wanted.load id else none)
  else (c, none)

/-- What an activation does to the torrent between the load and the insert. -/
def prepare (w : Runtime) (t : HotTorrent) : HotTorrent :=
  let limited := t.setStagingMemLimit w.stagingMemLimit
  if limited.isDownloadComplete then limited else limited.ensureStagingPool

/-- Publish a torrent, unless another activation won. -/
def publish (w : Runtime) (t : HotTorrent) : Runtime :=
  if (w.registry.getId t.id).isSome then w else { w with registry := w.registry.insert t }

/-- The peers bound to a torrent. -/
def peerCount (w : Runtime) (id : Nat) : Nat := (w.peers.filter (fun p => p.torrentId = id)).length

def full (w : Runtime) (id : Nat) : Bool := max w.maxPeers 1 ≤ w.peerCount id

/-- Cancel the peers of a torrent and drop them from the table. -/
def sweep (w : Runtime) (id : Nat) : Runtime :=
  { w with
    raised := w.raised ∪ ((w.peers.filter (fun p => p.torrentId = id)).map LivePeer.cancel).toFinset
    peers := w.peers.filter (fun p => p.torrentId ≠ id) }

/-- Accept the start of a torrent: a fresh cancel flag, and the old one is raised. -/
def beginStart (w : Runtime) (id : Nat) : Runtime :=
  { w with
    torrentCancel := Function.update w.torrentCancel id (some w.nextFlag)
    raised :=
      match w.torrentCancel id with
      | some old => insert old w.raised
      | none => w.raised
    nextFlag := w.nextFlag + 1
    worker := .startChecking id
    stopped := w.stopped.erase id }

/-- Take the flag of a torrent out of the table and raise it. -/
def takeFlag (w : Runtime) (id : Nat) : Runtime :=
  { w with
    torrentCancel := Function.update w.torrentCancel id none
    raised :=
      match w.torrentCancel id with
      | some flag => insert flag w.raised
      | none => w.raised
    worker := .stopLooking id (w.torrentCancel id).isSome }

/-- The next lock region of the running job. -/
def workerStep (w : Runtime) (reached loads : Bool) : Option Runtime :=
  match w.worker with
  | .idle => none
  | .startChecking id =>
    if (w.registry.getId id).isSome then some { w with worker := .startHot id }
    else some { w with worker := .startLoading id }
  | .startHot id =>
    some { w with catalog := (wantAndLoad w.catalog id reached false).1, worker := .idle }
  | .startLoading id =>
    let loaded := wantAndLoad w.catalog id reached loads
    some { w with
      catalog := loaded.1
      worker :=
        match loaded.2 with
        | some t => .startPreparing id t
        | none => .idle }
  | .startPreparing id t =>
    some { w with worker := if reached then .startInserting id (w.prepare t) else .idle }
  | .startInserting _ t => some { w.publish t with worker := .idle }
  | .stopFlag id => some (w.takeFlag id)
  | .stopLooking id took =>
    some { w with
      worker := .stopRemoving id took ((w.registry.getId id).map HotTorrent.infohash) }
  | .stopRemoving id took found =>
    some { w with
      registry :=
        match found with
        | some infohash => w.registry.remove infohash
        | none => w.registry
      worker := .stopSweeping id took }
  | .stopSweeping id _ => some { w.sweep id with worker := .stopSaving id }
  | .stopSaving id =>
    if reached then
      match w.catalog.setWantStart id false with
      | .error _ => some { w with worker := .idle }
      | .ok unwanted =>
        some { w with catalog := unwanted, worker := .idle, stopped := insert id w.stopped }
    else some { w with worker := .idle }

/-- The next lock region of a run of `sync_want_start`. -/
def syncStep (w : Runtime) (s : Nat) (reached loads : Bool) : Runtime :=
  match w.syncs s with
  | .idle => w.setSync s .listing
  | .listing =>
    w.setSync s (if reached then .checking w.catalog.listWantStartIds else .idle)
  | .checking [] => w.setSync s .idle
  | .checking (id :: rest) =>
    w.setSync s (if (w.registry.getId id).isSome then .checking rest else .flagging id rest)
  | .flagging id rest =>
    if (w.torrentCancel id).isSome then w.setSync s (.loading id rest)
    else
      { w.setSync s (.loading id rest) with
        torrentCancel := Function.update w.torrentCancel id (some w.nextFlag)
        nextFlag := w.nextFlag + 1 }
  | .loading id rest =>
    let loaded := wantAndLoad w.catalog id reached loads
    { w.setSync s (match loaded.2 with
        | some t => .preparing t rest
        | none => .checking rest) with catalog := loaded.1 }
  | .preparing t rest =>
    w.setSync s (if reached then .inserting (w.prepare t) rest else .checking rest)
  | .inserting t rest => (w.publish t).setSync s (.checking rest)

/-- A connection ends; only an inbound one raises its own flag. -/
def close (w : Runtime) (c : Nat) : Runtime :=
  { w.setPhase c .ended with
    peers := w.peers.filter (fun p => p.id ≠ c)
    raised := if (w.conns c).inbound then insert (w.conns c).cancel w.raised else w.raised }

/-- Bind an inbound peer to the torrent it asked for, if the torrent has room. -/
def bind (w : Runtime) (c : Nat) (t : HotTorrent) (isSelf : Bool) : Runtime :=
  if isSelf || w.full t.id then w.close c
  else
    { w.setPhase c (.bound t) with
      peers := w.peers.map (fun p => if p.id = c then { p with torrentId := t.id } else p) }

/-- An outbound peer takes its place in the table, if the torrent has room. -/
def reserve (w : Runtime) (c : Nat) (t : HotTorrent) : Runtime :=
  if w.full t.id then w.setPhase c .ended
  else
    { w.setPhase c (.reserved t) with peers := w.peers ++ [⟨c, t.id, (w.conns c).cancel⟩] }

/-- The connection runs a session of this torrent: its loop goes on while its flag is down. -/
def Runs (w : Runtime) (c id : Nat) : Prop :=
  ∃ t, (w.conns c).phase = .bound t ∧ t.id = id ∧ (w.conns c).cancel ∉ w.raised

end Runtime

/-- What a connection does. `lookup` names the infohash of a plain handshake, or the one whose
`HASH(req2, SKEY)` the peer sent; `turn` is one pass of the loop of a session. -/
inductive ConnEvent where
  | register
  | lookup (infohash : List UInt8)
  | bind (isSelf : Bool)
  | checkCancel
  | reserve
  | begin'
  | turn
  | close
  deriving DecidableEq

inductive Event where
  | start (id : Nat)
  | stop (id : Nat)
  | worker (reached loads : Bool)
  | sync (s : Nat) (reached loads : Bool)
  | delete (id : Nat)
  | restore (id : Nat) (want : Bool)
  | setMaxPeers (limit : Nat)
  | accept
  | dial (id : Nat)
  | conn (c : Nat) (event : ConnEvent)
  deriving DecidableEq

def connStep (w : Runtime) (c : Nat) (event : ConnEvent) : Option Runtime :=
  match (w.conns c).phase, event with
  | .accepted, .register =>
    some { w.setConn c ⟨true, w.nextFlag, .handshaking⟩ with
      nextFlag := w.nextFlag + 1
      peers := w.peers ++ [⟨c, 0, w.nextFlag⟩] }
  | .handshaking, .lookup infohash =>
    match w.registry.get infohash with
    | some t => some (w.setPhase c (.known t))
    | none => some (w.close c)
  -- a truncated MSE handshake goes back to the registry
  | .known _, .lookup infohash =>
    match w.registry.get infohash with
    | some t => some (w.setPhase c (.known t))
    | none => some (w.close c)
  | .known t, .bind isSelf => some (w.bind c t isSelf)
  | .candidate t, .checkCancel =>
    match w.torrentCancel t.id with
    | none => some (w.setPhase c .ended)
    | some flag =>
      if flag ∈ w.raised then some (w.setPhase c .ended)
      else some (w.setConn c ⟨false, flag, .cleared t⟩)
  | .cleared t, .reserve => some (w.reserve c t)
  | .reserved t, .begin' =>
    if (w.conns c).cancel ∈ w.raised then some (w.close c) else some (w.setPhase c (.bound t))
  | .bound _, .turn => if (w.conns c).cancel ∈ w.raised then none else some w
  | .handshaking, .close => some (w.close c)
  | .known _, .close => some (w.close c)
  | .bound _, .close => some (w.close c)
  | _, _ => none

def step (w : Runtime) : Event → Option Runtime
  | .start id => if w.worker = .idle then some (w.beginStart id) else none
  | .stop id => if w.worker = .idle then some { w with worker := .stopFlag id } else none
  | .worker reached loads => w.workerStep reached loads
  | .sync s reached loads => some (w.syncStep s reached loads)
  | .delete id =>
    match w.catalog.markDeleted id with
    | .ok catalog => some { w with catalog := catalog }
    | .error _ => none
  | .restore id want =>
    some { w with
      catalog := w.catalog.restoreDeleted id want
      stopped := if w.catalog.isDeleted id && want then w.stopped.erase id else w.stopped }
  | .setMaxPeers limit => some { w with maxPeers := limit }
  | .accept =>
    if max w.maxConnections 1 ≤ w.peers.length then none
    else some { w.setConn w.spawned ⟨true, 0, .accepted⟩ with spawned := w.spawned + 1 }
  | .dial id =>
    match w.registry.getId id with
    | some t => some { w.setConn w.spawned ⟨false, 0, .candidate t⟩ with spawned := w.spawned + 1 }
    | none => none
  | .conn c event => connStep w c event

/-- A session that begins with these rows; nothing is hot and nobody is connected. -/
def initial (catalog : Catalog) (maxPeers maxConnections stagingMemLimit : Nat) : Runtime where
  catalog := catalog
  registry := HotRegistry.new
  torrentCancel := fun _ => none
  raised := ∅
  nextFlag := 0
  peers := []
  maxPeers := maxPeers
  maxConnections := maxConnections
  stagingMemLimit := stagingMemLimit
  conns := fun _ => ⟨true, 0, .absent⟩
  spawned := 0
  worker := .idle
  syncs := fun _ => .idle
  stopped := ∅

end Seedchamp.Session.Lifecycle
