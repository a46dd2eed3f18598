import Seedchamp.Foundation.Tally
import Seedchamp.Foundation.TransitionSystem
import Mathlib.Logic.Function.Basic
import Mathlib.Data.Finset.SDiff
import Mathlib.Data.Finset.Filter

/-!
The connection limits of a session. Dials, accepted connections and stops take their steps in any order; a
step is one section under one lock. `holdsKey` and `holdsEntry` are history: what a connection has put into
the shared tables and nobody has taken back on its behalf.
-/

namespace Seedchamp.Session.Slots
open Foundation.Tally

/-! ### Connections -/

structure SocketAddr where
  ip : Nat
  port : Nat
  deriving DecidableEq

/-- An entry of the peers table; `torrentId` is 0 until an inbound connection is bound. -/
structure LivePeer where
  torrentId : Nat
  addr : SocketAddr
  listenPort : Option Nat
  deriving DecidableEq

/-- What a connection does next. A dial runs from `asked` to `reserved` in `spawn_outbound`, an accepted
connection stands at `admitted` until `spawn_inbound` has handed it to a worker. -/
inductive Phase where
  | absent
  | asked
  | checked
  | keyed
  | flagged (flag : Option Nat)
  | cleared
  | refused
  | reserved
  | admitted
  | queued
  | entering
  | handshaking
  | running
  | leaving
  | unkeying
  | released
  | lost
  | done
  deriving DecidableEq

/-- A dial or an accepted connection. It is named by the id under which it enters the peers table. -/
structure Conn where
  outbound : Bool
  torrent : Nat
  addr : SocketAddr
  cancel : Option Nat
  phase : Phase
  worker : Option Nat
  holdsKey : Bool
  holdsEntry : Bool
  deriving DecidableEq

def Conn.key (c : Conn) : Nat × SocketAddr := (c.torrent, c.addr)

def Conn.dialled (torrent : Nat) (addr : SocketAddr) : Conn := ⟨true, torrent, addr, none, .asked, none, false, false⟩

def Conn.accepted (addr : SocketAddr) : Conn := ⟨false, 0, addr, none, .admitted, none, false, false⟩

def blank : Conn := ⟨false, 0, ⟨0, 0⟩, none, .absent, none, false, false⟩

/-- A section of `stop_torrent` that is still to come. -/
inductive Sweep where
  | keys (id : Nat)
  | entries (id : Nat)
  deriving DecidableEq

structure Config where
  maxPeers : Nat
  maxConnections : Nat
  workers : Nat

structure State where
  conns : Nat → Conn
  begun : Nat
  peers : Nat → Option LivePeer
  connectedOut : Finset (Nat × SocketAddr)
  torrentCancel : Nat → Option Nat
  cancelled : Finset Nat
  flags : Nat
  peerCounts : Nat → Nat
  activePeers : Nat
  stop : Bool
  sweeps : List Sweep

def initial : State where
  conns := fun _ => blank
  begun := 0
  peers := fun _ => none
  connectedOut := ∅
  torrentCancel := fun _ => none
  cancelled := ∅
  flags := 0
  peerCounts := fun _ => 0
  activePeers := 0
  stop := false
  sweeps := []

def bound (tid : Nat) (entry : Option LivePeer) : Bool := entry.any (fun p => p.torrentId = tid)

/-- `peer_count_for_torrent`. -/
def State.peerCountForTorrent (w : State) (tid : Nat) : Nat := tally (fun s => bound tid (w.peers s)) w.begun

def State.peersLen (w : State) : Nat := tally (fun s => (w.peers s).isSome) w.begun

/-- The second half of `already_have_peer`: a session with this listen address. -/
def listens (tid : Nat) (addr : SocketAddr) (entry : Option LivePeer) : Bool :=
  entry.any (fun p => decide (p.torrentId = tid) &&
    (decide (p.addr = addr) || (decide (p.addr.ip = addr.ip) && decide (p.listenPort = some addr.port))))

def State.alreadyListed (w : State) (tid : Nat) (addr : SocketAddr) : Bool :=
  decide (∃ s < w.begun, listens tid addr (w.peers s) = true)

/-- How `spawn_peer` ends: the pool is shut, or the queue of the worker is closed, which is found out only
after the counts went up. -/
inductive Spawn where
  | ok
  | shut
  | closed
  deriving DecidableEq

inductive Event where
  | dial (torrent : Nat) (addr : SocketAddr)
  | look (s : Nat)
  | cooledDown (s : Nat)
  | insertKey (s : Nat)
  | readFlag (s : Nat)
  | checkFlag (s : Nat)
  | dropKey (s : Nat)
  | reserve (s : Nat)
  | accept (addr : SocketAddr)
  | spawn (s worker : Nat) (outcome : Spawn)
  | begin (s : Nat)
  | fromStdFails (s : Nat)
  | enter (s : Nat)
  | bind (s tid : Nat)
  | finish (s : Nat)
  | removeEntry (s : Nat)
  | removeKey (s : Nat)
  | release (s : Nat)
  | start (id : Nat)
  | activate (id : Nat)
  | stop (id : Nat)
  | sweep (k : Nat)
  | shutdown
  deriving DecidableEq

def State.put (w : State) (s : Nat) (c : Conn) : State := { w with conns := Function.update w.conns s c }

def State.move (w : State) (s : Nat) (phase : Phase) : State := w.put s { w.conns s with phase := phase }

/-- The next connection. -/
def State.open (w : State) (c : Conn) : State := { w.put w.begun c with begun := w.begun + 1 }

/-- `connected_out.insert`: a key that is there ends the dial. -/
def insertKey (w : State) (s : Nat) : State :=
  let c := w.conns s
  if c.key ∈ w.connectedOut then w.move s .done
  else { w.put s { c with phase := .keyed, holdsKey := true } with connectedOut := insert c.key w.connectedOut }

/-- Without a flag the torrent has been stopped already. -/
def checkFlag (w : State) (s : Nat) (flag : Option Nat) : State :=
  if flag.all (fun f => decide (f ∈ w.cancelled)) then w.move s .refused
  else w.put s { w.conns s with phase := .cleared, cancel := flag }

/-- The session's own key leaves `connected_out`. -/
def takeKey (w : State) (s : Nat) (next : Phase) : State :=
  { w.put s { w.conns s with phase := next, holdsKey := false } with
    connectedOut := w.connectedOut.erase (w.conns s).key }

/-- Reserve a peer slot of the torrent. -/
def reserve (cfg : Config) (w : State) (s : Nat) : State :=
  let c := w.conns s
  if max cfg.maxPeers 1 ≤ w.peerCountForTorrent c.torrent then w.move s .refused
  else
    { w.put s { c with phase := .reserved, holdsEntry := true } with
      peers := Function.update w.peers s (some ⟨c.torrent, c.addr, some c.addr.port⟩) }

/-- `spawn_peer`; the answer of `least_peers_worker` is out of date when the count goes up, so any worker
can be meant. A failed dial keeps its entry and its key. -/
def spawn (w : State) (s i : Nat) : Spawn → State
  | .ok =>
    { w.put s { w.conns s with phase := .queued, worker := some i } with
      peerCounts := Function.update w.peerCounts i (w.peerCounts i + 1)
      activePeers := w.activePeers + 1 }
  | .shut => w.move s (if (w.conns s).outbound then .lost else .done)
  | .closed =>
    { w.move s .lost with
      peerCounts := Function.update w.peerCounts i (w.peerCounts i + 1)
      activePeers := w.activePeers + 1 }

/-- The worker starts the future; a dial looks whether it has been cancelled. -/
def begin' (w : State) (s : Nat) : State :=
  let c := w.conns s
  if c.outbound then
    if w.stop || c.cancel.any (fun f => decide (f ∈ w.cancelled)) then w.move s .leaving else w.move s .running
  else w.move s .entering

/-- An accepted connection enters the table without a torrent. -/
def enter (w : State) (s : Nat) : State :=
  let c := w.conns s
  { w.put s { c with phase := .handshaking, holdsEntry := true } with
    peers := Function.update w.peers s (some ⟨0, c.addr, none⟩) }

/-- `on_bound`: the connection takes a slot of the torrent, or is refused. -/
def onBound (cfg : Config) (w : State) (s tid : Nat) : State :=
  if max cfg.maxPeers 1 ≤ w.peerCountForTorrent tid then w.move s .leaving
  else
    { w.put s { w.conns s with phase := .running, torrent := tid } with
      peers := Function.update w.peers s ((w.peers s).map (fun p => { p with torrentId := tid })) }

def removeEntry (w : State) (s : Nat) : State :=
  let c := w.conns s
  { w.put s { c with phase := if c.outbound then .unkeying else .released, holdsEntry := false } with
    peers := Function.update w.peers s none }

/-- The guard of the worker drops. -/
def release (w : State) (s i : Nat) : State :=
  { w.put s { w.conns s with phase := .done, worker := none } with
    peerCounts := Function.update w.peerCounts i (w.peerCounts i - 1)
    activePeers := w.activePeers - 1 }

/-- A user start cancels an old flag and makes a new one. -/
def start (w : State) (id : Nat) : State :=
  { w with
    torrentCancel := Function.update w.torrentCancel id (some w.flags)
    cancelled := w.cancelled ∪ (w.torrentCancel id).toFinset
    flags := w.flags + 1 }

/-- `sync_want_start` makes a flag only where there is none. -/
def activate (w : State) (id : Nat) : State :=
  if (w.torrentCancel id).isSome then w
  else { w with torrentCancel := Function.update w.torrentCancel id (some w.flags), flags := w.flags + 1 }

/-- The first section of `stop_torrent`. -/
def stopTorrent (w : State) (id : Nat) : State :=
  { w with
    torrentCancel := Function.update w.torrentCancel id none
    cancelled := w.cancelled ∪ (w.torrentCancel id).toFinset
    sweeps := w.sweeps ++ [.keys id] }

/-- `connected_out.retain`. -/
def sweepKeys (w : State) (id : Nat) : State :=
  { w with
    connectedOut := w.connectedOut.filter (fun key => key.1 ≠ id)
    conns := fun s =>
      if (w.conns s).torrent = id then { w.conns s with holdsKey := false } else w.conns s }

/-- `peers.retain`; the cancel signal is left out, since a session may end at any time. -/
def sweepEntries (w : State) (id : Nat) : State :=
  { w with
    peers := fun s => if bound id (w.peers s) then none else w.peers s
    conns := fun s =>
      if bound id (w.peers s) then { w.conns s with holdsEntry := false } else w.conns s }

def step (cfg : Config) (w : State) : Event → Option State
  | .dial torrent addr =>
    if (torrent, addr) ∈ w.connectedOut then none else some (w.open (.dialled torrent addr))
  | .look s =>
    if (w.conns s).phase = .asked then
      some (w.move s (if w.alreadyListed (w.conns s).torrent (w.conns s).addr then .done else .checked))
    else none
  | .cooledDown s => if (w.conns s).phase = .checked then some (w.move s .done) else none
  | .insertKey s => if (w.conns s).phase = .checked then some (insertKey w s) else none
  | .readFlag s =>
    if (w.conns s).phase = .keyed then some (w.move s (.flagged (w.torrentCancel (w.conns s).torrent))) else none
  | .checkFlag s =>
    match (w.conns s).phase with
    | .flagged flag => some (checkFlag w s flag)
    | _ => none
  | .dropKey s => if (w.conns s).phase = .refused then some (takeKey w s .done) else none
  | .reserve s => if (w.conns s).phase = .cleared then some (reserve cfg w s) else none
  | .accept addr =>
    if max cfg.maxConnections 1 ≤ w.peersLen then none else some (w.open (.accepted addr))
  | .spawn s i outcome =>
    if ((w.conns s).phase = .reserved ∨ (w.conns s).phase = .admitted) ∧ i < cfg.workers then
      some (spawn w s i outcome)
    else none
  | .begin s => if (w.conns s).phase = .queued then some (begin' w s) else none
  | .fromStdFails s => if (w.conns s).phase = .entering then some (w.move s .released) else none
  | .enter s => if (w.conns s).phase = .entering then some (enter w s) else none
  | .bind s tid => if (w.conns s).phase = .handshaking then some (onBound cfg w s tid) else none
  | .finish s =>
    if (w.conns s).phase = .running ∨ (w.conns s).phase = .handshaking then some (w.move s .leaving) else none
  | .removeEntry s => if (w.conns s).phase = .leaving then some (removeEntry w s) else none
  | .removeKey s => if (w.conns s).phase = .unkeying then some (takeKey w s .released) else none
  | .release s =>
    match (w.conns s).phase, (w.conns s).worker with
    | .released, some i => some (release w s i)
    | _, _ => none
  | .start id => some (start w id)
  | .activate id => some (activate w id)
  | .stop id => some (stopTorrent w id)
  | .sweep k =>
    match w.sweeps[k]? with
    | some (.keys id) => some { sweepKeys w id with sweeps := w.sweeps.set k (.entries id) }
    | some (.entries id) => some { sweepEntries w id with sweeps := w.sweeps.eraseIdx k }
    | none => none
  | .shutdown => some { w with stop := true }

/-! ### What is counted -/

def Phase.onWorker : Phase → Bool
  | .queued | .entering | .handshaking | .running | .leaving | .unkeying | .released => true
  | _ => false

/-- The dial will still remove its key, or has it to remove. -/
def Conn.mayUnkey (c : Conn) : Bool :=
  c.outbound && match c.phase with
    | .keyed | .flagged _ | .cleared | .refused | .reserved | .queued | .running | .leaving | .unkeying => true
    | _ => false

/-- The connection may have an entry. -/
def Conn.mayHoldEntry (c : Conn) : Bool :=
  match c.phase with
  | .reserved | .running | .leaving => true
  | .queued => c.outbound
  | .handshaking => !c.outbound
  | _ => false

/-- From the reservation or the binding of a slot to the end. -/
def Conn.active (tid : Nat) (c : Conn) : Bool :=
  decide (c.torrent = tid) && match c.phase with
    | .reserved | .queued | .running | .leaving => true
    | _ => false

/-- A running session that is bound to the torrent. -/
def Conn.runs (tid : Nat) (c : Conn) : Bool := decide (c.torrent = tid) && decide (c.phase = .running)

/-- A connection that was let in and has not ended: reserved dials and accepted connections. -/
def Conn.live (c : Conn) : Bool :=
  match c.phase with
  | .reserved | .admitted | .queued | .entering | .handshaking | .running | .leaving => true
  | _ => false

def Conn.countedOn (i : Nat) (c : Conn) : Bool := decide (c.worker = some i)

/-- Connections of the torrent that the peers table does not list. -/
def State.unlisted (w : State) (tid : Nat) : Nat :=
  tally (fun s => (w.conns s).active tid && !(w.peers s).isSome) w.begun

/-- Connections that were let in and that the peers table does not list, or not any more. -/
def State.unseen (w : State) : Nat := tally (fun s => (w.conns s).live && !(w.peers s).isSome) w.begun

/-! ### The law -/

/-- The limits hold, and the shared tables and counts are what the connections hold of them. -/
structure Respected (cfg : Config) (w : State) : Prop where
  perTorrent : ∀ tid, tid ≠ 0 → tally (fun s => (w.conns s).runs tid) w.begun ≤ max cfg.maxPeers 1
  oneOutbound : ∀ s t, (w.conns s).outbound = true → (w.conns t).outbound = true →
    (w.conns s).phase = .running → (w.conns t).phase = .running → (w.conns s).key = (w.conns t).key → s = t
  entries : ∀ s, (w.peers s).isSome = (w.conns s).holdsEntry
  keys : ∀ key, key ∈ w.connectedOut ↔ ∃ s, (w.conns s).holdsKey = true ∧ (w.conns s).key = key
  owner : ∀ s t, (w.conns s).holdsKey = true → (w.conns t).holdsKey = true → (w.conns s).key = (w.conns t).key →
    s = t
  counts : ∀ i, w.peerCounts i = tally (fun s => (w.conns s).countedOn i) w.begun
  total : w.activePeers = tally (fun s => (w.conns s).worker.isSome) w.begun
  returned : ∀ s, (w.conns s).phase = .done ∨ (w.conns s).phase = .lost →
    (w.conns s).holdsKey = false ∧ (w.conns s).holdsEntry = false ∧ (w.conns s).worker = none

/-- The dial gives its key back, or a stop of its torrent takes the key. -/
def KeyReleased (w : State) (event : Event) (s : Nat) : Prop :=
  event = .dropKey s ∨ event = .removeKey s ∨ ∃ k, event = .sweep k ∧ w.sweeps[k]? = some (.keys (w.conns s).torrent)

def EntryReleased (w : State) (event : Event) (s : Nat) : Prop :=
  event = .removeEntry s ∨ ∃ k, event = .sweep k ∧ w.sweeps[k]? = some (.entries (w.conns s).torrent)

/-- What one step may let in and take back. -/
structure Orderly (cfg : Config) (w : State) (event : Event) (w' : State) : Prop where
  admits : ∀ addr, event = .accept addr → tally (fun s => (w'.conns s).live) w'.begun ≤ max cfg.maxConnections 1
  key : ∀ s, (w.conns s).holdsKey = true → (w'.conns s).holdsKey = true ∨ KeyReleased w event s
  entry : ∀ s, (w.conns s).holdsEntry = true → (w'.conns s).holdsEntry = true ∨ EntryReleased w event s
  worker : ∀ s, (w.conns s).worker.isSome = true → (w'.conns s).worker = (w.conns s).worker ∨ event = .release s

/-- Nothing is taken back on behalf of another connection. -/
structure OwnOnly (w : State) (event : Event) (w' : State) : Prop where
  key : ∀ s, (w.conns s).holdsKey = true → (w'.conns s).holdsKey = true ∨ event = .dropKey s ∨ event = .removeKey s
  entry : ∀ s, (w.conns s).holdsEntry = true → (w'.conns s).holdsEntry = true ∨ event = .removeEntry s

/-- A stop finds nothing left to sweep. -/
def sweepGuard (w : State) : Event → Bool
  | .sweep k =>
    match w.sweeps[k]? with
    | some (.keys id) => decide (∀ s < w.begun, (w.conns s).torrent = id → (w.conns s).holdsKey = false)
    | some (.entries id) => decide (∀ s < w.begun, (w.conns s).torrent = id → (w.conns s).holdsEntry = false)
    | none => true
  | _ => true

/-- Spawns that must not fail do not, and what a stop has taken out of a table or a connection that has not
entered it yet leaves room: a key is taken again only when nobody is left who would remove it, a slot is
taken and a connection is let in only where those that the table does not list leave room as well. -/
def limitGuard (cfg : Config) (w : State) : Event → Bool
  | .insertKey s => decide (∀ t < w.begun, t ≠ s → (w.conns t).key = (w.conns s).key →
      (w.conns t).holdsKey = false → (w.conns t).mayUnkey = false)
  | .reserve s => decide (max cfg.maxPeers 1 ≤ w.peerCountForTorrent (w.conns s).torrent) ||
      decide (w.peerCountForTorrent (w.conns s).torrent + w.unlisted (w.conns s).torrent < max cfg.maxPeers 1)
  | .bind _ tid => decide (max cfg.maxPeers 1 ≤ w.peerCountForTorrent tid) ||
      decide (w.peerCountForTorrent tid + w.unlisted tid < max cfg.maxPeers 1)
  | .accept _ => decide (max cfg.maxConnections 1 ≤ w.peersLen) ||
      decide (w.peersLen + w.unseen < max cfg.maxConnections 1)
  | .spawn s _ outcome => decide (outcome = .ok) || (!(w.conns s).outbound && decide (outcome = .shut))
  | _ => true

end Seedchamp.Session.Slots
