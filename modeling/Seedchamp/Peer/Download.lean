import Seedchamp.Hot.Possession
import Seedchamp.Foundation.TransitionSystem
import Seedchamp.Staging.Pool
import Mathlib.Logic.Function.Basic
import Mathlib.Data.Finset.SDiff
import Mathlib.Data.Finset.Filter

/-!
The download half of the peer sessions of one torrent. The sessions share the torrent and take
their steps in any order; between two steps of `issue_requests`, of a claim or of `mark_have` the
other sessions may move.
-/

namespace Seedchamp.Peer.Download
open Catalog.Bitfield Disk.Spans Hot.Torrent Staging.PiecePool Staging.Pool

/-- What a session knows of its peer, what it assembles, and what it claimed. -/
structure PeerDownload where
  peerBf : Bits
  staging : StagingPool
  pipeline : Nat
  hashing : Finset Nat
  endgame : Bool
  held : Finset Nat
  peerChoking : Bool
  allowedFast : Finset Nat
  suggested : List Nat
  deriving DecidableEq

def PeerDownload.new (peerBf : Bits) (staging : StagingPool) (pipeline : Nat) : PeerDownload where
  peerBf := peerBf
  staging := staging
  pipeline := pipeline
  hashing := ∅
  endgame := false
  held := ∅
  peerChoking := true
  allowedFast := ∅
  suggested := []

/-- The locals of `take_requests`: `turns` of its loop are left, `out` is handed out at the end. -/
structure Call where
  pipeline : Nat
  maxPieces : Nat
  turns : Nat
  queued : Bool
  out : List Request
  deriving DecidableEq

/-- What `pick_rarest_piece` copies under the locks before it walks the candidates. -/
structure Snapshot where
  complete : Bool
  haveBf : Bits
  wanted : Bits
  inFlight : Finset Nat
  deriving DecidableEq

/-- Where a session stands between two of its steps. -/
inductive Pc where
  | idle
  | round (call : Call)
  | suggest (call : Call)
  | picking (call : Call) (snapshot : Snapshot)
  | claiming (call : Call) (snapshot : Option Snapshot) (index : Nat)
  | opening (call : Call) (index length : Nat)
  | releasing (index : Nat)
  | marking (index : Nat)
  deriving DecidableEq

/-- `endgameHeld` is history: the held pieces whose last claim was made in endgame. -/
structure Session where
  live : Bool
  dl : PeerDownload
  pc : Pc
  endgameHeld : Finset Nat
  deriving DecidableEq

/-- History of one return of `issue_requests`: what it handed out, the part of that for pieces had at
the moment, and the assembling slots of had pieces it leaves behind. -/
structure Return where
  session : Nat
  requests : List Request
  hadRequests : List Request
  hadSlots : List Nat
  deriving DecidableEq

/-- The torrent and its sessions; those from `joined` on do not exist yet. -/
structure Swarm where
  torrent : HotTorrent
  sessions : Nat → Session
  joined : Nat
  returns : List Return

/-- The reservation of `try_claim_piece`, after its `has_piece` test. -/
def insertClaim (t : HotTorrent) (index : Nat) (endgame : Bool) : Bool × HotTorrent :=
  (endgame || decide (index ∉ t.inFlight), { t with inFlight := insert index t.inFlight })

def pieceHash (t : HotTorrent) (index : Nat) : Except Error (List UInt8) :=
  if t.pieceHashes.length < index * 20 + 20 then
    .error (.msg "piece hash OOB (or hashes released after complete)")
  else .ok ((t.pieceHashes.drop (index * 20)).take 20)

/-- `mark_have` after it released the claim. -/
def settleMark (t : HotTorrent) (index : Nat) : HotTorrent :=
  if t.pieces.complete || bitfieldGet t.pieces.bitfield index then t
  else (t.recordHave index).settleHave.afterHave index (t.recordHave index).fullyHad

def sharedPool (t : HotTorrent) (staging : StagingPool) : Option PieceBufferPool :=
  staging.pool.bind (fun pool => t.pools[pool]?)

def storePool (t : HotTorrent) (staging : StagingPool) (shared : Option PieceBufferPool) : HotTorrent :=
  match staging.pool, shared with
  | some pool, some buffers => { t with pools := t.pools.set pool buffers }
  | _, _ => t

namespace PeerDownload

def may (dl : PeerDownload) (index : Nat) : Bool := !dl.peerChoking || decide (index ∈ dl.allowedFast)

/-- The part of every eligibility test that only the session itself changes. -/
def unstarted (dl : PeerDownload) (index : Nat) : Bool :=
  !dl.staging.contains index && decide (index ∉ dl.hashing) && dl.may index &&
    bitfieldGet dl.peerBf index

/-- A candidate of `pick_rarest_piece`. -/
def eligible (dl : PeerDownload) (snapshot : Snapshot) (index : Nat) : Bool :=
  dl.unstarted index && !snapshot.complete && !bitfieldGet snapshot.haveBf index &&
    bitfieldGet snapshot.wanted index && (dl.endgame || decide (index ∉ snapshot.inFlight))

/-- `issue_requests` up to the loop of `take_requests`; `grant` is what the download limiter gives. -/
def beginIssue (dl : PeerDownload) (t : HotTorrent) (grant : Option Nat) : Option Call :=
  let blocks := match grant with
    | none => some dl.pipeline
    | some tokens => if tokens < BLOCK_SIZE then none else some (tokens / BLOCK_SIZE)
  blocks.bind fun blocks =>
    let pipeline := max blocks 1
    if dl.endgame = false ∧ max (pipeline / 2) 1 < dl.staging.totalOutstanding then none
    else
      let capacity := ((sharedPool t dl.staging).map PieceBufferPool.capacity).getD 0
      some ⟨pipeline, maxAssemblingPieces pipeline dl.staging.pieceLength capacity,
        pipeline * 4 + dl.staging.slots.length + 8, false, []⟩

/-- `push_suggest`. -/
def pushSuggest (dl : PeerDownload) (index pieceCount : Nat) : PeerDownload :=
  if pieceCount ≤ index then dl
  else { dl with suggested := (index :: dl.suggested.erase index).take 32 }

end PeerDownload

namespace Swarm

def hadSlots (w : Swarm) (s : Nat) : List Nat :=
  (w.sessions s).dl.staging.indices.filter w.torrent.hasPiece

def setSession (w : Swarm) (s : Nat) (session : Session) : Swarm :=
  { w with sessions := Function.update w.sessions s session }

def setPc (w : Swarm) (s : Nat) (pc : Pc) : Swarm :=
  w.setSession s { w.sessions s with pc := pc }

def setDl (w : Swarm) (s : Nat) (dl : PeerDownload) : Swarm :=
  w.setSession s { w.sessions s with dl := dl }

/-- `issue_requests` hands its requests to the outbound queue and returns. -/
def finish (w : Swarm) (s : Nat) (out : List Request) : Swarm :=
  { w.setPc s .idle with
    returns := w.returns ++
      [⟨s, out, out.filter (fun request => w.torrent.hasPiece request.1), w.hadSlots s⟩] }

def issue (w : Swarm) (s : Nat) (grant : Option Nat) : Swarm :=
  match (w.sessions s).dl.beginIssue w.torrent grant with
  | none => w.finish s []
  | some call => w.setPc s (.round call)

/-- One turn of the loop of `take_requests`, up to the call of `start_piece`. -/
def round (w : Swarm) (s : Nat) (call : Call) : Swarm :=
  let dl := (w.sessions s).dl
  if call.turns = 0 ∨ call.pipeline ≤ dl.staging.totalOutstanding then w.finish s call.out
  else
    let filled := dl.staging.fillExisting call.pipeline dl.may dl.staging.indices
    let w := w.setDl s { dl with staging := filled.2 }
    let out := call.out ++ filled.1
    let available := ((sharedPool w.torrent filled.2).map PieceBufferPool.available).getD 0
    if call.pipeline ≤ filled.2.totalOutstanding ∨ available = 0 ∨ call.maxPieces ≤ filled.2.len then
      w.finish s out
    else
      w.setPc s (.suggest
        { call with turns := call.turns - 1, queued := !filled.1.isEmpty, out := out })

/-- Try the next suggested piece, or copy the torrent for `pick_rarest_piece` when none is left. -/
def suggest (w : Swarm) (s : Nat) (call : Call) : Swarm :=
  let dl := (w.sessions s).dl
  match dl.suggested with
  | [] =>
    w.setPc s (.picking call
      ⟨w.torrent.pieces.complete, w.torrent.pieces.bitfield, w.torrent.wantedBf, w.torrent.inFlight⟩)
  | index :: rest =>
    let w := w.setDl s { dl with suggested := rest }
    if w.torrent.wantsPiece index ∧ w.torrent.hasPiece index = false ∧ dl.unstarted index ∧
        index < w.torrent.pieceCount then
      w.setPc s (.claiming call none index)
    else w

/-- Insert the claim; a claim that is taken already sends the pick to its next candidate. -/
def claim (w : Swarm) (s : Nat) (call : Call) (snapshot : Option Snapshot) (index : Nat) : Swarm :=
  let session := w.sessions s
  let claimed := insertClaim w.torrent index session.dl.endgame
  let w := { w with torrent := claimed.2 }
  if claimed.1 then
    let w := w.setSession s { session with
      dl := { session.dl with held := insert index session.dl.held }
      endgameHeld :=
        if session.dl.endgame then insert index session.endgameHeld
        else session.endgameHeld.erase index }
    match w.torrent.layout.pieceSize index with
    | .ok length => w.setPc s (.opening call index length)
    | .error _ => w.finish s call.out
  else
    w.setPc s (match snapshot with
      | none => .suggest call
      | some snapshot => .picking call snapshot)

/-- `PeerPieceClaims::release`. -/
def release (w : Swarm) (s : Nat) (index : Nat) : Swarm :=
  let session := w.sessions s
  { w.setSession s { session with
      dl := { session.dl with held := session.dl.held.erase index }
      endgameHeld := session.endgameHeld.erase index } with
    torrent :=
      if index ∈ session.dl.held ∧ w.torrent.hasPiece index = false then
        w.torrent.releasePieceClaim index
      else w.torrent }

/-- Open a slot for the claimed piece and request its first block. -/
def openPiece (w : Swarm) (s : Nat) (call : Call) (index length : Nat) : Swarm :=
  let dl := (w.sessions s).dl
  if dl.staging.contains index then w.finish s call.out
  else
    let started := dl.staging.tryStart (sharedPool w.torrent dl.staging) index length
    if started.1 then
      let w := { w.setDl s { dl with staging := started.2.1 } with
        torrent := storePool w.torrent dl.staging started.2.2 }
      if call.queued then w.setPc s (.round call)
      else
        match started.2.1.requestNext index with
        | some (request, staging) =>
          (w.setDl s { dl with staging := staging }).setPc s
            (.round { call with out := call.out ++ [request] })
        | none => w.finish s call.out
    else (w.release s index).finish s call.out

/-- The end of a session: its slots go back to the freelist and its claims are dropped. -/
def leave (w : Swarm) (s : Nat) : Swarm :=
  let dl := (w.sessions s).dl
  let cleared := dl.staging.clear (sharedPool w.torrent dl.staging)
  let t := storePool w.torrent dl.staging cleared.2
  { w.setSession s ⟨false, PeerDownload.new [] (StagingPool.empty 1) 0, .idle, ∅⟩ with
    torrent := { t with
      inFlight := t.inFlight \ dl.held.filter (fun index => t.hasPiece index = false) } }

/-- What every hash outcome does first: forget the job and recycle its buffer. -/
def reclaim (w : Swarm) (s : Nat) (index : Nat) (data : Buffer) : Swarm :=
  let dl := (w.sessions s).dl
  let recycled := dl.staging.reclaim (sharedPool w.torrent dl.staging) index data
  { w.setDl s { dl with staging := recycled.1, hashing := dl.hashing.erase index } with
    torrent := storePool w.torrent dl.staging recycled.2 }

/-- Ingest a wire block. A complete piece goes to the hash pool; when its hash is gone or the pool
refuses the job, the error ends the session. -/
def handlePiece (w : Swarm) (s : Nat) (index begin' : Nat) (block : Buffer) (submitted : Bool) :
    Swarm :=
  let dl := (w.sessions s).dl
  if w.torrent.hasPiece index ∨ index ∈ dl.hashing then w
  else
    match dl.staging.ingestIfStaged index begin' block with
    | .error _ => w.leave s
    | .ok none => w
    | .ok (some (complete, staging)) =>
      if complete then
        match staging.takeForHash (sharedPool w.torrent staging) index with
        | none => w.setDl s { dl with staging := staging }
        | some (data, taken, shared) =>
          let w := { w.setDl s { dl with staging := taken, hashing := insert index dl.hashing } with
            torrent := storePool w.torrent staging shared }
          if submitted ∧ (pieceHash w.torrent index).toBool then w
          else (w.reclaim s index data).leave s
      else w.setDl s { dl with staging := staging }

def hashOk (w : Swarm) (s : Nat) (index : Nat) (data : Buffer) : Swarm :=
  let w := w.reclaim s index data
  if w.torrent.hasPiece index then w else w.setPc s (.releasing index)

/-- A failed hash and a failed write are handled alike. -/
def hashFail (w : Swarm) (s : Nat) (index : Nat) (data : Buffer) : Swarm :=
  let w := w.reclaim s index data
  { w with torrent := w.torrent.releasePieceClaim index }

/-- A session starts; only one that wants to download gets the shared freelist. -/
def join (w : Swarm) (wantDownload : Bool) (memLimit pipeline : Nat) : Swarm :=
  let t :=
    if wantDownload then (w.torrent.setStagingMemLimit memLimit).ensureStagingPool else w.torrent
  let seeder := StagingPool.empty t.layout.pieceLength
  let staging :=
    if wantDownload then
      match t.stagingPool with
      | some pool =>
        match t.pools[pool]? with
        | some shared => StagingPool.fromPool pool shared
        | none => seeder
      | none => seeder
    else seeder
  { w with
    torrent := t
    sessions := Function.update w.sessions w.joined
      ⟨true, PeerDownload.new (emptyBitfield t.pieceCount) staging (if wantDownload then pipeline else 0),
        .idle, ∅⟩
    joined := w.joined + 1 }

/-- Enter endgame and request everything again. -/
def enterEndgame (w : Swarm) (s : Nat) : Swarm :=
  let dl := (w.sessions s).dl
  if dl.endgame = false ∧ w.torrent.shouldEndgame then
    w.setDl s { dl with endgame := true, staging := dl.staging.enableEndgame.requeueTimedOut }
  else w

def clearStaging (w : Swarm) (s : Nat) : Swarm :=
  let dl := (w.sessions s).dl
  let cleared := dl.staging.clear (sharedPool w.torrent dl.staging)
  { w.setDl s { dl with staging := cleared.1 } with
    torrent := storePool w.torrent dl.staging cleared.2 }

end Swarm

/-- Steps inside a running call, named by what the session does next. -/
inductive Inner where
  | round
  | suggest
  | pick (index : Nat)
  | giveUp
  | claim
  | openPiece
  | releaseClaim
  | setHave
  deriving DecidableEq

/-- What an idle session reacts to: its peer's messages, its hash jobs, its timers. -/
inductive Outer where
  | issue (grant : Option Nat)
  | block (index begin' : Nat) (data : Buffer) (submitted : Bool)
  | hashOk (index : Nat) (data : Buffer)
  | hashFail (index : Nat) (data : Buffer)
  | stall
  | enterEndgame
  | resume (pipeline : Nat)
  | clearStaging
  | setPipeline (pipeline : Nat)
  | choke (choking : Bool)
  | allowedFast (index : Nat)
  | suggestPiece (index : Nat)
  | peerHas (bits : Bits)
  | reject (index begin' length : Nat)
  | leave
  deriving DecidableEq

inductive Event where
  | join (wantDownload : Bool) (memLimit pipeline : Nat)
  | inner (s : Nat) (event : Inner)
  | outer (s : Nat) (event : Outer)
  | setFilePriority (fileIdx : Nat) (priority : Int)
  deriving DecidableEq

def stepInner (w : Swarm) (s : Nat) (event : Inner) : Option Swarm :=
  match (w.sessions s).pc, event with
  | .round call, .round => some (w.round s call)
  | .suggest call, .suggest => some (w.suggest s call)
  | .picking call snapshot, .pick index =>
    if (w.sessions s).dl.eligible snapshot index ∧ index < w.torrent.pieceCount ∧
        w.torrent.hasPiece index = false then
      some (w.setPc s (.claiming call (some snapshot) index))
    else none
  | .picking call _, .giveUp => some (w.finish s call.out)
  | .claiming call snapshot index, .claim => some (w.claim s call snapshot index)
  | .opening call index length, .openPiece => some (w.openPiece s call index length)
  | .releasing index, .releaseClaim =>
    some ({ w with torrent := w.torrent.releasePieceClaim index }.setPc s (.marking index))
  | .marking index, .setHave =>
    some ({ w with torrent := settleMark w.torrent index }.setPc s .idle)
  | _, _ => none

def stepOuter (w : Swarm) (s : Nat) (event : Outer) : Option Swarm :=
  let dl := (w.sessions s).dl
  match event with
  | .issue grant => some (w.issue s grant)
  | .block index begin' data submitted => some (w.handlePiece s index begin' data submitted)
  | .hashOk index data => if index ∈ dl.hashing then some (w.hashOk s index data) else none
  | .hashFail index data => if index ∈ dl.hashing then some (w.hashFail s index data) else none
  | .stall => some (w.setDl s { dl with staging := dl.staging.requeueTimedOut })
  | .enterEndgame => some (w.enterEndgame s)
  | .resume pipeline => some (w.setDl s { dl with endgame := false, pipeline := pipeline })
  | .clearStaging => some (w.clearStaging s)
  | .setPipeline pipeline => some (w.setDl s { dl with pipeline := pipeline })
  | .choke choking => some (w.setDl s { dl with peerChoking := choking })
  | .allowedFast index => some (w.setDl s { dl with allowedFast := insert index dl.allowedFast })
  | .suggestPiece index => some (w.setDl s (dl.pushSuggest index w.torrent.pieceCount))
  | .peerHas bits => some (w.setDl s { dl with peerBf := bits })
  | .reject index begin' length =>
    some (w.setDl s { dl with staging := dl.staging.clearRequest index begin' length })
  | .leave => some (w.leave s)

def step (w : Swarm) : Event → Option Swarm
  | .join wantDownload memLimit pipeline => some (w.join wantDownload memLimit pipeline)
  | .inner s event => if (w.sessions s).live then stepInner w s event else none
  | .outer s event =>
    if (w.sessions s).live ∧ (w.sessions s).pc = .idle then stepOuter w s event else none
  | .setFilePriority fileIdx priority =>
    some { w with torrent := w.torrent.setFilePriority fileIdx priority }

def absent : Session := ⟨false, PeerDownload.new [] (StagingPool.empty 1) 0, .idle, ∅⟩

/-- The torrent before any session joined. -/
def initial (t : HotTorrent) : Swarm := ⟨t, fun _ => absent, 0, []⟩

end Seedchamp.Peer.Download
