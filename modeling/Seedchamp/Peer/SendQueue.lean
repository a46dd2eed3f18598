import Seedchamp.Net.Socket
import Seedchamp.Upload.InFlight

/-!
The ordered outbound queue of a peer connection: control messages, PIECE payloads, and at most one
active frame. Control goes before the next PIECE and never preempts a frame; the cipher advances when
an item becomes active.
-/

namespace Seedchamp.Peer.SendQueue
open Crypto.PayloadCipher Disk.Spans Net.Socket Upload.InFlight Wire.Messages

inductive Active where
  | ctrl (buf : Bytes)
  | piece (inf : InFlightUpload)
  deriving DecidableEq, Repr

/-- A control chunk holds whole messages; its bytes are their encodings, one after another. -/
structure OutQueue where
  ctrl : List (List Message)
  pieces : List UploadBlock
  active : Option Active
  pieceMax : Nat
  keepaliveQueued : Bool
  deriving DecidableEq, Repr

def COALESCE_MAX : Nat := 64 * 1024

namespace OutQueue

def new : OutQueue := ⟨[], [], none, MAX_UPLOAD_REQQ, false⟩

def hasWork (out : OutQueue) : Bool :=
  out.active.isSome || !out.ctrl.isEmpty || !out.pieces.isEmpty

def activeCtrl (out : OutQueue) : Bool :=
  match out.active with
  | some (.ctrl _) => true
  | _ => false

def activeBlock (out : OutQueue) : Option UploadBlock :=
  match out.active with
  | some (.piece inf) => some inf.block
  | _ => none

def piecePendingCount (out : OutQueue) : Nat :=
  (if out.activeBlock.isSome then 1 else 0) + out.pieces.length

/-- Enqueue control messages, coalescing into the last chunk while it stays small. -/
def pushCtrlOwned (out : OutQueue) (plain : List Message) : OutQueue :=
  if plain.isEmpty then out
  else
    match out.ctrl.getLast? with
    | some back =>
      if (encodeAll back).length + (encodeAll plain).length ≤ COALESCE_MAX then
        { out with ctrl := out.ctrl.dropLast ++ [back ++ plain] }
      else { out with ctrl := out.ctrl ++ [plain] }
    | none => { out with ctrl := out.ctrl ++ [plain] }

def noteCtrlFullySent (out : OutQueue) : OutQueue :=
  if out.ctrl.isEmpty && !out.activeCtrl then { out with keepaliveQueued := false } else out

/-- Queue a PIECE to serve. Blocks already queued or active are refused. -/
def tryPushPiece (out : OutQueue) (block : UploadBlock) : Bool × OutQueue :=
  if block.length = 0 ∨ MAX_REQUEST_LENGTH < block.length then (false, out)
  else if out.pieceMax ≤ out.piecePendingCount then (false, out)
  else if out.pieces.contains block then (false, out)
  else if out.activeBlock = some block then (false, out)
  else (true, { out with pieces := out.pieces ++ [block] })

/-- The active PIECE, if it may still be dropped. -/
def abortable (out : OutQueue) : Option UploadBlock :=
  match out.active with
  | some (.piece inf) => if inf.canAbort then some inf.block else none
  | _ => none

/-- Cancel a queued upload; the active one only while it is abortable. -/
def cancelPiece (out : OutQueue) (block : UploadBlock) : Bool × OutQueue :=
  let removed := out.pieces.contains block
  let out := { out with pieces := out.pieces.erase block }
  if out.activeBlock = some block then
    if out.abortable = some block then (true, { out with active := none }) else (removed, out)
  else (removed, out)

/-- Drop pending PIECE work. -/
def clearPieces (out : OutQueue) : OutQueue :=
  let out := { out with pieces := [] }
  if out.abortable.isSome then { out with active := none } else out

end OutQueue

/-- A frame as it goes on the wire, before the cipher. -/
inductive Frame where
  | ctrl (message : Message)
  | piece (block : UploadBlock) (payload : Bytes)
  deriving DecidableEq, Repr

def Frame.encode : Frame → Bytes
  | ctrl message => encodeMessage message
  | piece block payload => fillPieceHeader block.index block.begin' block.length ++ payload

def encodeFrames (frames : List Frame) : Bytes := frames.flatMap Frame.encode

/-- History that no operation reads: control messages pushed, blocks accepted for upload, and frames
in the order they were started. -/
structure Log where
  pushed : List Message
  accepted : List UploadBlock
  started : List Frame
  deriving DecidableEq, Repr

/-- The write half of a connection: the queue, the upload scratch, the cipher, the bytes handed to
the socket, and the payload bytes reported as uploaded. -/
structure PeerSend where
  out : OutQueue
  scratch : Bytes
  rc4 : Option Rc4
  socket : Bytes
  uploaded : Nat
  log : Log

namespace PeerSend

def new (rc4 : Option Rc4) : PeerSend where
  out := OutQueue.new
  scratch := List.replicate UPLOAD_SCRATCH_LEN 0
  rc4 := rc4
  socket := []
  uploaded := 0
  log := ⟨[], [], []⟩

def pushCtrl (s : PeerSend) (plain : List Message) : PeerSend :=
  { s with
    out := s.out.pushCtrlOwned plain
    log := { s.log with pushed := s.log.pushed ++ plain } }

/-- At most one KeepAlive waits at a time. -/
def pushKeepalive (s : PeerSend) : PeerSend :=
  if s.out.keepaliveQueued then s
  else ({ s with out := { s.out with keepaliveQueued := true } }).pushCtrl [.keepAlive]

def tryPushPiece (s : PeerSend) (block : UploadBlock) : Bool × PeerSend :=
  let pushed := s.out.tryPushPiece block
  (pushed.1, { s with
    out := pushed.2
    log := { s.log with
      accepted := if pushed.1 then s.log.accepted ++ [block] else s.log.accepted } })

def cancelPiece (s : PeerSend) (block : UploadBlock) : PeerSend :=
  { s with out := (s.out.cancelPiece block).2 }

def clearPieces (s : PeerSend) : PeerSend := { s with out := s.out.clearPieces }

def pushReject (s : PeerSend) (block : UploadBlock) (fastEnabled : Bool) : PeerSend :=
  if fastEnabled then s.pushCtrl [.rejectRequest block.index block.begin' block.length] else s

end PeerSend

/-- What the disk, the limiter and the socket answer during one turn of the send loop; `grant` is
`none` when no upload limiter is configured. -/
structure Turn where
  fill : Fill
  refill : Fill
  grant : Option Nat
  write : Nat → SocketWrite

/-- What the caller of a quantum passes down. -/
structure SendConfig where
  layout : StorageLayout
  allowUpload : Bool
  fastEnabled : Bool

inductive OutProgress where
  | idle
  | progress
  | rateLimited
  deriving DecidableEq, Repr

structure SendOutcome where
  kind : OutProgress
  wrote : Bool
  deriving DecidableEq, Repr

def Fill.payload (fill : Fill) (length : Nat) : Bytes :=
  match fill with
  | .read byte => (List.range length).map byte
  | .failed _ _ => []

/-- Fill the block, once more if its file was not found. The last part is the payload of the fill. -/
def fillBlock (config : SendConfig) (block : UploadBlock) (rc4 : Option Rc4) (turn : Turn)
    (scratch : Bytes) : (Except UploadError InFlightUpload × Option Rc4 × Bytes) × Bytes :=
  let first := beginUpload config.layout block rc4 turn.fill scratch
  match first.1 with
  | .ok _ => (first, Fill.payload turn.fill block.length)
  | .error problem =>
    if problem.isNotFound then
      (beginUpload config.layout block first.2.1 turn.refill first.2.2,
        Fill.payload turn.refill block.length)
    else (first, [])

/-- Control first, then fill and activate the next PIECE. -/
def pickNextActive (config : SendConfig) (turn : Turn) (s : PeerSend) : PeerSend :=
  if s.out.active.isSome then s
  else
    match s.out.ctrl with
    | plain :: rest =>
      let sealed' := cryptOpt s.rc4 (encodeAll plain)
      { s with
        out := { s.out with ctrl := rest, active := some (.ctrl sealed'.1) }
        rc4 := sealed'.2
        log := { s.log with started := s.log.started ++ plain.map Frame.ctrl } }
    | [] =>
      match s.out.pieces with
      | [] => s
      | block :: rest =>
        let filled := fillBlock config block s.rc4 turn s.scratch
        let popped := { s with
          out := { s.out with pieces := rest }
          rc4 := filled.1.2.1
          scratch := filled.1.2.2 }
        match filled.1.1 with
        | .ok inf =>
          { popped with
            out := { popped.out with active := some (.piece inf) }
            log := { popped.log with
              started :=
                if inf.cipherApplied then popped.log.started ++ [.piece block filled.2]
                else popped.log.started } }
        | .error _ => popped.pushReject block config.fastEnabled

inductive TurnResult where
  | again
  | finished (limited : Bool)
  | failed
  deriving DecidableEq, Repr

/-- Write the active control chunk. -/
def writeCtrl (turn : Turn) (s : PeerSend) (any : Bool) (buf : Bytes) : PeerSend × Bool × TurnResult :=
  let written := writeAll turn.write buf
  let taken := { s with
    out := { s.out with active := none }
    socket := s.socket ++ written.1 }
  if written.2 then ({ taken with out := taken.out.noteCtrlFullySent }, true, .again)
  else (taken, any, .failed)

/-- A plain PIECE starts when its first write is attempted. -/
def startPlain (s : PeerSend) (inf : InFlightUpload) : PeerSend :=
  if inf.cipherApplied then s
  else
    { s with
      log := { s.log with
        started := s.log.started ++
          [.piece inf.block ((s.scratch.take inf.total).drop PIECE_HEADER_LEN)] } }

/-- Write the framed PIECE out of the scratch, in one `write_all` of its prefix. -/
def writePiece (turn : Turn) (s : PeerSend) (any : Bool) (inf : InFlightUpload) :
    PeerSend × Bool × TurnResult :=
  if inf.total ≤ inf.sent then
    ({ s with
      out := { s.out with active := none }
      uploaded := s.uploaded + inf.payload }, true, .again)
  else if s.scratch.length < inf.total then (s, any, .failed)
  else
    let s := startPlain s inf
    let written := writeAll turn.write (s.scratch.take inf.total)
    let sent := { s with socket := s.socket ++ written.1 }
    if written.2 then
      ({ sent with
        out := { sent.out with active := none }
        uploaded := sent.uploaded + inf.payload }, true, .again)
    else (sent, any, .failed)

/-- The tokens a block needs before its first byte; `none` when the limiter grants too few. -/
def reserveTokens (turn : Turn) (inf : InFlightUpload) : Option InFlightUpload :=
  if inf.anyWireBytes then some inf
  else
    match turn.grant with
    | none => some inf
    | some got =>
      if got < inf.block.length then none else some { inf with rateReserved := inf.block.length }

/-- The rest of a turn once something is active. -/
def sendActive (config : SendConfig) (turn : Turn) (s : PeerSend) (any : Bool) :
    PeerSend × Bool × TurnResult :=
  match s.out.active with
  | none => (s, any, .finished false)
  | some (.ctrl buf) => writeCtrl turn s any buf
  | some (.piece inf) =>
    if config.allowUpload = false ∧ inf.canAbort then
      ({ s with out := { s.out with active := none } }, any, .again)
    else
      match reserveTokens turn inf with
      | none => (s, any, .finished true)
      | some inf =>
        writePiece turn { s with out := { s.out with active := some (.piece inf) } } any inf

/-- One turn of the `loop` in `send_quantum`. -/
def quantumTurn (config : SendConfig) (turn : Turn) (s : PeerSend) (any : Bool) :
    PeerSend × Bool × TurnResult :=
  if s.out.active.isSome then sendActive config turn s any
  else if config.allowUpload = false ∧ s.out.ctrl.isEmpty then (s, any, .finished false)
  else
    let picked := pickNextActive config turn s
    if picked.out.active.isSome then sendActive config turn picked any
    else if config.allowUpload = false then (picked, any, .finished false)
    else if picked.out.ctrl.isEmpty ∧ picked.out.pieces.isEmpty = false then (picked, any, .again)
    else (picked, any, .finished false)

def quantumLoop (config : SendConfig) (turns : Nat → Turn) :
    Nat → Nat → PeerSend → Bool → Option (PeerSend × Except Unit SendOutcome)
  | 0, _, _, _ => none
  | fuel + 1, k, s, any =>
    match quantumTurn config (turns k) s any with
    | (s', any', .again) => quantumLoop config turns fuel (k + 1) s' any'
    | (s', any', .finished limited) =>
      some (s', .ok ⟨if limited then .rateLimited else if any' then .progress else .idle, any'⟩)
    | (s', _, .failed) => some (s', .error ())

/-- More turns than a quantum can take (`sendQuantum_returns`). -/
def quantumBudget (s : PeerSend) : Nat :=
  2 * s.out.pieces.length + s.out.ctrl.length + (if s.out.active.isSome then 1 else 0) + 1

/-- Drive outbound work; an error ends the session. -/
def sendQuantum (config : SendConfig) (turns : Nat → Turn) (s : PeerSend) :
    Option (PeerSend × Except Unit SendOutcome) :=
  let s := if config.allowUpload then s else { s with out := { s.out with pieces := [] } }
  quantumLoop config turns (quantumBudget s) 0 s false

end Seedchamp.Peer.SendQueue
