import Seedchamp.Peer.SendQueue

/-!
The two halves of a connection: the reader turns the peer's messages into commands on a channel, the
writer applies the commands to the outbound queue and drives it.
-/

namespace Seedchamp.Peer.Duplex
open Crypto.PayloadCipher Disk.Spans Upload.InFlight Wire.Messages Peer.SendQueue

/-- Commands from the read half to the write half. -/
inductive WriterMsg where
  | ctrl (plain : List Message)
  | upload (block : UploadBlock)
  | cancel (block : UploadBlock)
  | clearPieces
  | readerDone
  deriving DecidableEq, Repr

structure PeerConfig where
  allowUpload : Bool
  fastEnabled : Bool
  deriving DecidableEq, Repr

inductive WriterPhase where
  | running
  | flushing
  | ended
  | failed
  deriving DecidableEq, Repr

/-- A connection between its steps. `received` is history: the Requests read so far. -/
structure PeerSession where
  send : PeerSend
  channel : List WriterMsg
  peerInterested : Bool
  reading : Bool
  readerDone : Bool
  phase : WriterPhase
  received : List UploadBlock

def connect (rc4 : Option Rc4) : PeerSession where
  send := PeerSend.new rc4
  channel := []
  peerInterested := false
  reading := true
  readerDone := false
  phase := .running
  received := []

def rejectFrame (block : UploadBlock) : Message :=
  .rejectRequest block.index block.begin' block.length

namespace PeerSession

def post (d : PeerSession) (msg : WriterMsg) : PeerSession := { d with channel := d.channel ++ [msg] }

/-- `OutCmd::push_ctrl_owned`. -/
def pushCtrlOwned (d : PeerSession) (plain : List Message) : PeerSession :=
  if plain.isEmpty then d else d.post (.ctrl plain)

/-- The `Message::Request` arm; without `allow_upload` the message falls through. -/
def onRequest (config : PeerConfig) (layout : StorageLayout) (hasPiece : Bool) (block : UploadBlock)
    (d : PeerSession) : PeerSession :=
  let d := { d with received := d.received ++ [block] }
  if config.allowUpload then
    match classifyUploadRequest layout.pieceCount (layout.pieceBytes block.index) hasPiece
      d.peerInterested block with
    | .accept => d.post (.upload block)
    | .reject => if config.fastEnabled then d.pushCtrlOwned [rejectFrame block] else d
  else d

/-- The `Message::Cancel` arm. -/
def onCancel (config : PeerConfig) (block : UploadBlock) (d : PeerSession) : PeerSession :=
  if config.allowUpload then d.post (.cancel block) else d

def onInterested (d : PeerSession) : PeerSession := { d with peerInterested := true }

def onNotInterested (d : PeerSession) : PeerSession := { d with peerInterested := false }.post .clearPieces

/-- Apply one writer command. -/
def applyWriterMsg (config : PeerConfig) (d : PeerSession) : WriterMsg → PeerSession
  | .ctrl plain => { d with send := d.send.pushCtrl plain }
  | .upload block =>
    let pushed := d.send.tryPushPiece block
    if pushed.1 then { d with send := pushed.2 }
    else { d with send := pushed.2.pushReject block config.fastEnabled }
  | .cancel block => { d with send := d.send.cancelPiece block }
  | .clearPieces => { d with send := d.send.clearPieces }
  | .readerDone => { d with readerDone := true }

/-- No command is on its way and the queue holds nothing, on a connection that stands. -/
def drained (d : PeerSession) : Bool :=
  d.channel.isEmpty && !d.send.out.hasWork && d.phase != .failed

end PeerSession

/-- What one step of either half reads. The layout is fetched anew by every request and every fill. -/
inductive Event where
  | request (layout : StorageLayout) (hasPiece : Bool) (block : UploadBlock)
  | cancel (block : UploadBlock)
  | interested
  | notInterested
  | readerCtrl (plain : List Message)
  | readerEnd
  | receive
  | haves (indices : List Nat)
  | keepalive
  | pump (layout : StorageLayout) (turns : Nat → Turn)
  | leave (stopped : Bool)
  | flush (layout : StorageLayout) (turns : Nat → Turn)

def isReject : Message → Bool
  | .rejectRequest _ _ _ => true
  | _ => false

/-- One pump of the writer loop; an error of the quantum ends the session. -/
def pump (config : PeerConfig) (layout : StorageLayout) (turns : Nat → Turn) (d : PeerSession) :
    Option PeerSession :=
  (sendQuantum ⟨layout, config.allowUpload || d.send.out.hasWork, config.fastEnabled⟩ turns
    d.send).map fun result =>
      { d with send := result.1, phase := if result.2.toBool then d.phase else .failed }

/-- One turn of the final flush of control. -/
def flush (config : PeerConfig) (layout : StorageLayout) (turns : Nat → Turn) (d : PeerSession) :
    Option PeerSession :=
  (sendQuantum ⟨layout, false, config.fastEnabled⟩ turns d.send).map fun result =>
    { d with
      send := result.1
      phase :=
        match result.2 with
        | .ok outcome => if outcome.kind = .progress then .flushing else .ended
        | .error _ => .failed }

/-- The reader handles messages until it ends; the writer runs until it leaves its loop. Apart from
the request arm no control message of the reader is a reject. -/
def step (config : PeerConfig) (d : PeerSession) : Event → Option PeerSession
  | .request layout hasPiece block =>
    if d.reading then some (d.onRequest config layout hasPiece block) else none
  | .cancel block => if d.reading then some (d.onCancel config block) else none
  | .interested => if d.reading then some d.onInterested else none
  | .notInterested => if d.reading then some d.onNotInterested else none
  | .readerCtrl plain =>
    if d.reading ∧ plain.any isReject = false then some (d.pushCtrlOwned plain) else none
  | .readerEnd => if d.reading then some ({ d with reading := false }.post .readerDone) else none
  | .receive =>
    if d.phase = .running then
      match d.channel with
      | msg :: rest => some ({ d with channel := rest }.applyWriterMsg config msg)
      | [] => none
    else none
  | .haves indices =>
    if d.phase = .running then some { d with send := d.send.pushCtrl (indices.map .have_) } else none
  | .keepalive => if d.phase = .running then some { d with send := d.send.pushKeepalive } else none
  | .pump layout turns =>
    if d.phase = .running ∧ d.send.out.hasWork then pump config layout turns d else none
  | .leave stopped =>
    if d.phase = .running ∧ (stopped ∨ (d.readerDone ∧ d.send.out.hasWork = false)) then
      some { d with phase := .flushing }
    else none
  | .flush layout turns =>
    if d.phase = .flushing ∧ d.send.out.hasWork then flush config layout turns d else none

end Seedchamp.Peer.Duplex
