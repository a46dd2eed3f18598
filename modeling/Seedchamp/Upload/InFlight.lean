import Seedchamp.Crypto.PayloadCipher
import Seedchamp.Disk.Spans
import Seedchamp.Wire.Messages

/-!
Serving one block: the checks on a request, the fill of the framed PIECE into the upload scratch,
and the write of the frame. What the disk and the socket answer is a parameter of each operation.
-/

namespace Seedchamp.Upload.InFlight
open Crypto.PayloadCipher Disk.Spans Wire.Messages

def MAX_UPLOAD_REQQ : Nat := 8192
def MAX_REQUEST_LENGTH : Nat := 1 <<< 17
def PIECE_HEADER_LEN : Nat := 13
def UPLOAD_BLOCK_LEN : Nat := 16 * 1024
def UPLOAD_SCRATCH_LEN : Nat := PIECE_HEADER_LEN + UPLOAD_BLOCK_LEN

/-- One queued block the peer asked us to send. -/
structure UploadBlock where
  index : Nat
  begin' : Nat
  length : Nat
  deriving DecidableEq, Repr

inductive UploadRequestStatus where
  | accept
  | reject
  deriving DecidableEq, Repr

/-- Validate a request before it is queued. -/
def classifyUploadRequest (pieceCount pieceLen : Nat) (hasPiece peerInterested : Bool)
    (block : UploadBlock) : UploadRequestStatus :=
  if block.length = 0 ∨ MAX_REQUEST_LENGTH < block.length then .reject
  else if pieceCount ≤ block.index ∨ pieceLen = 0 then .reject
  else if pieceLen < block.begin' + block.length then .reject
  else if peerInterested = false ∨ hasPiece = false then .reject
  else .accept

/-- A PIECE whose frame sits in the scratch. `cipherApplied` records that RC4 has advanced over it. -/
structure InFlightUpload where
  block : UploadBlock
  cipherApplied : Bool
  rateReserved : Nat
  total : Nat
  sent : Nat
  payload : Nat
  deriving DecidableEq, Repr

def InFlightUpload.anyWireBytes (inf : InFlightUpload) : Bool := 0 < inf.sent

/-- The send may be dropped without partial wire bytes or a cipher desync. -/
def InFlightUpload.canAbort (inf : InFlightUpload) : Bool :=
  !inf.anyWireBytes && !inf.cipherApplied

/-- What the disk answers to a fill: the bytes of the block, or an error after part of the scratch
was overwritten. -/
inductive Fill where
  | read (byte : Nat → UInt8)
  | failed (notFound : Bool) (spill : Bytes)

inductive UploadError where
  | refused (problem : Error)
  | disk (notFound : Bool)
  deriving DecidableEq, Repr

def UploadError.isNotFound : UploadError → Bool
  | refused _ => false
  | disk notFound => notFound

def fillPieceHeader (index begin' length : Nat) : Bytes :=
  toBeBytes (9 + length) ++ MSG_PIECE :: (toBeBytes index ++ toBeBytes begin')

@[simp] theorem fillPieceHeader_length (index begin' length : Nat) :
    (fillPieceHeader index begin' length).length = PIECE_HEADER_LEN := rfl

/-- Write a prefix of the scratch. -/
def overwrite (scratch bytes : Bytes) : Bytes := bytes ++ scratch.drop bytes.length

/-- The checks of `begin_upload` that precede the fill. -/
def uploadSpans (layout : StorageLayout) (block : UploadBlock) : Except Error (List IoSpan) :=
  match layout.pieceSize block.index with
  | .error problem => .error problem
  | .ok plen =>
    if plen < block.begin' + block.length then .error (.msg "request past piece end")
    else if block.length = 0 then .error (.msg "zero-length piece request")
    else if UPLOAD_BLOCK_LEN < block.length then
      .error (.msg s!"piece request length {block.length} > upload block {UPLOAD_BLOCK_LEN}")
    else layout.spansForRange (block.index * layout.pieceLength + block.begin') block.length

/-- Fill the scratch with header and payload, then encrypt both in place. -/
def beginUpload (layout : StorageLayout) (block : UploadBlock) (rc4 : Option Rc4) (fill : Fill)
    (scratch : Bytes) : Except UploadError InFlightUpload × Option Rc4 × Bytes :=
  match uploadSpans layout block with
  | .error problem => (.error (.refused problem), rc4, scratch)
  | .ok _ =>
    let header := fillPieceHeader block.index block.begin' block.length
    match fill with
    | .failed notFound spill =>
      (.error (.disk notFound), rc4, overwrite scratch (header ++ spill.take block.length))
    | .read byte =>
      let payload := (List.range block.length).map byte
      let sealedHeader := cryptOpt rc4 header
      let sealedPayload := cryptOpt sealedHeader.2 payload
      (.ok {
        block := block
        cipherApplied := rc4.isSome
        rateReserved := 0
        total := PIECE_HEADER_LEN + block.length
        sent := 0
        payload := block.length },
        sealedPayload.2, overwrite scratch (sealedHeader.1 ++ sealedPayload.1))

end Seedchamp.Upload.InFlight
