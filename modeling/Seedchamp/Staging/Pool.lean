import Seedchamp.Disk.Spans
import Seedchamp.Staging.PiecePool

/-!
Piece staging of one peer: which blocks of which pieces were requested and received. The bytes come
from the shared freelist of the torrent, which every operation that needs it takes and returns.
-/

namespace Seedchamp.Staging.Pool
open Disk.Spans Staging.PiecePool

/-- The request block size. -/
def BLOCK_SIZE : Nat := 16 * 1024

def numBlocks (pieceLen : Nat) : Nat := (pieceLen + (BLOCK_SIZE - 1)) / BLOCK_SIZE

def blockLen (pieceLen blockIndex : Nat) : Nat :=
  if pieceLen ≤ blockIndex * BLOCK_SIZE then 0
  else min (pieceLen - blockIndex * BLOCK_SIZE) BLOCK_SIZE

/-- One piece being assembled: for each block whether it was received and whether it was requested. -/
structure ActivePiece where
  index : Nat
  length : Nat
  have_ : List Bool
  requested : List Bool
  endgame : Bool
  paired : requested.length = have_.length
  deriving DecidableEq

namespace ActivePiece

def open' (index length maxBlocks : Nat) : ActivePiece where
  index := index
  length := length
  have_ := (List.replicate maxBlocks false).take (numBlocks length)
  requested := (List.replicate maxBlocks false).take (numBlocks length)
  endgame := false
  paired := rfl

def isComplete (piece : ActivePiece) : Bool := piece.have_.all id

def setEndgame (piece : ActivePiece) (on : Bool) : ActivePiece := { piece with endgame := on }

/-- Forget the requests of the blocks that did not arrive. -/
def requeueMissing (piece : ActivePiece) : ActivePiece :=
  { piece with
    requested :=
      piece.requested.mapIdx (fun i asked => if piece.have_.getD i true then asked else false)
    paired := by rw [List.length_mapIdx, piece.paired] }

def clearRequest (piece : ActivePiece) (begin' length : Nat) : Bool × ActivePiece :=
  let bi := begin' / BLOCK_SIZE
  if begin' % BLOCK_SIZE ≠ 0 then (false, piece)
  else if piece.have_.length ≤ bi ∨ piece.have_.getD bi true ∨ piece.requested.getD bi false = false then
    (false, piece)
  else if length ≠ blockLen piece.length bi then (false, piece)
  else
    (true, { piece with
      requested := piece.requested.set bi false
      paired := by rw [List.length_set, piece.paired] })

/-- The first block neither received nor requested. -/
def nextBlock (piece : ActivePiece) : Option Nat :=
  (List.range piece.have_.length).find?
    (fun i => !piece.have_.getD i false && !piece.requested.getD i false)

def nextRequest (piece : ActivePiece) : Option ((Nat × Nat) × ActivePiece) :=
  piece.nextBlock.map fun i =>
    ((i * BLOCK_SIZE, blockLen piece.length i),
      { piece with
        requested := piece.requested.set i true
        paired := by rw [List.length_set, piece.paired] })

def outstandingRequests (piece : ActivePiece) : Nat :=
  ((piece.have_.zip piece.requested).filter (fun block => !block.1 && block.2)).length

/-- Mark the whole blocks covered by a range of the piece. -/
def markRangeHave (piece : ActivePiece) (begin' length bufLen : Nat) : Except Error ActivePiece :=
  if length = 0 then .ok piece
  else if begin' % BLOCK_SIZE ≠ 0 ∧ begin' + length ≠ piece.length ∧
      begin' / BLOCK_SIZE ≠ (begin' + length - 1) / BLOCK_SIZE then
    .error (.msg "unaligned multi-block piece data")
  else if piece.have_.length ≤ begin' / BLOCK_SIZE then .error (.msg "block begin past piece")
  else if piece.length < begin' + length ∨ bufLen < begin' + length then
    .error (.msg "block past piece end")
  else
    .ok { piece with
      have_ := piece.have_.mapIdx (fun i got =>
        got || decide (begin' ≤ i * BLOCK_SIZE ∧
          i * BLOCK_SIZE + blockLen piece.length i ≤ begin' + length ∧
          begin' / BLOCK_SIZE ≤ i ∧ i < numBlocks (begin' + length)))
      paired := by rw [List.length_mapIdx, piece.paired] }

/-- Take in a block: the piece, its buffer, and whether the piece is complete. -/
def ingest (piece : ActivePiece) (buf : Buffer) (begin' : Nat) (data : Buffer) :
    Except Error (ActivePiece × Buffer × Bool) :=
  if buf.length < begin' + data.length ∨ piece.length < begin' + data.length then
    .error (.msg "block overflows piece buffer")
  else
    match piece.markRangeHave begin' data.length buf.length with
    | .error problem => .error problem
    | .ok piece =>
      .ok (piece, buf.take begin' ++ data ++ buf.drop (begin' + data.length), piece.isComplete)

end ActivePiece

inductive Slot where
  | assembling (piece : ActivePiece) (buf : Buffer)
  | hashing (index : Nat)
  deriving DecidableEq

/-- A block request: piece index, offset and length. -/
abbrev Request := Nat × Nat × Nat

/-- `pool` names the shared freelist of the torrent; a pure seeder has none. -/
structure StagingPool where
  slots : List Slot
  pieceLength : Nat
  maxBlocks : Nat
  pool : Option Nat
  deriving DecidableEq

/-- `Vec::swap_remove`. -/
def swapRemove {α : Type} (list : List α) (position : Nat) : List α :=
  match list.getLast? with
  | some last => (list.set position last).dropLast
  | none => list

def Slot.assembles (slot : Slot) (index : Nat) : Bool :=
  match slot with
  | .assembling piece _ => piece.index = index
  | .hashing _ => false

/-- The piece and the buffer, when the slot assembles the index. -/
def Slot.piece (index : Nat) : Slot → Option (ActivePiece × Buffer)
  | .assembling piece buf => if piece.index = index then some (piece, buf) else none
  | .hashing _ => none

def Slot.holds (slot : Slot) (index : Nat) : Bool :=
  match slot with
  | .assembling piece _ => piece.index = index
  | .hashing i => i = index

/-- The number of pieces one peer may assemble at a time. -/
def maxAssemblingPieces (pipeline pieceLength capacity : Nat) : Nat :=
  if capacity = 0 then 0
  else
    let blocks := max (numBlocks pieceLength) 1
    let forPipe := max ((pipeline + (blocks - 1)) / blocks) 1
    let fair := max ((capacity + 15) / 16) 1
    let n := min forPipe fair
    if 256 ≤ blocks then min n 2 else n

namespace StagingPool

def empty (pieceLength : Nat) : StagingPool := ⟨[], max pieceLength 1, numBlocks (max pieceLength 1), none⟩

def fromPool (pool : Nat) (shared : PieceBufferPool) : StagingPool :=
  ⟨[], shared.pieceLength, numBlocks shared.pieceLength, some pool⟩

def contains (staging : StagingPool) (index : Nat) : Bool := staging.slots.any (·.holds index)

/-- The pieces being assembled. -/
def indices (staging : StagingPool) : List Nat :=
  staging.slots.filterMap fun slot =>
    match slot with
    | .assembling piece _ => some piece.index
    | .hashing _ => none

def len (staging : StagingPool) : Nat := staging.indices.length

def totalOutstanding (staging : StagingPool) : Nat :=
  (staging.slots.map fun slot =>
    match slot with
    | .assembling piece _ => piece.outstandingRequests
    | .hashing _ => 0).sum

/-- Apply an update to every piece being assembled. -/
def mapPieces (staging : StagingPool) (update : ActivePiece → ActivePiece) : StagingPool :=
  { staging with
    slots := staging.slots.map fun slot =>
      match slot with
      | .assembling piece buf => .assembling (update piece) buf
      | .hashing index => .hashing index }

def enableEndgame (staging : StagingPool) : StagingPool := staging.mapPieces (·.setEndgame true)

def requeueTimedOut (staging : StagingPool) : StagingPool :=
  staging.mapPieces ActivePiece.requeueMissing

/-- Replace the first piece of the index, as `find_assembling_mut` reaches it. -/
def replaceFirst (index : Nat) (slot : Slot) : List Slot → List Slot
  | [] => []
  | first :: rest =>
    if first.assembles index then slot :: rest else first :: replaceFirst index slot rest

def findAssembling (staging : StagingPool) (index : Nat) : Option (ActivePiece × Buffer) :=
  staging.slots.findSome? (Slot.piece index)

def withPiece (staging : StagingPool) (index : Nat) (piece : ActivePiece) (buf : Buffer) :
    StagingPool :=
  { staging with slots := replaceFirst index (.assembling piece buf) staging.slots }

def clearRequest (staging : StagingPool) (index begin' length : Nat) : StagingPool :=
  match staging.findAssembling index with
  | some (piece, buf) => staging.withPiece index (piece.clearRequest begin' length).2 buf
  | none => staging

/-- Open a slot for a piece, when the freelist has a buffer. -/
def tryStart (staging : StagingPool) (shared : Option PieceBufferPool) (index length : Nat) :
    Bool × StagingPool × Option PieceBufferPool :=
  if staging.contains index then (true, staging, shared)
  else if length = 0 ∨ staging.pieceLength < length then (false, staging, shared)
  else
    match shared with
    | none => (false, staging, none)
    | some pool =>
      match pool.tryAcquire with
      | none => (false, staging, some pool)
      | some (buf, pool) =>
        (true, { staging with
          slots := staging.slots ++
            [.assembling (ActivePiece.open' index length staging.maxBlocks) buf] }, some pool)

/-- Take in a block of a piece that is being assembled; the answer is whether it became complete. -/
def ingestIfStaged (staging : StagingPool) (index begin' : Nat) (data : Buffer) :
    Except Error (Option (Bool × StagingPool)) :=
  match staging.findAssembling index with
  | none => .ok none
  | some (piece, buf) =>
    match piece.ingest buf begin' data with
    | .error problem => .error problem
    | .ok (piece, buf, complete) => .ok (some (complete, staging.withPiece index piece buf))

/-- Hand the buffer of a complete piece to the hash job. -/
def takeForHash (staging : StagingPool) (shared : Option PieceBufferPool) (index : Nat) :
    Option (Buffer × StagingPool × Option PieceBufferPool) :=
  match staging.slots.findIdx? (·.assembles index), staging.findAssembling index with
  | some position, some (_, buf) =>
    some (buf, { staging with slots := swapRemove staging.slots position ++ [.hashing index] },
      shared.map PieceBufferPool.detach)
  | _, _ => none

/-- Recycle a buffer after the hash job. -/
def reclaim (staging : StagingPool) (shared : Option PieceBufferPool) (index : Nat) (data : Buffer) :
    StagingPool × Option PieceBufferPool :=
  ({ staging with
      slots := staging.slots.filter (fun slot => slot != .hashing index) },
    shared.map (·.donate data))

/-- Drop the pieces being assembled; the ones being hashed stay. -/
def clear (staging : StagingPool) (shared : Option PieceBufferPool) :
    StagingPool × Option PieceBufferPool :=
  ({ staging with
      slots := staging.slots.filter fun slot =>
        match slot with
        | .assembling _ _ => false
        | .hashing _ => true },
    shared.map fun pool => staging.slots.foldl (fun pool slot =>
      match slot with
      | .assembling _ buf => pool.release buf
      | .hashing _ => pool) pool)

/-- Request the next block of one piece. -/
def requestNext (staging : StagingPool) (index : Nat) : Option (Request × StagingPool) :=
  match staging.findAssembling index with
  | none => none
  | some (piece, buf) =>
    piece.nextRequest.map fun found =>
      ((index, found.1.1, found.1.2), staging.withPiece index found.2 buf)

/-- The inner `while` of `take_requests`. A turn adds one outstanding block, so `pipeline` turns do. -/
def fillPiece (pipeline index : Nat) : Nat → StagingPool → List Request × StagingPool
  | 0, staging => ([], staging)
  | fuel + 1, staging =>
    if staging.totalOutstanding < pipeline then
      match staging.requestNext index with
      | none => ([], staging)
      | some (request, next) =>
        let rest := fillPiece pipeline index fuel next
        (request :: rest.1, rest.2)
    else ([], staging)

/-- The pass of `take_requests` over the pieces already being assembled. -/
def fillExisting (pipeline : Nat) (mayRequestPiece : Nat → Bool) :
    List Nat → StagingPool → List Request × StagingPool
  | [], staging => ([], staging)
  | index :: rest, staging =>
    if mayRequestPiece index then
      let one := fillPiece pipeline index pipeline staging
      if pipeline ≤ one.2.totalOutstanding then one
      else
        let more := fillExisting pipeline mayRequestPiece rest one.2
        (one.1 ++ more.1, more.2)
    else fillExisting pipeline mayRequestPiece rest staging

end StagingPool

end Seedchamp.Staging.Pool
