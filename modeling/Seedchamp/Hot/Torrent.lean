import Seedchamp.Catalog.Bitfield
import Seedchamp.Disk.Spans
import Seedchamp.Staging.PiecePool
import Mathlib.Data.Finset.Insert

/-!
The in-memory torrent aggregate, run by one caller at a time: possession, the priority-filtered
wanted set, piece claims and the HAVE fan-out. The interleaved runs are in `Hot.Interleaving`.
-/

namespace Seedchamp.Hot.Torrent
open Catalog.Bitfield Disk.Spans Foundation.Machine Foundation.Tally Staging.PiecePool

/-- Mutable piece possession of a hot torrent. -/
structure PieceState where
  bitfield : Bits
  complete : Bool
  haveCount : Nat
  deriving DecidableEq, Repr

/-- One receiver of the HAVE channel: whether it still exists, and what it was sent. -/
structure HaveSub where
  connected : Bool
  queue : List Nat
  deriving DecidableEq, Repr

abbrev HaveHub := List HaveSub

namespace HaveHub

def subscribe (hub : HaveHub) : HaveHub := hub ++ [⟨true, []⟩]

/-- Send to every live subscriber and forget the dead ones. -/
def publish (hub : HaveHub) (index : Nat) : HaveHub :=
  (hub.filter HaveSub.connected).map (fun sub => { sub with queue := sub.queue ++ [index] })

end HaveHub

/-- `pools` lists every staging pool the torrent allocated, in order: an `Arc` of a pool is its
position there, and `stagingPool` is the one currently handed to new sessions. -/
structure HotTorrent where
  id : Nat
  infohash : List UInt8
  layout : StorageLayout
  pieceCount : Nat
  pieceHashes : List UInt8
  pieces : PieceState
  filePriority : List Int
  wantedBf : Bits
  downloadMissing : Nat
  haveCountAtomic : Nat
  completedPayload : Nat
  inFlight : Finset Nat
  availability : List Nat
  haveHub : HaveHub
  stagingPool : Option Nat
  stagingMemLimit : Nat
  pools : List PieceBufferPool
  deriving DecidableEq

def prioritiesFromLayout (layout : StorageLayout) : List Int :=
  layout.files.map FileLayout.priority

/-- The piece range `start..=end` of one file, clamped to the last piece. -/
def setFilePieces (layout : StorageLayout) (bits : Bits) (file : FileLayout) : Bits :=
  let last := layout.pieceCount - 1
  let endOff := saturatingAdd file.offset file.size - 1
  let first := min (asU32 (file.offset / layout.pieceLength)) last
  let final := min (asU32 (endOff / layout.pieceLength)) last
  (List.range' first (final + 1 - first)).foldl bitfieldSet bits

/-- Mark the pieces covered by files of positive priority, from the file byte ranges. -/
def buildWantedBitfield (layout : StorageLayout) (prios : List Int) : Bits :=
  if layout.pieceCount = 0 ∨ layout.pieceLength = 0 then emptyBitfield layout.pieceCount
  else
    layout.files.zipIdx.foldl
      (fun bits entry =>
        if prios.getD entry.2 entry.1.priority ≤ 0 ∨ entry.1.size = 0 then bits
        else setFilePieces layout bits entry.1)
      (emptyBitfield layout.pieceCount)

namespace HotTorrent

def hasPiece (t : HotTorrent) (index : Nat) : Bool :=
  if t.pieceCount ≤ index then false
  else if t.pieces.complete then true
  else bitfieldGet t.pieces.bitfield index

/-- Whether the piece intersects a file of positive priority. -/
def wantsPiece (t : HotTorrent) (index : Nat) : Bool :=
  if t.pieceCount ≤ index then false else bitfieldGet t.wantedBf index

/-- Rebuild the wanted bitfield and the missing counter from the priorities. -/
def rebuildWantedAndMissing (t : HotTorrent) : HotTorrent :=
  let wanted := buildWantedBitfield t.layout t.filePriority
  if t.pieces.complete then { t with wantedBf := wanted, downloadMissing := 0 }
  else
    { t with
      wantedBf := wanted
      downloadMissing :=
        tally (fun i => bitfieldGet wanted i && !bitfieldGet t.pieces.bitfield i) t.pieceCount }

/-- Recompute the completed payload from the have bitfield. -/
def recountCompletedPayload (t : HotTorrent) : HotTorrent :=
  if t.pieces.complete then { t with completedPayload := t.layout.totalSize }
  else
    { t with
      completedPayload :=
        weigh t.layout.pieceBytes (bitfieldGet t.pieces.bitfield) t.pieceCount }

def finishNew (t : HotTorrent) : HotTorrent :=
  t.rebuildWantedAndMissing.recountCompletedPayload

def isComplete (t : HotTorrent) : Bool := t.pieces.complete

/-- All wanted pieces present; gaps in files that are off do not count. -/
def isDownloadComplete (t : HotTorrent) : Bool := t.downloadMissing = 0

def missingPieceCount (t : HotTorrent) : Nat := t.downloadMissing

def completedBytes (t : HotTorrent) : Nat := t.completedPayload

def leftBytes (t : HotTorrent) : Nat := t.layout.totalSize - t.completedBytes

def ENDGAME_MAX_MISSING : Nat := 8

/-- Few wanted pieces remain, or every remaining piece is already claimed. -/
def shouldEndgame (t : HotTorrent) : Bool :=
  if t.missingPieceCount = 0 then false
  else if t.missingPieceCount ≤ ENDGAME_MAX_MISSING then true
  else t.missingPieceCount ≤ t.inFlight.card

/-- Reserve a piece: exclusive outside endgame, shared in endgame. -/
def tryClaimPiece (t : HotTorrent) (index : Nat) (endgame : Bool) : Bool × HotTorrent :=
  if t.pieceCount ≤ index ∨ t.hasPiece index then (false, t)
  else if endgame then (true, { t with inFlight := insert index t.inFlight })
  else (decide (index ∉ t.inFlight), { t with inFlight := insert index t.inFlight })

def releasePieceClaim (t : HotTorrent) (index : Nat) : HotTorrent :=
  { t with inFlight := t.inFlight.erase index }

def dropPieceHashesIfComplete (t : HotTorrent) : HotTorrent :=
  if t.isComplete then { t with pieceHashes := [] } else t

/-- Forget the shared freelist; sessions that hold the pool keep it. -/
def releaseStagingPool (t : HotTorrent) : HotTorrent := { t with stagingPool := none }

/-- The part of `ensure_staging_pool` under the slot lock. -/
def fillStagingPool (t : HotTorrent) : HotTorrent :=
  if t.stagingPool.isSome then t
  else
    { t with
      stagingPool := some t.pools.length
      pools := t.pools ++ [PieceBufferPool.new t.layout.pieceLength t.stagingMemLimit] }

def setStagingMemLimit (t : HotTorrent) (limit : Nat) : HotTorrent :=
  { t with stagingMemLimit := if limit = 0 then DEFAULT_STAGING_MEM_LIMIT else limit }

def ensureStagingPool (t : HotTorrent) : HotTorrent :=
  if t.isDownloadComplete then t else t.fillStagingPool

/-- What `mark_have` does to a piece not had yet while it holds the piece lock. -/
def recordHave (t : HotTorrent) (index : Nat) : HotTorrent :=
  { t with
    pieces := { t.pieces with
      bitfield := bitfieldSet t.pieces.bitfield index
      haveCount := t.pieces.haveCount + 1 }
    haveCountAtomic := t.pieces.haveCount + 1
    completedPayload := t.completedPayload + t.layout.pieceBytes index
    downloadMissing :=
      if t.wantsPiece index then t.downloadMissing - 1 else t.downloadMissing }

/-- The settlement of the last piece, still under the piece lock. -/
def settleComplete (t : HotTorrent) : HotTorrent :=
  { t with
    pieces := {
      bitfield := allSetBitfield t.pieceCount
      complete := true
      haveCount := t.pieceCount }
    haveCountAtomic := t.pieceCount
    downloadMissing := 0
    completedPayload := t.layout.totalSize }

/-- Every piece of a non-empty torrent is counted. -/
def fullyHad (t : HotTorrent) : Bool := t.pieceCount ≤ t.pieces.haveCount ∧ 0 < t.pieceCount

def settleHave (t : HotTorrent) : HotTorrent := if t.fullyHad then t.settleComplete else t

/-- What follows once the piece lock is released. -/
def afterHave (t : HotTorrent) (index : Nat) (fully : Bool) : HotTorrent :=
  let published := { t with haveHub := t.haveHub.publish index }
  let trimmed := if fully then published.dropPieceHashesIfComplete else published
  if trimmed.isDownloadComplete then trimmed.releaseStagingPool else trimmed

/-- Mark a piece had in memory; the answer is whether the full torrent became complete. -/
def markHave (t : HotTorrent) (index : Nat) : HotTorrent × Bool :=
  let t := t.releasePieceClaim index
  if t.pieces.complete || bitfieldGet t.pieces.bitfield index then (t, t.pieces.complete)
  else
    let recorded := t.recordHave index
    (recorded.settleHave.afterHave index recorded.fullyHad, recorded.fullyHad)

/-- Write one priority, growing the table with "on" when the file exists but the table is short. -/
def writePriority (t : HotTorrent) (fileIdx : Nat) (priority : Int) : HotTorrent :=
  if fileIdx < t.filePriority.length then
    { t with filePriority := t.filePriority.set fileIdx priority }
  else if fileIdx < t.layout.files.length then
    { t with
      filePriority :=
        (t.filePriority ++ List.replicate (t.layout.files.length - t.filePriority.length) 1).set
          fileIdx priority }
  else t

/-- Update the priority of one file live. -/
def setFilePriority (t : HotTorrent) (fileIdx : Nat) (priority : Int) : HotTorrent :=
  let rebuilt := (t.writePriority fileIdx priority).rebuildWantedAndMissing
  if rebuilt.isDownloadComplete then rebuilt.releaseStagingPool else rebuilt.ensureStagingPool

def subscribeHave (t : HotTorrent) : HotTorrent := { t with haveHub := t.haveHub.subscribe }

/-- Live swap of the data root for a handoff. -/
def setDataRootLive (t : HotTorrent) (newRoot : PathBuf) : HotTorrent :=
  { t with layout := { t.layout with dataRoot := newRoot } }

/-- The fields that every constructor fills the same way. -/
def bare (id : Nat) (infohash : List UInt8) (layout : StorageLayout) (pieceCount : Nat)
    (pieceHashes : List UInt8) (pieces : PieceState) : HotTorrent where
  id := id
  infohash := infohash
  layout := layout
  pieceCount := pieceCount
  pieceHashes := pieceHashes
  pieces := pieces
  filePriority := prioritiesFromLayout layout
  wantedBf := emptyBitfield pieceCount
  downloadMissing := 0
  haveCountAtomic := pieces.haveCount
  completedPayload := 0
  inFlight := ∅
  availability := List.replicate pieceCount 0
  haveHub := []
  stagingPool := none
  stagingMemLimit := DEFAULT_STAGING_MEM_LIMIT
  pools := []

/-- A complete seeder; hashes of the wrong length are dropped. -/
def newComplete (id : Nat) (infohash : List UInt8) (layout : StorageLayout)
    (pieceHashes : List UInt8) : HotTorrent :=
  finishNew (bare id infohash layout layout.pieceCount
    (if pieceHashes.length = layout.pieceCount * 20 then pieceHashes else [])
    ⟨allSetBitfield layout.pieceCount, true, layout.pieceCount⟩)

/-- An empty leecher. -/
def newEmpty (id : Nat) (infohash : List UInt8) (layout : StorageLayout)
    (pieceHashes : List UInt8) : HotTorrent :=
  finishNew (bare id infohash layout layout.pieceCount pieceHashes
    ⟨emptyBitfield layout.pieceCount, false, 0⟩)

end HotTorrent

/-- The columns of a catalog row that a load reads. -/
structure CatalogRow where
  id : Nat
  infohash : List UInt8
  pieceCount : Nat
  complete : Bool
  bitfield : Bits
  haveCount : Nat
  pieceHashes : List UInt8
  deriving DecidableEq, Repr

def loadBits (row : CatalogRow) : Bits :=
  if row.complete then allSetBitfield row.pieceCount
  else if row.bitfield.isEmpty then emptyBitfield row.pieceCount
  else row.bitfield

/-- Build the hot torrent of a row and its storage layout, without touching the registry. -/
def loadFromCatalog (layout : StorageLayout) (row : CatalogRow) (allowIncomplete : Bool) :
    Except Error HotTorrent :=
  if row.complete = false ∧ allowIncomplete = false then
    .error (.msg s!"torrent {row.id} not complete (have {row.haveCount}); recheck first")
  else if row.infohash.length ≠ 20 then .error (.msg "bad infohash length")
  else if row.complete = false ∧ row.pieceHashes.length ≠ row.pieceCount * 20 then
    .error (.msg s!"piece hash blob size {row.pieceHashes.length} != {row.pieceCount}*20")
  else
    .ok (HotTorrent.bare row.id row.infohash layout row.pieceCount
      (if row.complete then [] else row.pieceHashes)
      ⟨loadBits row, row.complete,
        if row.complete then row.pieceCount else row.haveCount⟩).finishNew

end Seedchamp.Hot.Torrent
