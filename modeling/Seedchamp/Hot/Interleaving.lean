import Seedchamp.Hot.Possession
import Seedchamp.Foundation.TransitionSystem
import Mathlib.Logic.Function.Basic

/-!
Concurrent calls on one hot torrent, one lock acquisition or atomic operation at a time. A call is
a thread with a program counter; `pieces.write()` is held across the update of `mark_have`, every
other lock only for the one read or write made under it.
-/

namespace Seedchamp.Hot.Interleaving
open Catalog.Bitfield Foundation.Tally Hot.Torrent Hot.Torrent.HotTorrent

inductive Call where
  | markHave (index : Nat)
  | rebuildWantedAndMissing
  | setFilePriority (fileIdx : Nat) (priority : Int)
  deriving DecidableEq, Repr

/-- Where a call stands: the operation it performs next, with the locals it has read so far.
`reprio` tells whether the rebuild runs inside `set_file_priority`. -/
inductive Thread where
  | releaseClaim (index : Nat)
  | readWanted (index : Nat)
  | lockPieces (index : Nat) (wanted : Bool)
  | storeCount (index : Nat) (wanted : Bool)
  | addPayload (index : Nat) (wanted : Bool)
  | takeMissing (index : Nat) (wanted : Bool)
  | testFully (index : Nat)
  | storeFullCount (index : Nat)
  | zeroMissing (index : Nat)
  | storeFullPayload (index : Nat)
  | unlockPieces (index : Nat) (fully : Bool)
  | publish (index : Nat) (fully : Bool)
  | dropHashes
  | testDone
  | releasePool
  | writePriority (fileIdx : Nat) (priority : Int)
  | readPriority (reprio : Bool)
  | snapshotPieces (reprio : Bool) (wanted : Bits)
  | writeWanted (reprio : Bool) (wanted : Bits) (missing : Nat)
  | storeMissing (reprio : Bool) (missing : Nat)
  | testPool
  | testEnsure
  | fillPool
  | returned
  deriving DecidableEq, Repr

def Call.entry : Call → Thread
  | markHave index => .releaseClaim index
  | rebuildWantedAndMissing => .readPriority false
  | setFilePriority fileIdx priority => .writePriority fileIdx priority

/-- The torrent, the thread that holds `pieces` for writing, and every call made so far. -/
structure State where
  torrent : HotTorrent
  writer : Option Nat
  threads : List Thread

def start (t : HotTorrent) : State := ⟨t, none, []⟩

inductive Event where
  | call (c : Call)
  | advance (tid : Nat)
  deriving DecidableEq, Repr

/-- The missing count of a snapshot: zero once complete. -/
def countMissing (t : HotTorrent) (wanted : Bits) : Nat :=
  if t.pieces.complete then 0
  else tally (fun i => bitfieldGet wanted i && !bitfieldGet t.pieces.bitfield i) t.pieceCount

def State.move (s : State) (tid : Nat) (next : Thread) : State :=
  { s with threads := s.threads.set tid next }

def State.update (s : State) (t : HotTorrent) (tid : Nat) (next : Thread) : State :=
  { s with torrent := t, threads := s.threads.set tid next }

/-- One operation of one thread. -/
def advance (s : State) (tid : Nat) : Thread → Option State
  | .releaseClaim index =>
    some (s.update (s.torrent.releasePieceClaim index) tid (.readWanted index))
  | .readWanted index => some (s.move tid (.lockPieces index (s.torrent.wantsPiece index)))
  | .lockPieces index wanted =>
    if s.writer.isSome then none
    else if s.torrent.pieces.complete || bitfieldGet s.torrent.pieces.bitfield index then
      some (s.move tid .returned)
    else
      some { s with
        torrent := { s.torrent with
          pieces := { s.torrent.pieces with
            bitfield := bitfieldSet s.torrent.pieces.bitfield index
            haveCount := s.torrent.pieces.haveCount + 1 } }
        writer := some tid
        threads := s.threads.set tid (.storeCount index wanted) }
  | .storeCount index wanted =>
    some (s.update { s.torrent with haveCountAtomic := s.torrent.pieces.haveCount } tid
      (.addPayload index wanted))
  | .addPayload index wanted =>
    some (s.update { s.torrent with
      completedPayload := s.torrent.completedPayload + s.torrent.layout.pieceBytes index } tid
      (.takeMissing index wanted))
  | .takeMissing index wanted =>
    some (s.update { s.torrent with
      downloadMissing :=
        if wanted then s.torrent.downloadMissing - 1 else s.torrent.downloadMissing } tid
      (.testFully index))
  | .testFully index =>
    if s.torrent.fullyHad then
      some (s.update { s.torrent with
        pieces := ⟨allSetBitfield s.torrent.pieceCount, true, s.torrent.pieceCount⟩ } tid
        (.storeFullCount index))
    else some (s.move tid (.unlockPieces index false))
  | .storeFullCount index =>
    some (s.update { s.torrent with haveCountAtomic := s.torrent.pieceCount } tid
      (.zeroMissing index))
  | .zeroMissing index =>
    some (s.update { s.torrent with downloadMissing := 0 } tid (.storeFullPayload index))
  | .storeFullPayload index =>
    some (s.update { s.torrent with completedPayload := s.torrent.layout.totalSize } tid
      (.unlockPieces index true))
  | .unlockPieces index fully =>
    some { s with writer := none, threads := s.threads.set tid (.publish index fully) }
  | .publish index fully =>
    some (s.update { s.torrent with haveHub := s.torrent.haveHub.publish index } tid
      (if fully then .dropHashes else .testDone))
  | .dropHashes =>
    if s.writer.isSome then none
    else some (s.update s.torrent.dropPieceHashesIfComplete tid .testDone)
  | .testDone =>
    some (s.move tid (if s.torrent.isDownloadComplete then .releasePool else .returned))
  | .releasePool => some (s.update s.torrent.releaseStagingPool tid .returned)
  | .writePriority fileIdx priority =>
    some (s.update (s.torrent.writePriority fileIdx priority) tid (.readPriority true))
  | .readPriority reprio =>
    some (s.move tid (.snapshotPieces reprio
      (buildWantedBitfield s.torrent.layout s.torrent.filePriority)))
  | .snapshotPieces reprio wanted =>
    if s.writer.isSome then none
    else some (s.move tid (.writeWanted reprio wanted (countMissing s.torrent wanted)))
  | .writeWanted reprio wanted missing =>
    some (s.update { s.torrent with wantedBf := wanted } tid (.storeMissing reprio missing))
  | .storeMissing reprio missing =>
    some (s.update { s.torrent with downloadMissing := missing } tid
      (if reprio then .testPool else .returned))
  | .testPool =>
    some (s.move tid (if s.torrent.isDownloadComplete then .releasePool else .testEnsure))
  | .testEnsure =>
    some (s.move tid (if s.torrent.isDownloadComplete then .returned else .fillPool))
  | .fillPool => some (s.update s.torrent.fillStagingPool tid .returned)
  | .returned => none

def step (s : State) : Event → Option State
  | .call (.markHave index) =>
    if index < s.torrent.pieceCount then
      some { s with threads := s.threads ++ [(Call.markHave index).entry] }
    else none
  | .call c => some { s with threads := s.threads ++ [c.entry] }
  | .advance tid => (s.threads[tid]?).bind (advance s tid)

/-- Every call has returned. -/
def Quiescent (s : State) : Prop := ∀ thread ∈ s.threads, thread = .returned

/-- The order of calls under which no update is lost. A new bit is recorded only if the wanted bit
read before it is still current and no rebuild that counted the piece is between its snapshot and
its store; a snapshot is taken only for the current priorities and together with no rebuild in
flight for another wanted set. -/
def undisturbed (s : State) : Event → Bool
  | .call _ => true
  | .advance tid =>
    match s.threads[tid]? with
    | some (.lockPieces index wanted) =>
      s.torrent.hasPiece index ||
        (wanted == s.torrent.wantsPiece index && s.threads.all (fun thread =>
          match thread with
          | .writeWanted _ counted _ => !wanted && !bitfieldGet counted index
          | .storeMissing _ _ => !wanted
          | _ => true))
    | some (.snapshotPieces _ wanted) =>
      wanted == buildWantedBitfield s.torrent.layout s.torrent.filePriority &&
        s.threads.all (fun thread =>
          match thread with
          | .writeWanted _ counted _ => counted == wanted
          | .storeMissing _ _ => s.torrent.wantedBf == wanted
          | _ => true)
    | _ => true

end Seedchamp.Hot.Interleaving
