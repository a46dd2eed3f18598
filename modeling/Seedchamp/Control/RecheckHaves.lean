import Seedchamp.Catalog.RecheckRuns
import Seedchamp.Foundation.HardLinks
import Seedchamp.Runtime.HashWorker
import Seedchamp.Session.HaveBuffer

/-!
A detached recheck of one torrent while its sessions write pieces and mark them, the buffer is
flushed and the data is moved. The recheck reads the files piece by piece and then stores a whole
bitfield over whatever the catalog has by that time.
-/

namespace Seedchamp.Control.RecheckHaves
open Foundation.HardLinks Catalog.Table Catalog.Pieces Catalog.Possession Catalog.RecheckRuns
open Disk.Spans Disk.ReadWrite Runtime.HashWorker

/-- What sessions and a relocation do to the files. -/
inductive FileCall where
  | openWrite (name : PathBuf)
  | create (name : PathBuf)
  | write (inode offset : Nat) (data : List UInt8)
  | link (src dst : PathBuf)
  | unlink (name : PathBuf)
  deriving DecidableEq, Repr

def FileCall.apply (volume : Volume PathBuf) : FileCall → Volume PathBuf
  | openWrite name => if volume.holds name then volume else volume.allocate name
  | create name => volume.create name
  | write inode offset data => volume.write inode offset data
  | link src dst => volume.link src dst
  | unlink name => volume.unlink name

/-- The recheck thread; `onDisk` is history: the pieces that were good under the data root when the
recheck finished. -/
inductive Phase where
  | idle
  | running (prepared : RecheckPrepared) (answers : List RecheckPieceResult)
  | applied (onDisk : List Nat)
  deriving DecidableEq, Repr

/-- `jobs` are the verified pieces whose outcome no session has seen yet, with their lengths, and
`marked` those that `mark_have` has taken and the callback not yet queued. -/
structure State where
  volume : Volume PathBuf
  buffer : Session.HaveBuffer.State
  hot : Nat → Bool
  jobs : List (Nat × Nat)
  marked : List HaveEvent
  recheck : Phase

/-- `opened` are the files that the cache of the hash worker has open; `outcome` with `false` is a
failed write or a session that is gone; `restart` reloads the hot torrent from the catalog. -/
inductive Event where
  | begin
  | hash (index : Nat) (opened : PathBuf → Option Nat)
  | finish (faults : Faults)
  | restart
  | submit (index plen : Nat)
  | outcome (k : Nat) (ok : Bool)
  | queuePieceHave (k : Nat)
  | queueOther (ev : HaveEvent)
  | flush (event : Session.HaveBuffer.Event)
  | file (call : FileCall)
  | setDataRoot (root : PathBuf)

section
variable {H : Type} (digest : Digest H) (fresh : H) (finalize : H → List UInt8)
variable (resolve : PathBuf → PathBuf) (id : Nat)

/-- The files as a reader finds them: a path that is open leads to the open file. -/
def view (volume : Volume PathBuf) (opened : PathBuf → Option Nat) : Foundation.Files.Volume PathBuf :=
  fun path => ((opened path).or (volume.names (resolve path))).map volume.contents

def pieceOf : RecheckPieceResult → Nat
  | .good index => index
  | .bad index => index
  | .missing index => index

/-- The recheck has read the piece and not found it good. -/
def missed (index : Nat) (answers : List RecheckPieceResult) : Bool :=
  answers.any (fun answer => pieceOf answer == index && answer != .good index)

namespace State

def row (s : State) : Option Row := s.buffer.catalog.find? id

/-- Whether the catalog marks the piece as had. -/
def had (s : State) (index : Nat) : Bool := (s.row id).any (fun r => r.hasPiece index)

/-- Whether the piece's verified bytes are readable under the catalog's `data_root`. -/
def found (s : State) (index : Nat) : Bool :=
  match s.row id with
  | none => false
  | some r =>
    match r.loadStorageLayout with
    | .error _ => false
    | .ok layout => handleRecheck digest fresh finalize (view resolve s.volume fun _ => none) layout
        r.pieceHashes index == .good index

def setDataRoot (s : State) (root : PathBuf) : State :=
  { s with
    buffer := { s.buffer with
      catalog := Catalog.Table.set s.buffer.catalog id (fun r => { r.columns with
        metaPath := r.columns.metaPath.map (fun roots => { roots with dataRoot := root }) }) } }

/-- An event that is in the buffer or in the hands of a running flush. -/
def waiting (s : State) (ev : HaveEvent) : Prop := ev ∈ s.buffer.pending ∨ ev ∈ s.buffer.taken

/-- A session or the buffer is still going to mark the piece. -/
def owed (s : State) (index : Nat) : Prop :=
  (∃ plen, (index, plen) ∈ s.jobs) ∨
    ∃ ev, ev.tid = id ∧ ev.index = index ∧ (ev ∈ s.marked ∨ s.waiting ev)

/-- Nothing of the torrent is on its way to the catalog. -/
def Settled (s : State) : Prop := ∀ index, ¬ s.owed id index

/-- The recheck has missed the piece and its bytes are on the disk, or they were when it finished
and the catalog does not have the piece. -/
def wanting (s : State) (index : Nat) : Prop :=
  match s.recheck with
  | .idle => False
  | .running _ answers => missed index answers = true ∧
      s.found digest fresh finalize resolve id index = true
  | .applied onDisk => index ∈ onDisk ∧ s.had id index = false

def running (s : State) : Bool :=
  match s.recheck with
  | .running _ _ => true
  | _ => false

/-- `apply_hash_outcome`, or the end of the job without one. -/
def applyHashOutcome (s : State) (k : Nat) (ok : Bool) (index plen : Nat) : State :=
  if ok && !s.hot index then
    { s with
      jobs := s.jobs.eraseIdx k
      hot := Function.update s.hot index true
      marked := s.marked ++ [⟨id, index, plen⟩] }
  else { s with jobs := s.jobs.eraseIdx k }

/-- The stored bitfield of a recheck that has run to its end; an error leaves the catalog. -/
def finish (s : State) (prepared : RecheckPrepared) (answers : List RecheckPieceResult)
    (faults : Faults) : State :=
  match conclude faults answers s.buffer.catalog id prepared.pieceCount with
  | (catalog, .ok _) =>
    { s with
      buffer := { s.buffer with catalog := catalog }
      recheck := .applied ((List.range prepared.pieceCount).filter
        (s.found digest fresh finalize resolve id)) }
  | (catalog, .error _) => { s with buffer := { s.buffer with catalog := catalog }, recheck := .idle }

end State

def step (s : State) : Event → Option State
  | .begin =>
    if s.running then none
    else match prepareRecheck s.buffer.catalog id with
      | .error _ => none
      | .ok (catalog, prepared) =>
        some { s with buffer := { s.buffer with catalog := catalog }, recheck := .running prepared [] }
  | .hash index opened =>
    match s.recheck with
    | .running prepared answers =>
      if prepared.pieceCount ≤ index ∨ index ∈ answers.map pieceOf then none
      else some { s with
        recheck := .running prepared (answers ++ [handleRecheck digest fresh finalize
          (view resolve s.volume opened) prepared.layout prepared.hashes index]) }
    | _ => none
  | .finish faults =>
    match s.recheck with
    | .running prepared answers =>
      some (s.finish digest fresh finalize resolve id prepared answers faults)
    | _ => none
  | .restart => some { s with hot := s.had id }
  | .submit index plen =>
    if s.hot index then none else some { s with jobs := s.jobs ++ [(index, plen)] }
  | .outcome k ok =>
    match s.jobs[k]? with
    | some (index, plen) => some (s.applyHashOutcome id k ok index plen)
    | none => none
  | .queuePieceHave k =>
    match s.marked[k]? with
    | some ev => some { s with
        marked := s.marked.eraseIdx k
        buffer := { s.buffer with
          pending := s.buffer.pending ++ [ev]
          queued := s.buffer.queued ++ [ev] } }
    | none => none
  | .queueOther ev =>
    if ev.tid = id then none
    else some { s with
      buffer := { s.buffer with
        pending := s.buffer.pending ++ [ev]
        queued := s.buffer.queued ++ [ev] } }
  | .flush event =>
    match event with
    | .queuePieceHave _ | .statement _ => none
    | event => (Session.HaveBuffer.step s.buffer event).map (fun buffer => { s with buffer := buffer })
  | .file call => some { s with volume := call.apply s.volume }
  | .setDataRoot root => some (s.setDataRoot id root)

/-- A change of the files or of the data root brings no piece back that the recheck has missed,
unless a session is still going to mark it. -/
def Marks (s s' : State) : Prop :=
  s.running = true → ∀ index, s'.wanting digest fresh finalize resolve id index →
    ¬ s.wanting digest fresh finalize resolve id index → s.owed id index

/-- The steps under which no have is lost: the recheck finds what is under the data root; bytes of
a piece that it has missed come only from sessions that will mark it; while it runs, no flush
commits such a piece; and no session that is to mark it gives up. -/
def Harmless (s : State) : Event → Prop
  | .hash index opened => ∀ prepared answers, s.recheck = .running prepared answers →
      s.found digest fresh finalize resolve id index = true →
      handleRecheck digest fresh finalize (view resolve s.volume opened) prepared.layout
        prepared.hashes index = .good index
  | .file call => Marks digest fresh finalize resolve id s { s with volume := call.apply s.volume }
  | .setDataRoot root => Marks digest fresh finalize resolve id s (s.setDataRoot id root)
  | .flush (.write k true) => s.running = true → ∀ only batch,
      s.buffer.flushes[k]? = some (.writing only batch) →
      ∀ ev ∈ batch, ev.tid = id → ¬ s.wanting digest fresh finalize resolve id ev.index
  | .outcome k ok => ∀ index plen, s.jobs[k]? = some (index, plen) → (ok && !s.hot index) = false →
      s.wanting digest fresh finalize resolve id index →
      { s with jobs := s.jobs.eraseIdx k : State }.owed id index
  | _ => True

/-- A torrent that is in the catalog, before a recheck. -/
structure Start (s : State) : Prop where
  row : ∃ r, s.row id = some r ∧ Agreement r
  recheck : s.recheck = .idle

end

end Seedchamp.Control.RecheckHaves
