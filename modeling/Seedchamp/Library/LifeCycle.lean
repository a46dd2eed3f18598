import Seedchamp.Foundation.TransitionSystem
import Seedchamp.Library.Ingest
import Seedchamp.Runtime.HashWorker

/-!
The life of the library: torrents are added and restored, deleted and purged, started and stopped,
written piece by piece, rechecked, audited and moved, one whole operation after another. A file that is
moved is the same file under another name, linked or copied.
-/

namespace Seedchamp.Library.LifeCycle
open Foundation.KeyedRows
open Foundation.Files (Volume)
open Catalog.Table Catalog.Pieces Library.Ingest Disk.Spans Disk.ReadWrite Runtime.HashWorker

/-! ### The files -/

/-- `File::set_len`. -/
def setLen (content : List UInt8) (size : Nat) : List UInt8 :=
  content.take size ++ List.replicate (size - content.length) 0

/-- One file of `ensure_storage`: off, there with its size, or created or resized. -/
def ensureFile (layout : StorageLayout) (volume : Volume PathBuf) (file : FileLayout) : Volume PathBuf :=
  if file.priority ≤ 0 then volume
  else
    let path := layout.absolute file.path
    match volume path with
    | none => Function.update volume path (some (setLen [] file.size))
    | some content =>
      if content.length = file.size then volume
      else Function.update volume path (some (setLen content file.size))

def ensureStorage (layout : StorageLayout) (volume : Volume PathBuf) : Volume PathBuf :=
  layout.files.foldl (ensureFile layout) volume

/-- One file of `transfer_payload_files`; a missing source is skipped. -/
def publishFile (layout : StorageLayout) (newRoot : PathBuf) (volume : Volume PathBuf)
    (file : FileLayout) : Volume PathBuf :=
  match volume (layout.absolute file.path) with
  | none => volume
  | some bytes => Function.update volume (newRoot ++ file.path) (some bytes)

def transferPayloadFiles (layout : StorageLayout) (newRoot : PathBuf) (volume : Volume PathBuf) :
    Volume PathBuf :=
  layout.files.foldl (publishFile layout newRoot) volume

/-- One file of `unpublish_payload_files`. -/
def unpublishFile (layout : StorageLayout) (newRoot : PathBuf) (volume : Volume PathBuf)
    (file : FileLayout) : Volume PathBuf :=
  if layout.absolute file.path = newRoot ++ file.path then volume
  else Function.update volume (layout.absolute file.path) none

def unpublishPayloadFiles (layout : StorageLayout) (newRoot : PathBuf) (wipeRoot : Bool)
    (volume : Volume PathBuf) : Volume PathBuf :=
  let removed := layout.files.foldl (unpublishFile layout newRoot) volume
  if wipeRoot then fun name => if layout.dataRoot.isPrefixOf name then none else removed name
  else removed

/-! ### The operations -/

structure State where
  catalog : TorrentTable
  volume : Volume PathBuf

/-- What a request to move the payload comes to. -/
inductive Move where
  | stay
  | setHomeRoot (home : Option PathBuf)
  | switch (newRoot : PathBuf) (clearHomeRoot : Bool)
  deriving DecidableEq, Repr

/-- `get_home_root`: an empty text is no root. -/
def getHomeRoot (roots : MetaPath) : Option PathBuf := roots.homeRoot.filter (fun home => !home.isEmpty)

/-- `relocate_data_root`: a staged torrent only gets another home. -/
def relocateDataRoot (roots : MetaPath) (newRoot : PathBuf) : Move :=
  if newRoot = [] then .stay
  else
    match getHomeRoot roots with
    | some home =>
      if roots.dataRoot ≠ home then
        if home = newRoot then .stay else .setHomeRoot (some newRoot)
      else if roots.dataRoot = newRoot then .stay
      else .switch newRoot false
    | none => if roots.dataRoot = newRoot then .stay else .switch newRoot false

/-- `run_leech_cache_handoff` of a torrent with a home. -/
def runLeechCacheHandoff (roots : MetaPath) (complete : Bool) : Move :=
  match getHomeRoot roots with
  | none => .stay
  | some home =>
    if roots.dataRoot = home then .setHomeRoot none
    else if complete then .switch home true
    else .stay

/-- `place` is where the configuration puts the torrent, on the leech cache or not; a watched
directory adds in the same way. `data` is a piece that a session has received. -/
inductive Event where
  | add (m : Metainfo) (place : Placement) (start : Bool)
  | markDeleted (id : Nat) (now : Int)
  | start (id : Nat)
  | stop (id : Nat)
  | writePiece (id index : Nat) (data : List UInt8)
  | recheck (id : Nat)
  | audit (problem : Nat → Bool)
  | purge (days : Nat) (now : Int)
  | relocate (id : Nat) (newRoot : PathBuf)
  | handoff (id : Nat) (complete : Bool)

def rootColumns (c : Columns) (change : MetaPath → MetaPath) : Columns :=
  { c with metaPath := c.metaPath.map change }

namespace State

def row (s : State) (id : Nat) : Option Row := s.catalog.find? id

def setRoots (s : State) (id : Nat) (change : MetaPath → MetaPath) : State :=
  { s with catalog := set s.catalog id (fun r => rootColumns r.columns change) }

/-- Publish, set the data root, unpublish; a hand-off clears the home and wipes the stage. -/
def switchPayloadRoot (s : State) (id : Nat) (layout : StorageLayout) (newRoot : PathBuf)
    (clearHomeRoot : Bool) : State :=
  let s' := s.setRoots id (fun roots =>
    { dataRoot := newRoot, homeRoot := if clearHomeRoot then none else roots.homeRoot })
  { s' with
    volume := unpublishPayloadFiles layout newRoot clearHomeRoot
      (transferPayloadFiles layout newRoot s.volume) }

def move (s : State) (id : Nat) (layout : StorageLayout) : Move → State
  | .stay => s
  | .setHomeRoot home => s.setRoots id (fun roots => { roots with homeRoot := home })
  | .switch newRoot clearHomeRoot => s.switchPayloadRoot id layout newRoot clearHomeRoot

/-- A decision on a torrent that is there and has files. -/
def decided (s : State) (id : Nat) (decision : MetaPath → Move) :
    Option (Nat × StorageLayout × Move) :=
  match s.row id with
  | none => none
  | some r =>
    match r.columns.metaPath, r.loadStorageLayout with
    | some roots, .ok layout => some (id, layout, decision roots)
    | _, _ => none

/-- The move that an event asks for, with the torrent's layout. -/
def asked (s : State) : Event → Option (Nat × StorageLayout × Move)
  | .relocate id newRoot => s.decided id (relocateDataRoot · newRoot)
  | .handoff id complete => s.decided id (runLeechCacheHandoff · complete)
  | _ => none

end State

section
variable {H : Type} (digest : Digest H) (fresh : H) (finalize : H → List UInt8)

/-- What the hash workers answer about every piece of a prepared recheck. -/
def checkedPieces (volume : Volume PathBuf) (prepared : RecheckPrepared) : List Bool :=
  (List.range prepared.pieceCount).map (fun index => decide
    (handleRecheck digest fresh finalize volume prepared.layout prepared.hashes index = .good index))

def step (s : State) : Event → Option State
  | .add m place start => some { s with catalog := addTorrent s.catalog m place start }
  | .markDeleted id now => some { s with catalog := settled s.catalog (markDeleted s.catalog id now) }
  | .stop id => some { s with catalog := settled s.catalog (setWantStart s.catalog id false) }
  | .start id =>
    match setWantStart s.catalog id true, s.row id with
    | .ok catalog, some r =>
      match r.loadStorageLayout with
      | .ok layout => some { catalog := catalog, volume := ensureStorage layout s.volume }
      | .error _ => some { s with catalog := catalog }
    | _, _ => none
  | .writePiece id index data =>
    match s.row id with
    | none => none
    | some r =>
      if r.columns.deleted || !verified digest fresh finalize r.pieceHashes index data then none
      else match r.loadStorageLayout with
        | .error _ => none
        | .ok layout =>
          match writePiece layout index data s.volume,
              markPiecesHaveBatch s.catalog [⟨id, index, data.length⟩] with
          | .ok volume, .ok (catalog, _) => some { catalog := catalog, volume := volume }
          | _, _ => none
  | .recheck id =>
    match prepareRecheck s.catalog id with
    | .error _ => none
    | .ok (catalog, prepared) => some { s with
        catalog := settled catalog (setBitfieldFromRecheck catalog id prepared.pieceCount
          (checkedPieces digest fresh finalize s.volume prepared)) }
  | .audit problem => some { s with catalog := auditCompleteStorage s.catalog problem }
  | .purge days now => some { s with catalog := (purgeSoftDeleted s.catalog days now).1 }
  | event => (s.asked event).map (fun ask => s.move ask.1 ask.2.1 ask.2.2)

/-- Every piece that the catalog marks as had is good under the torrent's `data_root`. -/
def Truthful (volume : Volume PathBuf) (r : Row) : Prop :=
  ∀ index, index < r.pieceCount → r.hasPiece index = true →
    ∃ layout, r.loadStorageLayout = .ok layout ∧
      handleRecheck digest fresh finalize volume layout r.pieceHashes index = .good index

end

/-! ### What must not meet -/

/-- The names of the payload files of a torrent that marks a piece as had. -/
def Named (r : Row) (name : PathBuf) : Prop :=
  (∃ index < r.pieceCount, r.hasPiece index = true) ∧
    ∃ layout file, r.loadStorageLayout = .ok layout ∧ file ∈ layout.files ∧
      name = layout.absolute file.path

/-- An operation on one torrent stays away from the files of the others, deleted ones included. -/
def Away (s : State) (id : Nat) (touches : PathBuf → Prop) : Prop :=
  ∀ r ∈ s.catalog.list, r.id ≠ id → ∀ name, Named r name → ¬ touches name

/-- The names that a switch replaces or removes. -/
def Switched (s : State) (layout : StorageLayout) (newRoot : PathBuf) (wipeRoot : Bool)
    (name : PathBuf) : Prop :=
  (∃ file ∈ layout.files, name = layout.absolute file.path ∨
    (s.volume (layout.absolute file.path)).isSome = true ∧ name = newRoot ++ file.path) ∨
  wipeRoot = true ∧ layout.dataRoot.isPrefixOf name = true

/-- No file that is there gets the old name of another file, or a name inside a stage that is
wiped. -/
def Clear (s : State) (layout : StorageLayout) (newRoot : PathBuf) (wipeRoot : Bool) : Prop :=
  ∀ file ∈ layout.files, (s.volume (layout.absolute file.path)).isSome = true →
    (∀ other ∈ layout.files, other.path ≠ file.path →
      newRoot ++ file.path ≠ layout.absolute other.path) ∧
    (wipeRoot = true → layout.dataRoot.isPrefixOf (newRoot ++ file.path) = false)

/-- The layout of a metainfo under a root. -/
def layoutOf (m : Metainfo) (root : PathBuf) : StorageLayout :=
  ⟨root, m.pieceLength, m.pieceCount, m.totalSize,
    m.files.map (fun file => ⟨file.path, file.size, file.offset, 1⟩)⟩

/-- The steps under which possession stays truthful: what is added is a metainfo of the parser whose
files have different paths; a restore that changes the root finds no piece marked; writes, new
files and moves keep away from the files of other torrents, and a move from its own. -/
def Careful (s : State) : Event → Prop
  | .add m place _ =>
    WellFormed (layoutOf m []) ∧ m.files ≠ [] ∧
      ∀ r ∈ s.catalog.list, r.infohash = m.infohash → r.columns.deleted = true →
        place.dataRoot = [] ∨ r.columns.metaPath.map MetaPath.dataRoot = some place.dataRoot ∨
          ∀ index < r.pieceCount, r.hasPiece index = false
  | .start id => ∀ r layout, s.row id = some r → r.loadStorageLayout = .ok layout →
      Away s id (fun name => ∃ file ∈ layout.files, 0 < file.priority ∧
        name = layout.absolute file.path)
  | .writePiece id _ _ => ∀ r layout, s.row id = some r → r.loadStorageLayout = .ok layout →
      Away s id (fun name => ∃ file ∈ layout.files, name = layout.absolute file.path)
  | .markDeleted _ _ | .stop _ | .recheck _ | .audit _ | .purge _ _ => True
  | event => ∀ id layout newRoot clearHomeRoot,
      s.asked event = some (id, layout, .switch newRoot clearHomeRoot) →
      Clear s layout newRoot clearHomeRoot ∧
        Away s id (Switched s layout newRoot clearHomeRoot)

def initial (volume : Volume PathBuf) : State := ⟨Rows.empty, volume⟩

end Seedchamp.Library.LifeCycle
