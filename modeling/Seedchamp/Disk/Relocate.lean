import Seedchamp.Disk.Spans
import Seedchamp.Foundation.HardLinks
import Seedchamp.Foundation.TransitionSystem

/-!
Moving the payload of one torrent to another data root, one call at a time. What a call answers is
part of the event, and a run that ends anywhere was cut short there. The volume has the regular
files; a directory is what the names in it share.
-/

namespace Seedchamp.Disk.Relocate
open Disk.Spans Foundation.HardLinks

/-- `switch_payload_root` of a layout whose `data_root` is the source. -/
structure Operation where
  layout : StorageLayout
  newRoot : PathBuf
  hot : Bool
  clearHomeRoot : Bool
  deriving DecidableEq, Repr

/-- The cold path has no live layout and no stage to wipe. -/
def relocateTorrentData (layout : StorageLayout) (newRoot : PathBuf) : Operation where
  layout := layout
  newRoot := newRoot
  hot := false
  clearHomeRoot := false

structure TransferStats where
  linked : Nat
  copied : Nat
  missing : Nat
  deriving DecidableEq, Repr

/-- The call that made the operation return. -/
inductive Return where
  | ok
  | loadFailed
  | transferFailed
  | catalogFailed
  | cleanupFailed
  deriving DecidableEq, Repr

/-- Where the operation stands: the files still to do, and inside of `publish_file` the next call. -/
inductive Point where
  | start
  | createRoot
  | publish (todo : List FileLayout)
  | hardLink (file : FileLayout) (todo : List FileLayout)
  | openCopy (file : FileLayout) (todo : List FileLayout)
  | copy (file : FileLayout) (todo : List FileLayout) (copied : Nat)
  | setDataRoot
  | setDataRootLive
  | unpublish (todo : List FileLayout)
  | wipeRoot
  | setHomeRoot
  | returned (result : Return)
  deriving DecidableEq, Repr

/-- The next call succeeds or is refused; a copy writes some bytes; a wipe removes one name. -/
inductive Event where
  | ok
  | refused
  | chunk (count : Nat)
  | remove (name : PathBuf)
  deriving DecidableEq, Repr

/-- The files, the catalog's roots of the torrent and the root of its live layout. -/
structure State where
  volume : Volume PathBuf
  dataRoot : PathBuf
  homeRoot : Option PathBuf
  live : PathBuf
  stats : TransferStats
  point : Point

section
variable (resolve : PathBuf → PathBuf)

/-- The directory entry of a path below a root. A root may go through links and parents; `resolve`
is the directory that it leads to. -/
def locate (root path : PathBuf) : PathBuf := resolve root ++ path

namespace Operation

def src (op : Operation) (file : FileLayout) : PathBuf := locate resolve op.layout.dataRoot file.path

def dst (op : Operation) (file : FileLayout) : PathBuf := locate resolve op.newRoot file.path

/-- `same_path` of the two names of a file: both lead to the same entry, and it is there. -/
def samePath (op : Operation) (volume : Volume PathBuf) (file : FileLayout) : Bool :=
  decide (op.src resolve file = op.dst resolve file) && volume.holds (op.src resolve file)

/-- `same_inode` of the two names of a file. -/
def sameInode (op : Operation) (volume : Volume PathBuf) (file : FileLayout) : Bool :=
  volume.holds (op.src resolve file) &&
    decide (volume.names (op.src resolve file) = volume.names (op.dst resolve file))

end Operation

namespace State

def linkedOne (s : State) : TransferStats := { s.stats with linked := s.stats.linked + 1 }

def copiedOne (s : State) : TransferStats := { s.stats with copied := s.stats.copied + 1 }

def missingOne (s : State) : TransferStats := { s.stats with missing := s.stats.missing + 1 }

/-- The next file of `transfer_payload_files`: its parents, and `publish_file` up to the link. -/
def publish (op : Operation) (s : State) (file : FileLayout) (todo : List FileLayout) :
    Event → Option State
  | .ok =>
    if !s.volume.holds (op.src resolve file) then
      some { s with stats := s.missingOne, point := .publish todo }
    else if op.samePath resolve s.volume file then some { s with point := .publish todo }
    else if s.volume.holds (op.dst resolve file) then
      if op.sameInode resolve s.volume file then
        some { s with stats := s.linkedOne, point := .publish todo }
      else some { s with
        volume := s.volume.unlink (op.dst resolve file)
        point := .hardLink file todo }
    else some { s with point := .hardLink file todo }
  | .refused =>
    if s.volume.holds (op.src resolve file) then some { s with point := .returned .transferFailed }
    else none
  | _ => none

/-- `fs::hard_link`; where it is refused the file is copied. -/
def hardLink (op : Operation) (s : State) (file : FileLayout) (todo : List FileLayout) :
    Event → Option State
  | .ok => some { s with
      volume := s.volume.link (op.src resolve file) (op.dst resolve file)
      stats := s.linkedOne
      point := .publish todo }
  | .refused => some { s with point := .openCopy file todo }
  | _ => none

def openCopy (op : Operation) (s : State) (file : FileLayout) (todo : List FileLayout) :
    Event → Option State
  | .ok => some { s with
      volume := s.volume.create (op.dst resolve file)
      point := .copy file todo 0 }
  | .refused => some { s with point := .returned .transferFailed }
  | _ => none

/-- The loop of `fs::copy`, which ends at the end of the source. -/
def copy (op : Operation) (s : State) (file : FileLayout) (todo : List FileLayout) (copied : Nat) :
    Event → Option State
  | .chunk count =>
    match s.volume.names (op.src resolve file), s.volume.names (op.dst resolve file) with
    | some old, some new =>
      let data := ((s.volume.contents old).drop copied).take count
      some { s with
        volume := s.volume.write new copied data
        point := .copy file todo (copied + data.length) }
    | _, _ => none
  | .ok =>
    match s.volume.read (op.src resolve file) with
    | some bytes =>
      if bytes.length ≤ copied then some { s with stats := s.copiedOne, point := .publish todo }
      else none
    | none => none
  | .refused => some { s with point := .returned .transferFailed }
  | _ => none

/-- The next file of `unpublish_payload_files`. A source that stays is only logged. -/
def unpublish (op : Operation) (s : State) (file : FileLayout) (todo : List FileLayout) :
    Event → Option State
  | .ok =>
    if op.samePath resolve s.volume file then some { s with point := .unpublish todo }
    else some { s with
      volume := s.volume.unlink (op.src resolve file)
      point := .unpublish todo }
  | .refused => some { s with point := .unpublish todo }
  | _ => none

/-- The files are unpublished; a stage is wiped unless it is the new root. -/
def unpublished (op : Operation) (s : State) : State :=
  if op.clearHomeRoot then
    if resolve op.layout.dataRoot = resolve op.newRoot then { s with point := .setHomeRoot }
    else { s with point := .wipeRoot }
  else { s with point := .returned .ok }

/-- `fs::remove_dir_all` of the old root. -/
def wipeRoot (op : Operation) (s : State) : Event → Option State
  | .remove name =>
    if (resolve op.layout.dataRoot).isPrefixOf name then
      some { s with volume := s.volume.unlink name }
    else none
  | .ok => some { s with
      volume := s.volume.unlinkAll (fun name => (resolve op.layout.dataRoot).isPrefixOf name)
      point := .setHomeRoot }
  | .refused => some { s with point := .returned .cleanupFailed }
  | _ => none

/-- The roots are one path: nothing moves, and an error of the catalog is dropped. -/
def unmoved (op : Operation) (s : State) (cleared : Bool) : State :=
  { s with
    homeRoot := if op.clearHomeRoot && cleared then none else s.homeRoot
    point := .returned .ok }

end State

def step (op : Operation) (s : State) (event : Event) : Option State :=
  match s.point, event with
  | .start, .ok =>
    if op.layout.dataRoot = op.newRoot then some (s.unmoved op true)
    else some { s with point := .createRoot }
  | .start, .refused =>
    if op.layout.dataRoot = op.newRoot then some (s.unmoved op false)
    else some { s with point := .returned .loadFailed }
  | .createRoot, .ok => some { s with point := .publish op.layout.files }
  | .createRoot, .refused => some { s with point := .returned .transferFailed }
  | .publish [], .ok => some { s with point := .setDataRoot }
  | .publish (file :: todo), event => s.publish resolve op file todo event
  | .hardLink file todo, event => s.hardLink resolve op file todo event
  | .openCopy file todo, event => s.openCopy resolve op file todo event
  | .copy file todo copied, event => s.copy resolve op file todo copied event
  | .setDataRoot, .ok => some { s with dataRoot := op.newRoot, point := .setDataRootLive }
  | .setDataRoot, .refused => some { s with point := .returned .catalogFailed }
  | .setDataRootLive, .ok =>
    some { s with
      live := if op.hot then op.newRoot else s.live
      point := .unpublish op.layout.files }
  | .unpublish [], .ok => some (s.unpublished resolve op)
  | .unpublish (file :: todo), event => s.unpublish resolve op file todo event
  | .wipeRoot, event => s.wipeRoot resolve op event
  | .setHomeRoot, .ok => some { s with homeRoot := none, point := .returned .ok }
  | .setHomeRoot, .refused => some { s with point := .returned .catalogFailed }
  | _, _ => none

/-- The catalog and the live layout have the old root when the operation starts. -/
def begin (op : Operation) (volume : Volume PathBuf) (homeRoot : Option PathBuf) : State where
  volume := volume
  dataRoot := op.layout.dataRoot
  homeRoot := homeRoot
  live := op.layout.dataRoot
  stats := ⟨0, 0, 0⟩
  point := .start

/-- A payload file as a reader of the catalog finds it. -/
def State.payload (s : State) (file : FileLayout) : Option (List UInt8) :=
  s.volume.read (locate resolve s.dataRoot file.path)

/-- What a cut at this state leaves behind. -/
structure Safe (op : Operation) (origin s : State) : Prop where
  readable : ∀ file ∈ op.layout.files, ∀ bytes, origin.payload resolve file = some bytes →
    s.payload resolve file = some bytes
  transfer : s.point = .returned .transferFailed →
    s.dataRoot = origin.dataRoot ∧ s.homeRoot = origin.homeRoot ∧
      ∀ file ∈ op.layout.files,
        s.volume.read (op.src resolve file) = origin.volume.read (op.src resolve file)
  moved : s.point = .returned .ok → s.dataRoot = op.newRoot ∧
    ∀ file ∈ op.layout.files, ∀ bytes, origin.payload resolve file = some bytes →
      s.volume.read (op.dst resolve file) = some bytes

/-- No file that is there gets the name of another file of the source, and a stage that is wiped
does not have the new name of such a file in it. -/
structure Apart (op : Operation) (volume : Volume PathBuf) : Prop where
  names : ∀ file ∈ op.layout.files, volume.holds (op.src resolve file) = true →
    ∀ other ∈ op.layout.files, other.path ≠ file.path → op.dst resolve file ≠ op.src resolve other
  stage : op.clearHomeRoot = true → resolve op.layout.dataRoot ≠ resolve op.newRoot →
    ∀ file ∈ op.layout.files, volume.holds (op.src resolve file) = true →
      (resolve op.layout.dataRoot).isPrefixOf (op.dst resolve file) = false

end

end Seedchamp.Disk.Relocate
