import Seedchamp.Library.Ingest
import Seedchamp.Foundation.TransitionSystem

/-!
Placement of added torrents under `paths.leech_cache`, and the statements of several connections that
read the reserved bytes and insert, restore, delete or hand off the torrents staged there.
-/

namespace Seedchamp.Library.LeechCache
open Catalog.Table Disk.Spans Library.Ingest

def u64Max : Nat := 18446744073709551615

def saturatingAdd (a b : Nat) : Nat := min (a + b) u64Max

/-! ### Reserved bytes -/

/-- `TRIM(text) = ''` of a path that was written as text. -/
def blank (path : PathBuf) : Bool :=
  match path with
  | [] => true
  | [component] => component.toList.all (· = ' ')
  | _ => false

/-- `home_root IS NOT NULL AND TRIM(home_root) != ''`. -/
def staged (c : Columns) : Bool := (c.metaPath.bind MetaPath.homeRoot).any (fun home => !blank home)

/-- The rows that the reservation sums: staged and not deleted. -/
def reserves (c : Columns) : Bool := staged c && c.deletedAt.isNone

def Row.reserved (r : Row) : Nat := if reserves r.columns then r.totalSize else 0

/-- The bytes that the staged torrents commit. -/
def committed (t : TorrentTable) : Nat := (t.list.map Row.reserved).sum

/-- `total_size` is stored with `as i64`. -/
def asI64 (n : Nat) : Int := (BitVec.ofNat 64 n).toInt

/-- `SUM` fails with an integer overflow. -/
def checkedSum (total : Int) : List Int → Option Int
  | [] => some total
  | n :: rest =>
    if -9223372036854775808 ≤ total + n ∧ total + n ≤ 9223372036854775807 then checkedSum (total + n) rest
    else none

def leechCacheReservedBytes (t : TorrentTable) : Option Nat :=
  (checkedSum 0 ((t.list.filter (fun r => reserves r.columns)).map (fun r => asI64 r.totalSize))).map
    Int.toNat

/-! ### Placement -/

def freeMarginBytes : Nat := 256 * 1024 * 1024

/-- The metainfo of a `.torrent` that parses: the total is the sum of its file sizes in 64 bits. -/
structure Parsed where
  metainfo : Metainfo
  size_lt : ∀ f ∈ metainfo.files, f.size < 2 ^ 64
  total : metainfo.totalSize = (metainfo.files.map MetaFile.size).sum % 2 ^ 64

def wantedBytesFromMetainfo (m : Metainfo) (priorities : List Int) : Nat :=
  if m.files.isEmpty then m.totalSize
  else
    let sum := m.files.zipIdx.foldl (fun sum f =>
      if priorities.getD f.2 1 ≠ 0 then saturatingAdd sum f.1.size else sum) 0
    if sum = 0 then m.totalSize else sum

/-- `freeSpace` is what the file system of the cache answers, if it does. -/
def choosePlacement (permanentRoot leechCache : PathBuf) (leechCacheSize reservedBytes : Nat)
    (infohashHex : String) (wantedBytes : Nat) (alreadyComplete : Bool) (freeSpace : Option Nat) :
    Placement :=
  let permanent : Placement := ⟨permanentRoot, none⟩
  if alreadyComplete || leechCache.isEmpty then permanent
  else
    match freeSpace with
    | none => permanent
    | some free =>
      let need := saturatingAdd wantedBytes freeMarginBytes
      if free < need then permanent
      else if 0 < leechCacheSize ∧ leechCacheSize - reservedBytes < need then permanent
      else ⟨leechCache ++ [infohashHex], some permanentRoot⟩

def hexByte (b : UInt8) : List Char :=
  [Nat.digitChar (b.toNat / 16), Nat.digitChar (b.toNat % 16)]

def infohashHex (infohash : List UInt8) : String := String.ofList (infohash.flatMap hexByte)

/-- The part of the configuration that all writers share. -/
structure Config where
  leechCache : PathBuf
  leechCacheSize : Nat

/-- The reservation that an add counts with; a read that fails counts as nothing. -/
def reservedBytes (config : Config) (t : TorrentTable) (readable : Bool) : Nat :=
  if 0 < config.leechCacheSize ∧ readable then (leechCacheReservedBytes t).getD 0 else 0

/-- `add_torrent_bytes` up to the insert; `created` says whether the stage could be made. -/
def placeAdd (config : Config) (reserved : Nat) (m : Metainfo) (permanent : PathBuf)
    (freeSpace : Option Nat) (created : Bool) : Placement :=
  let place := choosePlacement permanent config.leechCache config.leechCacheSize reserved
    (infohashHex m.infohash) (wantedBytesFromMetainfo m []) false freeSpace
  if place.homeRoot.isSome && !created then ⟨permanent, none⟩ else place

/-! ### Several connections -/

/-- How far an insert has come: the two statements of a restore are transactions of their own. -/
inductive Phase where
  | looking
  | inserting
  | clearing (id : Nat)
  | pathing (id : Nat)
  deriving DecidableEq, Repr

/-- An insert under way. `reserved` is what its placement was chosen with. -/
structure Insert where
  ins : TorrentInsert
  reserved : Nat
  phase : Phase

structure State where
  catalog : TorrentTable
  inserts : List Insert
  retargets : List (Nat × PathBuf)

inductive Event where
  /-- An add reads the reserved bytes and chooses its placement. -/
  | place (m : Parsed) (permanent : PathBuf) (start readable : Bool) (freeSpace : Option Nat)
      (created : Bool)
  /-- An import from another client, which never uses the cache. -/
  | importing (m : Metainfo) (dataRoot : PathBuf) (resume : ResumeData) (uploaded downloaded : Nat)
      (start : Bool)
  /-- The next statement of an insert. -/
  | advance (k : Nat)
  | setWantStart (id : Nat) (want : Bool)
  | markDeleted (id : Nat) (now : Int)
  | remove (id : Nat)
  | purge (days : Nat) (now : Int)
  | setFilePriority (id index : Nat) (priority : Int)
  /-- A hand-off or a relocate writes the payload root. -/
  | setDataRoot (id : Nat) (root : PathBuf)
  /-- The hand-off is over. -/
  | clearHomeRoot (id : Nat)
  /-- A relocate finds its torrent staged, and writes the new home in a step of its own. -/
  | retarget (id : Nat) (root : PathBuf)
  | writeHomeRoot (k : Nat)

def clearedColumns (c : Columns) (ins : TorrentInsert) : Columns :=
  { c with
    deleted := false
    deletedAt := none
    wantStart := ins.wantStart
    state := if ins.wantStart then .started else if ins.state = .deleted then .stopped else ins.state }

def pathColumns (c : Columns) (ins : TorrentInsert) : Columns :=
  { c with metaPath := if ins.dataRoot.isEmpty then c.metaPath else some ⟨ins.dataRoot, ins.homeRoot⟩ }

def setHomeRoot (t : TorrentTable) (id : Nat) (home : Option PathBuf) : TorrentTable :=
  set t id (fun r => { r.columns with metaPath := r.columns.metaPath.map (fun p => { p with homeRoot := home }) })

def setDataRoot (t : TorrentTable) (id : Nat) (root : PathBuf) : TorrentTable :=
  set t id (fun r => { r.columns with metaPath := r.columns.metaPath.map (fun p => { p with dataRoot := root }) })

def setFilePriority (t : TorrentTable) (id index : Nat) (priority : Int) : TorrentTable :=
  set t id (fun r =>
    { r.columns with files := r.columns.files.modify index (fun f => { f with priority := priority }) })

/-- `Some` home that is not empty. -/
def getHomeRoot (t : TorrentTable) (id : Nat) : Option PathBuf :=
  (((t.find? id).bind (fun r => r.columns.metaPath)).bind MetaPath.homeRoot).filter (fun p => !p.isEmpty)

/-- The next statement of an insert, and the insert where more are to come. -/
def advance (t : TorrentTable) (i : Insert) : TorrentTable × Option Insert :=
  match i.phase with
  | .looking =>
    match t.list.find? (fun r => r.infohash = i.ins.metainfo.infohash) with
    | none => (t, some { i with phase := .inserting })
    | some r => if isDeleted t r.id then (t, some { i with phase := .clearing r.id }) else (t, none)
  | .inserting =>
    -- the infohash is UNIQUE
    if t.list.any (fun r => r.infohash = i.ins.metainfo.infohash) then (t, none)
    else ((insertTorrent t i.ins).1, none)
  | .clearing id => (set t id (fun r => clearedColumns r.columns i.ins), some { i with phase := .pathing id })
  | .pathing id => (set t id (fun r => pathColumns r.columns i.ins), none)

def step (config : Config) (s : State) : Event → Option State
  | .place m permanent start readable freeSpace created =>
    let reserved := reservedBytes config s.catalog readable
    some { s with
      inserts := s.inserts ++ [⟨addInsert m.metainfo
        (placeAdd config reserved m.metainfo permanent freeSpace created) start, reserved, .looking⟩] }
  | .importing m dataRoot resume uploaded downloaded start =>
    some { s with
      inserts := s.inserts ++ [⟨importInsert m dataRoot resume uploaded downloaded start, 0, .looking⟩] }
  | .advance k =>
    s.inserts[k]?.map (fun i =>
      let next := advance s.catalog i
      { s with
        catalog := next.1
        inserts := s.inserts.take k ++ next.2.toList ++ s.inserts.drop (k + 1) })
  | .setWantStart id want => some { s with catalog := settled s.catalog (setWantStart s.catalog id want) }
  | .markDeleted id now => some { s with catalog := settled s.catalog (markDeleted s.catalog id now) }
  | .remove id => some { s with catalog := settled s.catalog (removeTorrent s.catalog id) }
  | .purge days now => some { s with catalog := (purgeSoftDeleted s.catalog days now).1 }
  | .setFilePriority id index priority =>
    some { s with catalog := setFilePriority s.catalog id index priority }
  | .setDataRoot id root => some { s with catalog := setDataRoot s.catalog id root }
  | .clearHomeRoot id => some { s with catalog := setHomeRoot s.catalog id none }
  | .retarget id root =>
    if (getHomeRoot s.catalog id).isSome then some { s with retargets := s.retargets ++ [(id, root)] } else none
  | .writeHomeRoot k =>
    s.retargets[k]?.map (fun r =>
      { s with
        catalog := setHomeRoot s.catalog r.1 (some r.2)
        retargets := s.retargets.eraseIdx k })

def initial (catalog : TorrentTable) : State := ⟨catalog, [], []⟩

end Seedchamp.Library.LeechCache
