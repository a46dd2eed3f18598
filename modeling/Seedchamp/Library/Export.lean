import Seedchamp.Foundation.PathText
import Seedchamp.Library.Ingest
import Seedchamp.Torrentfile.Parse
import Seedchamp.Torrentfile.RoundTrip

/-!
The export of a torrent to the session files of rtorrent, and the import of these files. Both sides
read the `.torrent` the catalog keeps; a text is the text of its UTF-8 bytes.
-/

namespace Seedchamp.Library.Export
open Foundation Foundation.PathText Catalog.Bitfield Torrentfile.Bencode Torrentfile.Parse
open Library.Ingest (ResumeData parseResume)

/-! ### The export -/

/-- The columns of a torrent that an export reads; NULL bits stand for none or all. -/
structure TorrentRow where
  blob : Option Bytes
  dataRoot : List Char
  complete : Bool
  bits : Option Bits
  haveCount : Nat
  uploaded : Int64
  downloaded : Int64
  createdAt : Int64
  finishedAt : Option Int64
  wantStart : Bool
  priorities : List Int32
  trackerKey : UInt32

/-- `load_bitfield_bytes`. -/
def TorrentRow.loadBitfieldBytes (t : TorrentRow) (pieceCount : Nat) : Bool × Bits × Nat :=
  if t.complete then (true, allSetBitfield pieceCount, pieceCount)
  else (false, t.bits.getD (emptyBitfield pieceCount), t.haveCount)

structure ExportTorrent where
  name : List Char
  isMultiFile : Bool
  dataRoot : List Char
  complete : Bool
  bitfield : Option Bits
  pieceCount : Nat
  uploaded : Nat
  downloaded : Nat
  createdAt : Int64
  finishedAt : Option Int64
  wantStart : Bool
  filePriorities : List Int32
  trackerKey : UInt32
  metainfoBlob : Bytes

/-- What is exported of a row with this `.torrent`. -/
def exportOf (t : TorrentRow) (blob : Bytes) (metainfo : Metainfo) : ExportTorrent :=
  let (complete, bits, _) := t.loadBitfieldBytes metainfo.pieceCount
  { name := metainfo.name
    isMultiFile := metainfo.isMultiFile
    dataRoot := t.dataRoot
    complete := complete
    bitfield := if complete || bits.all (fun b => b = 0) then none else some bits
    pieceCount := metainfo.pieceCount
    uploaded := asU64 t.uploaded
    downloaded := asU64 t.downloaded
    createdAt := t.createdAt
    finishedAt := t.finishedAt
    wantStart := t.wantStart
    filePriorities := t.priorities
    trackerKey := t.trackerKey
    metainfoBlob := blob }

/-- A row without a `.torrent` is skipped. -/
def loadExportTorrent (sha1 : Bytes → Bytes) (t : TorrentRow) :
    Except Torrentfile.Parse.Error (Option ExportTorrent) :=
  match t.blob with
  | none => .ok none
  | some blob =>
    match parseBytes sha1 blob with
    | .error problem => .error problem
    | .ok metainfo => .ok (some (exportOf t blob metainfo))

/-- The directory of a multi-file torrent ends with its name. -/
def rtorrentDirectory (t : ExportTorrent) : List Char :=
  if t.isMultiFile then
    if fileName t.dataRoot = some t.name then t.dataRoot else join t.dataRoot t.name
  else t.dataRoot

def dictFromStrKeys (pairs : List (String × Value)) : Value :=
  .dict (pairs.foldl (fun map pair => SortedMap.insert (Value.key pair.1) pair.2 map) [])

/-- `n as i64`. -/
def asI64 (n : Nat) : Int64 := Int64.ofInt n

/-- The `.rtorrent` sidecar. -/
def sidecar (t : ExportTorrent) : Value :=
  dictFromStrKeys
    ([("directory", .bytes (Utf8.encode (rtorrentDirectory t))),
      ("total_uploaded", .int (asI64 t.uploaded)),
      ("total_downloaded", .int (asI64 t.downloaded)),
      ("state", .int (if t.wantStart then 1 else 0))] ++
    (if 0 < t.createdAt.toInt then [("timestamp.started", .int t.createdAt)] else []) ++
    ((t.finishedAt.filter (fun fin => 0 < fin.toInt)).toList.map
      (fun fin => ("timestamp.finished", .int fin))) ++
    (if t.trackerKey ≠ 0 then [("key", .int (asI64 t.trackerKey.toNat))] else []))

/-- The `bitfield` of a resume file: the number of pieces for all of them, zero for none. -/
def resumeBits (t : ExportTorrent) : Value :=
  if t.complete then .int (asI64 t.pieceCount)
  else
    match t.bitfield with
    | some bits => .bytes bits
    | none => .int 0

/-- The `.libtorrent_resume` file. -/
def resumeFile (t : ExportTorrent) : Value :=
  dictFromStrKeys
    ([("uploaded", .int (asI64 t.uploaded)), ("downloaded", .int (asI64 t.downloaded)),
      ("bitfield", resumeBits t)] ++
    (if t.filePriorities ≠ [] then
      [("files", .list (t.filePriorities.map (fun p => dictFromStrKeys [("priority", .int p.toInt64)])))]
      else []))

/-- The three files of one torrent in a session directory. -/
structure SessionFiles where
  torrent : Bytes
  rtorrent : Option Bytes
  resume : Option Bytes

def writeRtorrentOne (t : ExportTorrent) : SessionFiles where
  torrent := t.metainfoBlob
  rtorrent := some (encode (sidecar t))
  resume := some (encode (resumeFile t))

def exportRtorrent (sha1 : Bytes → Bytes) (t : TorrentRow) : Option SessionFiles :=
  match loadExportTorrent sha1 t with
  | .ok (some torrent) => some (writeRtorrentOne torrent)
  | .ok none => none
  | .error _ => none

/-! ### The import -/

mutual

/-- A decoded value as the resume parser reads it, each byte of a key as one character. -/
def reading : Value → Ingest.Value
  | .int v => .int v.toInt
  | .bytes b => .bytes b
  | .list items => .list (readingItems items)
  | .dict map => .dict (readingEntries map)

def readingItems : List Value → List Ingest.Value
  | [] => []
  | item :: rest => reading item :: readingItems rest

def readingEntries : List (Bytes × Value) → List (String × Ingest.Value)
  | [] => []
  | (k, v) :: rest => (String.ofList (k.map (fun b => Char.ofNat b.toNat)), reading v) :: readingEntries rest

end

structure RtorrentSide where
  directory : Option (List Char) := none
  directoryBase : Option (List Char) := none
  timestampStarted : Option Int64 := none
  timestampFinished : Option Int64 := none
  stateChanged : Option Int64 := none
  totalUploaded : Option Nat := none
  totalDownloaded : Option Nat := none
  key : Option UInt32 := none

namespace RtorrentSide

def dataRoot (side : RtorrentSide) : Option (List Char) := side.directory.or side.directoryBase

def nonzero (v : Option Int64) : Option Int64 := v.filter (fun t => 0 < t.toInt)

def createdAtHint (side : RtorrentSide) : Option Int64 :=
  ((nonzero side.timestampStarted).or (nonzero side.stateChanged)).or (nonzero side.timestampFinished)

def finishedAtHint (side : RtorrentSide) : Option Int64 := nonzero side.timestampFinished

end RtorrentSide

/-- `n.max(0) as u64`. -/
def dictU64 (root : Value) (k : String) : Option Nat := (root.dictGetInt k).map (fun n => n.toInt.toNat)

def parseRtorrent (root : Value) : RtorrentSide where
  directory := root.dictGetStr "directory"
  directoryBase := (root.dictGetStr "directory.base").or (root.dictGetStr "directory_base")
  timestampStarted := root.dictGetInt "timestamp.started"
  timestampFinished := root.dictGetInt "timestamp.finished"
  stateChanged := root.dictGetInt "state_changed"
  totalUploaded := dictU64 root "total_uploaded"
  totalDownloaded := dictU64 root "total_downloaded"
  key := (root.dictGetInt "key").bind (fun n =>
    if 0 < n.toInt ∧ n.toInt ≤ 2 ^ 32 - 1 then some (UInt32.ofNat n.toInt.toNat) else none)

def stripTrailingTorrentName (dataRoot name : List Char) : List Char :=
  if fileName dataRoot = some name then
    match parent dataRoot with
    | some before => if before = [] then dataRoot else before
    | none => dataRoot
  else dataRoot

/-- The options of an import, the clock and the files' times, and the key it would generate. -/
structure Surroundings where
  defaultDataRoot : List Char
  startAfter : Bool
  mtime : Option Int64
  now : Int64
  generated : UInt32
  generated_ne : generated ≠ 0

/-- The row that `import_one` inserts for a torrent the catalog does not have. A sidecar that is
missing or does not decode counts as empty. -/
def importOne (sha1 : Bytes → Bytes) (around : Surroundings) (files : SessionFiles) :
    Except Torrentfile.Parse.Error TorrentRow :=
  match parseBytes sha1 files.torrent with
  | .error problem => .error problem
  | .ok metainfo =>
    let side := ((files.rtorrent.bind (fun b => (decodeFull b).toOption)).map parseRtorrent).getD {}
    let resume := ((files.resume.bind (fun b => (decodeFull b).toOption)).map
      (fun root => parseResume (reading root) metainfo.pieceCount)).getD ResumeData.default
    let directory := side.dataRoot.getD around.defaultDataRoot
    let createdAt := side.createdAtHint.or around.mtime
    .ok {
      blob := some files.torrent
      dataRoot :=
        if metainfo.isMultiFile then stripTrailingTorrentName directory metainfo.name else directory
      complete := resume.complete
      bits := if resume.complete ∧ resume.bitfield = none then none else resume.bitfield
      haveCount := resume.haveCount
      uploaded := asI64 (max (side.totalUploaded.getD 0) resume.uploaded)
      downloaded := asI64 (max (side.totalDownloaded.getD 0) resume.downloaded)
      createdAt := (RtorrentSide.nonzero createdAt).getD around.now
      finishedAt :=
        if resume.complete then some ((side.finishedAtHint.or createdAt).getD around.now)
        else side.finishedAtHint
      wantStart := around.startAfter
      priorities := (List.range metainfo.files.length).map
        (fun idx => ((resume.filePriorities.map Int32.ofInt)[idx]?).getD 1)
      trackerKey := (side.key.filter (fun k => k ≠ 0)).getD around.generated }

end Seedchamp.Library.Export
