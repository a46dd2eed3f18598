import Seedchamp.Catalog.Table

/-!
How torrents come into the catalog: an added `.torrent`, and the session files of two other
clients, whose resume data says which pieces are already there.
-/

namespace Seedchamp.Library.Ingest
open Catalog.Bitfield Catalog.Table Disk.Spans

/-! ### Adding -/

structure Placement where
  dataRoot : PathBuf
  homeRoot : Option PathBuf
  deriving DecidableEq, Repr

/-- The insert of `insert_with_placement`. -/
def addInsert (m : Metainfo) (place : Placement) (start : Bool) : TorrentInsert :=
  { TorrentInsert.fromMetainfo m place.dataRoot with
    homeRoot := place.homeRoot
    wantStart := start
    state := if start then .started else .stopped }

def addTorrent (t : TorrentTable) (m : Metainfo) (place : Placement) (start : Bool) : TorrentTable :=
  (insertTorrent t (addInsert m place start)).1

/-! ### Resume files -/

/-- A decoded bencode value. -/
inductive Value where
  | int (n : Int)
  | bytes (b : List UInt8)
  | list (items : List Value)
  | dict (entries : List (String × Value))

namespace Value

def dictGet (v : Value) (key : String) : Option Value :=
  match v with
  | dict entries => (entries.find? (fun e => e.1 = key)).map Prod.snd
  | _ => none

def asInt : Value → Option Int
  | int n => some n
  | _ => none

def asList : Value → Option (List Value)
  | list items => some items
  | _ => none

end Value

/-- The possession and the counters both resume parsers report. -/
structure ResumeData where
  bitfield : Option Bits
  haveCount : Nat
  complete : Bool
  uploaded : Nat
  downloaded : Nat
  filePriorities : List Int
  deriving DecidableEq, Repr

def ResumeData.default : ResumeData := ⟨none, 0, false, 0, 0, []⟩

/-- A byte string of the right length, read as the piece bitfield. -/
def ResumeData.pieceBits (out : ResumeData) (b : Bits) (pieceCount : Nat) : ResumeData :=
  let haveCount := countHaveBits b pieceCount
  let complete : Bool := haveCount = pieceCount ∧ 0 < pieceCount
  { out with
    haveCount := haveCount
    complete := complete
    bitfield := if complete then none else some b }

/-- The `bitfield` key of a `.libtorrent_resume`: a string of bytes, or an integer for all or none. -/
def resumeBitfield (out : ResumeData) (v : Option Value) (pieceCount : Nat) : ResumeData :=
  match v with
  | some (.bytes b) => if b.length = bitfieldSizeBytes pieceCount then out.pieceBits b pieceCount else out
  | some (.int n) =>
    if n % 4294967296 = pieceCount ∧ 0 < pieceCount then
      { out with complete := true, haveCount := pieceCount, bitfield := none }
    else if n = 0 then
      { out with complete := false, haveCount := 0, bitfield := some (emptyBitfield pieceCount) }
    else out
  | _ => out

def counter (root : Value) (key : String) : Nat :=
  (((root.dictGet key).bind Value.asInt).map Int.toNat).getD 0

def parseResume (root : Value) (pieceCount : Nat) : ResumeData :=
  let out := resumeBitfield .default (root.dictGet "bitfield") pieceCount
  { out with
    uploaded := counter root "uploaded"
    downloaded := counter root "downloaded"
    filePriorities := (((root.dictGet "files").bind Value.asList).getD []).map
      (fun f => (Int32.ofInt (((f.dictGet "priority").bind Value.asInt).getD 1)).toInt) }

def allWord : Bits := [97, 108, 108]

def noneWord : Bits := [110, 111, 110, 101]

/-- A `progress.blocks` value: `all`, `none`, or a bitmap, which is taken for the pieces where it has
their length. -/
def applyBlocksProgress (out : ResumeData) (blocks : Value) (pieceCount : Nat) : ResumeData :=
  match blocks with
  | .bytes b =>
    if b = allWord then
      { out with complete := decide (0 < pieceCount), haveCount := pieceCount, bitfield := none }
    else if b = noneWord ∨ b = [] then
      { out with complete := false, haveCount := 0, bitfield := some (emptyBitfield pieceCount) }
    else if b.length = bitfieldSizeBytes pieceCount then out.pieceBits b pieceCount
    else { out with complete := false, haveCount := 0, bitfield := none }
  | _ => out

/-- `dnd` wins over `priority`, which is no on/off flag in these files. -/
def transmissionPriorities (root : Value) : List Int :=
  match (root.dictGet "dnd").bind Value.asList with
  | some dnd => dnd.map (fun d => match d.asInt with
    | some n => if n = 0 then 1 else 0
    | none => 1)
  | none => (((root.dictGet "priority").bind Value.asList).getD []).map (fun _ => 1)

/-- `progress.blocks`, or `progress.bitfield` of older files. -/
def progressBlocks (root : Value) : Option Value :=
  (root.dictGet "progress").bind (fun progress =>
    (progress.dictGet "blocks").or (progress.dictGet "bitfield"))

def parseTransmissionResume (root : Value) (pieceCount : Nat) : ResumeData :=
  let out : ResumeData := { ResumeData.default with
    uploaded := counter root "uploaded"
    downloaded := counter root "downloaded"
    filePriorities := transmissionPriorities root }
  match progressBlocks root with
  | none => out
  | some blocks => applyBlocksProgress out blocks pieceCount

/-! ### Importing -/

/-- Both importers: the possession is what the resume file says, and counters the larger of its own
and those of the sidecar. -/
def importInsert (m : Metainfo) (dataRoot : PathBuf) (resume : ResumeData)
    (totalUploaded totalDownloaded : Nat) (startAfter : Bool) : TorrentInsert :=
  { TorrentInsert.fromMetainfo m dataRoot with
    complete := resume.complete
    haveCount := resume.haveCount
    bitfield := resume.bitfield
    uploaded := max totalUploaded resume.uploaded
    downloaded := max totalDownloaded resume.downloaded
    filePriorities := resume.filePriorities
    wantStart := startAfter
    state := if startAfter then .started else .stopped }

/-- A torrent that was there, or restored, has its totals and priorities refreshed. -/
def importTorrent (t : TorrentTable) (ins : TorrentInsert) : TorrentTable :=
  match insertTorrent t ins with
  | (t', .inserted _) => t'
  | (t', .existing id) => set t' id (fun r => importMetaColumns r.columns ins)
  | (t', .restored id) => set t' id (fun r => importMetaColumns r.columns ins)

/-- Import from an rtorrent session; a resume file that does not decode counts as empty. -/
def importRtorrent (t : TorrentTable) (m : Metainfo) (dataRoot : PathBuf) (root : Option Value)
    (totalUploaded totalDownloaded : Nat) (startAfter : Bool) : TorrentTable :=
  let resume := (root.map (parseResume · m.pieceCount)).getD .default
  importTorrent t (importInsert m dataRoot resume totalUploaded totalDownloaded startAfter)

def importTransmission (t : TorrentTable) (m : Metainfo) (dataRoot : PathBuf) (root : Option Value)
    (startAfter : Bool) : TorrentTable :=
  let resume := (root.map (parseTransmissionResume · m.pieceCount)).getD .default
  importTorrent t (importInsert m dataRoot resume 0 0 startAfter)

end Seedchamp.Library.Ingest
