import Seedchamp.Disk.Spans
import Seedchamp.Torrentfile.Bencode

/-!
Parsing of a .torrent file: the geometry fields, the normalised file paths, and the checks on them.
-/

namespace Seedchamp.Torrentfile.Parse
open Foundation.Machine Torrentfile.Bencode
open Disk.Spans (PathBuf FileLayout StorageLayout)

inductive Error where
  | bencode (problem : Bencode.Error)
  | rootNotDict
  | missingInfo
  | missingPieceLength
  | pieceLengthZero
  | missingPieces
  | piecesNotMultipleOf20
  | missingLength (idx : Nat)
  | missingPath (idx : Nat)
  | componentNotStr (idx : Nat)
  | unsafeComponent (idx : Nat) (s : List Char)
  | missingLengthOrFiles
  | pieceCountMismatch (pieceCount expectedPieces : Nat)
  deriving DecidableEq, Repr

/-- The cast of an `i64` to `u64`. -/
def asU64 (v : Int64) : Nat := (v.toInt % 2 ^ 64).toNat

structure TorrentFile where
  path : PathBuf
  size : Nat
  offset : Nat
  deriving DecidableEq, Repr

structure Metainfo where
  infohash : Bytes
  name : List Char
  pieceLength : Nat
  pieceCount : Nat
  totalSize : Nat
  pieces : Bytes
  files : List TorrentFile
  isMultiFile : Bool
  priv : Bool
  trackers : List (Nat × List Char)
  announce : Option (List Char)
  deriving DecidableEq

def MAX_COMPONENT_BYTES : Nat := 255

/-- `char::is_control`: the code points of category Cc. -/
def isControl (c : Char) : Bool := c.toNat < 0x20 || (0x7F ≤ c.toNat && c.toNat < 0xA0)

/-- One character of the loop in `normalize_path_component`: the output and the flag of a
replacement just written. -/
def normalizeStep (state : List Char × Bool) (ch : Char) : List Char × Bool :=
  let hardBad := ch == '/' || ch == '\\' || ch.toNat == 0
  let softBad := isControl ch
  if hardBad || softBad then
    if !state.2 && !state.1.isEmpty then (state.1 ++ ['_'], true) else state
  else (state.1 ++ [ch], false)

/-- `trim_matches`. -/
def trimMatches (drops : Char → Bool) (s : List Char) : List Char :=
  ((s.dropWhile drops).reverse.dropWhile drops).reverse

def trimEndMatches (drops : Char → Bool) (s : List Char) : List Char :=
  (s.reverse.dropWhile drops).reverse

/-- `str::len`. -/
def byteLen (s : List Char) : Nat := (s.map Char.utf8Size).sum

/-- The longest part at the front that ends on a character boundary within `limit` bytes. -/
def cutTo (limit : Nat) : List Char → List Char
  | [] => []
  | ch :: rest => if ch.utf8Size ≤ limit then ch :: cutTo (limit - ch.utf8Size) rest else []

/-- The component under its on-disk name, or nothing when it is unsafe. -/
def normalizePathComponent (s : List Char) : Option (List Char) :=
  let cleaned := (s.foldl normalizeStep ([], false)).1
  let out := trimMatches (fun c => c == '.' || c == ' ' || c == '\t') cleaned
  if out.isEmpty || out == ['.'] || out == ['.', '.'] then none
  else if MAX_COMPONENT_BYTES < byteLen out then
    some (trimEndMatches (fun c => c == '.' || c == ' ' || c == '_') (cutTo MAX_COMPONENT_BYTES out))
  else some out

/-- `PathBuf::push` of one component; pushing the empty string adds none. -/
def push (path : PathBuf) (comp : List Char) : PathBuf :=
  if comp.isEmpty then path else path ++ [String.ofList comp]

/-- The path list of one entry, component by component. -/
def pushComponents (idx : Nat) (path : PathBuf) : List Value → Except Error PathBuf
  | [] => .ok path
  | p :: rest =>
    match p.asStr with
    | none => .error (.componentNotStr idx)
    | some s =>
      match normalizePathComponent s with
      | none => .error (.unsafeComponent idx s)
      | some comp => pushComponents idx (push path comp) rest

/-- The loop over `info.files`. -/
def parseEntries (torrentName : List Char) : Nat → Nat → List Value → Except Error (List TorrentFile)
  | _, _, [] => .ok []
  | idx, offset, f :: rest =>
    match f.dictGetInt "length" with
    | none => .error (.missingLength idx)
    | some v =>
      let length := asU64 v
      match f.dictGetList "path" with
      | none => .error (.missingPath idx)
      | some pathList =>
        match pushComponents idx (push [] torrentName) pathList with
        | .error problem => .error problem
        | .ok path =>
          match parseEntries torrentName (idx + 1) (saturatingAdd offset length) rest with
          | .error problem => .error problem
          | .ok files => .ok (⟨path, length, offset⟩ :: files)

def nameOf (info : Value) : List Char := (info.dictGetStr "name").getD "unknown".toList

def torrentNameOf (info : Value) : List Char :=
  (normalizePathComponent (nameOf info)).getD "unnamed".toList

def parseFiles (info : Value) : Except Error (List TorrentFile) :=
  match info.dictGetList "files" with
  | some list => parseEntries (torrentNameOf info) 0 0 list
  | none =>
    match info.dictGetInt "length" with
    | none => .error .missingLengthOrFiles
    | some v => .ok [⟨push [] (torrentNameOf info), asU64 v, 0⟩]

/-- The sum of the sizes on `u64`, which wraps in a release build. -/
def wrappingSum (sizes : List Nat) : Nat := sizes.sum % 2 ^ 64

/-- `total_size.div_ceil(piece_length) as u32`. -/
def expectedPieces (totalSize pieceLength : Nat) : Nat :=
  asU32 ((totalSize + pieceLength - 1) / pieceLength)

/-- The URLs of the announce list, each with its tier. -/
def tierUrls (list : List Value) : List (Nat × List Char) :=
  list.zipIdx.flatMap fun entry =>
    ((entry.1.asList.getD []).filterMap Value.asStr).map (fun url => (asU32 entry.2, url))

def trackersOf (root : Value) (announce : Option (List Char)) : List (Nat × List Char) :=
  let trackers := tierUrls ((root.dictGetList "announce-list").getD [])
  if trackers.isEmpty then announce.toList.map (fun a => (0, a)) else trackers

/-- `Metainfo::parse_bytes`, with the digest of the `sha1` crate. -/
def parseBytes (sha1 : Bytes → Bytes) (data : Bytes) : Except Error Metainfo :=
  match decodeFull data with
  | .error problem => .error (.bencode problem)
  | .ok root =>
    if root.asDict.isNone then .error .rootNotDict
    else
      match findRawDictValue data (Value.key "info") with
      | .error problem => .error (.bencode problem)
      | .ok infoRaw =>
        match root.dictGet "info" with
        | none => .error .missingInfo
        | some info =>
          match info.dictGetInt "piece length" with
          | none => .error .missingPieceLength
          | some declared =>
            let pieceLength := asU32 (asU64 declared)
            if pieceLength = 0 then .error .pieceLengthZero
            else
              match info.dictGetBytes "pieces" with
              | none => .error .missingPieces
              | some pieces =>
                if pieces.length % 20 ≠ 0 then .error .piecesNotMultipleOf20
                else
                  let pieceCount := asU32 (pieces.length / 20)
                  match parseFiles info with
                  | .error problem => .error problem
                  | .ok files =>
                    let totalSize := wrappingSum (files.map TorrentFile.size)
                    let expected := expectedPieces totalSize pieceLength
                    if 0 < totalSize ∧ expected ≠ pieceCount then
                      .error (.pieceCountMismatch pieceCount expected)
                    else
                      let announce := root.dictGetStr "announce"
                      .ok {
                        infohash := sha1 infoRaw
                        name := nameOf info
                        pieceLength := pieceLength
                        pieceCount := pieceCount
                        totalSize := totalSize
                        pieces := pieces
                        files := files
                        isMultiFile := (info.dictGetList "files").isSome
                        priv := (info.dictGetInt "private").getD 0 != 0
                        trackers := trackersOf root announce
                        announce := announce }

/-- The storage layout of a torrent under a data root, every file on. -/
def layoutAt (root : PathBuf) (m : Metainfo) : StorageLayout where
  dataRoot := root
  pieceLength := m.pieceLength
  pieceCount := m.pieceCount
  totalSize := m.totalSize
  files := m.files.map (fun file => ⟨file.path, file.size, file.offset, 1⟩)

example : normalizePathComponent "a/b".toList = some "a_b".toList := by decide
example : normalizePathComponent "..".toList = none := by decide

end Seedchamp.Torrentfile.Parse
