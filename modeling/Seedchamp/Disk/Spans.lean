import Seedchamp.Foundation.Machine
import Seedchamp.Foundation.Tally

/-!
Where a torrent's bytes live on disk: the storage layout, the size of a piece, and the file spans
of a range of the torrent stream.
-/

namespace Seedchamp.Disk.Spans
open Foundation.Machine Foundation.Tally

/-- A path is the list of its components; joining a relative path appends its components. -/
abbrev PathBuf := List String

inductive Error where
  | msg (text : String)
  deriving DecidableEq, Repr

/-- One contiguous read or write region in a single file. -/
structure IoSpan where
  path : PathBuf
  fileOffset : Nat
  length : Nat
  deriving DecidableEq, Repr

/-- A file in torrent stream coordinates. Priority 0 is off, at least 1 is on. -/
structure FileLayout where
  path : PathBuf
  size : Nat
  offset : Nat
  priority : Int
  deriving DecidableEq, Repr

def FileLayout.endOffset (file : FileLayout) : Nat := saturatingAdd file.offset file.size

structure StorageLayout where
  dataRoot : PathBuf
  pieceLength : Nat
  pieceCount : Nat
  totalSize : Nat
  files : List FileLayout
  deriving DecidableEq, Repr

namespace StorageLayout

/-- Absolute path of a relative torrent file path. -/
def absolute (layout : StorageLayout) (rel : PathBuf) : PathBuf := layout.dataRoot ++ rel

/-- Byte length of a piece; the last piece may be shorter. -/
def pieceSize (layout : StorageLayout) (index : Nat) : Except Error Nat :=
  if layout.pieceCount ≤ index then
    .error (.msg s!"piece index {index} out of range (count {layout.pieceCount})")
  else if layout.totalSize ≤ index * layout.pieceLength then .ok 0
  else .ok (min (index * layout.pieceLength + layout.pieceLength) layout.totalSize -
    index * layout.pieceLength)

/-- `piece_size(index).unwrap_or(0)`. -/
def pieceBytes (layout : StorageLayout) (index : Nat) : Nat :=
  match layout.pieceSize index with
  | .ok size => size
  | .error _ => 0

/-- The `while pos < range_end` loop. Every turn consumes at least one byte, so `range_len` turns
are enough (`spansLoop_fuel`). -/
def spansLoop (layout : StorageLayout) (rangeEnd : Nat) : Nat → Nat → Except Error (List IoSpan)
  | 0, _ => .ok []
  | fuel + 1, pos =>
    if pos < rangeEnd then
      match layout.files.find? (fun file => decide (file.offset ≤ pos ∧ pos < file.endOffset)) with
      | none => .error (.msg s!"no file covers torrent offset {pos}")
      | some file =>
        let intoFile := pos - file.offset
        let take := min (file.size - intoFile) (rangeEnd - pos)
        match spansLoop layout rangeEnd fuel (pos + take) with
        | .error problem => .error problem
        | .ok rest => .ok (⟨layout.absolute file.path, intoFile, take⟩ :: rest)
    else .ok []

/-- Map a torrent-stream byte range to file spans. -/
def spansForRange (layout : StorageLayout) (rangeStart rangeLen : Nat) : Except Error (List IoSpan) :=
  if rangeLen = 0 then .ok []
  else
    let rangeEnd := saturatingAdd rangeStart rangeLen
    if layout.totalSize < rangeEnd then
      .error (.msg s!"range {rangeStart}+{rangeLen} exceeds total_size {layout.totalSize}")
    else layout.spansLoop rangeEnd rangeLen rangeStart

/-- Spans covering one piece. -/
def spansForPiece (layout : StorageLayout) (index : Nat) : Except Error (List IoSpan) :=
  match layout.pieceSize index with
  | .error problem => .error problem
  | .ok len => layout.spansForRange (index * layout.pieceLength) len

end StorageLayout

/-- The files follow one another from `start` to `stop` without a gap or an overlap. -/
def Tiles : Nat → List FileLayout → Nat → Prop
  | start, [], stop => start = stop
  | start, file :: rest, stop => file.offset = start ∧ Tiles (start + file.size) rest stop

/-- The geometry that the metainfo parser establishes: files in stream order, every offset
representable, and enough pieces for the payload. -/
structure Geometry (layout : StorageLayout) : Prop where
  positive : 0 < layout.pieceLength
  tiles : Tiles 0 layout.files layout.totalSize
  representable : layout.totalSize < 2 ^ 64
  countRepresentable : layout.pieceCount < 2 ^ 32
  covered : layout.totalSize ≤ layout.pieceCount * layout.pieceLength

theorem tiles_le (start stop : Nat) (files : List FileLayout) (tiling : Tiles start files stop) :
    start ≤ stop := by
  induction files generalizing start with
  | nil => exact le_of_eq tiling
  | cons head rest ih => exact le_trans (Nat.le_add_right _ _) (ih _ tiling.2)

theorem tiles_member (start stop : Nat) (files : List FileLayout) (tiling : Tiles start files stop)
    (file : FileLayout) (member : file ∈ files) :
    start ≤ file.offset ∧ file.offset + file.size ≤ stop := by
  induction files generalizing start with
  | nil => cases member
  | cons head rest ih =>
    obtain ⟨front, tail⟩ := tiling
    rcases List.mem_cons.1 member with same | later
    · subst same
      have room := tiles_le _ _ rest tail
      omega
    · have inner := ih _ tail later
      omega

/-- Bytes of the torrent before piece `index`, as the sizes of the pieces add up. -/
theorem weigh_pieceBytes (layout : StorageLayout) (index : Nat) (inside : index ≤ layout.pieceCount) :
    weigh layout.pieceBytes (fun _ => true) index = min (index * layout.pieceLength) layout.totalSize := by
  induction index with
  | zero => simp [weigh]
  | succ index ih =>
    have below : ¬layout.pieceCount ≤ index := by omega
    simp only [weigh, ih (by omega), if_true, StorageLayout.pieceBytes, StorageLayout.pieceSize,
      if_neg below, Nat.succ_mul]
    split_ifs with past
    · simp only
      omega
    · simp only
      omega

/-- The pieces partition the payload, so their sizes add up to the total size. -/
theorem weigh_pieceBytes_all (layout : StorageLayout)
    (covered : layout.totalSize ≤ layout.pieceCount * layout.pieceLength) :
    weigh layout.pieceBytes (fun _ => true) layout.pieceCount = layout.totalSize := by
  rw [weigh_pieceBytes layout _ le_rfl, Nat.min_eq_right covered]

/-- One file in pieces of one byte. -/
def bytePieces (count : Nat) : StorageLayout := ⟨["data"], 1, count, count, [⟨["a"], count, 0, 1⟩]⟩

/-- One file of one piece. -/
def onePiece (size : Nat) : StorageLayout := ⟨["data"], size, 1, size, [⟨["a"], size, 0, 1⟩]⟩

end Seedchamp.Disk.Spans
