import Seedchamp.Catalog.Possession
import Seedchamp.Disk.Ranges
import Seedchamp.Hot.Possession

/-!
How much of each file is present. The catalog adds up, file by file, the parts of the had pieces that
lie in the file; the hot torrent adds up the sizes of the had pieces. Both count the same bytes.
-/

namespace Seedchamp.Catalog.FileProgress
open Foundation.Machine Foundation.Tally Catalog.Bitfield Catalog.Table Disk.Spans Disk.Ranges
open Hot.Torrent Hot.Possession
open Catalog.Possession (loadBitfieldState_complete)

/-- One turn of the loop over the pieces of a file. -/
def addOverlap (file : FileLayout) (pieceLength totalSize : Nat) (bits : Bits) (had index : Nat) :
    Nat :=
  if bitfieldGet bits index = false then had
  else
    let pstart := index * pieceLength
    let pend := min (pstart + pieceLength) totalSize
    let lo := max pstart file.offset
    let hi := min pend file.endOffset
    if lo < hi then had + (hi - lo) else had

/-- Bytes of `file` covered by pieces set in `bits`. -/
def fileHaveBytes (file : FileLayout) (pieceLength pieceCount totalSize : Nat) (bits : Bits) : Nat :=
  if file.size = 0 ∨ pieceLength = 0 then 0
  else
    let first := asU32 (file.offset / pieceLength)
    let last := min (asU32 ((file.endOffset - 1) / pieceLength)) (pieceCount - 1)
    min ((List.range' first (last + 1 - first)).foldl
      (addOverlap file pieceLength totalSize bits) 0) file.size

/-- The `have_bytes` of one file in `list_files_progress`. -/
def progressOf (r : Row) (file : FileLayout) : Nat :=
  if r.loadBitfieldState.1 = true ∨ file.size = 0 then file.size
  else if r.pieceLength = 0 ∨ r.pieceCount = 0 then 0
  else fileHaveBytes file r.pieceLength r.pieceCount r.totalSize r.loadBitfieldState.2.1

/-- Files with per-file completion, in the order of the catalog. -/
def listFilesProgress (r : Row) : List (FileLayout × Nat) :=
  r.columns.files.map fun file => (file, progressOf r file)

/-- The storage layout of a row under a data root. -/
def layoutOf (r : Row) (root : PathBuf) : StorageLayout :=
  ⟨root, r.pieceLength, r.pieceCount, r.totalSize, r.columns.files⟩

/-- The bytes of a file that lie in had pieces. -/
def hadBytes (layout : StorageLayout) (had : Nat → Bool) (file : FileLayout) : Set Nat :=
  {byte | file.offset ≤ byte ∧ byte < file.offset + file.size ∧
    ∃ index, InPiece layout index byte ∧ had index = true}

/-- The hot torrent runs on the row's layout and has the pieces that the row has. -/
structure Mirrors (t : HotTorrent) (r : Row) (root : PathBuf) : Prop where
  layout : t.layout = layoutOf r root
  pieceCount : t.pieceCount = r.pieceCount
  pieces : ∀ index, index < r.pieceCount → t.hasPiece index = r.hasPiece index

/-! ### One file -/

section
variable (layout : StorageLayout) (contiguous : Contiguous layout) (bits : Bits)
include contiguous

/-- The mark of the piece that a byte lies in. -/
def byteHad (had : Nat → Bool) (pieceLength byte : Nat) : Bool := had (byte / pieceLength)

omit contiguous in
theorem between_piece (had : Nat → Bool) (pieceLength index low high : Nat)
    (positive : 0 < pieceLength) (front : index * pieceLength ≤ low)
    (back : high ≤ index * pieceLength + pieceLength) :
    between (byteHad had pieceLength) low high = if had index then high - low else 0 := by
  apply between_constant
  intro byte above below
  have divided : byte / pieceLength = index := by
    rw [Nat.div_eq_iff positive]
    omega
  rw [byteHad, divided]

/-- After `n` turns the loop has counted the file's bytes in the first `n` pieces it touches. -/
theorem overlaps_counted (file : FileLayout) (member : file ∈ layout.files) (nonempty : 0 < file.size)
    (positive : 0 < layout.pieceLength) (n : Nat)
    (inside : file.offset / layout.pieceLength + n ≤
      (file.offset + file.size - 1) / layout.pieceLength + 1) :
    (List.range' (file.offset / layout.pieceLength) n).foldl
        (addOverlap file layout.pieceLength layout.totalSize bits) 0 =
      between (byteHad (bitfieldGet bits) layout.pieceLength) file.offset
        (max file.offset (min ((file.offset / layout.pieceLength + n) * layout.pieceLength)
          (file.offset + file.size))) := by
  have bounds := tiles_member 0 _ _ contiguous.tiles file member
  have small := contiguous_small layout contiguous
  rw [u64Max] at small
  have stop : file.endOffset = file.offset + file.size := saturatingAdd_of_lt _ _ (by omega)
  induction n with
  | zero =>
    have low := Nat.div_mul_le_self file.offset layout.pieceLength
    have here : max file.offset (min ((file.offset / layout.pieceLength + 0) * layout.pieceLength)
        (file.offset + file.size)) = file.offset := by
      rw [Nat.add_zero]
      omega
    rw [here, between_self]
    rfl
  | succ n ih =>
    have earlier := ih (by omega)
    generalize firstIs : file.offset / layout.pieceLength = first at earlier inside ⊢
    have above : file.offset < first * layout.pieceLength + layout.pieceLength := by
      have divided := (Nat.div_eq_iff positive).1 firstIs
      omega
    have started : (first + n) * layout.pieceLength ≤ file.offset + file.size - 1 := by
      rw [← Nat.le_div_iff_mul_le positive]
      omega
    have grown : first * layout.pieceLength ≤ (first + n) * layout.pieceLength :=
      Nat.mul_le_mul_right _ (by omega)
    have next : (first + (n + 1)) * layout.pieceLength =
        (first + n) * layout.pieceLength + layout.pieceLength := by
      rw [← Nat.add_assoc, Nat.succ_mul]
    have before : max file.offset (min ((first + n) * layout.pieceLength) (file.offset + file.size)) =
        max ((first + n) * layout.pieceLength) file.offset := by omega
    have cut : between (byteHad (bitfieldGet bits) layout.pieceLength) file.offset
        (max file.offset (min ((first + n) * layout.pieceLength + layout.pieceLength)
          (file.offset + file.size))) =
        between (byteHad (bitfieldGet bits) layout.pieceLength) file.offset
          (max ((first + n) * layout.pieceLength) file.offset) +
        if bitfieldGet bits (first + n) then
          max file.offset (min ((first + n) * layout.pieceLength + layout.pieceLength)
            (file.offset + file.size)) - max ((first + n) * layout.pieceLength) file.offset
        else 0 := by
      rw [between_split _ file.offset (max ((first + n) * layout.pieceLength) file.offset) _
          (by omega) (by omega),
        between_piece (bitfieldGet bits) layout.pieceLength (first + n)
          (max ((first + n) * layout.pieceLength) file.offset) _ positive (by omega) (by omega)]
    rw [List.range'_1_concat, List.foldl_concat, earlier, before, next, cut, addOverlap]
    dsimp only
    rw [stop]
    cases bitfieldGet bits (first + n) with
    | false => rfl
    | true =>
      rw [if_neg (by decide), if_pos rfl]
      split_ifs with overlapping
      · omega
      · omega

/-- The catalog's count of a file is the number of its bytes in had pieces. -/
theorem fileHaveBytes_eq (file : FileLayout) (member : file ∈ layout.files) :
    fileHaveBytes file layout.pieceLength layout.pieceCount layout.totalSize bits =
      between (byteHad (bitfieldGet bits) layout.pieceLength) file.offset
        (file.offset + file.size) := by
  have bounds := tiles_member 0 _ _ contiguous.tiles file member
  have small := contiguous_small layout contiguous
  have covered := contiguous.covered
  have few := contiguous.countRepresentable
  rw [u64Max] at small
  rw [fileHaveBytes]
  by_cases blank : file.size = 0
  · rw [if_pos (Or.inl blank), blank, Nat.add_zero, between_self]
  · have positive : 0 < layout.pieceLength := by
      by_contra zero
      rw [Nat.eq_zero_of_not_pos zero, Nat.mul_zero] at covered
      omega
    rw [if_neg (by omega)]
    have stop : file.endOffset = file.offset + file.size := saturatingAdd_of_lt _ _ (by omega)
    have firstBelow : file.offset / layout.pieceLength < layout.pieceCount := by
      rw [Nat.div_lt_iff_lt_mul positive]
      omega
    have lastBelow : (file.offset + file.size - 1) / layout.pieceLength < layout.pieceCount := by
      rw [Nat.div_lt_iff_lt_mul positive]
      omega
    have ordered : file.offset / layout.pieceLength ≤
        (file.offset + file.size - 1) / layout.pieceLength := Nat.div_le_div_right (by omega)
    have clamped : min ((file.offset + file.size - 1) / layout.pieceLength) (layout.pieceCount - 1) =
        (file.offset + file.size - 1) / layout.pieceLength := Nat.min_eq_left (by omega)
    dsimp only
    rw [stop, asU32_of_lt _ (by omega), asU32_of_lt _ (by omega), clamped,
      overlaps_counted layout contiguous bits file member (by omega) positive _ (by omega)]
    have turns : file.offset / layout.pieceLength +
        ((file.offset + file.size - 1) / layout.pieceLength + 1 - file.offset / layout.pieceLength) =
          (file.offset + file.size - 1) / layout.pieceLength + 1 := by omega
    have reached : file.offset + file.size - 1 <
        ((file.offset + file.size - 1) / layout.pieceLength + 1) * layout.pieceLength := by
      rw [Nat.mul_comm]
      exact Nat.lt_mul_div_succ _ positive
    have whole : max file.offset (min (((file.offset + file.size - 1) / layout.pieceLength + 1) *
        layout.pieceLength) (file.offset + file.size)) = file.offset + file.size := by omega
    rw [turns, whole]
    apply Nat.min_eq_left
    have room := Finset.card_filter_le (Finset.Ico file.offset (file.offset + file.size))
      (fun i => byteHad (bitfieldGet bits) layout.pieceLength i = true)
    rw [Nat.card_Ico] at room
    rw [between]
    omega

/-- The bytes of had pieces of a file, counted. -/
theorem between_hadBytes (had : Nat → Bool) (file : FileLayout) (member : file ∈ layout.files) :
    between (byteHad had layout.pieceLength) file.offset (file.offset + file.size) =
      (hadBytes layout had file).ncard := by
  have bounds := tiles_member 0 _ _ contiguous.tiles file member
  have covered := contiguous.covered
  rw [between_eq_ncard]
  congr 1
  ext byte
  constructor
  · rintro ⟨low, high, marked⟩
    have positive : 0 < layout.pieceLength := by
      by_contra zero
      rw [Nat.eq_zero_of_not_pos zero, Nat.mul_zero] at covered
      omega
    refine ⟨low, high, byte / layout.pieceLength, ?_, marked⟩
    refine (inPiece_iff layout _ byte).2 ⟨?_, positive, by omega, rfl⟩
    rw [Nat.div_lt_iff_lt_mul positive]
    omega
  · rintro ⟨low, high, index, within, marked⟩
    refine ⟨low, high, ?_⟩
    rw [byteHad, ((inPiece_iff layout index byte).1 within).2.2.2, marked]

end

/-! ### All files, and all pieces -/

/-- Files that follow one another split the count of their range. -/
theorem sum_files (marked : Nat → Bool) (files : List FileLayout) (start stop : Nat)
    (tiling : Tiles start files stop) :
    (files.map fun file => between marked file.offset (file.offset + file.size)).sum =
      between marked start stop := by
  induction files generalizing start with
  | nil =>
    have same : start = stop := tiling
    rw [same, between_self]
    rfl
  | cons file rest ih =>
    obtain ⟨front, tail⟩ := tiling
    have ends := tiles_le _ _ rest tail
    rw [List.map_cons, List.sum_cons, ih _ tail, front,
      between_split marked start (start + file.size) stop (by omega) ends]

/-- The sizes of the had pieces add up to the had bytes of the payload. -/
theorem weigh_had (layout : StorageLayout) (had : Nat → Bool) (n : Nat)
    (inside : n ≤ layout.pieceCount) :
    weigh layout.pieceBytes had n =
      between (byteHad had layout.pieceLength) 0 (min (n * layout.pieceLength) layout.totalSize) := by
  induction n with
  | zero => simp only [Nat.zero_mul, Nat.zero_min, between_self, weigh]
  | succ n ih =>
    have step : between (byteHad had layout.pieceLength) (min (n * layout.pieceLength) layout.totalSize)
        (min (n * layout.pieceLength + layout.pieceLength) layout.totalSize) =
        if had n then min (n * layout.pieceLength + layout.pieceLength) layout.totalSize -
          n * layout.pieceLength else 0 := by
      by_cases past : layout.totalSize ≤ n * layout.pieceLength
      · rw [Nat.min_eq_right past, Nat.min_eq_right (by omega), between_self,
          Nat.sub_eq_zero_of_le past, ite_self]
      · rw [Nat.min_eq_left (by omega)]
        by_cases positive : 0 < layout.pieceLength
        · exact between_piece had layout.pieceLength n _ _ positive (by omega) (by omega)
        · rw [Nat.eq_zero_of_not_pos positive, Nat.mul_zero, Nat.zero_min, between_self, Nat.sub_zero,
            ite_self]
    have cut := between_split (byteHad had layout.pieceLength) 0
      (min (n * layout.pieceLength) layout.totalSize)
      (min (n * layout.pieceLength + layout.pieceLength) layout.totalSize) (Nat.zero_le _) (by omega)
    rw [weigh, ih (by omega), StorageLayout.pieceBytes, pieceSize_ok layout n (by omega),
      Nat.succ_mul, cut, step]
    rfl

/-! ### The progress of a row -/

theorem progressOf_eq (r : Row) (root : PathBuf) (contiguous : Contiguous (layoutOf r root))
    (file : FileLayout) (member : file ∈ r.columns.files) :
    progressOf r file =
      between (byteHad r.hasPiece r.pieceLength) file.offset (file.offset + file.size) := by
  have bounds := tiles_member 0 _ _ contiguous.tiles file member
  have covered := contiguous.covered
  have total : (layoutOf r root).totalSize = r.totalSize := rfl
  have pieces : (layoutOf r root).pieceCount * (layoutOf r root).pieceLength =
      r.pieceCount * r.pieceLength := rfl
  rw [total] at bounds covered
  rw [pieces] at covered
  rw [progressOf]
  by_cases blank : file.size = 0
  · rw [if_pos (Or.inr blank), blank, Nat.add_zero, between_self]
  · have positive : 0 < r.pieceCount * r.pieceLength := by omega
    have lengthPositive := Nat.pos_of_mul_pos_left positive
    by_cases complete : r.loadBitfieldState.1 = true
    · have flag : r.columns.complete = true := by
        by_contra incomplete
        rw [Row.loadBitfieldState, if_neg incomplete] at complete
        cases complete
      rw [if_pos (Or.inl complete), between_constant _ _ _ true, if_pos rfl, Nat.add_sub_cancel_left]
      intro byte low high
      rw [byteHad, Row.hasPiece, loadBitfieldState_complete r flag]
      apply bitfieldGet_allSetBitfield
      rw [Nat.div_lt_iff_lt_mul (by omega)]
      omega
    · have some_piece : ¬ (r.pieceLength = 0 ∨ r.pieceCount = 0) := by
        rintro (zero | zero)
        · rw [zero, Nat.mul_zero] at positive
          omega
        · rw [zero, Nat.zero_mul] at positive
          omega
      rw [if_neg (not_or.2 ⟨complete, blank⟩), if_neg some_piece]
      exact fileHaveBytes_eq (layoutOf r root) contiguous r.loadBitfieldState.2.1 file member

theorem sum_progress (r : Row) (root : PathBuf) (contiguous : Contiguous (layoutOf r root)) :
    ((listFilesProgress r).map Prod.snd).sum =
      weigh (layoutOf r root).pieceBytes r.hasPiece r.pieceCount := by
  have counted : (listFilesProgress r).map Prod.snd = r.columns.files.map fun file =>
      between (byteHad r.hasPiece r.pieceLength) file.offset (file.offset + file.size) := by
    rw [listFilesProgress, List.map_map]
    apply List.map_congr_left
    intro file member
    exact progressOf_eq r root contiguous file member
  have pieces := weigh_had (layoutOf r root) r.hasPiece r.pieceCount le_rfl
  have covered : r.totalSize ≤ r.pieceCount * r.pieceLength := contiguous.covered
  have files : (r.columns.files.map fun file =>
      between (byteHad r.hasPiece r.pieceLength) file.offset (file.offset + file.size)).sum =
        between (byteHad r.hasPiece r.pieceLength) 0 r.totalSize :=
    sum_files _ r.columns.files 0 r.totalSize contiguous.tiles
  rw [counted, files, pieces]
  exact congrArg (between _ 0) (Nat.min_eq_right covered).symm

/-- The had pieces of a hot torrent that mirrors the row. -/
theorem weigh_mirrors (t : HotTorrent) (r : Row) (root : PathBuf) (mirrors : Mirrors t r root) :
    weigh t.layout.pieceBytes t.hasPiece t.pieceCount =
      weigh (layoutOf r root).pieceBytes r.hasPiece r.pieceCount := by
  rw [mirrors.layout, mirrors.pieceCount]
  exact weigh_congr _ _ _ _ mirrors.pieces

/-- A recount stores the sizes of the pieces the torrent has. -/
theorem recount_eq (t : HotTorrent) (sameCount : t.layout.pieceCount = t.pieceCount)
    (covered : t.layout.totalSize ≤ t.layout.pieceCount * t.layout.pieceLength) :
    t.recountCompletedPayload.completedBytes =
      weigh t.layout.pieceBytes t.hasPiece t.pieceCount := by
  rw [HotTorrent.recountCompletedPayload]
  by_cases complete : t.pieces.complete = true
  · rw [if_pos complete, ← sameCount]
    have all : weigh t.layout.pieceBytes t.hasPiece t.layout.pieceCount =
        weigh t.layout.pieceBytes (fun _ => true) t.layout.pieceCount := by
      apply weigh_congr
      intro index below
      rw [HotTorrent.hasPiece, if_neg (by omega), if_pos complete]
    rw [all, weigh_pieceBytes_all t.layout covered]
    rfl
  · rw [if_neg complete]
    apply weigh_congr
    intro index below
    rw [HotTorrent.hasPiece, if_neg (by omega), if_neg complete]

/-- Per-file progress agrees with torrent progress. -/
theorem file_progress_agrees (r : Row) (root : PathBuf) (contiguous : Contiguous (layoutOf r root)) :
    (listFilesProgress r).map Prod.fst = r.columns.files ∧
    (∀ entry ∈ listFilesProgress r,
      entry.2 = (hadBytes (layoutOf r root) r.hasPiece entry.1).ncard) ∧
    ((listFilesProgress r).map Prod.snd).sum =
      ∑ index ∈ (Finset.range r.pieceCount).filter (fun index => r.hasPiece index = true),
        (layoutOf r root).pieceBytes index ∧
    (∀ t, Mirrors t r root →
      t.recountCompletedPayload.completedBytes = ((listFilesProgress r).map Prod.snd).sum) ∧
    ∀ t ops, Start t → (∀ op ∈ ops, op.Valid t.pieceCount) → Mirrors (run t ops) r root →
      (run t ops).completedBytes = ((listFilesProgress r).map Prod.snd).sum := by
  rw [sum_progress r root contiguous]
  refine ⟨?_, ?_, weigh_eq_sum _ _ _, ?_, ?_⟩
  · rw [listFilesProgress, List.map_map]
    exact List.map_id _
  · intro entry member
    obtain ⟨file, inFiles, rfl⟩ := List.mem_map.1 member
    dsimp only
    rw [progressOf_eq r root contiguous file inFiles]
    exact between_hadBytes (layoutOf r root) contiguous r.hasPiece file inFiles
  · intro t mirrors
    have sameCount : t.layout.pieceCount = t.pieceCount := by
      rw [mirrors.layout, mirrors.pieceCount]
      rfl
    rw [recount_eq t sameCount (by rw [mirrors.layout]; exact contiguous.covered),
      weigh_mirrors t r root mirrors]
  · intro t ops start admitted mirrors
    have valid := balanced_run t (balanced_start t start) ops admitted
    rw [completedBytes_eq _ valid (by rw [mirrors.layout]; exact contiguous.covered),
      weigh_mirrors _ r root mirrors]

/-- The second of three pieces is there; it spans the end of the first file and the last file. -/
def secondPiece : Row where
  id := 1
  infohash := List.replicate 20 0
  pieceLength := 64
  pieceCount := 3
  totalSize := 150
  pieceHashes := List.replicate 60 0
  columns := ⟨.started, true, false, false, none, some ⟨some [0x40], 1⟩, none, none, threeFiles.files⟩

example : (listFilesProgress secondPiece).map Prod.snd = [36, 0, 28] := by decide

/-- The torrent that a load makes of it. -/
def secondPieceHot : HotTorrent :=
  (HotTorrent.bare 1 (List.replicate 20 0) (layoutOf secondPiece ["data"]) 3 (List.replicate 60 0)
    ⟨[0x40], false, 1⟩).finishNew

theorem file_progress_secondPiece :
    (hadBytes (layoutOf secondPiece ["data"]) secondPiece.hasPiece ⟨["a.bin"], 100, 0, 1⟩).ncard = 36 ∧
    secondPieceHot.recountCompletedPayload.completedBytes = 64 := by
  have agrees := file_progress_agrees secondPiece ["data"] threeFiles_contiguous
  have mirrors : Mirrors secondPieceHot secondPiece ["data"] := ⟨rfl, rfl, by decide⟩
  refine ⟨?_, (agrees.2.2.2.1 _ mirrors).trans (by decide)⟩
  exact (agrees.2.1 (⟨["a.bin"], 100, 0, 1⟩, 36) (by decide)).symm

end Seedchamp.Catalog.FileProgress
