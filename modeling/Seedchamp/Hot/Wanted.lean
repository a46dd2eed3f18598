import Seedchamp.Disk.Ranges
import Seedchamp.Hot.Torrent
import Mathlib.Tactic.SplitIfs

/-!
The meaning of the wanted bitfield. The loop marks clamped piece ranges file by file; on a layout
with the parser's geometry the marked pieces are exactly those sharing a byte with a file that is on.
-/

namespace Seedchamp.Hot.Wanted
open Catalog.Bitfield Disk.Spans Foundation.Machine Hot.Torrent
open Disk.Ranges (Contiguous InPiece contiguous_small inPiece_iff)

/-- Some byte of the piece lies in a file whose current priority is positive. -/
def WantedPiece (layout : StorageLayout) (prios : List Int) (index : Nat) : Prop :=
  ∃ k file, layout.files[k]? = some file ∧ 0 < prios.getD k file.priority ∧ 0 < file.size ∧
    file.offset < (index + 1) * layout.pieceLength ∧
    index * layout.pieceLength < file.offset + file.size

theorem bitfieldSet_foldl_length (bits : Bits) (indices : List Nat) :
    (indices.foldl bitfieldSet bits).length = bits.length := by
  induction indices generalizing bits with
  | nil => rfl
  | cons index rest ih => rw [List.foldl_cons, ih, bitfieldSet_length]

theorem bitfieldGet_foldl (bits : Bits) (indices : List Nat) (index : Nat)
    (inside : index / 8 < bits.length) :
    bitfieldGet (indices.foldl bitfieldSet bits) index = true ↔
      bitfieldGet bits index = true ∨ index ∈ indices := by
  induction indices generalizing bits with
  | nil => simp
  | cons head rest ih =>
    rw [List.foldl_cons, ih _ (by simpa using inside), List.mem_cons]
    by_cases same : index = head
    · subst same
      simp only [bitfieldGet_bitfieldSet_self bits index inside, true_or, or_true]
    · rw [bitfieldGet_bitfieldSet_other bits head index same]
      simp only [same, false_or]

/-- The pieces that one file marks, before any assumption on the layout. -/
def filePieces (layout : StorageLayout) (file : FileLayout) (index : Nat) : Prop :=
  min (asU32 (file.offset / layout.pieceLength)) (layout.pieceCount - 1) ≤ index ∧
    index ≤ min (asU32 ((saturatingAdd file.offset file.size - 1) / layout.pieceLength))
      (layout.pieceCount - 1)

theorem setFilePieces_length (layout : StorageLayout) (bits : Bits) (file : FileLayout) :
    (setFilePieces layout bits file).length = bits.length :=
  bitfieldSet_foldl_length _ _

theorem bitfieldGet_setFilePieces (layout : StorageLayout) (bits : Bits) (file : FileLayout)
    (index : Nat) (inside : index / 8 < bits.length) :
    bitfieldGet (setFilePieces layout bits file) index = true ↔
      bitfieldGet bits index = true ∨ filePieces layout file index := by
  unfold setFilePieces
  rw [bitfieldGet_foldl _ _ _ inside, List.mem_range'_1]
  unfold filePieces
  apply or_congr_right
  omega

theorem buildLoop_length (layout : StorageLayout) (prios : List Int)
    (entries : List (FileLayout × Nat)) (bits : Bits) :
    (entries.foldl (fun bits entry =>
        if prios.getD entry.2 entry.1.priority ≤ 0 ∨ entry.1.size = 0 then bits
        else setFilePieces layout bits entry.1) bits).length = bits.length := by
  induction entries generalizing bits with
  | nil => rfl
  | cons entry rest ih =>
    rw [List.foldl_cons, ih]
    split_ifs
    · rfl
    · exact setFilePieces_length layout bits entry.1

@[simp] theorem buildWantedBitfield_length (layout : StorageLayout) (prios : List Int) :
    (buildWantedBitfield layout prios).length = bitfieldSizeBytes layout.pieceCount := by
  unfold buildWantedBitfield
  split_ifs
  · exact emptyBitfield_length _
  · rw [buildLoop_length, emptyBitfield_length]

theorem buildLoop_spec (layout : StorageLayout) (prios : List Int)
    (entries : List (FileLayout × Nat)) (bits : Bits) (index : Nat)
    (inside : index / 8 < bits.length) :
    bitfieldGet (entries.foldl (fun bits entry =>
        if prios.getD entry.2 entry.1.priority ≤ 0 ∨ entry.1.size = 0 then bits
        else setFilePieces layout bits entry.1) bits) index = true ↔
      bitfieldGet bits index = true ∨ ∃ entry ∈ entries,
        0 < prios.getD entry.2 entry.1.priority ∧ 0 < entry.1.size ∧
          filePieces layout entry.1 index := by
  induction entries generalizing bits with
  | nil => simp
  | cons entry rest ih =>
    rw [List.foldl_cons]
    by_cases skipped : prios.getD entry.2 entry.1.priority ≤ 0 ∨ entry.1.size = 0
    · rw [if_pos skipped, ih bits inside]
      have off : ¬(0 < prios.getD entry.2 entry.1.priority ∧ 0 < entry.1.size ∧
          filePieces layout entry.1 index) := by omega
      simp only [List.exists_mem_cons_iff, off, false_or]
    · rw [if_neg skipped, ih _ (by rwa [setFilePieces_length]),
        bitfieldGet_setFilePieces layout bits entry.1 index inside]
      have on : 0 < prios.getD entry.2 entry.1.priority ∧ 0 < entry.1.size := by omega
      simp only [List.exists_mem_cons_iff, on, true_and, or_assoc]

/-- Within the payload no conversion truncates, so a file marks the pieces its bytes touch. -/
theorem filePieces_iff (layout : StorageLayout) (geometry : Geometry layout) (file : FileLayout)
    (member : file ∈ layout.files) (nonempty : 0 < file.size) (index : Nat) :
    filePieces layout file index ↔ file.offset < (index + 1) * layout.pieceLength ∧
      index * layout.pieceLength < file.offset + file.size := by
  have positive := geometry.positive
  have bounds := tiles_member 0 _ _ geometry.tiles file member
  have covered := geometry.covered
  have small := geometry.representable
  have narrow := geometry.countRepresentable
  have firstBelow : file.offset / layout.pieceLength < layout.pieceCount := by
    rw [Nat.div_lt_iff_lt_mul positive]
    omega
  have finalBelow : (file.offset + file.size - 1) / layout.pieceLength < layout.pieceCount := by
    rw [Nat.div_lt_iff_lt_mul positive]
    omega
  unfold filePieces
  rw [saturatingAdd_of_lt _ _ (by omega), asU32_of_lt _ (by omega), asU32_of_lt _ (by omega),
    Nat.min_eq_left (by omega), Nat.min_eq_left (by omega)]
  rw [← Nat.lt_succ_iff, Nat.div_lt_iff_lt_mul positive, Nat.le_div_iff_mul_le positive]
  apply and_congr_right
  intro _
  omega

/-- The wanted bitfield marks exactly the wanted pieces. -/
theorem buildWantedBitfield_iff (layout : StorageLayout) (geometry : Geometry layout)
    (prios : List Int) (index : Nat) (below : index < layout.pieceCount) :
    bitfieldGet (buildWantedBitfield layout prios) index = true ↔ WantedPiece layout prios index := by
  have positive := geometry.positive
  have nondegenerate : ¬(layout.pieceCount = 0 ∨ layout.pieceLength = 0) := by omega
  rw [buildWantedBitfield, if_neg nondegenerate,
    buildLoop_spec _ _ _ _ _ (by simpa using index_div_lt_size index _ below)]
  simp only [bitfieldGet_emptyBitfield, Bool.false_eq_true, false_or]
  constructor
  · rintro ⟨⟨file, k⟩, member, on, nonempty, touched⟩
    have found := List.mem_zipIdx_iff_getElem?.1 member
    have inFiles := List.mem_of_getElem? found
    exact ⟨k, file, found, on, nonempty,
      (filePieces_iff layout geometry file inFiles nonempty index).1 touched⟩
  · rintro ⟨k, file, found, on, nonempty, touched⟩
    have inFiles := List.mem_of_getElem? found
    exact ⟨(file, k), List.mem_zipIdx_iff_getElem?.2 found, on, nonempty,
      (filePieces_iff layout geometry file inFiles nonempty index).2 touched⟩

/-! ### Every bit of the field -/

/-- No file marks a piece behind the last one. -/
theorem filePieces_below (layout : StorageLayout) (file : FileLayout) (index : Nat)
    (some_piece : layout.pieceCount ≠ 0) (marked : filePieces layout file index) :
    index < layout.pieceCount := by
  have last := marked.2
  omega

/-- On any layout the bits that are set are bits of pieces. -/
theorem buildWantedBitfield_below (layout : StorageLayout) (prios : List Int) (index : Nat)
    (marked : bitfieldGet (buildWantedBitfield layout prios) index = true) :
    index < layout.pieceCount := by
  by_cases inside : index / 8 < bitfieldSizeBytes layout.pieceCount
  · rw [buildWantedBitfield] at marked
    by_cases degenerate : layout.pieceCount = 0 ∨ layout.pieceLength = 0
    · rw [if_pos degenerate, bitfieldGet_emptyBitfield] at marked
      cases marked
    · rw [if_neg degenerate, buildLoop_spec _ _ _ _ _ (by simpa using inside),
        bitfieldGet_emptyBitfield] at marked
      rcases marked with impossible | ⟨entry, _, _, _, touched⟩
      · cases impossible
      · exact filePieces_below layout entry.1 index (by omega) touched
  · rw [bitfieldGet_beyond _ _ (by rw [buildWantedBitfield_length]; omega)] at marked
    cases marked

theorem geometry_of_contiguous (layout : StorageLayout) (contiguous : Contiguous layout)
    (positive : 0 < layout.pieceLength) : Geometry layout where
  positive := positive
  tiles := contiguous.tiles
  representable := by
    have small := contiguous_small layout contiguous
    rw [u64Max] at small
    omega
  countRepresentable := contiguous.countRepresentable
  covered := contiguous.covered

/-- Some byte of the piece belongs to the file. -/
def Intersects (layout : StorageLayout) (index : Nat) (file : FileLayout) : Prop :=
  ∃ byte, InPiece layout index byte ∧ file.offset ≤ byte ∧ byte < file.offset + file.size

theorem intersects_iff (layout : StorageLayout) (contiguous : Contiguous layout) (index : Nat)
    (file : FileLayout) (member : file ∈ layout.files) :
    Intersects layout index file ↔ index < layout.pieceCount ∧ 0 < layout.pieceLength ∧
      0 < file.size ∧ file.offset < (index + 1) * layout.pieceLength ∧
      index * layout.pieceLength < file.offset + file.size := by
  have bounds := tiles_member 0 _ _ contiguous.tiles file member
  constructor
  · rintro ⟨byte, within, low, high⟩
    obtain ⟨below, positive, _, divided⟩ := (inPiece_iff layout index byte).1 within
    rw [Nat.div_eq_iff positive] at divided
    rw [Nat.succ_mul]
    omega
  · rintro ⟨below, positive, nonempty, before, after⟩
    rw [Nat.succ_mul] at before
    refine ⟨max file.offset (index * layout.pieceLength), ?_, by omega, by omega⟩
    refine (inPiece_iff layout index _).2 ⟨below, positive, by omega, ?_⟩
    rw [Nat.div_eq_iff positive]
    omega

/-- The wanted bitfield equals its definition: a bit is set just when the piece exists and
intersects a non-empty file of positive priority. -/
theorem wanted_bitfield_exact (layout : StorageLayout) (contiguous : Contiguous layout)
    (prios : List Int) :
    (buildWantedBitfield layout prios).length = bitfieldSizeBytes layout.pieceCount ∧
    ∀ index, bitfieldGet (buildWantedBitfield layout prios) index = true ↔
      index < layout.pieceCount ∧ ∃ k file, layout.files[k]? = some file ∧ 0 < file.size ∧
        0 < prios.getD k file.priority ∧ Intersects layout index file := by
  refine ⟨buildWantedBitfield_length layout prios, ?_⟩
  intro index
  constructor
  · intro marked
    have below := buildWantedBitfield_below layout prios index marked
    refine ⟨below, ?_⟩
    have positive : 0 < layout.pieceLength := by
      by_contra zero
      rw [buildWantedBitfield, if_pos (Or.inr (by omega)), bitfieldGet_emptyBitfield] at marked
      cases marked
    obtain ⟨k, file, found, on, nonempty, before, after⟩ := (buildWantedBitfield_iff layout
      (geometry_of_contiguous layout contiguous positive) prios index below).1 marked
    exact ⟨k, file, found, nonempty, on,
      (intersects_iff layout contiguous index file (List.mem_of_getElem? found)).2
        ⟨below, positive, nonempty, before, after⟩⟩
  · rintro ⟨below, k, file, found, nonempty, on, meets⟩
    obtain ⟨_, positive, _, before, after⟩ :=
      (intersects_iff layout contiguous index file (List.mem_of_getElem? found)).1 meets
    exact (buildWantedBitfield_iff layout (geometry_of_contiguous layout contiguous positive) prios
      index below).2 ⟨k, file, found, on, nonempty, before, after⟩

/-- One file that is off by a negative priority, and one that shares its piece. -/
def negative : StorageLayout where
  dataRoot := ["data"]
  pieceLength := 4
  pieceCount := 2
  totalSize := 8
  files := [⟨["a.bin"], 4, 0, -1⟩, ⟨["b.bin"], 4, 4, 1⟩]

theorem negative_contiguous : Contiguous negative :=
  ⟨⟨rfl, rfl, rfl⟩, by decide, by decide, by decide⟩

theorem wanted_bitfield_negative :
    ∃ k file, negative.files[k]? = some file ∧ 0 < file.size ∧
      0 < (prioritiesFromLayout negative).getD k file.priority ∧ Intersects negative 1 file :=
  (((wanted_bitfield_exact negative negative_contiguous (prioritiesFromLayout negative)).2 1).1
    (by decide)).2

/-- The code takes a negative priority for off, so non-zero is not the condition. -/
theorem negative_not_wanted :
    ¬ ∀ layout, Contiguous layout → ∀ (prios : List Int) (index : Nat), index < layout.pieceCount →
      (bitfieldGet (buildWantedBitfield layout prios) index = true ↔
        ∃ k file, layout.files[k]? = some file ∧ 0 < file.size ∧ prios.getD k file.priority ≠ 0 ∧
          Intersects layout index file) := by
  intro always
  have claimed := always negative negative_contiguous (prioritiesFromLayout negative) 0 (by decide)
  have meets : Intersects negative 0 ⟨["a.bin"], 4, 0, -1⟩ :=
    ⟨0, (inPiece_iff negative 0 0).2 (by decide), by decide, by decide⟩
  have marked := claimed.2 ⟨0, _, rfl, by decide, by decide, meets⟩
  exact absurd marked (by decide)

end Seedchamp.Hot.Wanted
