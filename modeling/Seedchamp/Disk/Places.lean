import Mathlib.Data.List.Range
import Seedchamp.Disk.Spans

/-!
The place on disk of each byte of the torrent stream, and the spans of a range as the places of its
bytes in order.
-/

namespace Seedchamp.Disk.Places
open Foundation.Machine Disk.Spans

abbrev Place := PathBuf × Nat

def covers (pos : Nat) (file : FileLayout) : Bool := decide (file.offset ≤ pos ∧ pos < file.endOffset)

/-- The file and the offset in it at which a byte of the stream lives. -/
def placeAt (layout : StorageLayout) (pos : Nat) : Option Place :=
  (layout.files.find? (covers pos)).map fun file => (layout.absolute file.path, pos - file.offset)

/-- The bytes of a span, in order. -/
def places (span : IoSpan) : List Place :=
  (List.range span.length).map fun k => (span.path, span.fileOffset + k)

/-- What the mapping of ranges to spans rests on: files in stream order that do not overlap, and
one of them at every byte of the payload. -/
structure Placed (layout : StorageLayout) : Prop where
  ordered : layout.files.Pairwise (fun a b => a.endOffset ≤ b.offset)
  covered : ∀ pos, pos < layout.totalSize → ∃ file ∈ layout.files, covers pos file = true
  representable : layout.totalSize < 2 ^ 64

theorem covers_iff (pos : Nat) (file : FileLayout) :
    covers pos file = true ↔ file.offset ≤ pos ∧ pos < file.endOffset := decide_eq_true_iff

theorem endOffset_le (file : FileLayout) : file.endOffset ≤ file.offset + file.size :=
  saturatingAdd_le _ _

/-- Below the largest offset, a byte before the end of a file is before its saturated end. -/
theorem lt_endOffset (file : FileLayout) (pos : Nat) (inside : pos < file.offset + file.size)
    (small : pos < u64Max) : pos < file.endOffset := by
  rw [FileLayout.endOffset, saturatingAdd]
  omega

/-- In stream order only one file covers a byte. -/
theorem find_covering (files : List FileLayout)
    (ordered : files.Pairwise (fun a b => a.endOffset ≤ b.offset)) (pos : Nat) (file : FileLayout)
    (member : file ∈ files) (covering : covers pos file = true) :
    files.find? (covers pos) = some file := by
  induction files with
  | nil => cases member
  | cons first rest ih =>
    obtain ⟨before, later⟩ := List.pairwise_cons.1 ordered
    rcases List.mem_cons.1 member with same | tail
    · subst same
      exact List.find?_cons_of_pos covering
    · have past : ¬ covers pos first = true := by
        rw [covers_iff] at covering ⊢
        have gap := before file tail
        omega
      rw [List.find?_cons_of_neg past]
      exact ih later tail

section
variable (layout : StorageLayout) (placed : Placed layout)
include placed

theorem placeAt_of_covers (pos : Nat) (file : FileLayout) (member : file ∈ layout.files)
    (covering : covers pos file = true) :
    placeAt layout pos = some (layout.absolute file.path, pos - file.offset) := by
  rw [placeAt, find_covering layout.files placed.ordered pos file member covering]
  rfl

/-- Every byte of the payload has a place. -/
theorem placeAt_isSome (pos : Nat) (inside : pos < layout.totalSize) :
    ∃ file ∈ layout.files, covers pos file = true ∧
      placeAt layout pos = some (layout.absolute file.path, pos - file.offset) := by
  obtain ⟨file, member, covering⟩ := placed.covered pos inside
  exact ⟨file, member, covering, placeAt_of_covers layout placed pos file member covering⟩

/-- The bytes of a file from a covered one on are next to each other. -/
theorem placeAt_within (pos take : Nat) (file : FileLayout) (member : file ∈ layout.files)
    (covering : covers pos file = true) (short : take ≤ file.size - (pos - file.offset))
    (small : pos + take ≤ u64Max) :
    (List.range take).map (fun k => placeAt layout (pos + k)) =
      ((List.range take).map
        fun k => (layout.absolute file.path, pos - file.offset + k)).map some := by
  rw [List.map_map]
  apply List.map_congr_left
  intro k inside
  rw [List.mem_range] at inside
  rw [covers_iff] at covering
  have next : covers (pos + k) file = true := by
    rw [covers_iff]
    exact ⟨by omega, lt_endOffset file (pos + k) (by omega) (by omega)⟩
  rw [placeAt_of_covers layout placed (pos + k) file member next]
  have offset : pos + k - file.offset = pos - file.offset + k := by omega
  rw [offset]
  rfl

theorem spansLoop_places (stop : Nat) (small : stop ≤ u64Max) (fuel pos : Nat)
    (enough : stop - pos ≤ fuel) (spans : List IoSpan)
    (mapped : layout.spansLoop stop fuel pos = .ok spans) :
    (spans.flatMap places).map some = (List.range (stop - pos)).map (fun k => placeAt layout (pos + k)) := by
  induction fuel generalizing pos spans with
  | zero =>
    cases mapped
    rw [Nat.le_zero.1 enough]
    rfl
  | succ fuel ih =>
    rw [StorageLayout.spansLoop] at mapped
    split_ifs at mapped with inside
    · split at mapped
      · cases mapped
      · rename_i file found
        dsimp only at mapped
        split at mapped
        · cases mapped
        · rename_i rest later
          cases mapped
          have member := List.mem_of_find?_eq_some found
          have covering : covers pos file = true := List.find?_some found
          have bounds := (covers_iff pos file).1 covering
          have room := endOffset_le file
          generalize taken : min (file.size - (pos - file.offset)) (stop - pos) = take at later ⊢
          have tail := ih (pos + take) (by omega) rest later
          have head := placeAt_within layout placed pos take file member covering (by omega) (by omega)
          have split : stop - pos = take + (stop - (pos + take)) := by omega
          have rest_bytes : (List.range (stop - (pos + take))).map
              (fun k => placeAt layout (pos + take + k)) =
                ((List.range (stop - (pos + take))).map (take + ·)).map
                  (fun k => placeAt layout (pos + k)) := by
            rw [List.map_map]
            apply List.map_congr_left
            intro k _
            rw [Function.comp_apply, Nat.add_assoc]
          rw [List.flatMap_cons, List.map_append, tail, split, List.range_add, List.map_append, head,
            rest_bytes]
          rfl
    · cases mapped
      have blank : stop - pos = 0 := by omega
      rw [blank]
      rfl

theorem spansLoop_ok (stop : Nat) (within : stop ≤ layout.totalSize) (fuel pos : Nat) :
    ∃ spans, layout.spansLoop stop fuel pos = .ok spans := by
  induction fuel generalizing pos with
  | zero => exact ⟨[], rfl⟩
  | succ fuel ih =>
    rw [StorageLayout.spansLoop]
    by_cases inside : pos < stop
    · obtain ⟨file, member, covering⟩ := placed.covered pos (by omega)
      have found := find_covering layout.files placed.ordered pos file member covering
      obtain ⟨rest, later⟩ := ih (pos + min (file.size - (pos - file.offset)) (stop - pos))
      rw [if_pos inside]
      unfold covers at found
      rw [found]
      dsimp only
      rw [later]
      exact ⟨_, rfl⟩
    · rw [if_neg inside]
      exact ⟨[], rfl⟩

/-- A range is mapped just when it lies in the payload, and then to the places of its bytes. -/
theorem spansForRange_spec (start len : Nat) (within : start + len ≤ layout.totalSize) :
    ∃ spans, layout.spansForRange start len = .ok spans ∧
      (spans.flatMap places).map some = (List.range len).map (fun k => placeAt layout (start + k)) := by
  have small := placed.representable
  rw [StorageLayout.spansForRange]
  by_cases blank : len = 0
  · rw [if_pos blank, blank]
    exact ⟨[], rfl, rfl⟩
  · have stop : saturatingAdd start len = start + len := saturatingAdd_of_lt start len (by omega)
    rw [if_neg blank]
    dsimp only
    rw [stop, if_neg (by omega)]
    obtain ⟨spans, mapped⟩ := spansLoop_ok layout placed (start + len) within len start
    refine ⟨spans, mapped, ?_⟩
    have listed := spansLoop_places layout placed (start + len) (by rw [u64Max]; omega) len start
      (by omega) spans mapped
    rw [listed, Nat.add_sub_cancel_left]

omit placed in
/-- Non-empty files with one path are one file. -/
theorem file_of_path
    (named : layout.files.Pairwise (fun a b => 0 < a.size → 0 < b.size → a.path ≠ b.path))
    (f g : FileLayout) (f_member : f ∈ layout.files) (g_member : g ∈ layout.files)
    (f_sized : 0 < f.size) (g_sized : 0 < g.size) (same : f.path = g.path) : f = g := by
  have pairs : layout.files.Pairwise
      (fun a b => a = b ∨ (0 < a.size → 0 < b.size → a.path ≠ b.path)) :=
    named.imp (fun clear => Or.inr clear)
  have flipped : layout.files.Pairwise
      (flip (fun a b => a = b ∨ (0 < a.size → 0 < b.size → a.path ≠ b.path))) := by
    refine named.imp ?_
    intro a b clear
    exact Or.inr (fun b_sized a_sized equal => clear a_sized b_sized equal.symm)
  have itself : ∀ a ∈ layout.files,
      a = a ∨ (0 < a.size → 0 < a.size → a.path ≠ a.path) := fun a _ => Or.inl rfl
  rcases List.Pairwise.forall_of_forall_of_flip itself pairs flipped f_member g_member with
    equal | clear
  · exact equal
  · exact absurd same (clear f_sized g_sized)

/-- Where non-empty files have distinct paths, distinct bytes have distinct places. -/
theorem placeAt_injective
    (named : layout.files.Pairwise (fun a b => 0 < a.size → 0 < b.size → a.path ≠ b.path))
    (p q : Nat) (p_inside : p < layout.totalSize) (q_inside : q < layout.totalSize)
    (same : placeAt layout p = placeAt layout q) : p = q := by
  obtain ⟨f, f_member, f_covers, f_place⟩ := placeAt_isSome layout placed p p_inside
  obtain ⟨g, g_member, g_covers, g_place⟩ := placeAt_isSome layout placed q q_inside
  rw [f_place, g_place, Option.some.injEq, Prod.mk.injEq] at same
  rw [covers_iff] at f_covers g_covers
  have f_room := endOffset_le f
  have g_room := endOffset_le g
  have equal := file_of_path layout named f g f_member g_member (by omega) (by omega)
    (List.append_cancel_left same.1)
  subst equal
  omega

end

/-- Tiling files cover the payload. -/
theorem tiles_covered (start stop : Nat) (files : List FileLayout) (tiling : Tiles start files stop)
    (pos : Nat) (low : start ≤ pos) (high : pos < stop) :
    ∃ file ∈ files, file.offset ≤ pos ∧ pos < file.offset + file.size := by
  induction files generalizing start with
  | nil =>
    have same : start = stop := tiling
    omega
  | cons first rest ih =>
    obtain ⟨front, tail⟩ := tiling
    by_cases inside : pos < start + first.size
    · exact ⟨first, List.mem_cons_self, by omega, by omega⟩
    · obtain ⟨file, member, bounds⟩ := ih _ tail (by omega)
      exact ⟨file, List.mem_cons_of_mem _ member, bounds⟩

theorem tiles_ordered (start stop : Nat) (files : List FileLayout) (tiling : Tiles start files stop) :
    files.Pairwise (fun a b => a.endOffset ≤ b.offset) := by
  induction files generalizing start with
  | nil => exact List.Pairwise.nil
  | cons first rest ih =>
    obtain ⟨front, tail⟩ := tiling
    refine List.pairwise_cons.2 ⟨?_, ih _ tail⟩
    intro file member
    have after := (tiles_member _ _ rest tail file member).1
    have room := endOffset_le first
    omega

theorem placed_of_geometry (layout : StorageLayout) (geometry : Geometry layout) : Placed layout where
  ordered := tiles_ordered 0 layout.totalSize layout.files geometry.tiles
  representable := geometry.representable
  covered := by
    intro pos inside
    obtain ⟨file, member, low, high⟩ :=
      tiles_covered 0 layout.totalSize layout.files geometry.tiles pos (Nat.zero_le _) inside
    have small := geometry.representable
    refine ⟨file, member, ?_⟩
    rw [covers_iff]
    exact ⟨low, lt_endOffset file pos high (by rw [u64Max]; omega)⟩

end Seedchamp.Disk.Places
