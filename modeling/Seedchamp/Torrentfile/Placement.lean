import Mathlib.Data.List.Pairwise
import Seedchamp.Disk.Places
import Seedchamp.Torrentfile.Geometry

/-!
Where a parsed torrent lands on disk: distinct bytes of the torrent at distinct places, which depends
on what is left of the declared path lists after normalisation.
-/

namespace Seedchamp.Torrentfile.Placement
open Foundation.Machine Disk.Spans Disk.Places Torrentfile.Bencode Torrentfile.Parse
open Torrentfile.Geometry

/-- A proper initial part, as a directory is of the paths below it. -/
def Below {α : Type} (dir path : List α) : Prop := dir <+: path ∧ dir ≠ path

/-- The place that the spans of a one-byte range name. -/
def byteSpan (layout : StorageLayout) (pos : Nat) : Option Place :=
  match layout.spansForRange pos 1 with
  | .ok [span] => some (span.path, span.fileOffset)
  | _ => none

/-- Two files that can be on disk together, given by path and size. -/
def ApartOnDisk (a b : PathBuf × Nat) : Prop :=
  (0 < a.2 → 0 < b.2 → a.1 ≠ b.1) ∧ ¬ Below a.1 b.1 ∧ ¬ Below b.1 a.1

/-- The layout is injective on disk: every byte of the payload has a place, distinct bytes have
distinct places, distinct pieces share none, no two non-empty files have the same path, and no
path of a file is a directory above another. -/
structure Distinct (layout : StorageLayout) : Prop where
  mapped : ∀ pos, pos < layout.totalSize → (byteSpan layout pos).isSome = true
  bytes : ∀ p q, p < layout.totalSize → q < layout.totalSize →
    byteSpan layout p = byteSpan layout q → p = q
  pieces : ∀ i j a b, i ≠ j → layout.spansForPiece i = .ok a → layout.spansForPiece j = .ok b →
    List.Disjoint (a.flatMap places) (b.flatMap places)
  apart : layout.files.Pairwise (fun a b => ApartOnDisk (a.path, a.size) (b.path, b.size))

/-- What is left of a declared path list: its components after normalisation, without blank ones. -/
def components (path : List (List Char)) : List (List Char) :=
  (path.map normalised).filter (fun comp => !comp.isEmpty)

/-- Two declared entries that can be on disk together. -/
def Apart (a b : Int64 × List (List Char)) : Prop :=
  (a.1 ≠ 0 → b.1 ≠ 0 → components a.2 ≠ components b.2) ∧
    ¬ Below (components a.2) (components b.2) ∧ ¬ Below (components b.2) (components a.2)

def Separate (d : Declared) : Prop := d.files.Pairwise Apart

def diskPath (torrentName : List Char) (path : List (List Char)) : PathBuf :=
  path.foldl (fun p comp => push p (normalised comp)) (push [] torrentName)

theorem foldl_push (base : PathBuf) (path : List (List Char)) :
    path.foldl (fun p comp => push p (normalised comp)) base =
      base ++ (components path).map String.ofList := by
  induction path generalizing base with
  | nil => exact (List.append_nil base).symm
  | cons comp rest ih =>
    rw [List.foldl_cons, ih, push, components, components, List.map_cons]
    by_cases blank : (normalised comp).isEmpty = true
    · rw [if_pos blank, List.filter_cons_of_neg (by rw [blank]; decide)]
    · rw [if_neg blank, List.filter_cons_of_pos (by rw [Bool.not_eq_true] at blank; rw [blank]; decide),
        List.map_cons, List.append_assoc, List.singleton_append]

/-- Prefixes survive a shared base and an injective naming. -/
theorem prefix_base_iff (base : PathBuf) (a b : List (List Char)) :
    base ++ a.map String.ofList <+: base ++ b.map String.ofList ↔ a <+: b := by
  rw [List.prefix_append_right_inj]
  constructor
  · intro inside
    have shortened := inside.map String.toList
    rw [List.map_map, List.map_map, String.toList_comp_ofList, List.map_id, List.map_id] at shortened
    exact shortened
  · exact fun inside => inside.map String.ofList

theorem base_eq_iff (base : PathBuf) (a b : List (List Char)) :
    base ++ a.map String.ofList = base ++ b.map String.ofList ↔ a = b := by
  rw [List.append_cancel_left_eq, List.map_inj_right (fun _ _ same => String.ofList_injective same)]

theorem asU64_pos_iff (v : Int64) : 0 < asU64 v ↔ v ≠ 0 := by
  have low := Int64.le_toInt v
  have high := Int64.toInt_lt v
  have zero : v = 0 ↔ v.toInt = 0 := by
    rw [← Int64.toInt_inj]
    rfl
  rw [Ne, zero, asU64]
  omega

theorem apartOnDisk_iff (torrentName : List Char) (a b : Int64 × List (List Char)) :
    ApartOnDisk (diskPath torrentName a.2, asU64 a.1) (diskPath torrentName b.2, asU64 b.1) ↔
      Apart a b := by
  simp only [ApartOnDisk, Apart, Below, diskPath, foldl_push, prefix_base_iff, base_eq_iff,
    asU64_pos_iff, Ne]

theorem layEntries_paths (torrentName : List Char) (offset : Nat)
    (entries : List (Int64 × List (List Char))) :
    (layEntries torrentName offset entries).map (fun file => (file.path, file.size)) =
      entries.map (fun entry => (diskPath torrentName entry.2, asU64 entry.1)) := by
  induction entries generalizing offset with
  | nil => rfl
  | cons entry rest ih =>
    rw [layEntries, List.map_cons, List.map_cons, ih]
    rfl

section
variable (data : Bytes) (m : Metainfo) (torrentName : List Char) (d : Declared)
variable (accepted : Accepted data m torrentName d) (root : PathBuf)
include accepted

/-- The files of the layout are apart just when the declared entries are. -/
theorem apart_iff :
    (layoutAt root m).files.Pairwise (fun a b => ApartOnDisk (a.path, a.size) (b.path, b.size)) ↔
      Separate d := by
  have paths := layEntries_paths torrentName 0 d.files
  rw [← accepted.files] at paths
  rw [layoutAt, List.pairwise_map, Separate]
  calc
    m.files.Pairwise (fun a b => ApartOnDisk (a.path, a.size) (b.path, b.size)) ↔
        (m.files.map (fun file => (file.path, file.size))).Pairwise ApartOnDisk :=
      List.pairwise_map.symm
    _ ↔ (d.files.map (fun entry => (diskPath torrentName entry.2, asU64 entry.1))).Pairwise
        ApartOnDisk := by rw [paths]
    _ ↔ d.files.Pairwise Apart := by
      rw [List.pairwise_map]
      simp only [apartOnDisk_iff]

end

theorem layEntries_after (torrentName : List Char) (offset : Nat)
    (entries : List (Int64 × List (List Char))) (small : offset ≤ u64Max) (file : TorrentFile)
    (member : file ∈ layEntries torrentName offset entries) : offset ≤ file.offset := by
  induction entries generalizing offset with
  | nil => cases member
  | cons entry rest ih =>
    rw [layEntries] at member
    rcases List.mem_cons.1 member with same | later
    · rw [same]
    · have moved := ih (saturatingAdd offset (asU64 entry.1)) (Nat.min_le_right _ _) later
      rw [saturatingAdd] at moved
      omega

/-- Saturated or not, the files do not overlap. -/
theorem layEntries_ordered (torrentName : List Char) (offset : Nat)
    (entries : List (Int64 × List (List Char))) :
    (layEntries torrentName offset entries).Pairwise
      (fun a b => saturatingAdd a.offset a.size ≤ b.offset) := by
  induction entries generalizing offset with
  | nil => exact List.Pairwise.nil
  | cons entry rest ih =>
    rw [layEntries]
    refine List.pairwise_cons.2 ⟨?_, ih _⟩
    intro file member
    exact layEntries_after torrentName _ rest (Nat.min_le_right _ _) file member

/-- The files cover everything below their sum and the largest offset. -/
theorem layEntries_covered (torrentName : List Char) (offset : Nat)
    (entries : List (Int64 × List (List Char))) (pos : Nat) (low : offset ≤ pos)
    (high : pos < offset + (entries.map (fun entry => asU64 entry.1)).sum) (small : pos < u64Max) :
    ∃ file ∈ layEntries torrentName offset entries,
      file.offset ≤ pos ∧ pos < saturatingAdd file.offset file.size := by
  induction entries generalizing offset with
  | nil =>
    rw [List.map_nil, List.sum_nil] at high
    omega
  | cons entry rest ih =>
    rw [List.map_cons, List.sum_cons] at high
    rw [layEntries]
    by_cases inside : pos < saturatingAdd offset (asU64 entry.1)
    · exact ⟨_, List.mem_cons_self, low, inside⟩
    · have exact' : saturatingAdd offset (asU64 entry.1) = offset + asU64 entry.1 := by
        rw [saturatingAdd] at inside ⊢
        omega
      obtain ⟨file, member, bounds⟩ := ih (saturatingAdd offset (asU64 entry.1)) (by omega) (by omega)
      exact ⟨file, List.mem_cons_of_mem _ member, bounds⟩

theorem placed_of_accepted (data : Bytes) (m : Metainfo) (torrentName : List Char) (d : Declared)
    (accepted : Accepted data m torrentName d) (root : PathBuf) : Placed (layoutAt root m) where
  ordered := by
    have ordered := layEntries_ordered torrentName 0 d.files
    rw [← accepted.files] at ordered
    rw [layoutAt, List.pairwise_map]
    exact ordered
  representable := by
    change m.totalSize < 2 ^ 64
    rw [accepted.totalSize, wrappingSum]
    exact Nat.mod_lt _ (by decide)
  covered := by
    intro pos inside
    have within : pos < m.totalSize := inside
    have summed := sizes_layEntries torrentName 0 d.files
    have total := accepted.totalSize
    rw [← accepted.files] at summed
    rw [wrappingSum, summed] at total
    have wrapped := Nat.mod_le (d.files.map (fun entry => asU64 entry.1)).sum (2 ^ 64)
    have bounded := Nat.mod_lt (d.files.map (fun entry => asU64 entry.1)).sum (show 0 < 2 ^ 64 by decide)
    obtain ⟨file, member, bounds⟩ := layEntries_covered torrentName 0 d.files pos (Nat.zero_le _)
      (by omega) (by rw [u64Max]; omega)
    rw [← accepted.files] at member
    refine ⟨⟨file.path, file.size, file.offset, 1⟩, List.mem_map_of_mem member, ?_⟩
    rw [covers_iff]
    exact bounds

section
variable (layout : StorageLayout) (placed : Placed layout)
include placed

theorem byteSpan_eq (pos : Nat) (inside : pos < layout.totalSize) :
    byteSpan layout pos = placeAt layout pos := by
  obtain ⟨file, member, covering, place⟩ := placeAt_isSome layout placed pos inside
  have small := placed.representable
  have bounds := (covers_iff pos file).1 covering
  have room := endOffset_le file
  have found : layout.files.find? (fun file => decide (file.offset ≤ pos ∧ pos < file.endOffset)) =
      some file := find_covering layout.files placed.ordered pos file member covering
  have stop : saturatingAdd pos 1 = pos + 1 := saturatingAdd_of_lt pos 1 (by omega)
  have mapped : layout.spansForRange pos 1 =
      .ok [⟨layout.absolute file.path, pos - file.offset, 1⟩] := by
    have one : min (file.size - (pos - file.offset)) (pos + 1 - pos) = 1 := by omega
    rw [StorageLayout.spansForRange, if_neg (by decide)]
    dsimp only
    rw [stop, if_neg (by omega), StorageLayout.spansLoop, if_pos (by omega), found]
    dsimp only
    rw [StorageLayout.spansLoop, one]
  rw [byteSpan, mapped, place]

/-- The places of a piece are those of its bytes, of which there are at most `piece_length`. -/
theorem mem_piece (index : Nat) (spans : List IoSpan) (place : Place)
    (mapped : layout.spansForPiece index = .ok spans) (member : place ∈ spans.flatMap places) :
    ∃ k, k < layout.pieceLength ∧ index * layout.pieceLength + k < layout.totalSize ∧
      placeAt layout (index * layout.pieceLength + k) = some place := by
  rw [StorageLayout.spansForPiece] at mapped
  cases sized : layout.pieceSize index with
  | error problem =>
    rw [sized] at mapped
    cases mapped
  | ok len =>
    rw [sized] at mapped
    dsimp only at mapped
    have size : len = 0 ∨ (len ≤ layout.pieceLength ∧
        index * layout.pieceLength + len ≤ layout.totalSize) := by
      rw [StorageLayout.pieceSize] at sized
      split_ifs at sized
      · cases sized
        exact Or.inl rfl
      · cases sized
        right
        omega
    rcases size with blank | ⟨short, within⟩
    · rw [blank, StorageLayout.spansForRange, if_pos rfl] at mapped
      cases mapped
      cases member
    · obtain ⟨spans', same, listed⟩ :=
        spansForRange_spec layout placed (index * layout.pieceLength) len within
      rw [same] at mapped
      cases mapped
      have shown := List.mem_map_of_mem (f := some) member
      rw [listed, List.mem_map] at shown
      obtain ⟨k, counted, found⟩ := shown
      rw [List.mem_range] at counted
      exact ⟨k, by omega, by omega, found⟩

theorem distinct_of_apart
    (apart : layout.files.Pairwise (fun a b => ApartOnDisk (a.path, a.size) (b.path, b.size))) :
    Distinct layout where
  mapped := by
    intro pos inside
    obtain ⟨file, _, _, place⟩ := placeAt_isSome layout placed pos inside
    rw [byteSpan_eq layout placed pos inside, place]
    rfl
  bytes := by
    intro p q p_inside q_inside same
    rw [byteSpan_eq layout placed p p_inside, byteSpan_eq layout placed q q_inside] at same
    exact placeAt_injective layout placed (apart.imp And.left) p q p_inside q_inside same
  pieces := by
    intro i j a b different a_mapped b_mapped place a_member b_member
    obtain ⟨k, k_short, k_inside, k_place⟩ := mem_piece layout placed i a place a_mapped a_member
    obtain ⟨l, l_short, l_inside, l_place⟩ := mem_piece layout placed j b place b_mapped b_member
    have same := placeAt_injective layout placed (apart.imp And.left) _ _ k_inside l_inside
      (k_place.trans l_place.symm)
    have first : (i * layout.pieceLength + k) / layout.pieceLength = i := by
      rw [Nat.mul_comm, Nat.mul_add_div (by omega), Nat.div_eq_of_lt k_short, Nat.add_zero]
    have second : (j * layout.pieceLength + l) / layout.pieceLength = j := by
      rw [Nat.mul_comm, Nat.mul_add_div (by omega), Nat.div_eq_of_lt l_short, Nat.add_zero]
    exact different (by rw [← first, same, second])
  apart := apart

end

/-- The layout of an accepted torrent is injective on disk just when no two of its non-empty files
are declared with path lists that normalise to the same components, and no path list normalises to
a proper initial part of another. -/
theorem layout_distinct_iff (sha1 : Bytes → Bytes) (data : Bytes) (m : Metainfo)
    (parsed : parseBytes sha1 data = .ok m) :
    ∃ d, declared data = some d ∧ ∀ root, Distinct (layoutAt root m) ↔ Separate d := by
  obtain ⟨torrentName, d, accepted⟩ := parseBytes_ok sha1 data m parsed
  refine ⟨d, accepted.declared, ?_⟩
  intro root
  have placed := placed_of_accepted data m torrentName d accepted root
  rw [← apart_iff data m torrentName d accepted root]
  exact ⟨Distinct.apart, distinct_of_apart _ placed⟩

theorem layout_distinct_iff_sample :
    ∃ d, declared sampleTorrent = some d ∧
      ∀ root, Distinct (layoutAt root sampleMetainfo) ↔ Separate d :=
  layout_distinct_iff (fun _ => sampleInfohash) sampleTorrent sampleMetainfo (by decide +kernel)

/-- Two one-byte files under one name, in two pieces. -/
def twinTorrent : Bytes :=
  Value.key "d4:infod5:filesld6:lengthi1e4:pathl1:aeed6:lengthi1e4:pathl1:aeee4:name1:p" ++
    Value.key "12:piece lengthi1e6:pieces40:" ++ List.replicate 40 0 ++ Value.key "ee"

def twinInfohash : Bytes :=
  [147, 164, 67, 195, 112, 138, 6, 4, 0, 162, 142, 227, 26, 128, 29, 122, 60, 127, 66, 204]

def twinMetainfo : Metainfo where
  infohash := twinInfohash
  name := ['p']
  pieceLength := 1
  pieceCount := 2
  totalSize := 2
  pieces := List.replicate 40 0
  files := [⟨["p", "a"], 1, 0⟩, ⟨["p", "a"], 1, 1⟩]
  isMultiFile := true
  priv := false
  trackers := []
  announce := none

/-- The two bytes of the torrent are one byte on disk. -/
theorem same_path_accepted :
    ¬ ∀ (sha1 : Bytes → Bytes) (data : Bytes) (m : Metainfo), parseBytes sha1 data = .ok m →
      ∀ root, Distinct (layoutAt root m) := by
  intro always
  have distinct := always (fun _ => twinInfohash) twinTorrent twinMetainfo (by decide +kernel) []
  exact absurd (distinct.bytes 0 1 (by decide) (by decide) (by decide)) (by decide)

end Seedchamp.Torrentfile.Placement
