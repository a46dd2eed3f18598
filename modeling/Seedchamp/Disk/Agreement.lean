import Seedchamp.Disk.ReadWrite

/-!
What writing pieces leaves on disk: each piece holds what was written to it last, and every other
byte is kept.
-/

namespace Seedchamp.Disk.Agreement
open Disk.Spans Disk.Places Disk.ReadWrite Foundation.Files

/-- A positioned write of `length` bytes of a buffer from `dataOff` on. -/
structure WriteOp where
  path : PathBuf
  fileOffset : Nat
  length : Nat
  dataOff : Nat
  deriving DecidableEq, Repr

def WriteOp.apply (data : List UInt8) (volume : Volume PathBuf) (op : WriteOp) : Volume PathBuf :=
  writeAt volume op.path op.fileOffset ((data.drop op.dataOff).take op.length)

/-- The writes of a span loop, with the running data offset. -/
def spanOps : List IoSpan → Nat → List WriteOp
  | [], _ => []
  | span :: rest, off => ⟨span.path, span.fileOffset, span.length, off⟩ :: spanOps rest (off + span.length)

theorem writeSpans_ops (data : List UInt8) (spans : List IoSpan) (off : Nat) (volume : Volume PathBuf)
    (room : off + (spans.flatMap places).length ≤ data.length) :
    writeSpans data spans off volume = .ok ((spanOps spans off).foldl (WriteOp.apply data) volume) := by
  induction spans generalizing off volume with
  | nil => rfl
  | cons span rest ih =>
    have wide : (places span).length = span.length := by
      rw [places, List.length_map, List.length_range]
    rw [List.flatMap_cons, List.length_append, wide] at room
    have exact_ : ((data.drop off).take span.length).length = span.length := by
      rw [List.length_take, List.length_drop]
      omega
    rw [writeSpans, writeSpan, if_neg (by omega), List.take_of_length_le (by omega)]
    exact ih (off + span.length) _ (by omega)

theorem mem_places (span : IoSpan) (place : Place) :
    place ∈ places span ↔ place.1 = span.path ∧ span.fileOffset ≤ place.2 ∧
      place.2 < span.fileOffset + span.length := by
  rw [places, List.mem_map]
  constructor
  · rintro ⟨k, inside, same⟩
    rw [List.mem_range] at inside
    subst same
    dsimp only
    exact ⟨rfl, by omega, by omega⟩
  · rintro ⟨named, low, high⟩
    refine ⟨place.2 - span.fileOffset, List.mem_range.2 (by omega), ?_⟩
    rw [← named, Nat.add_sub_cancel' low]

/-- Writes to places that are all different: each place gets its byte of the data, and every other
byte is kept. -/
theorem spanOps_bytes (data : List UInt8) (spans : List IoSpan) (off : Nat) (volume : Volume PathBuf)
    (room : off + (spans.flatMap places).length ≤ data.length)
    (different : (spans.flatMap places).Nodup) :
    (spans.flatMap places).map (byteAt ((spanOps spans off).foldl (WriteOp.apply data) volume)) =
        ((data.drop off).take (spans.flatMap places).length).map some ∧
      ∀ place, place ∉ spans.flatMap places →
        Kept (byteAt volume place)
          (byteAt ((spanOps spans off).foldl (WriteOp.apply data) volume) place) := by
  induction spans generalizing off volume with
  | nil => exact ⟨rfl, fun place _ => kept_refl _⟩
  | cons span rest ih =>
    have wide : (places span).length = span.length := by
      rw [places, List.length_map, List.length_range]
    rw [List.flatMap_cons] at different room
    rw [List.length_append, wide] at room
    obtain ⟨_, later, apart⟩ := List.nodup_append'.1 different
    generalize written : WriteOp.apply data volume ⟨span.path, span.fileOffset, span.length, off⟩ = next
    have taken : ((data.drop off).take span.length).length = span.length := by
      rw [List.length_take, List.length_drop]
      omega
    obtain ⟨tail, kept⟩ := ih (off + span.length) next (by omega) later
    have folded : (spanOps (span :: rest) off).foldl (WriteOp.apply data) volume =
        (spanOps rest (off + span.length)).foldl (WriteOp.apply data) next := by
      rw [spanOps, List.foldl_cons, written]
    rw [folded]
    constructor
    · have head : (places span).map
          (byteAt ((spanOps rest (off + span.length)).foldl (WriteOp.apply data) next)) =
            ((data.drop off).take span.length).map some := by
        apply List.ext_getElem
        · rw [List.length_map, List.length_map, wide, taken]
        · intro k low high
          rw [List.length_map, wide] at low
          have within : k < ((data.drop off).take span.length).length := by omega
          have put_ : byteAt next (span.path, span.fileOffset + k) =
              some (((data.drop off).take span.length).get ⟨k, within⟩) := by
            have inside := byteAt_writeAt_inside volume span.path span.fileOffset
              ((data.drop off).take span.length) k (by omega)
            rw [← written, List.get_eq_getElem, ← List.getElem?_eq_getElem]
            exact inside
          have member : (span.path, span.fileOffset + k) ∈ places span := by
            rw [mem_places]
            dsimp only
            exact ⟨rfl, by omega, by omega⟩
          have stays := kept (span.path, span.fileOffset + k) (apart member)
          rw [put_] at stays
          rw [List.getElem_map, List.getElem_map]
          simp only [places, List.getElem_map, List.getElem_range]
          exact kept_some _ _ stays
      rw [List.flatMap_cons, List.map_append, head, tail, List.length_append, wide, ← List.map_append,
        ← List.drop_drop, ← List.take_add]
    · intro place outside
      rw [List.flatMap_cons, List.mem_append, not_or] at outside
      have first : Kept (byteAt volume place) (byteAt next place) := by
        rw [← written]
        apply byteAt_writeAt_outside
        rw [taken, ← mem_places span place]
        exact outside.1
      exact kept_trans _ _ _ first (kept place outside.2)

/-- Writes leave every file alone that none of them names. -/
theorem foldl_apply_other (data : List UInt8) (ops : List WriteOp) (volume : Volume PathBuf)
    (name : PathBuf) (unnamed : ∀ op ∈ ops, name ≠ op.path) :
    ops.foldl (WriteOp.apply data) volume name = volume name := by
  induction ops generalizing volume with
  | nil => rfl
  | cons op rest ih =>
    rw [List.foldl_cons, ih _ (fun other member => unnamed other (List.mem_cons_of_mem op member)),
      WriteOp.apply, writeAt_other _ _ _ _ _ (unnamed op List.mem_cons_self)]

theorem spanOps_path (spans : List IoSpan) (off : Nat) (op : WriteOp) (member : op ∈ spanOps spans off) :
    ∃ span ∈ spans, op.path = span.path ∧ op.fileOffset = span.fileOffset ∧ op.length = span.length := by
  induction spans generalizing off with
  | nil => cases member
  | cons span rest ih =>
    rcases List.mem_cons.1 member with same | later
    · subst same
      exact ⟨span, List.mem_cons_self, rfl, rfl, rfl⟩
    · obtain ⟨other, found, equal⟩ := ih _ later
      exact ⟨other, List.mem_cons_of_mem span found, equal⟩

section
variable (layout : StorageLayout) (wellFormed : WellFormed layout)
include wellFormed

theorem placed_of_wellFormed : Placed layout :=
  placed_of_geometry layout wellFormed.toGeometry

theorem placeAt_injective_of_wellFormed (p q : Nat) (p_inside : p < layout.totalSize)
    (q_inside : q < layout.totalSize) (same : placeAt layout p = placeAt layout q) : p = q :=
  placeAt_injective layout (placed_of_wellFormed layout wellFormed)
    (wellFormed.distinct.imp fun different _ _ => different) p q p_inside q_inside same

/-- The places of a range are all different. -/
theorem range_places_nodup (spans : List IoSpan) (start len : Nat)
    (within : 0 < len → start + len ≤ layout.totalSize)
    (listed : (spans.flatMap places).map some =
      (List.range len).map (fun k => placeAt layout (start + k))) :
    (spans.flatMap places).Nodup := by
  have different : ((List.range len).map (fun k => placeAt layout (start + k))).Nodup := by
    apply List.Nodup.map_on _ List.nodup_range
    intro a a_inside b b_inside same
    rw [List.mem_range] at a_inside b_inside
    have equal := placeAt_injective_of_wellFormed layout wellFormed (start + a) (start + b)
      (by omega) (by omega) same
    omega
  rw [← listed] at different
  exact different.of_map

/-- A piece is written just when the data has its size. Then the disk holds the data, every other
byte is kept, and so is every file outside of the torrent. -/
theorem writePiece_spec (index : Nat) (data : List UInt8) (volume : Volume PathBuf)
    (sized : layout.pieceSize index = .ok data.length) :
    ∃ spans, layout.spansForPiece index = .ok spans ∧
      (spans.flatMap places).length = data.length ∧ (spans.flatMap places).Nodup ∧
      ∃ after, after = (spanOps spans 0).foldl (WriteOp.apply data) volume ∧
        writePiece layout index data volume = .ok after ∧
        Holds layout after (index * layout.pieceLength) data ∧
        (∀ place, (∀ k, k < data.length →
          placeAt layout (index * layout.pieceLength + k) ≠ some place) →
            Kept (byteAt volume place) (byteAt after place)) ∧
        ∀ name, (∀ file ∈ layout.files, name ≠ layout.absolute file.path) →
          after name = volume name := by
  have within := pieceSize_within layout index data.length sized
  obtain ⟨spans, mapped, positive, listed⟩ :=
    range_spans layout (placed_of_wellFormed layout wellFormed) _ data.length within
  have counted : (spans.flatMap places).length = data.length := by
    have lengths := congrArg List.length listed
    rw [List.length_map, List.length_map, List.length_range] at lengths
    exact lengths
  have different := range_places_nodup layout wellFormed spans _ data.length within listed
  obtain ⟨bytes, kept⟩ := spanOps_bytes data spans 0 volume (by omega) different
  refine ⟨spans, ?_, counted, different, _, rfl, ?_, ?_, ?_, ?_⟩
  · rw [StorageLayout.spansForPiece, sized]
    exact mapped
  · rw [writePiece, StorageLayout.spansForPiece, sized]
    dsimp only
    rw [if_neg (fun wrong => wrong rfl), mapped]
    exact writeSpans_ops data spans 0 volume (by omega)
  · rw [Holds, ← stream_of_places layout _ _ _ data.length listed, bytes, counted, List.drop_zero,
      List.take_length]
  · intro place outside
    apply kept place
    intro member
    have there : some place ∈ (spans.flatMap places).map some := List.mem_map_of_mem member
    rw [listed] at there
    obtain ⟨k, inside, equal⟩ := List.mem_map.1 there
    exact outside k (List.mem_range.1 inside) equal
  · intro name foreign
    apply foldl_apply_other
    intro op member same
    obtain ⟨span, found, path, _, _⟩ := spanOps_path spans 0 op member
    have first : (span.path, span.fileOffset) ∈ places span := by
      rw [mem_places]
      have some_ := positive span found
      dsimp only
      exact ⟨rfl, le_rfl, by omega⟩
    have there : some (span.path, span.fileOffset) ∈ (spans.flatMap places).map some :=
      List.mem_map_of_mem (List.mem_flatMap.2 ⟨span, found, first⟩)
    rw [listed] at there
    obtain ⟨k, _, equal⟩ := List.mem_map.1 there
    rw [placeAt] at equal
    obtain ⟨file, located, place⟩ := Option.map_eq_some_iff.1 equal
    rw [Prod.mk.injEq] at place
    exact foreign file (List.mem_of_find?_eq_some located) (by rw [same, path, ← place.1])

omit wellFormed in
theorem writePiece_refused (index : Nat) (data : List UInt8) (volume : Volume PathBuf)
    (wrong : layout.pieceSize index ≠ .ok data.length) :
    ∃ problem, writePiece layout index data volume = .error problem := by
  rw [writePiece]
  cases sized : layout.pieceSize index with
  | error problem => exact ⟨_, rfl⟩
  | ok plen =>
    have differs : data.length ≠ plen := by
      intro same
      rw [sized, same] at wrong
      exact wrong rfl
    dsimp only
    rw [if_pos differs]
    exact ⟨_, rfl⟩

end

/-! ### Runs of writes -/

/-- The disk after a write; a refused write leaves it. -/
def record (layout : StorageLayout) (volume : Volume PathBuf) (piece : Nat × List UInt8) :
    Volume PathBuf :=
  match writePiece layout piece.1 piece.2 volume with
  | .ok after => after
  | .error _ => volume

/-- The disk after writes in this order. -/
def recordAll (layout : StorageLayout) (writes : List (Nat × List UInt8)) (volume : Volume PathBuf) :
    Volume PathBuf :=
  writes.foldl (record layout) volume

def accepts (layout : StorageLayout) (piece : Nat × List UInt8) : Bool :=
  match layout.pieceSize piece.1 with
  | .ok plen => piece.2.length = plen
  | .error _ => false

/-- The data of the last accepted write of a piece. -/
def lastWrite (layout : StorageLayout) (writes : List (Nat × List UInt8)) (index : Nat) :
    Option (List UInt8) :=
  (writes.reverse.find? fun piece => accepts layout piece && piece.1 == index).map Prod.snd

theorem accepts_iff (layout : StorageLayout) (piece : Nat × List UInt8) :
    accepts layout piece = true ↔ layout.pieceSize piece.1 = .ok piece.2.length := by
  rw [accepts]
  cases layout.pieceSize piece.1 with
  | error problem =>
    constructor
    · nofun
    · nofun
  | ok plen =>
    dsimp only
    rw [decide_eq_true_iff, Except.ok.injEq]
    exact eq_comm

theorem lastWrite_concat (layout : StorageLayout) (writes : List (Nat × List UInt8))
    (piece : Nat × List UInt8) (index : Nat) :
    lastWrite layout (writes ++ [piece]) index =
      if accepts layout piece = true ∧ piece.1 = index then some piece.2
      else lastWrite layout writes index := by
  rw [lastWrite, lastWrite, List.reverse_append, List.reverse_singleton, List.singleton_append,
    List.find?_cons]
  by_cases here : accepts layout piece = true ∧ piece.1 = index
  · rw [if_pos here, here.1, here.2, beq_self_eq_true]
    rfl
  · have other : (accepts layout piece && piece.1 == index) = false := by
      rw [Bool.eq_false_iff]
      intro both
      rw [Bool.and_eq_true, beq_iff_eq] at both
      exact here both
    rw [if_neg here, other]

theorem lastWrite_sized (layout : StorageLayout) (writes : List (Nat × List UInt8)) (index : Nat)
    (data : List UInt8) (last : lastWrite layout writes index = some data) :
    layout.pieceSize index = .ok data.length := by
  rw [lastWrite] at last
  obtain ⟨piece, found, same⟩ := Option.map_eq_some_iff.1 last
  have both := List.find?_some found
  rw [Bool.and_eq_true, beq_iff_eq, accepts_iff] at both
  rw [← both.2, ← same]
  exact both.1

/-- What a run of writes has established. -/
structure Recorded (layout : StorageLayout) (before : Volume PathBuf)
    (writes : List (Nat × List UInt8)) (after : Volume PathBuf) : Prop where
  held : ∀ index data, lastWrite layout writes index = some data →
    Holds layout after (index * layout.pieceLength) data
  kept : ∀ pos, pos < layout.totalSize → lastWrite layout writes (pos / layout.pieceLength) = none →
    Kept (streamByte layout before pos) (streamByte layout after pos)
  foreign : ∀ name, (∀ file ∈ layout.files, name ≠ layout.absolute file.path) →
    after name = before name

section
variable (layout : StorageLayout) (wellFormed : WellFormed layout)
include wellFormed

/-- Writing a piece keeps the stream outside of it. -/
theorem stream_kept (piece : Nat × List UInt8) (before after : Volume PathBuf)
    (sized : layout.pieceSize piece.1 = .ok piece.2.length)
    (kept : ∀ place, (∀ k, k < piece.2.length →
      placeAt layout (piece.1 * layout.pieceLength + k) ≠ some place) →
        Kept (byteAt before place) (byteAt after place))
    (pos : Nat) (inside : pos < layout.totalSize) (other : pos / layout.pieceLength ≠ piece.1) :
    Kept (streamByte layout before pos) (streamByte layout after pos) := by
  obtain ⟨file, _, _, located⟩ :=
    placeAt_isSome layout (placed_of_wellFormed layout wellFormed) pos inside
  rw [streamByte, streamByte, located, Option.bind_some, Option.bind_some]
  apply kept
  intro k low same
  have fits := pieceSize_le layout piece.1 _ sized
  have within := pieceSize_within layout piece.1 _ sized (by omega)
  rw [← located] at same
  have equal := placeAt_injective_of_wellFormed layout wellFormed _ pos (by omega) inside same
  apply other
  rw [← equal, Nat.mul_comm, Nat.mul_add_div wellFormed.positive, Nat.div_eq_of_lt (by omega),
    Nat.add_zero]

theorem record_keeps (before : Volume PathBuf) (writes : List (Nat × List UInt8))
    (middle : Volume PathBuf) (recorded : Recorded layout before writes middle)
    (piece : Nat × List UInt8) :
    Recorded layout before (writes ++ [piece]) (record layout middle piece) := by
  by_cases sized : layout.pieceSize piece.1 = .ok piece.2.length
  · obtain ⟨_, _, _, _, after, _, written, holds, kept, foreign⟩ :=
      writePiece_spec layout wellFormed piece.1 piece.2 middle sized
    have accepted := (accepts_iff layout piece).2 sized
    have stream := stream_kept layout wellFormed piece middle after sized kept
    rw [record, written]
    constructor
    · intro index data last
      rw [lastWrite_concat] at last
      split_ifs at last with here
      · cases last
        rw [← here.2]
        exact holds
      · have counted := lastWrite_sized layout writes index data last
        have fits := pieceSize_le layout index _ counted
        apply holds_kept layout middle after _ data (recorded.held index data last)
        intro k low
        have within := pieceSize_within layout index _ counted (by omega)
        apply stream _ (by omega)
        rw [Nat.mul_comm, Nat.mul_add_div wellFormed.positive, Nat.div_eq_of_lt (by omega),
          Nat.add_zero]
        intro same
        exact here ⟨accepted, same.symm⟩
    · intro pos inside unwritten
      rw [lastWrite_concat] at unwritten
      split_ifs at unwritten with here
      have next := stream pos inside (fun same => here ⟨accepted, same.symm⟩)
      exact kept_trans _ _ _ (recorded.kept pos inside unwritten) next
    · intro name outside
      exact (foreign name outside).trans (recorded.foreign name outside)
  · obtain ⟨problem, refused⟩ := writePiece_refused layout piece.1 piece.2 middle sized
    have same : ∀ index, lastWrite layout (writes ++ [piece]) index = lastWrite layout writes index := by
      intro index
      rw [lastWrite_concat, if_neg (fun both => sized ((accepts_iff layout piece).1 both.1))]
    rw [record, refused]
    constructor
    · intro index data last
      rw [same] at last
      exact recorded.held index data last
    · intro pos inside unwritten
      rw [same] at unwritten
      exact recorded.kept pos inside unwritten
    · exact recorded.foreign

theorem recordAll_recorded (writes : List (Nat × List UInt8)) (volume : Volume PathBuf) :
    Recorded layout volume writes (recordAll layout writes volume) := by
  induction writes using List.reverseRecOn with
  | nil =>
    constructor
    · nofun
    · exact fun pos _ _ => kept_refl _
    · exact fun name _ => rfl
  | append_singleton writes piece ih =>
    rw [recordAll, List.foldl_append]
    exact record_keeps layout wellFormed volume writes _ ih piece

/-- Any part of a written piece reads as the part of the data written last. -/
theorem readRange_of_holds (volume : Volume PathBuf) (index : Nat) (data : List UInt8)
    (sized : layout.pieceSize index = .ok data.length)
    (held : Holds layout volume (index * layout.pieceLength) data) (begin' len : Nat)
    (part : begin' + len ≤ data.length) (buf : List UInt8) (room : len ≤ buf.length) :
    readRange volume layout (index * layout.pieceLength + begin') len buf =
      .ok (put buf 0 ((data.drop begin').take len), len) := by
  have within : 0 < len → index * layout.pieceLength + begin' + len ≤ layout.totalSize := by
    intro some_
    have whole := pieceSize_within layout index _ sized (by omega)
    omega
  rw [readRange_ok_iff layout (placed_of_wellFormed layout wellFormed) volume _ len within buf room]
  have split : data = data.take begin' ++ ((data.drop begin').take len ++ (data.drop begin').drop len) := by
    rw [List.take_append_drop, List.take_append_drop]
  have front : (data.take begin').length = begin' := by
    rw [List.length_take]
    omega
  rw [split, holds_append, holds_append, front] at held
  refine ⟨(data.drop begin').take len, ?_, held.2.1, rfl, rfl⟩
  rw [List.length_take, List.length_drop]
  omega

end

end Seedchamp.Disk.Agreement
