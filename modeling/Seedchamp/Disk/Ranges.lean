import Seedchamp.Disk.Places

/-!
Ranges of the torrent stream. On every layout whose files follow one another and whose pieces reach
the end of the payload, a range is mapped to spans that join up to exactly it, and the ranges of the
pieces partition the payload.
-/

namespace Seedchamp.Disk.Ranges
open Foundation.Machine Disk.Spans Disk.Places

/-- Files of any length in stream order, and pieces that reach the end of the payload. The piece
length and the piece count are 32-bit fields. -/
structure Contiguous (layout : StorageLayout) : Prop where
  tiles : Tiles 0 layout.files layout.totalSize
  covered : layout.totalSize ≤ layout.pieceCount * layout.pieceLength
  lengthRepresentable : layout.pieceLength < 2 ^ 32
  countRepresentable : layout.pieceCount < 2 ^ 32

/-- Every byte of the range is a byte of the payload. -/
def Inside (layout : StorageLayout) (start len : Nat) : Prop :=
  ∀ byte, start ≤ byte → byte < start + len → byte < layout.totalSize

/-- The spans are non-empty, lie in files of the layout, and their bytes follow one another in the
stream from `start` to `stop`. -/
def Joined (layout : StorageLayout) : Nat → List IoSpan → Nat → Prop
  | start, [], stop => start = stop
  | start, span :: rest, stop =>
    (∃ file ∈ layout.files, span.path = layout.absolute file.path ∧
      span.fileOffset + span.length ≤ file.size ∧ file.offset + span.fileOffset = start) ∧
    0 < span.length ∧ Joined layout (start + span.length) rest stop

/-- `spans_for_range` stopped after so many turns of its loop: `none` where it is not done. -/
def spansTurns (layout : StorageLayout) (rangeEnd : Nat) :
    Nat → Nat → Option (Except Error (List IoSpan))
  | 0, pos => if pos < rangeEnd then none else some (.ok [])
  | turns + 1, pos =>
    if pos < rangeEnd then
      match layout.files.find? (covers pos) with
      | none => some (.error (.msg s!"no file covers torrent offset {pos}"))
      | some file =>
        let intoFile := pos - file.offset
        let take := min (file.size - intoFile) (rangeEnd - pos)
        match spansTurns layout rangeEnd turns (pos + take) with
        | none => none
        | some (.error problem) => some (.error problem)
        | some (.ok rest) => some (.ok (⟨layout.absolute file.path, intoFile, take⟩ :: rest))
    else some (.ok [])

def spansWithin (layout : StorageLayout) (rangeStart rangeLen turns : Nat) :
    Option (Except Error (List IoSpan)) :=
  if rangeLen = 0 then some (.ok [])
  else
    let rangeEnd := saturatingAdd rangeStart rangeLen
    if layout.totalSize < rangeEnd then
      some (.error (.msg s!"range {rangeStart}+{rangeLen} exceeds total_size {layout.totalSize}"))
    else spansTurns layout rangeEnd turns rangeStart

/-- The start of a piece in the stream, as `piece_size` and `spans_for_piece` compute it. -/
def pieceOffset (layout : StorageLayout) (index : Nat) : Nat := index * layout.pieceLength

/-- The byte lies in the range of the piece. -/
def InPiece (layout : StorageLayout) (index byte : Nat) : Prop :=
  ∃ size, layout.pieceSize index = .ok size ∧
    pieceOffset layout index ≤ byte ∧ byte < pieceOffset layout index + size

/-! ### Termination -/

/-- Every turn takes at least one byte, on any layout. -/
theorem spansTurns_eq (layout : StorageLayout) (rangeEnd turns fuel pos : Nat)
    (enough : rangeEnd - pos ≤ turns) (same : rangeEnd - pos ≤ fuel) :
    spansTurns layout rangeEnd turns pos = some (layout.spansLoop rangeEnd fuel pos) := by
  induction turns generalizing fuel pos with
  | zero =>
    have done : ¬ pos < rangeEnd := by omega
    rw [spansTurns, if_neg done]
    cases fuel with
    | zero => rfl
    | succ fuel => rw [StorageLayout.spansLoop, if_neg done]
  | succ turns ih =>
    by_cases inside : pos < rangeEnd
    · cases fuel with
      | zero => omega
      | succ fuel =>
        rw [spansTurns, StorageLayout.spansLoop, if_pos inside, if_pos inside]
        change _ = some (match layout.files.find? (covers pos) with
          | none => _
          | some file => _)
        cases found : layout.files.find? (covers pos) with
        | none => rfl
        | some file =>
          have bounds := (covers_iff pos file).1 (List.find?_some found)
          have room := endOffset_le file
          have next := ih fuel (pos + min (file.size - (pos - file.offset)) (rangeEnd - pos))
            (by omega) (by omega)
          dsimp only
          rw [next]
          cases layout.spansLoop rangeEnd fuel
            (pos + min (file.size - (pos - file.offset)) (rangeEnd - pos)) <;> rfl
    · rw [spansTurns, if_neg inside]
      cases fuel with
      | zero => rfl
      | succ fuel => rw [StorageLayout.spansLoop, if_neg inside]

/-- As many turns as the range has bytes are enough. -/
theorem spansWithin_eq (layout : StorageLayout) (start len turns : Nat) (enough : len ≤ turns) :
    spansWithin layout start len turns = some (layout.spansForRange start len) := by
  rw [spansWithin, StorageLayout.spansForRange]
  by_cases blank : len = 0
  · rw [if_pos blank, if_pos blank]
  · have short := saturatingAdd_le start len
    rw [if_neg blank, if_neg blank]
    dsimp only
    by_cases past : layout.totalSize < saturatingAdd start len
    · rw [if_pos past, if_pos past]
    · rw [if_neg past, if_neg past]
      exact spansTurns_eq layout _ turns len start (by omega) (by omega)

/-! ### The spans of a range -/

/-- A mapped range is joined by its spans, whatever the layout. -/
theorem spansLoop_joined (layout : StorageLayout) (stop fuel pos : Nat) (before : pos ≤ stop)
    (enough : stop - pos ≤ fuel) (spans : List IoSpan)
    (mapped : layout.spansLoop stop fuel pos = .ok spans) : Joined layout pos spans stop := by
  induction fuel generalizing pos spans with
  | zero =>
    cases mapped
    change pos = stop
    omega
  | succ fuel ih =>
    rw [StorageLayout.spansLoop] at mapped
    by_cases inside : pos < stop
    · rw [if_pos inside] at mapped
      split at mapped
      · cases mapped
      · rename_i file found
        dsimp only at mapped
        split at mapped
        · cases mapped
        · rename_i rest later
          cases mapped
          have member := List.mem_of_find?_eq_some found
          have bounds := (covers_iff pos file).1 (List.find?_some found)
          have room := endOffset_le file
          have tail := ih _ (by omega) (by omega) rest later
          refine ⟨⟨file, member, rfl, ?_, ?_⟩, ?_, tail⟩
          · dsimp only
            omega
          · dsimp only
            omega
          · dsimp only
            omega
    · rw [if_neg inside] at mapped
      cases mapped
      change pos = stop
      omega

theorem contiguous_small (layout : StorageLayout) (contiguous : Contiguous layout) :
    layout.totalSize < u64Max := by
  have short := contiguous.lengthRepresentable
  have few := contiguous.countRepresentable
  have product : layout.pieceCount * layout.pieceLength ≤ (2 ^ 32 - 1) * (2 ^ 32 - 1) :=
    Nat.mul_le_mul (by omega) (by omega)
  have covered := contiguous.covered
  rw [u64Max]
  omega

theorem placed_of_contiguous (layout : StorageLayout) (contiguous : Contiguous layout) :
    Placed layout where
  ordered := tiles_ordered 0 layout.totalSize layout.files contiguous.tiles
  representable := by
    have small := contiguous_small layout contiguous
    rw [u64Max] at small
    omega
  covered := by
    intro pos inside
    have small := contiguous_small layout contiguous
    obtain ⟨file, member, low, high⟩ :=
      tiles_covered 0 layout.totalSize layout.files contiguous.tiles pos (Nat.zero_le _) inside
    refine ⟨file, member, ?_⟩
    rw [covers_iff]
    exact ⟨low, lt_endOffset file pos high (by omega)⟩

/-- Below the largest offset the saturated end of a range decides whether it is inside. -/
theorem inside_iff (layout : StorageLayout) (small : layout.totalSize < u64Max) (start len : Nat)
    (some_byte : len ≠ 0) :
    Inside layout start len ↔ saturatingAdd start len ≤ layout.totalSize := by
  rw [saturatingAdd]
  constructor
  · intro inside
    have last := inside (start + len - 1) (by omega) (by omega)
    omega
  · intro within byte low high
    omega

/-- A range is an error just when it leaves the payload; otherwise its spans join up to it. -/
theorem spansForRange_cases (layout : StorageLayout) (contiguous : Contiguous layout)
    (start len : Nat) :
    (¬ Inside layout start len ∧ ∃ problem, layout.spansForRange start len = .error problem) ∨
    (Inside layout start len ∧
      ∃ spans, layout.spansForRange start len = .ok spans ∧ Joined layout start spans (start + len)) := by
  have small := contiguous_small layout contiguous
  rw [StorageLayout.spansForRange]
  by_cases blank : len = 0
  · subst blank
    rw [if_pos rfl]
    refine Or.inr ⟨?_, [], rfl, rfl⟩
    intro byte low high
    omega
  · rw [if_neg blank]
    dsimp only
    by_cases past : layout.totalSize < saturatingAdd start len
    · rw [if_pos past, inside_iff layout small start len blank]
      exact Or.inl ⟨by omega, _, rfl⟩
    · rw [if_neg past, inside_iff layout small start len blank]
      have stop : saturatingAdd start len = start + len := by
        rw [saturatingAdd] at past ⊢
        omega
      rw [stop] at past ⊢
      obtain ⟨spans, mapped⟩ := spansLoop_ok layout (placed_of_contiguous layout contiguous)
        (start + len) (by omega) len start
      exact Or.inr ⟨by omega, spans, mapped,
        spansLoop_joined layout (start + len) len start (by omega) (by omega) spans mapped⟩

/-! ### The ranges of the pieces -/

theorem pieceSize_ok (layout : StorageLayout) (index : Nat) (below : index < layout.pieceCount) :
    layout.pieceSize index =
      .ok (min (pieceOffset layout index + layout.pieceLength) layout.totalSize -
        pieceOffset layout index) := by
  have within : ¬ layout.pieceCount ≤ index := by omega
  rw [StorageLayout.pieceSize, if_neg within, pieceOffset]
  by_cases past : layout.totalSize ≤ index * layout.pieceLength
  · rw [if_pos past]
    have none_left : min (index * layout.pieceLength + layout.pieceLength) layout.totalSize -
        index * layout.pieceLength = 0 := by omega
    rw [none_left]
  · rw [if_neg past]

/-- A byte of the payload lies in the piece that its offset divides into, and in no other. -/
theorem inPiece_iff (layout : StorageLayout) (index byte : Nat) :
    InPiece layout index byte ↔ index < layout.pieceCount ∧ 0 < layout.pieceLength ∧
      byte < layout.totalSize ∧ byte / layout.pieceLength = index := by
  constructor
  · rintro ⟨size, sized, low, high⟩
    have below : index < layout.pieceCount := by
      by_contra past
      rw [StorageLayout.pieceSize, if_pos (by omega)] at sized
      cases sized
    rw [pieceSize_ok layout index below] at sized
    cases sized
    have positive : 0 < layout.pieceLength := by omega
    rw [pieceOffset] at low high
    refine ⟨below, positive, by omega, ?_⟩
    rw [Nat.div_eq_iff positive]
    omega
  · rintro ⟨below, positive, inside, divided⟩
    rw [Nat.div_eq_iff positive] at divided
    refine ⟨_, pieceSize_ok layout index below, ?_, ?_⟩
    · rw [pieceOffset]
      omega
    · rw [pieceOffset]
      omega

/-- The pieces that reach the end of the payload partition it. -/
theorem inPiece_unique (layout : StorageLayout)
    (covered : layout.totalSize ≤ layout.pieceCount * layout.pieceLength) (byte : Nat) :
    byte < layout.totalSize ↔ ∃! index, InPiece layout index byte := by
  constructor
  · intro inside
    have positive : 0 < layout.pieceLength := by
      by_contra zero
      rw [Nat.eq_zero_of_not_pos zero, Nat.mul_zero] at covered
      omega
    refine ⟨byte / layout.pieceLength, ?_, ?_⟩
    · refine (inPiece_iff layout _ byte).2 ⟨?_, positive, inside, rfl⟩
      rw [Nat.div_lt_iff_lt_mul positive]
      omega
    · intro other within
      exact ((inPiece_iff layout other byte).1 within).2.2.2.symm
  · rintro ⟨index, within, _⟩
    exact ((inPiece_iff layout index byte).1 within).2.2.1

/-- Spans tile every range. -/
theorem spans_tile_ranges (layout : StorageLayout) (contiguous : Contiguous layout) :
    (∀ start len,
      (∀ turns, len ≤ turns →
        spansWithin layout start len turns = some (layout.spansForRange start len)) ∧
      ((∃ problem, layout.spansForRange start len = .error problem) ↔ ¬ Inside layout start len) ∧
      (∀ spans, layout.spansForRange start len = .ok spans →
        Joined layout start spans (start + len))) ∧
    (∀ index, index < layout.pieceCount → ∃ size, layout.pieceSize index = .ok size) ∧
    (∀ byte, byte < layout.totalSize ↔ ∃! index, InPiece layout index byte) := by
  refine ⟨?_, ?_, inPiece_unique layout contiguous.covered⟩
  · intro start len
    refine ⟨spansWithin_eq layout start len, ?_⟩
    rcases spansForRange_cases layout contiguous start len with
      ⟨outside, problem, failed⟩ | ⟨inside, spans, mapped, joined⟩
    · rw [failed]
      exact ⟨⟨fun _ => outside, fun _ => ⟨problem, rfl⟩⟩, fun _ impossible => nomatch impossible⟩
    · rw [mapped]
      refine ⟨⟨?_, fun outside => absurd inside outside⟩, ?_⟩
      · rintro ⟨problem, impossible⟩
        cases impossible
      · intro other same
        cases same
        exact joined
  · intro index below
    exact ⟨_, pieceSize_ok layout index below⟩

/-- Two files with an empty one between them, and a short last piece. -/
def threeFiles : StorageLayout where
  dataRoot := ["data"]
  pieceLength := 64
  pieceCount := 3
  totalSize := 150
  files := [⟨["a.bin"], 100, 0, 1⟩, ⟨["empty"], 0, 100, 1⟩, ⟨["b.bin"], 50, 100, 1⟩]

theorem threeFiles_contiguous : Contiguous threeFiles :=
  ⟨⟨rfl, rfl, rfl, rfl⟩, by decide, by decide, by decide⟩

example : threeFiles.spansForRange 64 64 =
    .ok [⟨["data", "a.bin"], 64, 36⟩, ⟨["data", "b.bin"], 0, 28⟩] := by decide

theorem spans_tile_threeFiles :
    (∃ problem, threeFiles.spansForRange 100 51 = .error problem) ∧
    ∃! index, InPiece threeFiles index 149 := by
  have tiled := spans_tile_ranges threeFiles threeFiles_contiguous
  refine ⟨?_, (tiled.2.2 149).1 (by decide)⟩
  refine (tiled.1 100 51).2.1.2 ?_
  intro inside
  exact absurd (inside 150 (by decide) (by decide)) (by decide)

end Seedchamp.Disk.Ranges
