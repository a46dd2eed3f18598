import Seedchamp.Disk.Places
import Seedchamp.Foundation.Files

/-!
Reading, writing and hashing pieces through the file spans of the layout.
-/

namespace Seedchamp.Disk.ReadWrite
open Disk.Spans Disk.Places Foundation.Files

inductive IoError where
  | layout (problem : Error)
  | pieceLength (index got expected : Nat)
  | bufferTooSmall
  | shortBuffer (index got plen : Nat)
  | read (path : PathBuf) (offset : Nat) (problem : ReadError)
  deriving DecidableEq, Repr

/-- A streaming hasher: hashing bytes in parts is hashing them at once. -/
structure Digest (H : Type) where
  update : H → List UInt8 → H
  empty : ∀ hasher, update hasher [] = hasher
  chained : ∀ hasher a b, update (update hasher a) b = update hasher (a ++ b)

/-- Put bytes into a buffer. -/
def put (buf : List UInt8) (offset : Nat) (bytes : List UInt8) : List UInt8 :=
  buf.take offset ++ bytes ++ buf.drop (offset + bytes.length)

def resize (buf : List UInt8) (len : Nat) : List UInt8 :=
  buf.take len ++ List.replicate (len - buf.length) 0

/-! ### Reads -/

def readSpan (volume : Volume PathBuf) (span : IoSpan) (buf : List UInt8) :
    Except IoError (List UInt8) :=
  if buf.length < span.length then .error .bufferTooSmall
  else
    match readAt volume span.path span.fileOffset span.length with
    | .error problem => .error (.read span.path span.fileOffset problem)
    | .ok bytes => .ok (put buf 0 bytes)

/-- The loop `for span in &spans` of the readers: the buffer, and how far it is filled. -/
def readSpans (volume : Volume PathBuf) :
    List IoSpan → Nat → List UInt8 → Except IoError (List UInt8 × Nat)
  | [], filled, buf => .ok (buf, filled)
  | span :: rest, filled, buf =>
    match readSpan volume span ((buf.drop filled).take span.length) with
    | .error problem => .error problem
    | .ok slice => readSpans volume rest (filled + span.length) (put buf filled slice)

/-- Read a full piece into `out`. -/
def readPiece (volume : Volume PathBuf) (layout : StorageLayout) (index : Nat) (out : List UInt8) :
    Except IoError (List UInt8) :=
  match layout.pieceSize index with
  | .error problem => .error (.layout problem)
  | .ok plen =>
    match layout.spansForPiece index with
    | .error problem => .error (.layout problem)
    | .ok spans =>
      match readSpans volume spans 0 (resize out plen) with
      | .error problem => .error problem
      | .ok filled => .ok filled.1

/-- Read a range of the stream into a buffer, as a window of a piece hash and the block of an upload
are read. -/
def readRange (volume : Volume PathBuf) (layout : StorageLayout) (start len : Nat)
    (buf : List UInt8) : Except IoError (List UInt8 × Nat) :=
  match layout.spansForRange start len with
  | .error problem => .error (.layout problem)
  | .ok spans => readSpans volume spans 0 buf

def HASH_READ_WINDOW : Nat := 256 * 1024

section
variable {H : Type} (digest : Digest H)

/-- The loop `while remaining > 0`. A turn takes at least one byte, so `remaining` turns are enough. -/
def hashWindows (volume : Volume PathBuf) (layout : StorageLayout) (window : Nat) :
    Nat → Nat → Nat → List UInt8 → H → Except IoError H
  | 0, _, _, _, hasher => .ok hasher
  | turns + 1, remaining, torrentOff, buf, hasher =>
    if 0 < remaining then
      let chunk := min remaining window
      match readRange volume layout torrentOff chunk buf with
      | .error problem => .error problem
      | .ok filled =>
        hashWindows volume layout window turns (remaining - chunk) (torrentOff + chunk) filled.1
          (digest.update hasher (filled.1.take filled.2))
    else .ok hasher

/-- Hash a piece by reads of `window` bytes. -/
def hashPieceWindowed (window : Nat) (volume : Volume PathBuf) (layout : StorageLayout) (index : Nat)
    (hasher : H) : Except IoError H :=
  match layout.pieceSize index with
  | .error problem => .error (.layout problem)
  | .ok plen =>
    if plen = 0 then .ok hasher
    else
      hashWindows digest volume layout window plen plen (index * layout.pieceLength)
        (List.replicate (max (min window plen) 1) 0) hasher

end

/-! ### Writes -/

def writeSpan (volume : Volume PathBuf) (span : IoSpan) (buf : List UInt8) :
    Except IoError (Volume PathBuf) :=
  if buf.length < span.length then .error .bufferTooSmall
  else .ok (writeAt volume span.path span.fileOffset (buf.take span.length))

def writeSpans (data : List UInt8) :
    List IoSpan → Nat → Volume PathBuf → Except IoError (Volume PathBuf)
  | [], _, volume => .ok volume
  | span :: rest, off, volume =>
    match writeSpan volume span ((data.drop off).take span.length) with
    | .error problem => .error problem
    | .ok volume => writeSpans data rest (off + span.length) volume

/-- Write a full verified piece to disk. -/
def writePiece (layout : StorageLayout) (index : Nat) (data : List UInt8) (volume : Volume PathBuf) :
    Except IoError (Volume PathBuf) :=
  match layout.pieceSize index with
  | .error problem => .error (.layout problem)
  | .ok plen =>
    if data.length ≠ plen then .error (.pieceLength index data.length plen)
    else
      match layout.spansForPiece index with
      | .error problem => .error (.layout problem)
      | .ok spans => writeSpans data spans 0 volume

/-- A layout of the parser whose files have different paths. -/
structure WellFormed (layout : StorageLayout) : Prop extends Geometry layout where
  lengthRepresentable : layout.pieceLength < 2 ^ 32
  distinct : layout.files.Pairwise fun a b => a.path ≠ b.path

/-- The byte of the stream at a position, where the disk has it. -/
def streamByte (layout : StorageLayout) (volume : Volume PathBuf) (pos : Nat) : Option UInt8 :=
  (placeAt layout pos).bind (byteAt volume)

/-- The disk holds these bytes of the stream from `start` on. -/
def Holds (layout : StorageLayout) (volume : Volume PathBuf) (start : Nat) (bytes : List UInt8) :
    Prop :=
  bytes.map some = (List.range bytes.length).map fun k => streamByte layout volume (start + k)

/-! ### Buffers -/

theorem put_length (buf : List UInt8) (offset : Nat) (bytes : List UInt8)
    (room : offset + bytes.length ≤ buf.length) : (put buf offset bytes).length = buf.length := by
  simp only [put, List.length_append, List.length_take, List.length_drop]
  omega

theorem put_whole (buf bytes : List UInt8) (room : buf.length = bytes.length) :
    put buf 0 bytes = bytes := by
  rw [put, List.take_zero, List.nil_append, List.drop_eq_nil_of_le (by omega), List.append_nil]

theorem put_nil (buf : List UInt8) (offset : Nat) : put buf offset [] = buf := by
  rw [put, List.append_nil, List.length_nil, Nat.add_zero, List.take_append_drop]

/-- Bytes put one after the other are put together. -/
theorem put_put (buf : List UInt8) (offset : Nat) (first second : List UInt8)
    (room : offset + first.length ≤ buf.length) :
    put (put buf offset first) (offset + first.length) second = put buf offset (first ++ second) := by
  have front : (buf.take offset ++ first).length = offset + first.length := by
    rw [List.length_append, List.length_take]
    omega
  rw [put, put, put, List.take_left' front, List.append_assoc (buf.take offset) first second,
    List.length_append, Nat.add_assoc, ← Nat.add_assoc offset first.length second.length, ← front,
    ← List.drop_drop, List.drop_left, List.drop_drop]

theorem resize_length (buf : List UInt8) (len : Nat) : (resize buf len).length = len := by
  rw [resize, List.length_append, List.length_take, List.length_replicate]
  omega

/-! ### What a span loop reads -/

theorem places_length (spans : List IoSpan) :
    (spans.flatMap places).length = (spans.map IoSpan.length).sum := by
  rw [List.length_flatMap]
  congr 1
  apply List.map_congr_left
  intro span _
  rw [places, List.length_map, List.length_range]

theorem readSpan_ok_iff (volume : Volume PathBuf) (span : IoSpan) (buf out : List UInt8)
    (sized : 0 < span.length) (room : buf.length = span.length) :
    readSpan volume span buf = .ok out ↔ out.map some = (places span).map (byteAt volume) := by
  have listed : (places span).map (byteAt volume) =
      (List.range span.length).map fun k => byteAt volume (span.path, span.fileOffset + k) := by
    rw [places, List.map_map]
    rfl
  rw [readSpan, if_neg (by omega), listed]
  have reads := readAt_ok_iff volume span.path span.fileOffset span.length
  cases taken : readAt volume span.path span.fileOffset span.length with
  | ok bytes =>
    obtain ⟨_, there⟩ := (reads bytes).1 taken
    have counted := congrArg List.length there
    rw [List.length_map, List.length_map, List.length_range] at counted
    dsimp only
    rw [put_whole buf bytes (by omega), Except.ok.injEq, ← there]
    constructor
    · intro same
      rw [same]
    · intro same
      exact ((Option.some_injective _).list_map same).symm
  | error problem =>
    constructor
    · nofun
    · intro there
      have first := congrArg (fun list => list[0]?) there
      have opened : (volume span.path).isSome = true := by
        rw [List.getElem?_map, List.getElem?_map, List.getElem?_range sized, Option.map_some] at first
        cases content : volume span.path with
        | some _ => rfl
        | none =>
          rw [byteAt, content] at first
          cases head : out[0]? with
          | none | some _ => rw [head] at first; cases first
      have read := (reads out).2 ⟨opened, there⟩
      rw [taken] at read
      cases read

/-- The loop succeeds just when every byte of the spans is there, and puts them into the buffer. -/
theorem readSpans_ok_iff (volume : Volume PathBuf) (spans : List IoSpan)
    (sized : ∀ span ∈ spans, 0 < span.length) (filled : Nat) (buf : List UInt8)
    (room : filled + (spans.flatMap places).length ≤ buf.length) (out : List UInt8) (stop : Nat) :
    readSpans volume spans filled buf = .ok (out, stop) ↔
      ∃ bytes : List UInt8, bytes.map some = (spans.flatMap places).map (byteAt volume) ∧
        out = put buf filled bytes ∧ stop = filled + bytes.length := by
  induction spans generalizing filled buf with
  | nil =>
    rw [readSpans, Except.ok.injEq, Prod.mk.injEq]
    constructor
    · intro same
      exact ⟨[], rfl, by rw [put_nil, same.1], same.2.symm⟩
    · intro ⟨bytes, there, filling, stopped⟩
      rw [List.flatMap_nil, List.map_nil, List.map_eq_nil_iff] at there
      subst there
      exact ⟨by rw [filling, put_nil], stopped.symm⟩
  | cons span rest ih =>
    have here := sized span List.mem_cons_self
    have later := fun next member => sized next (List.mem_cons_of_mem span member)
    rw [List.flatMap_cons, List.length_append] at room
    have wide : (places span).length = span.length := by
      rw [places, List.length_map, List.length_range]
    have exact_ : ((buf.drop filled).take span.length).length = span.length := by
      rw [List.length_take, List.length_drop]
      omega
    rw [readSpans, List.flatMap_cons, List.map_append]
    cases slice : readSpan volume span ((buf.drop filled).take span.length) with
    | error problem =>
      constructor
      · nofun
      · intro ⟨bytes, there, _⟩
        obtain ⟨front, back, _, first, _⟩ := List.map_eq_append_iff.1 there
        have read := (readSpan_ok_iff volume span _ front here exact_).2 first
        rw [slice] at read
        cases read
    | ok front =>
      have first := (readSpan_ok_iff volume span _ front here exact_).1 slice
      have counted := congrArg List.length first
      rw [List.length_map, List.length_map, wide] at counted
      have inside : filled + front.length ≤ buf.length := by omega
      dsimp only
      rw [ih later _ (put buf filled front) (by rw [put_length buf filled front inside]; omega)]
      constructor
      · intro ⟨back, there, filling, stopped⟩
        refine ⟨front ++ back, ?_, ?_, ?_⟩
        · rw [List.map_append, first, there]
        · rw [filling, ← counted, put_put buf filled front back inside]
        · rw [stopped, List.length_append]
          omega
      · intro ⟨bytes, there, filling, stopped⟩
        obtain ⟨same, back, split, start, finish⟩ := List.map_eq_append_iff.1 there
        have equal : same = front := by
          rw [← first] at start
          exact (Option.some_injective _).list_map start
        subst equal
        refine ⟨back, finish, ?_, ?_⟩
        · rw [filling, split, ← counted, put_put buf filled same back inside]
        · rw [stopped, split, List.length_append]
          omega

/-! ### Ranges of the stream -/

theorem spansLoop_sized (layout : StorageLayout) (stop fuel pos : Nat) (spans : List IoSpan)
    (mapped : layout.spansLoop stop fuel pos = .ok spans) : ∀ span ∈ spans, 0 < span.length := by
  induction fuel generalizing pos spans with
  | zero =>
    cases mapped
    nofun
  | succ fuel ih =>
    rw [StorageLayout.spansLoop] at mapped
    split_ifs at mapped with inside
    · split at mapped
      · cases mapped
      · rename_i file found
        dsimp only at mapped
        split at mapped
        · cases mapped
        · rename_i rest later
          cases mapped
          have covering : covers pos file = true := List.find?_some found
          have bounds := (covers_iff pos file).1 covering
          have room := endOffset_le file
          intro span member
          rcases List.mem_cons.1 member with same | tail
          · subst same
            dsimp only
            omega
          · exact ih _ rest later span tail
    · cases mapped
      nofun

theorem spansForRange_sized (layout : StorageLayout) (start len : Nat) (spans : List IoSpan)
    (mapped : layout.spansForRange start len = .ok spans) : ∀ span ∈ spans, 0 < span.length := by
  rw [StorageLayout.spansForRange] at mapped
  dsimp only at mapped
  split_ifs at mapped
  · cases mapped
    intro span member
    cases member
  · exact spansLoop_sized layout _ _ _ spans mapped

section
variable (layout : StorageLayout) (placed : Placed layout)
include placed

/-- The spans of a range: none is empty, and their places are those of the bytes of the range. -/
theorem range_spans (start len : Nat) (within : 0 < len → start + len ≤ layout.totalSize) :
    ∃ spans, layout.spansForRange start len = .ok spans ∧ (∀ span ∈ spans, 0 < span.length) ∧
      (spans.flatMap places).map some =
        (List.range len).map (fun k => placeAt layout (start + k)) := by
  rcases Nat.eq_zero_or_pos len with blank | some_
  · subst blank
    refine ⟨[], ?_, nofun, rfl⟩
    rw [StorageLayout.spansForRange, if_pos rfl]
  · obtain ⟨spans, mapped, listed⟩ := spansForRange_spec layout placed start len (within some_)
    exact ⟨spans, mapped, spansForRange_sized layout start len spans mapped, listed⟩

omit placed in
theorem stream_of_places (volume : Volume PathBuf) (taken : List Place) (start len : Nat)
    (listed : taken.map some = (List.range len).map (fun k => placeAt layout (start + k))) :
    taken.map (byteAt volume) = (List.range len).map fun k => streamByte layout volume (start + k) := by
  calc taken.map (byteAt volume)
      = (taken.map some).map (fun place => place.bind (byteAt volume)) := by
        rw [List.map_map]
        rfl
    _ = (List.range len).map fun k => streamByte layout volume (start + k) := by
        rw [listed, List.map_map]
        rfl

/-- A range is read just when the disk holds all of it. -/
theorem readRange_ok_iff (volume : Volume PathBuf) (start len : Nat)
    (within : 0 < len → start + len ≤ layout.totalSize) (buf : List UInt8) (room : len ≤ buf.length)
    (out : List UInt8) (stop : Nat) :
    readRange volume layout start len buf = .ok (out, stop) ↔
      ∃ bytes : List UInt8, bytes.length = len ∧ Holds layout volume start bytes ∧
        out = put buf 0 bytes ∧ stop = len := by
  obtain ⟨spans, mapped, sized, listed⟩ := range_spans layout placed start len within
  have wide : (spans.flatMap places).length = len := by
    have counted := congrArg List.length listed
    rw [List.length_map, List.length_map, List.length_range] at counted
    exact counted
  rw [readRange, mapped]
  dsimp only
  rw [readSpans_ok_iff volume spans sized 0 buf (by omega) out stop,
    stream_of_places layout volume _ start len listed]
  constructor
  · intro ⟨bytes, there, filling, stopped⟩
    have counted := congrArg List.length there
    rw [List.length_map, List.length_map, List.length_range] at counted
    refine ⟨bytes, counted, ?_, filling, by omega⟩
    rw [Holds, counted]
    exact there
  · intro ⟨bytes, counted, held, filling, stopped⟩
    rw [Holds, counted] at held
    exact ⟨bytes, held, filling, by omega⟩

end

theorem holds_append (layout : StorageLayout) (volume : Volume PathBuf) (start : Nat)
    (first second : List UInt8) :
    Holds layout volume start (first ++ second) ↔
      Holds layout volume start first ∧ Holds layout volume (start + first.length) second := by
  have shifted : (List.range second.length).map
      (fun k => streamByte layout volume (start + first.length + k)) =
        ((List.range second.length).map (first.length + ·)).map
          (fun k => streamByte layout volume (start + k)) := by
    rw [List.map_map]
    apply List.map_congr_left
    intro k _
    rw [Function.comp_apply, Nat.add_assoc]
  rw [Holds, Holds, Holds, List.map_append, List.length_append, List.range_add, List.map_append,
    shifted]
  constructor
  · intro both
    exact List.append_inj both (by simp only [List.length_map, List.length_range])
  · intro ⟨front, back⟩
    rw [front, back]

theorem holds_unique (layout : StorageLayout) (volume : Volume PathBuf) (start : Nat)
    (first second : List UInt8) (one : Holds layout volume start first)
    (other : Holds layout volume start second) (sized : first.length = second.length) :
    first = second := by
  rw [Holds, sized] at one
  rw [Holds, ← one] at other
  exact ((Option.some_injective _).list_map other).symm

theorem holds_getElem? (layout : StorageLayout) (volume : Volume PathBuf) (start : Nat)
    (bytes : List UInt8) (held : Holds layout volume start bytes) (k : Nat)
    (inside : k < bytes.length) : streamByte layout volume (start + k) = bytes[k]? := by
  have here := congrArg (fun list => list[k]?) held
  simp only [List.getElem?_map, List.getElem?_range inside, Option.map_some] at here
  rw [List.getElem?_eq_getElem inside, Option.map_some, Option.some.injEq] at here
  rw [← here, List.getElem?_eq_getElem inside]

/-- What the disk holds stays while its bytes are kept. -/
theorem holds_kept (layout : StorageLayout) (before after : Volume PathBuf) (start : Nat)
    (bytes : List UInt8) (held : Holds layout before start bytes)
    (kept : ∀ k, k < bytes.length →
      Kept (streamByte layout before (start + k)) (streamByte layout after (start + k))) :
    Holds layout after start bytes := by
  rw [Holds, held]
  apply List.map_congr_left
  intro k inside
  rw [List.mem_range] at inside
  have here := holds_getElem? layout before start bytes held k inside
  have stays := kept k inside
  rw [List.getElem?_eq_getElem inside] at here
  rw [here] at stays ⊢
  exact (kept_some _ _ stays).symm

/-! ### Pieces -/

theorem pieceSize_within (layout : StorageLayout) (index size : Nat)
    (sized : layout.pieceSize index = .ok size) (some_ : 0 < size) :
    index * layout.pieceLength + size ≤ layout.totalSize := by
  rw [StorageLayout.pieceSize] at sized
  split_ifs at sized
  · cases sized
    omega
  · cases sized
    omega

theorem pieceSize_le (layout : StorageLayout) (index size : Nat)
    (sized : layout.pieceSize index = .ok size) : size ≤ layout.pieceLength := by
  rw [StorageLayout.pieceSize] at sized
  split_ifs at sized
  · cases sized
    omega
  · cases sized
    omega

section
variable (layout : StorageLayout) (placed : Placed layout)
include placed

/-- Reading a piece gives what the disk holds of it. -/
theorem readPiece_ok_iff (volume : Volume PathBuf) (index : Nat) (out bytes : List UInt8) :
    readPiece volume layout index out = .ok bytes ↔
      layout.pieceSize index = .ok bytes.length ∧
        Holds layout volume (index * layout.pieceLength) bytes := by
  rw [readPiece, StorageLayout.spansForPiece]
  cases sized : layout.pieceSize index with
  | error problem =>
    constructor
    · nofun
    · nofun
  | ok plen =>
    have within := pieceSize_within layout index plen sized
    have reads := readRange_ok_iff layout placed volume (index * layout.pieceLength) plen within
      (resize out plen) (le_of_eq (resize_length out plen).symm)
    rw [readRange] at reads
    dsimp only
    cases mapped : layout.spansForRange (index * layout.pieceLength) plen with
    | error problem =>
      obtain ⟨spans, found, _⟩ := range_spans layout placed _ plen within
      rw [mapped] at found
      cases found
    | ok spans =>
      rw [mapped] at reads
      dsimp only at reads ⊢
      cases filled : readSpans volume spans 0 (resize out plen) with
      | error problem =>
        constructor
        · nofun
        · intro ⟨counted, held⟩
          rw [Except.ok.injEq] at counted
          have found := (reads _ _).2 ⟨bytes, counted.symm, held, rfl, rfl⟩
          rw [filled] at found
          cases found
      | ok read =>
        obtain ⟨taken, counted, held, filling, _⟩ := (reads read.1 read.2).1 filled
        have whole : read.1 = taken := by
          rw [filling, put_whole _ _ (by rw [resize_length, counted])]
        dsimp only
        rw [whole, Except.ok.injEq, Except.ok.injEq]
        constructor
        · intro same
          subst same
          exact ⟨counted.symm, held⟩
        · intro ⟨sized, there⟩
          exact holds_unique layout volume _ taken bytes held there (by omega)

/-- The windows of a piece hash absorb the bytes of the range they cover. -/
theorem hashWindows_ok_iff {H : Type} (digest : Digest H) (volume : Volume PathBuf) (window : Nat)
    (positive : 0 < window) (turns remaining : Nat) (enough : remaining ≤ turns) (start : Nat)
    (within : 0 < remaining → start + remaining ≤ layout.totalSize) (buf : List UInt8)
    (room : min remaining window ≤ buf.length) (hasher result : H) :
    hashWindows digest volume layout window turns remaining start buf hasher = .ok result ↔
      ∃ bytes : List UInt8, bytes.length = remaining ∧ Holds layout volume start bytes ∧
        result = digest.update hasher bytes := by
  induction turns generalizing remaining start buf hasher with
  | zero =>
    have done := Nat.le_zero.1 enough
    subst done
    rw [hashWindows, Except.ok.injEq]
    constructor
    · intro same
      exact ⟨[], rfl, rfl, by rw [digest.empty, same]⟩
    · intro ⟨bytes, blank, _, absorbed⟩
      rw [absorbed, List.length_eq_zero_iff.1 blank, digest.empty]
  | succ turns ih =>
    rw [hashWindows]
    by_cases left : 0 < remaining
    · rw [if_pos left]
      dsimp only
      have inside := within left
      generalize chunked : min remaining window = chunk at room ⊢
      have reads := readRange_ok_iff layout placed volume start chunk (by omega) buf room
      cases filled : readRange volume layout start chunk buf with
      | error problem =>
        constructor
        · nofun
        · intro ⟨bytes, counted, held, _⟩
          have front : (bytes.take chunk).length = chunk := by
            rw [List.length_take]
            omega
          rw [← List.take_append_drop chunk bytes, holds_append] at held
          have found := (reads _ _).2 ⟨bytes.take chunk, front, held.1, rfl, rfl⟩
          rw [filled] at found
          cases found
      | ok read =>
        obtain ⟨first, counted, held, filling, stopped⟩ := (reads read.1 read.2).1 filled
        have absorbed : read.1.take read.2 = first := by
          rw [filling, stopped, put, List.take_zero, List.nil_append]
          exact List.take_left' counted
        have kept : read.1.length = buf.length := by
          rw [filling, put_length buf 0 first (by omega)]
        dsimp only
        rw [absorbed, ih (remaining - chunk) (by omega) (start + chunk) (by omega) read.1 (by omega)]
        constructor
        · intro ⟨second, rest, there, result_⟩
          refine ⟨first ++ second, ?_, ?_, ?_⟩
          · rw [List.length_append]
            omega
          · rw [holds_append, counted]
            exact ⟨held, there⟩
          · rw [result_, digest.chained]
        · intro ⟨bytes, whole, there, result_⟩
          have front : (bytes.take chunk).length = chunk := by
            rw [List.length_take]
            omega
          rw [← List.take_append_drop chunk bytes, holds_append, front] at there
          have same := holds_unique layout volume start _ first there.1 held (by omega)
          refine ⟨bytes.drop chunk, ?_, there.2, ?_⟩
          · rw [List.length_drop, whole]
          · rw [result_, digest.chained, ← same, List.take_append_drop]
    · have done : remaining = 0 := by omega
      subst done
      rw [if_neg left, Except.ok.injEq]
      constructor
      · intro same
        exact ⟨[], rfl, rfl, by rw [digest.empty, same]⟩
      · intro ⟨bytes, blank, _, absorbed⟩
        rw [absorbed, List.length_eq_zero_iff.1 blank, digest.empty]

/-- A piece hash absorbs what reading the piece gives, for every window. -/
theorem hashPieceWindowed_ok_iff {H : Type} (digest : Digest H) (window : Nat) (positive : 0 < window)
    (volume : Volume PathBuf) (index : Nat) (hasher result : H) (out : List UInt8) :
    hashPieceWindowed digest window volume layout index hasher = .ok result ↔
      ∃ bytes, readPiece volume layout index out = .ok bytes ∧ result = digest.update hasher bytes := by
  have reads := readPiece_ok_iff layout placed volume index out
  rw [hashPieceWindowed]
  cases sized : layout.pieceSize index with
  | error problem =>
    constructor
    · nofun
    · intro ⟨bytes, read, _⟩
      have impossible := ((reads bytes).1 read).1
      rw [sized] at impossible
      cases impossible
  | ok plen =>
    have windows := hashWindows_ok_iff layout placed digest volume window positive plen plen le_rfl
      (index * layout.pieceLength) (pieceSize_within layout index plen sized)
      (List.replicate (max (min window plen) 1) 0) (by rw [List.length_replicate]; omega)
      hasher result
    have agree : (∃ bytes : List UInt8, bytes.length = plen ∧
        Holds layout volume (index * layout.pieceLength) bytes ∧ result = digest.update hasher bytes) ↔
        ∃ bytes, readPiece volume layout index out = .ok bytes ∧
          result = digest.update hasher bytes := by
      constructor
      · intro ⟨bytes, counted, held, absorbed⟩
        exact ⟨bytes, (reads bytes).2 ⟨by rw [sized, counted], held⟩, absorbed⟩
      · intro ⟨bytes, read, absorbed⟩
        obtain ⟨counted, held⟩ := (reads bytes).1 read
        rw [sized, Except.ok.injEq] at counted
        exact ⟨bytes, counted.symm, held, absorbed⟩
    rw [← agree, ← windows]
    dsimp only
    by_cases blank : plen = 0
    · subst blank
      rw [if_pos rfl]
      rfl
    · rw [if_neg blank]

end

end Seedchamp.Disk.ReadWrite
