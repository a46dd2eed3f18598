import Seedchamp.Disk.Agreement
import Seedchamp.Runtime.DiskRings

/-!
The writes that the io_uring and the POSIX AIO threads issue for a piece, against the plain thread
that writes the piece at once.
-/

namespace Seedchamp.Runtime.DiskWrites
open Runtime.DiskJobs Runtime.DiskThreads Runtime.DiskRings Disk.Spans Disk.Places Disk.ReadWrite
open Disk.Agreement Foundation.Files Foundation.Machine

/-- The plain thread. -/
def writeJobSync (job : DiskWriteJob) (volume : Volume PathBuf) : Except IoError (Volume PathBuf) :=
  if job.data.length < job.plen then .error (.shortBuffer job.index job.data.length job.plen)
  else writePiece job.layout job.index (job.data.take job.plen) volume

/-- The files of the spans, opened for writing. -/
def openAll (spans : List IoSpan) (volume : Volume PathBuf) : Volume PathBuf :=
  spans.foldl (fun volume span => create volume span.path) volume

/-- What starting a piece does to the disk, where every call of the system succeeds: the files it
opens, and the writes it asks for. `accept` is what the thread checks of the spans, `width` how it
stores the length of a write. -/
def issue (accept : List IoSpan → Except WriteError Unit) (width : Nat → Nat) (job : DiskWriteJob)
    (volume : Volume PathBuf) : Volume PathBuf × Except WriteError (List WriteOp) :=
  if job.data.length < job.plen then
    (volume, .error (.shortBuffer job.index job.data.length job.plen))
  else
    match job.layout.spansForPiece job.index with
    | .error problem => (volume, .error (.layout problem))
    | .ok spans =>
      if spans.isEmpty then (volume, .ok [])
      else
        match accept spans with
        | .error problem => (volume, .error problem)
        | .ok () =>
          let sum := (spans.map IoSpan.length).sum
          (openAll spans volume,
            if sum ≠ job.plen then .error (.spanSum job.index sum job.plen)
            else .ok ((spanOps spans 0).map fun op => { op with length := width op.length }))

def Uring.issue (entries : Nat) (job : DiskWriteJob) :
    Volume PathBuf → Volume PathBuf × Except WriteError (List WriteOp) :=
  DiskWrites.issue
    (fun spans =>
      if entries < asU32 spans.length then .error (.tooManySpans job.index spans.length entries)
      else .ok ())
    asU32 job

def Aio.issue (job : DiskWriteJob) :
    Volume PathBuf → Volume PathBuf × Except WriteError (List WriteOp) :=
  DiskWrites.issue (fun _ => .ok ()) (fun n => n) job

/-- The writes are issued, and whatever order the kernel performs them in, the disk ends as `after`. -/
def Performs (job : DiskWriteJob) (issued : Volume PathBuf × Except WriteError (List WriteOp))
    (after : Volume PathBuf) : Prop :=
  ∃ ops, issued.2 = .ok ops ∧
    ∀ order : List WriteOp, order.Perm ops → order.foldl (WriteOp.apply job.data) issued.1 = after

/-- Nothing is issued, and no byte changes. -/
def Refuses (issued : Volume PathBuf × Except WriteError (List WriteOp)) (volume : Volume PathBuf) :
    Prop :=
  (∀ ops, issued.2 = .ok ops → ops = []) ∧ ∀ place, byteAt issued.1 place = byteAt volume place

/-! ### The writes of a span loop in any order -/

def opPlaces (op : WriteOp) : List Place := places ⟨op.path, op.fileOffset, op.length⟩

theorem spanOps_places (spans : List IoSpan) (off : Nat) :
    (spanOps spans off).flatMap opPlaces = spans.flatMap places := by
  induction spans generalizing off with
  | nil => rfl
  | cons span rest ih =>
    rw [spanOps, List.flatMap_cons, List.flatMap_cons, ih]
    rfl

theorem spanOps_within (spans : List IoSpan) (off : Nat) (op : WriteOp)
    (member : op ∈ spanOps spans off) :
    op.dataOff + op.length ≤ off + (spans.flatMap places).length := by
  rw [places_length]
  induction spans generalizing off with
  | nil => cases member
  | cons span rest ih =>
    rw [List.map_cons, List.sum_cons]
    rcases List.mem_cons.1 member with same | later
    · subst same
      dsimp only
      omega
    · have bound := ih _ later
      omega

/-- Two different writes of a span loop can be swapped. -/
theorem apply_comm (data : List UInt8) (first second : WriteOp) (volume : Volume PathBuf)
    (first_inside : first.dataOff + first.length ≤ data.length)
    (second_inside : second.dataOff + second.length ≤ data.length)
    (first_sized : 0 < first.length) (second_sized : 0 < second.length)
    (apart : (opPlaces first).Disjoint (opPlaces second)) :
    second.apply data (first.apply data volume) = first.apply data (second.apply data volume) := by
  have first_width : ((data.drop first.dataOff).take first.length).length = first.length := by
    rw [List.length_take, List.length_drop]
    omega
  have second_width : ((data.drop second.dataOff).take second.length).length = second.length := by
    rw [List.length_take, List.length_drop]
    omega
  apply writeAt_comm
  rw [first_width, second_width]
  by_contra overlap
  rw [not_or, not_or, not_not] at overlap
  obtain ⟨named, before, after⟩ := overlap
  have shared : (first.path, max first.fileOffset second.fileOffset) ∈ opPlaces first := by
    rw [opPlaces, mem_places]
    dsimp only
    exact ⟨rfl, by omega, by omega⟩
  apply apart shared
  rw [opPlaces, mem_places]
  dsimp only
  exact ⟨named, by omega, by omega⟩

theorem spanOps_order (data : List UInt8) (spans : List IoSpan)
    (room : (spans.flatMap places).length ≤ data.length)
    (sized : ∀ span ∈ spans, 0 < span.length) (different : (spans.flatMap places).Nodup)
    (order : List WriteOp) (reordered : order.Perm (spanOps spans 0)) (volume : Volume PathBuf) :
    order.foldl (WriteOp.apply data) volume = (spanOps spans 0).foldl (WriteOp.apply data) volume := by
  apply reordered.foldl_eq'
  rw [← spanOps_places spans 0] at different
  have apart := (List.nodup_flatMap.1 different).2
  have facts : ∀ op ∈ spanOps spans 0, 0 < op.length ∧ op.dataOff + op.length ≤ data.length := by
    intro op member
    obtain ⟨span, found, _, _, length⟩ := spanOps_path spans 0 op member
    have within := spanOps_within spans 0 op member
    have some_ := sized span found
    exact ⟨by omega, by omega⟩
  have swap : ∀ first ∈ spanOps spans 0, ∀ second ∈ spanOps spans 0,
      first = second ∨ (opPlaces first).Disjoint (opPlaces second) := by
    have itself : ∀ op ∈ spanOps spans 0, op = op ∨ (opPlaces op).Disjoint (opPlaces op) :=
      fun op _ => Or.inl rfl
    have pairs : (spanOps spans 0).Pairwise
        (fun first second => first = second ∨ (opPlaces first).Disjoint (opPlaces second)) :=
      apart.imp (fun clear => Or.inr clear)
    have flipped : (spanOps spans 0).Pairwise
        (flip fun first second => first = second ∨ (opPlaces first).Disjoint (opPlaces second)) :=
      apart.imp (fun clear => Or.inr clear.symm)
    intro first member second other
    exact List.Pairwise.forall_of_forall_of_flip itself pairs flipped member other
  intro first first_order second second_order next
  have member := reordered.mem_iff.1 first_order
  have other := reordered.mem_iff.1 second_order
  obtain ⟨first_sized, first_inside⟩ := facts first member
  obtain ⟨second_sized, second_inside⟩ := facts second other
  rcases swap first member second other with same | clear
  · rw [same]
  · exact apply_comm data first second next first_inside second_inside first_sized second_sized clear

/-- Opening the files first changes nothing: a write opens its own file. -/
theorem byteAt_openAll (spans : List IoSpan) (volume : Volume PathBuf) (place : Place) :
    byteAt (openAll spans volume) place = byteAt volume place := by
  rw [openAll]
  induction spans generalizing volume with
  | nil => rfl
  | cons span rest ih => rw [List.foldl_cons, ih, byteAt_create]

theorem openAll_isSome (spans : List IoSpan) (volume : Volume PathBuf) (name : PathBuf) :
    (openAll spans volume name).isSome =
      ((spans.map IoSpan.path).contains name || (volume name).isSome) := by
  rw [openAll]
  induction spans generalizing volume with
  | nil => rfl
  | cons span rest ih =>
    rw [List.foldl_cons, ih, create_isSome, List.map_cons, List.contains_cons, beq_eq_decide,
      Bool.or_left_comm, Bool.or_assoc]

theorem foldl_apply_isSome (data : List UInt8) (ops : List WriteOp) (volume : Volume PathBuf)
    (name : PathBuf) :
    (ops.foldl (WriteOp.apply data) volume name).isSome =
      ((ops.map WriteOp.path).contains name || (volume name).isSome) := by
  induction ops generalizing volume with
  | nil => rfl
  | cons op rest ih =>
    rw [List.foldl_cons, ih, WriteOp.apply, writeAt_isSome, List.map_cons, List.contains_cons,
      beq_eq_decide, Bool.or_left_comm, Bool.or_assoc]

theorem foldl_apply_congr (data : List UInt8) (ops : List WriteOp) (first second : Volume PathBuf)
    (same : ∀ place, byteAt first place = byteAt second place) (place : Place) :
    byteAt (ops.foldl (WriteOp.apply data) first) place =
      byteAt (ops.foldl (WriteOp.apply data) second) place := by
  induction ops generalizing first second with
  | nil => exact same place
  | cons op rest ih =>
    rw [List.foldl_cons, List.foldl_cons]
    apply ih
    intro other
    rw [WriteOp.apply, WriteOp.apply, byteAt_writeAt, byteAt_writeAt, same]

theorem spanOps_paths (spans : List IoSpan) (off : Nat) :
    (spanOps spans off).map WriteOp.path = spans.map IoSpan.path := by
  induction spans generalizing off with
  | nil => rfl
  | cons span rest ih => rw [spanOps, List.map_cons, List.map_cons, ih]

theorem foldl_apply_openAll (data : List UInt8) (spans : List IoSpan) (volume : Volume PathBuf) :
    (spanOps spans 0).foldl (WriteOp.apply data) (openAll spans volume) =
      (spanOps spans 0).foldl (WriteOp.apply data) volume := by
  apply volume_ext
  · intro name
    rw [foldl_apply_isSome, foldl_apply_isSome, openAll_isSome, spanOps_paths, ← Bool.or_assoc,
      Bool.or_self]
  · intro place
    exact foldl_apply_congr data _ _ _ (byteAt_openAll spans volume) place

/-- The writes take from the buffer what they would take from its first `plen` bytes. -/
theorem foldl_apply_take (data : List UInt8) (plen : Nat) (ops : List WriteOp)
    (inside : ∀ op ∈ ops, op.dataOff + op.length ≤ plen) (volume : Volume PathBuf) :
    ops.foldl (WriteOp.apply (data.take plen)) volume = ops.foldl (WriteOp.apply data) volume := by
  induction ops generalizing volume with
  | nil => rfl
  | cons op rest ih =>
    have here := inside op List.mem_cons_self
    have same : op.apply (data.take plen) volume = op.apply data volume := by
      rw [WriteOp.apply, WriteOp.apply, List.drop_take, List.take_take, Nat.min_eq_left (by omega)]
    rw [List.foldl_cons, List.foldl_cons, same]
    exact ih (fun other member => inside other (List.mem_cons_of_mem op member)) _

/-! ### The threads against the plain thread -/

section
variable (job : DiskWriteJob) (wellFormed : WellFormed job.layout)
include wellFormed

/-- What the plain thread writes, an issued piece writes too, in every order. -/
theorem issue_performs (accept : List IoSpan → Except WriteError Unit) (width : Nat → Nat)
    (exact_ : ∀ n, n < 2 ^ 32 → width n = n)
    (volume after : Volume PathBuf) (written : writeJobSync job volume = .ok after)
    (accepted : ∀ spans, job.layout.spansForPiece job.index = .ok spans → accept spans = .ok ()) :
    Performs job (issue accept width job volume) after := by
  rw [writeJobSync] at written
  split_ifs at written with short
  have taken : (job.data.take job.plen).length = job.plen := by
    rw [List.length_take]
    omega
  have sized : job.layout.pieceSize job.index = .ok (job.data.take job.plen).length := by
    by_contra wrong
    obtain ⟨problem, refused⟩ := writePiece_refused job.layout job.index _ volume wrong
    rw [written] at refused
    cases refused
  obtain ⟨spans, mapped, counted, different, last, folded, again, _⟩ :=
    writePiece_spec job.layout wellFormed job.index _ volume sized
  rw [written, Except.ok.injEq] at again
  rw [taken] at counted
  rw [taken] at sized
  have positive : ∀ span ∈ spans, 0 < span.length := by
    rw [StorageLayout.spansForPiece, sized] at mapped
    exact spansForRange_sized job.layout _ _ spans mapped
  have narrow : (spanOps spans 0).map (fun op => { op with length := width op.length }) =
      spanOps spans 0 := by
    calc (spanOps spans 0).map (fun op => { op with length := width op.length })
        = (spanOps spans 0).map (fun op => op) := by
          apply List.map_congr_left
          intro op member
          have within := spanOps_within spans 0 op member
          have fits := pieceSize_le job.layout job.index _ sized
          have limit := wellFormed.lengthRepresentable
          rw [exact_ op.length (by omega)]
      _ = spanOps spans 0 := List.map_id' _
  rw [issue, if_neg short, mapped]
  dsimp only
  by_cases blank : spans.isEmpty = true
  · rw [if_pos blank]
    rw [List.isEmpty_iff] at blank
    subst blank
    refine ⟨[], rfl, ?_⟩
    intro order reordered
    rw [reordered.eq_nil, again, folded]
    rfl
  · rw [if_neg blank, accepted spans mapped]
    dsimp only
    rw [← places_length, counted, if_neg (fun wrong => wrong rfl), narrow]
    refine ⟨_, rfl, ?_⟩
    intro order reordered
    dsimp only
    have room : (spans.flatMap places).length ≤ job.data.length := by omega
    rw [spanOps_order job.data spans room positive different order reordered, foldl_apply_openAll,
      again, folded, foldl_apply_take]
    intro op member
    have within := spanOps_within spans 0 op member
    omega

/-- What the plain thread refuses, no thread writes. -/
theorem issue_refuses (accept : List IoSpan → Except WriteError Unit) (width : Nat → Nat)
    (volume : Volume PathBuf) (problem : IoError)
    (refused : writeJobSync job volume = .error problem) :
    Refuses (issue accept width job volume) volume := by
  rw [writeJobSync] at refused
  rw [issue]
  split_ifs at refused ⊢ with short
  · exact ⟨nofun, fun place => rfl⟩
  · cases mapped : job.layout.spansForPiece job.index with
    | error problem => exact ⟨nofun, fun place => rfl⟩
    | ok spans =>
      dsimp only
      by_cases blank : spans.isEmpty = true
      · rw [if_pos blank]
        refine ⟨?_, fun place => rfl⟩
        intro ops issued
        cases issued
        rfl
      · rw [if_neg blank]
        cases accept spans with
        | error problem => exact ⟨nofun, fun place => rfl⟩
        | ok _ =>
          dsimp only
          refine ⟨?_, byteAt_openAll spans volume⟩
          intro ops issued
          split_ifs at issued with wrong
          rw [not_not] at wrong
          have taken : (job.data.take job.plen).length = job.plen := by
            rw [List.length_take]
            omega
          cases sized : job.layout.pieceSize job.index with
          | error problem =>
            rw [StorageLayout.spansForPiece, sized] at mapped
            cases mapped
          | ok plen =>
            have within := pieceSize_within job.layout job.index plen sized
            obtain ⟨found, same, _, listed⟩ := range_spans job.layout
              (placed_of_wellFormed job.layout wellFormed) _ plen within
            have counted := congrArg List.length listed
            rw [List.length_map, List.length_map, List.length_range, places_length] at counted
            rw [StorageLayout.spansForPiece, sized] at mapped
            dsimp only at mapped
            rw [same, Except.ok.injEq] at mapped
            subst mapped
            obtain ⟨_, _, _, _, after, _, written, _⟩ := writePiece_spec job.layout wellFormed
              job.index (job.data.take job.plen) volume (by rw [sized, taken, ← wrong, counted])
            rw [refused] at written
            cases written

theorem spans_few (spans : List IoSpan) (mapped : job.layout.spansForPiece job.index = .ok spans) :
    spans.length < 2 ^ 32 := by
  rw [StorageLayout.spansForPiece] at mapped
  cases sized : job.layout.pieceSize job.index with
  | error problem =>
    rw [sized] at mapped
    cases mapped
  | ok plen =>
    rw [sized] at mapped
    dsimp only at mapped
    have within := pieceSize_within job.layout job.index plen sized
    obtain ⟨found, same, positive, listed⟩ := range_spans job.layout
      (placed_of_wellFormed job.layout wellFormed) _ plen within
    rw [mapped, Except.ok.injEq] at same
    subst same
    have counted := congrArg List.length listed
    rw [List.length_map, List.length_map, List.length_range, places_length] at counted
    have fits := pieceSize_le job.layout job.index plen sized
    have limit := wellFormed.lengthRepresentable
    have many : spans.length ≤ (spans.map IoSpan.length).sum := by
      have each := List.length_le_sum_of_one_le (spans.map IoSpan.length) (by
        intro length member
        obtain ⟨span, found, same⟩ := List.mem_map.1 member
        rw [← same]
        exact positive span found)
      rw [List.length_map] at each
      exact each
    omega

end

/-- The io_uring thread of the worker starts a piece as `Uring.issue` tells. -/
theorem uring_startPiece_issue (job : DiskWriteJob) (wellFormed : WellFormed job.layout)
    (entries : Nat) (env : StartEnv) (token : Nat) (volume : Volume PathBuf) (opens : env.opens = true) :
    (Uring.startPiece entries env token job).2 =
      match (Uring.issue entries job volume).2 with
      | .error problem => .refused problem
      | .ok [] => .completed
      | .ok (op :: ops) => Uring.submitSpans env job ((op :: ops).map WriteOp.length) := by
  rw [Uring.startPiece, Uring.issue, DiskWrites.issue, opens]
  by_cases short : job.data.length < job.plen
  · rw [if_pos short, if_pos short]
  · rw [if_neg short, if_neg short]
    cases mapped : job.layout.spansForPiece job.index with
    | error problem => rfl
    | ok spans =>
      have few := asU32_of_lt spans.length (spans_few job wellFormed spans mapped)
      cases spans with
      | nil => rfl
      | cons span rest =>
        have lengths : ∀ (spans : List IoSpan) (off : Nat),
            ((spanOps spans off).map fun op => { op with length := asU32 op.length }).map
              WriteOp.length = spans.map (fun span => asU32 span.length) := by
          intro spans
          induction spans with
          | nil => exact fun _ => rfl
          | cons span rest ih =>
            intro off
            rw [spanOps, List.map_cons, List.map_cons, List.map_cons, ih]
        dsimp only [List.isEmpty_cons, Bool.false_eq_true, if_false]
        rw [few]
        by_cases crowded : entries < (span :: rest).length
        · rw [if_pos crowded, if_pos crowded]
          rfl
        · rw [if_neg crowded, if_neg crowded]
          dsimp only [Bool.not_true, Bool.false_eq_true, if_false]
          by_cases wrong : ((span :: rest).map IoSpan.length).sum ≠ job.plen
          · rw [if_pos wrong, if_pos wrong]
            rfl
          · rw [if_neg wrong, if_neg wrong, ← lengths (span :: rest) 0]
            rfl

/-- Write, read and hash agree on a layout. -/
structure PieceIo (layout : StorageLayout) : Prop where
  /-- A written piece, and any part of it, reads as the data written last. -/
  reads : ∀ writes volume index data, lastWrite layout writes index = some data →
    (∀ out, readPiece (recordAll layout writes volume) layout index out = .ok data) ∧
      ∀ begin' len buf, begin' + len ≤ data.length → len ≤ buf.length →
        readRange (recordAll layout writes volume) layout (index * layout.pieceLength + begin') len buf =
          .ok (put buf 0 ((data.drop begin').take len), len)
  /-- The bytes of pieces that were not written are kept, and so are the files of others. -/
  others : ∀ writes volume,
    (∀ pos, pos < layout.totalSize → lastWrite layout writes (pos / layout.pieceLength) = none →
      Kept (streamByte layout volume pos)
        (streamByte layout (recordAll layout writes volume) pos)) ∧
    ∀ name, (∀ file ∈ layout.files, name ≠ layout.absolute file.path) →
      recordAll layout writes volume name = volume name
  /-- The hash of a piece by windows is the digest of its bytes, and fails when reading it fails. -/
  hashed : ∀ (H : Type) (digest : Digest H) window, 0 < window → ∀ volume index hasher out,
    (∀ bytes, readPiece volume layout index out = .ok bytes →
      hashPieceWindowed digest window volume layout index hasher = .ok (digest.update hasher bytes)) ∧
    ∀ problem, readPiece volume layout index out = .error problem →
      ∃ other, hashPieceWindowed digest window volume layout index hasher = .error other
  /-- The writes that POSIX AIO issues are the write of the plain thread. -/
  aio : ∀ job volume, job.layout = layout →
    (∀ after, writeJobSync job volume = .ok after → Performs job (Aio.issue job volume) after) ∧
    ∀ problem, writeJobSync job volume = .error problem → Refuses (Aio.issue job volume) volume
  /-- So are those of io_uring, where the spans of the piece fit in the ring. -/
  uring : ∀ entries job volume spans, job.layout = layout →
    layout.spansForPiece job.index = .ok spans → spans.length ≤ entries →
    (∀ after, writeJobSync job volume = .ok after →
      Performs job (Uring.issue entries job volume) after) ∧
    ∀ problem, writeJobSync job volume = .error problem →
      Refuses (Uring.issue entries job volume) volume
  /-- A piece that does not fit is refused before its files are opened. -/
  crowded : ∀ entries job volume spans, job.layout = layout → job.plen ≤ job.data.length →
    layout.spansForPiece job.index = .ok spans → entries < spans.length →
    Uring.issue entries job volume =
      (volume, .error (.tooManySpans job.index spans.length entries))

/-- Every layout of the parser with distinct paths is read, written and hashed consistently. -/
theorem piece_io_agrees (layout : StorageLayout) (wellFormed : WellFormed layout) :
    PieceIo layout := by
  have placed := placed_of_wellFormed layout wellFormed
  constructor
  · intro writes volume index data last
    have recorded := recordAll_recorded layout wellFormed writes volume
    have sized := lastWrite_sized layout writes index data last
    have held := recorded.held index data last
    constructor
    · intro out
      exact (readPiece_ok_iff layout placed _ index out data).2 ⟨sized, held⟩
    · intro begin' len buf part room
      exact readRange_of_holds layout wellFormed _ index data sized held begin' len part buf room
  · intro writes volume
    have recorded := recordAll_recorded layout wellFormed writes volume
    exact ⟨recorded.kept, recorded.foreign⟩
  · intro H digest window positive volume index hasher out
    have hashes := hashPieceWindowed_ok_iff layout placed digest window positive volume index hasher
    constructor
    · intro bytes read
      exact (hashes _ out).2 ⟨bytes, read, rfl⟩
    · intro problem failed
      cases hashed : hashPieceWindowed digest window volume layout index hasher with
      | error other => exact ⟨other, rfl⟩
      | ok result =>
        obtain ⟨bytes, read, _⟩ := (hashes result out).1 hashed
        rw [failed] at read
        cases read
  · intro job volume same
    rw [← same] at wellFormed
    constructor
    · intro after written
      exact issue_performs job wellFormed _ _ (fun n _ => rfl) volume after written (fun _ _ => rfl)
    · exact issue_refuses job wellFormed _ _ volume
  · intro entries job volume spans same mapped fits
    rw [← same] at wellFormed mapped
    constructor
    · intro after written
      apply issue_performs job wellFormed _ _ asU32_of_lt volume after written
      intro others found
      rw [mapped, Except.ok.injEq] at found
      subst found
      rw [asU32_of_lt _ (spans_few job wellFormed spans mapped), if_neg (by omega)]
    · exact issue_refuses job wellFormed _ _ volume
  · intro entries job volume spans same long mapped many
    rw [← same] at wellFormed mapped
    have some_ : spans.isEmpty = false := by
      cases spans with
      | nil => cases many
      | cons span rest => rfl
    rw [Uring.issue, DiskWrites.issue, if_neg (by omega), mapped]
    dsimp only
    rw [if_neg (by rw [some_]; decide), asU32_of_lt _ (spans_few job wellFormed spans mapped),
      if_pos many]

/-- Two pieces over three files, one of them empty. -/
def threeFiles : StorageLayout :=
  ⟨["data"], 4, 2, 7, [⟨["a"], 3, 0, 1⟩, ⟨["b"], 0, 3, 1⟩, ⟨["c"], 4, 3, 1⟩]⟩

theorem threeFiles_wellFormed : WellFormed threeFiles where
  positive := by decide
  tiles := ⟨rfl, rfl, rfl, rfl⟩
  representable := by decide
  countRepresentable := by decide
  covered := by decide
  lengthRepresentable := by decide
  distinct := by decide

theorem piece_io_agrees_threeFiles : WellFormed threeFiles ∧ PieceIo threeFiles :=
  ⟨threeFiles_wellFormed, piece_io_agrees threeFiles threeFiles_wellFormed⟩

/-- One piece over seventeen files of one byte. -/
def seventeenFiles : StorageLayout :=
  ⟨["data"], 17, 1, 17, (List.range 17).map fun i => ⟨[toString i], 1, i, 1⟩⟩

theorem seventeenFiles_wellFormed : WellFormed seventeenFiles where
  positive := by decide
  tiles := ⟨rfl, rfl, rfl, rfl, rfl, rfl, rfl, rfl, rfl, rfl, rfl, rfl, rfl, rfl, rfl, rfl, rfl, rfl⟩
  representable := by decide
  countRepresentable := by decide
  covered := by decide
  lengthRepresentable := by decide
  distinct := by decide +kernel

def seventeenFilesJob : DiskWriteJob := ⟨0, 17, List.replicate 17 7, seventeenFiles, 0⟩

/-- With a ring for one piece in flight, the piece over seventeen files is written by the plain
thread and not by io_uring. -/
theorem ring_refuses_many_files :
    ¬ ∀ depth job volume after, WellFormed job.layout → writeJobSync job volume = .ok after →
      Performs job (Uring.issue (ringEntries depth) job volume) after := by
  intro always
  obtain ⟨_, _, _, _, after, _, written, _⟩ := writePiece_spec seventeenFiles
    seventeenFiles_wellFormed 0 (List.replicate 17 7) (fun _ => none) rfl
  have sync : writeJobSync seventeenFilesJob (fun _ => none) = .ok after := written
  obtain ⟨ops, issued, _⟩ :=
    always 1 seventeenFilesJob (fun _ => none) after seventeenFiles_wellFormed sync
  have refused : (Uring.issue (ringEntries 1) seventeenFilesJob (fun _ => none)).2 =
      .error (.tooManySpans 0 17 16) := by decide +kernel
  rw [refused] at issued
  cases issued

end Seedchamp.Runtime.DiskWrites
