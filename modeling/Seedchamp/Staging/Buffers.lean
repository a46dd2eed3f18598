import Seedchamp.Staging.Pool

/-!
The staging pools of many peers over one freelist, with a name on every buffer, so that a buffer can
be told from another with the same bytes.
-/

namespace Seedchamp.Staging.Buffers
open Disk.Spans Staging.PiecePool Staging.Pool

structure Held where
  id : Nat
  bytes : Buffer
  deriving DecidableEq, Repr

/-- The freelist of `PieceBufferPool`; `made` counts the buffers allocated so far. -/
structure SharedPool where
  pieceLength : Nat
  limitBytes : Nat
  capacity : Nat
  free : List Held
  outstanding : Nat
  made : Nat
  deriving DecidableEq, Repr

inductive HeldSlot where
  | assembling (piece : ActivePiece) (buf : Held)
  | hashing (index : Nat)
  deriving DecidableEq

namespace SharedPool

def new (pieceLength limitBytes : Nat) : SharedPool where
  pieceLength := max pieceLength 1
  limitBytes := effectiveLimit limitBytes
  capacity := bufferCountForLimit (max pieceLength 1) (effectiveLimit limitBytes)
  free := []
  outstanding := 0
  made := 0

def tryAcquire (pool : SharedPool) : Option (Held × SharedPool) :=
  match pool.free with
  | buf :: rest =>
    some ({ buf with bytes := resize buf.bytes pool.pieceLength },
      { pool with free := rest, outstanding := pool.outstanding + 1 })
  | [] =>
    if pool.capacity ≤ pool.outstanding then none
    else
      some (⟨pool.made, List.replicate pool.pieceLength 0⟩,
        { pool with outstanding := pool.outstanding + 1, made := pool.made + 1 })

def donate (pool : SharedPool) (buf : Held) : SharedPool :=
  if pool.free.length + pool.outstanding < pool.capacity then
    { pool with free := { buf with bytes := resize buf.bytes pool.pieceLength } :: pool.free }
  else pool

def detach (pool : SharedPool) : SharedPool := { pool with outstanding := pool.outstanding - 1 }

def release (pool : SharedPool) (buf : Held) : SharedPool := pool.detach.donate buf

/-- The freelist without the names. -/
def plain (pool : SharedPool) : PieceBufferPool :=
  ⟨pool.pieceLength, pool.limitBytes, pool.capacity, pool.free.map Held.bytes, pool.outstanding⟩

end SharedPool

namespace HeldSlot

/-- The slot without the names. -/
def plain : HeldSlot → Slot
  | assembling piece buf => .assembling piece buf.bytes
  | hashing index => .hashing index

/-- The buffer that an assembling slot holds. -/
def held : HeldSlot → List Held
  | assembling _ buf => [buf]
  | hashing _ => []

def piece (index : Nat) : HeldSlot → Option (ActivePiece × Held)
  | assembling piece buf => if piece.index = index then some (piece, buf) else none
  | hashing _ => none

end HeldSlot

/-- What a session is doing with its pool: nothing, `clear`, or `Drop`, which clears as well. -/
inductive Phase where
  | running
  | clearing
  | dropping
  | gone
  deriving DecidableEq, Repr

/-- A staging pool of one peer. -/
structure Peer where
  slots : List HeldSlot
  pieceLength : Nat
  maxBlocks : Nat
  phase : Phase
  deriving DecidableEq

namespace Peer

def fromPool (pool : SharedPool) : Peer := ⟨[], pool.pieceLength, numBlocks pool.pieceLength, .running⟩

def plain (peer : Peer) (name : Nat) : StagingPool :=
  ⟨peer.slots.map HeldSlot.plain, peer.pieceLength, peer.maxBlocks, some name⟩

def held (peer : Peer) : List Held := peer.slots.flatMap HeldSlot.held

def findAssembling (peer : Peer) (index : Nat) : Option (ActivePiece × Held) :=
  peer.slots.findSome? (HeldSlot.piece index)

def replaceFirst (index : Nat) (slot : HeldSlot) : List HeldSlot → List HeldSlot
  | [] => []
  | first :: rest =>
    if first.plain.assembles index then slot :: rest else first :: replaceFirst index slot rest

def tryStart (peer : Peer) (pool : SharedPool) (index length : Nat) : Bool × Peer × SharedPool :=
  if peer.slots.any (fun slot => slot.plain.holds index) then (true, peer, pool)
  else if length = 0 ∨ peer.pieceLength < length then (false, peer, pool)
  else
    match pool.tryAcquire with
    | none => (false, peer, pool)
    | some (buf, pool) =>
      (true, { peer with
        slots := peer.slots ++ [.assembling (ActivePiece.open' index length peer.maxBlocks) buf] }, pool)

def ingestIfStaged (peer : Peer) (index begin' : Nat) (data : Buffer) :
    Except Error (Option (Bool × Peer)) :=
  match peer.findAssembling index with
  | none => .ok none
  | some (piece, buf) =>
    match piece.ingest buf.bytes begin' data with
    | .error problem => .error problem
    | .ok (piece, bytes, complete) =>
      .ok (some (complete,
        { peer with
          slots := replaceFirst index (.assembling piece { buf with bytes := bytes }) peer.slots }))

/-- What happens to the pieces alone: requests, rejects, timeouts and the endgame. -/
def mapPieces (peer : Peer) (update : ActivePiece → ActivePiece) : Peer :=
  { peer with
    slots := peer.slots.map fun slot =>
      match slot with
      | .assembling piece buf => .assembling (update piece) buf
      | .hashing index => .hashing index }

def takeForHash (peer : Peer) (pool : SharedPool) (index : Nat) : Option (Held × Peer × SharedPool) :=
  match peer.slots.findIdx? (fun slot => slot.plain.assembles index), peer.findAssembling index with
  | some position, some (_, buf) =>
    some (buf, { peer with slots := swapRemove peer.slots position ++ [.hashing index] }, pool.detach)
  | _, _ => none

def reclaim (peer : Peer) (pool : SharedPool) (index : Nat) (data : Held) : Peer × SharedPool :=
  ({ peer with slots := peer.slots.filter (fun slot => slot != .hashing index) }, pool.donate data)

/-- The first buffer that is left to `clear`, and the slots without it. -/
def firstHeld : List HeldSlot → Option (Held × List HeldSlot)
  | [] => none
  | .assembling _ buf :: rest => some (buf, rest)
  | .hashing index :: rest =>
    (firstHeld rest).map fun found => (found.1, .hashing index :: found.2)

/-- One turn of the loop of `clear`. The freelist is locked for each buffer alone. -/
def clearNext (peer : Peer) (pool : SharedPool) : Option (Peer × SharedPool) :=
  (firstHeld peer.slots).map fun found => ({ peer with slots := found.2 }, pool.release found.1)

/-- The loop of `clear` with nobody in between. -/
def clearLoop : Nat → Peer → SharedPool → Peer × SharedPool
  | 0, peer, pool => (peer, pool)
  | turns + 1, peer, pool =>
    match peer.clearNext pool with
    | none => (peer, pool)
    | some (peer, pool) => clearLoop turns peer pool

end Peer

/-! ### Without the names this is the staging pool -/

theorem tryAcquire_plain (pool : SharedPool) :
    pool.plain.tryAcquire = pool.tryAcquire.map fun taken => (taken.1.bytes, taken.2.plain) := by
  obtain ⟨pieceLength, limitBytes, capacity, free, outstanding, made⟩ := pool
  cases free with
  | cons buf rest => rfl
  | nil =>
    rw [SharedPool.plain, PieceBufferPool.tryAcquire, SharedPool.tryAcquire]
    dsimp only [List.map_nil]
    split_ifs <;> rfl

theorem donate_plain (pool : SharedPool) (buf : Held) :
    (pool.donate buf).plain = pool.plain.donate buf.bytes := by
  rw [SharedPool.donate, PieceBufferPool.donate]
  have counted : pool.plain.free.length = pool.free.length := List.length_map _
  rw [counted]
  change _ = if pool.free.length + pool.outstanding < pool.capacity then _ else _
  split_ifs <;> rfl

theorem release_plain (pool : SharedPool) (buf : Held) :
    (pool.release buf).plain = pool.plain.release buf.bytes := by
  rw [SharedPool.release, donate_plain]
  rfl

theorem piece_plain (index : Nat) (slot : HeldSlot) :
    slot.plain.piece index = (slot.piece index).map fun found => (found.1, found.2.bytes) := by
  cases slot with
  | assembling piece buf =>
    rw [HeldSlot.plain, Slot.piece, HeldSlot.piece]
    split_ifs <;> rfl
  | hashing other => rfl

theorem findAssembling_plain (peer : Peer) (name index : Nat) :
    (peer.plain name).findAssembling index =
      (peer.findAssembling index).map fun found => (found.1, found.2.bytes) := by
  rw [StagingPool.findAssembling, Peer.findAssembling, Peer.plain]
  generalize peer.slots = slots
  induction slots with
  | nil => rfl
  | cons first rest ih =>
    rw [List.map_cons, List.findSome?_cons, List.findSome?_cons, piece_plain, ih]
    cases first.piece index <;> rfl

theorem replaceFirst_plain (index : Nat) (slot : HeldSlot) (slots : List HeldSlot) :
    (Peer.replaceFirst index slot slots).map HeldSlot.plain =
      StagingPool.replaceFirst index slot.plain (slots.map HeldSlot.plain) := by
  induction slots with
  | nil => rfl
  | cons first rest ih =>
    rw [Peer.replaceFirst, List.map_cons, StagingPool.replaceFirst]
    split_ifs
    · rfl
    · rw [List.map_cons, ih]

theorem tryStart_plain (peer : Peer) (pool : SharedPool) (name index length : Nat) :
    (peer.plain name).tryStart (some pool.plain) index length =
      ((peer.tryStart pool index length).1, (peer.tryStart pool index length).2.1.plain name,
        some (peer.tryStart pool index length).2.2.plain) := by
  have contains : (peer.plain name).contains index =
      peer.slots.any (fun slot => slot.plain.holds index) := List.any_map
  rw [StagingPool.tryStart, Peer.tryStart, contains, tryAcquire_plain]
  change (if _ then _ else if length = 0 ∨ peer.pieceLength < length then _ else _) = _
  split_ifs
  · rfl
  · rfl
  · cases pool.tryAcquire with
    | none => rfl
    | some taken =>
      dsimp only [Option.map_some, Peer.plain]
      rw [List.map_append]
      rfl

theorem ingestIfStaged_plain (peer : Peer) (name index begin' : Nat) (data : Buffer) :
    (peer.plain name).ingestIfStaged index begin' data =
      (peer.ingestIfStaged index begin' data).map
        (Option.map fun answer => (answer.1, answer.2.plain name)) := by
  rw [StagingPool.ingestIfStaged, Peer.ingestIfStaged, findAssembling_plain]
  cases peer.findAssembling index with
  | none => rfl
  | some found =>
    dsimp only [Option.map_some]
    cases ingested : found.1.ingest found.2.bytes begin' data with
    | error problem => rfl
    | ok answer =>
      dsimp only [Except.map, Option.map_some, StagingPool.withPiece, Peer.plain]
      rw [replaceFirst_plain]
      rfl

theorem swapRemove_plain (slots : List HeldSlot) (position : Nat) :
    (swapRemove slots position).map HeldSlot.plain = swapRemove (slots.map HeldSlot.plain) position := by
  rw [swapRemove, swapRemove, List.getLast?_map]
  cases slots.getLast? with
  | none => rfl
  | some last =>
    dsimp only [Option.map_some]
    rw [List.map_dropLast, List.map_set]

theorem takeForHash_plain (peer : Peer) (pool : SharedPool) (name index : Nat) :
    (peer.plain name).takeForHash (some pool.plain) index =
      (peer.takeForHash pool index).map
        fun taken => (taken.1.bytes, taken.2.1.plain name, some taken.2.2.plain) := by
  have position : (peer.plain name).slots.findIdx? (·.assembles index) =
      peer.slots.findIdx? (fun slot => slot.plain.assembles index) := List.findIdx?_map
  rw [StagingPool.takeForHash, Peer.takeForHash, position, findAssembling_plain]
  cases peer.slots.findIdx? (fun slot => slot.plain.assembles index) with
  | none => rfl
  | some position =>
    cases peer.findAssembling index with
    | none => rfl
    | some found =>
      dsimp only [Option.map_some, Peer.plain]
      rw [List.map_append, swapRemove_plain]
      rfl

theorem reclaim_plain (peer : Peer) (pool : SharedPool) (name index : Nat) (data : Held) :
    (peer.plain name).reclaim (some pool.plain) index data.bytes =
      ((peer.reclaim pool index data).1.plain name, some (peer.reclaim pool index data).2.plain) := by
  rw [StagingPool.reclaim, Peer.reclaim, Option.map_some, donate_plain]
  have slots : (peer.plain name).slots.filter (fun slot => slot != .hashing index) =
      (peer.slots.filter (fun slot => slot != .hashing index)).map HeldSlot.plain := by
    rw [Peer.plain, List.filter_map]
    congr 1
    apply List.filter_congr
    intro slot _
    cases slot with
    | assembling piece buf => rfl
    | hashing other =>
      rw [Bool.eq_iff_iff]
      simp [HeldSlot.plain]
  rw [slots]
  rfl

/-- Taking the first buffer away leaves the same buffers to release, in the same order. -/
theorem firstHeld_some (slots rest : List HeldSlot) (buf : Held)
    (found : Peer.firstHeld slots = some (buf, rest)) :
    slots.flatMap HeldSlot.held = buf :: rest.flatMap HeldSlot.held ∧
      slots.filter (fun slot => slot.held.isEmpty) = rest.filter (fun slot => slot.held.isEmpty) := by
  induction slots generalizing rest with
  | nil => cases found
  | cons first others ih =>
    cases first with
    | assembling piece own =>
      cases found
      exact ⟨rfl, rfl⟩
    | hashing index =>
      rw [Peer.firstHeld, Option.map_eq_some_iff] at found
      obtain ⟨⟨taken, left⟩, later, same⟩ := found
      cases same
      obtain ⟨listed, kept⟩ := ih left later
      constructor
      · rw [List.flatMap_cons, List.flatMap_cons, listed]
        rfl
      · rw [List.filter_cons, List.filter_cons, kept]

theorem firstHeld_none (slots : List HeldSlot) (none_ : Peer.firstHeld slots = none) :
    slots.flatMap HeldSlot.held = [] ∧ slots.filter (fun slot => slot.held.isEmpty) = slots := by
  induction slots with
  | nil => exact ⟨rfl, rfl⟩
  | cons first others ih =>
    cases first with
    | assembling piece own => cases none_
    | hashing index =>
      rw [Peer.firstHeld, Option.map_eq_none_iff] at none_
      obtain ⟨listed, kept⟩ := ih none_
      constructor
      · rw [List.flatMap_cons, listed]
        rfl
      · have hashed : (HeldSlot.hashing index).held.isEmpty = true := rfl
        rw [List.filter_cons, if_pos hashed, kept]

/-- The loop releases every buffer and keeps the pieces that are being hashed. -/
theorem clearLoop_spec (turns : Nat) (peer : Peer) (pool : SharedPool)
    (enough : peer.held.length ≤ turns) :
    peer.clearLoop turns pool =
      ({ peer with slots := peer.slots.filter (fun slot => slot.held.isEmpty) },
        peer.held.foldl SharedPool.release pool) := by
  induction turns generalizing peer pool with
  | zero =>
    have blank := List.length_eq_zero_iff.1 (Nat.le_zero.1 enough)
    have kept : peer.slots.filter (fun slot => slot.held.isEmpty) = peer.slots := by
      apply List.filter_eq_self.2
      intro slot member
      rw [Peer.held, List.flatMap_eq_nil_iff] at blank
      rw [blank slot member]
      rfl
    rw [Peer.clearLoop, blank, kept]
    rfl
  | succ turns ih =>
    rw [Peer.clearLoop, Peer.clearNext]
    cases found : Peer.firstHeld peer.slots with
    | none =>
      obtain ⟨listed, kept⟩ := firstHeld_none peer.slots found
      rw [Peer.held, listed, kept]
      rfl
    | some taken =>
      obtain ⟨buf, rest⟩ := taken
      obtain ⟨listed, kept⟩ := firstHeld_some peer.slots rest buf found
      have fewer : ({ peer with slots := rest } : Peer).held.length ≤ turns := by
        rw [Peer.held, listed, List.length_cons] at enough
        exact Nat.le_of_succ_le_succ enough
      dsimp only [Option.map_some]
      rw [ih { peer with slots := rest } (pool.release buf) fewer]
      simp only [Peer.held]
      rw [listed, kept, List.foldl_cons]

/-- A cleared slot gives its buffer back to the pool. -/
def releaseSlot (pool : PieceBufferPool) : Slot → PieceBufferPool
  | .assembling _ buf => pool.release buf
  | .hashing _ => pool

def isHashing : Slot → Bool
  | .assembling _ _ => false
  | .hashing _ => true

theorem foldl_releaseSlot_plain (slots : List HeldSlot) (pool : SharedPool) :
    (slots.map HeldSlot.plain).foldl releaseSlot pool.plain =
      ((slots.flatMap HeldSlot.held).foldl SharedPool.release pool).plain := by
  induction slots generalizing pool with
  | nil => rfl
  | cons first rest ih =>
    cases first with
    | assembling piece buf =>
      rw [List.map_cons, List.foldl_cons, List.flatMap_cons, List.foldl_append]
      dsimp only [HeldSlot.plain, HeldSlot.held, List.foldl_cons, List.foldl_nil, releaseSlot]
      rw [← release_plain]
      exact ih (pool.release buf)
    | hashing index => exact ih pool

theorem filter_isHashing_plain (slots : List HeldSlot) :
    (slots.map HeldSlot.plain).filter isHashing =
      (slots.filter (fun slot => slot.held.isEmpty)).map HeldSlot.plain := by
  rw [List.filter_map]
  congr 1
  apply List.filter_congr
  intro slot _
  cases slot <;> rfl

theorem clear_eq (staging : StagingPool) (shared : Option PieceBufferPool) :
    staging.clear shared =
      ({ staging with slots := staging.slots.filter isHashing },
        shared.map (fun pool => staging.slots.foldl releaseSlot pool)) := by
  unfold StagingPool.clear isHashing releaseSlot
  rfl

theorem clear_plain (peer : Peer) (pool : SharedPool) (name : Nat) :
    (peer.plain name).clear (some pool.plain) =
      ((peer.clearLoop peer.held.length pool).1.plain name,
        some (peer.clearLoop peer.held.length pool).2.plain) := by
  rw [clearLoop_spec _ peer pool le_rfl, clear_eq, Option.map_some]
  apply Prod.ext
  · exact congrArg (fun kept => (⟨kept, peer.pieceLength, peer.maxBlocks, some name⟩ : StagingPool))
      (filter_isHashing_plain peer.slots)
  · exact congrArg some (foldl_releaseSlot_plain peer.slots pool)

end Seedchamp.Staging.Buffers
