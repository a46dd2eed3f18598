import Seedchamp.Staging.Assembly
import Seedchamp.Staging.Conservation

/-!
What an operation of one connection does to the shared freelist: the buffers that the pool counts as out
change with the pieces that the connection assembles.
-/

namespace Seedchamp.Staging.Exchange
open Staging.PiecePool Staging.PiecePool.PieceBufferPool Staging.Pool Staging.Assembly

/-- The freelist and the buffers out stay within the capacity. -/
def Within (pool : PieceBufferPool) : Prop := pool.free.length + pool.outstanding ≤ pool.capacity

/-- A connection assembles `after` pieces instead of `before`, and the freelist accounts for it. -/
structure Exchanges (pool pool' : PieceBufferPool) (before after : Nat) : Prop where
  pieceLength : pool'.pieceLength = pool.pieceLength
  capacity : pool'.capacity = pool.capacity
  counted : pool'.outstanding + before = pool.outstanding + after
  within : Within pool'

theorem exchanges_refl (pool : PieceBufferPool) (n : Nat) (within : Within pool) : Exchanges pool pool n n :=
  ⟨rfl, rfl, rfl, within⟩

theorem tryAcquire_exchanges (pool pool' : PieceBufferPool) (buf : Buffer) (n : Nat) (within : Within pool)
    (acquired : pool.tryAcquire = some (buf, pool')) : Exchanges pool pool' n (n + 1) := by
  unfold Within at within
  unfold tryAcquire at acquired
  split at acquired
  · rename_i first rest free
    cases acquired
    rw [free, List.length_cons] at within
    refine ⟨rfl, rfl, ?_, ?_⟩
    · dsimp only
      omega
    · unfold Within
      dsimp only
      omega
  · rename_i free
    split_ifs at acquired with full
    cases acquired
    rw [free, List.length_nil] at within
    refine ⟨rfl, rfl, ?_, ?_⟩
    · dsimp only
      omega
    · unfold Within
      dsimp only
      rw [free, List.length_nil]
      omega

theorem donate_exchanges (pool : PieceBufferPool) (buf : Buffer) (n : Nat) (within : Within pool) :
    Exchanges pool (pool.donate buf) n n := by
  unfold donate
  split_ifs with room
  · refine ⟨rfl, rfl, rfl, ?_⟩
    unfold Within
    dsimp only
    rw [List.length_cons]
    omega
  · exact exchanges_refl pool n within

theorem detach_exchanges (pool : PieceBufferPool) (n : Nat) (within : Within pool)
    (out : n + 1 ≤ pool.outstanding) : Exchanges pool pool.detach (n + 1) n := by
  unfold Within at within
  refine ⟨rfl, rfl, ?_, ?_⟩
  · rw [detach]
    dsimp only
    omega
  · unfold Within
    rw [detach]
    dsimp only
    omega

theorem release_exchanges (pool : PieceBufferPool) (buf : Buffer) (n : Nat) (within : Within pool)
    (out : n + 1 ≤ pool.outstanding) : Exchanges pool (pool.release buf) (n + 1) n := by
  have detached := detach_exchanges pool n within out
  have donated := donate_exchanges pool.detach buf n detached.within
  refine ⟨donated.pieceLength.trans detached.pieceLength, donated.capacity.trans detached.capacity, ?_,
    donated.within⟩
  have first := detached.counted
  have second := donated.counted
  rw [release]
  omega

/-! ### The operations of a connection -/

/-- With and without a freelist: without one a connection assembles nothing. -/
def Trades (shared shared' : Option PieceBufferPool) (before after : Nat) : Prop :=
  match shared, shared' with
  | some pool, some pool' => Within pool → before ≤ pool.outstanding → Exchanges pool pool' before after
  | none, none => before = 0 → after = 0
  | _, _ => False

theorem trades_refl (shared : Option PieceBufferPool) (n : Nat) : Trades shared shared n n := by
  cases shared with
  | none => exact id
  | some pool => exact fun within _ => exchanges_refl pool n within

theorem len_of_indices (staging staging' : StagingPool) (same : staging'.indices = staging.indices) :
    staging'.len = staging.len := congrArg List.length same

theorem tryStart_trades (staging : StagingPool) (shared : Option PieceBufferPool) (index length : Nat)
    (absent : staging.contains index = false) :
    Trades shared (staging.tryStart shared index length).2.2 staging.len
      (staging.tryStart shared index length).2.1.len := by
  unfold StagingPool.tryStart
  rw [absent, if_neg Bool.false_ne_true]
  split_ifs
  · exact trades_refl shared _
  · cases shared with
    | none => exact trades_refl none _
    | some pool =>
      cases acquired : pool.tryAcquire with
      | none =>
        dsimp only
        rw [acquired]
        exact trades_refl (some pool) _
      | some taken =>
        dsimp only
        rw [acquired]
        have more : (⟨staging.slots ++ [.assembling (ActivePiece.open' index length staging.maxBlocks)
            taken.1], staging.pieceLength, staging.maxBlocks, staging.pool⟩ : StagingPool).len =
            staging.len + 1 := by
          rw [StagingPool.len, StagingPool.len, indices_eq, indices_eq, List.filterMap_append, List.length_append]
          rfl
        intro within _
        rw [more]
        exact tryAcquire_exchanges pool taken.2 taken.1 staging.len within acquired

theorem takeForHash_trades (staging staging' : StagingPool) (shared shared' : Option PieceBufferPool)
    (index : Nat) (data : Buffer) (taken : staging.takeForHash shared index = some (data, staging', shared')) :
    staging.len = staging'.len + 1 ∧ Trades shared shared' staging.len staging'.len := by
  unfold StagingPool.takeForHash at taken
  split at taken
  · rename_i position piece buf located found
    cases taken
    obtain ⟨inside, assembles⟩ := List.findIdx?_eq_some_iff_getElem.1 located
    have here : staging.slots[position]? = some staging.slots[position] := List.getElem?_eq_getElem inside
    have moved := (Conservation.swapRemove_perm staging.slots position _ here).filterMap slotIndex
    have gone : slotIndex staging.slots[position] = some index := (assembles_iff _ index).1 assembles.1
    have shorter : staging.len = (⟨swapRemove staging.slots position ++ [.hashing index], staging.pieceLength,
        staging.maxBlocks, staging.pool⟩ : StagingPool).len + 1 := by
      rw [StagingPool.len, StagingPool.len, indices_eq, indices_eq, moved.length_eq, List.filterMap_cons, gone,
        List.filterMap_append]
      dsimp only
      rw [List.length_cons, List.length_append]
      rfl
    refine ⟨shorter, ?_⟩
    rw [shorter]
    cases shared with
    | none =>
      intro none'
      cases none'
    | some pool => exact fun within out => detach_exchanges pool _ within out
  · cases taken

theorem reclaim_trades (staging : StagingPool) (shared : Option PieceBufferPool) (index n : Nat) (data : Buffer) :
    Trades shared (staging.reclaim shared index data).2 n n := by
  cases shared with
  | none => exact id
  | some pool => exact fun within _ => donate_exchanges pool data n within

/-- One turn of `clear` for each piece. -/
theorem foldl_release (slots : List Slot) (pool : PieceBufferPool) (within : Within pool)
    (out : (slots.filterMap slotIndex).length ≤ pool.outstanding) :
    Exchanges pool (slots.foldl (fun pool slot => match slot with
      | .assembling _ buf => pool.release buf
      | .hashing _ => pool) pool) (slots.filterMap slotIndex).length 0 := by
  induction slots generalizing pool with
  | nil => exact exchanges_refl pool 0 within
  | cons slot rest ih =>
    cases slot with
    | assembling piece buf =>
      rw [List.filterMap_cons, slotIndex] at out ⊢
      dsimp only at out ⊢
      rw [List.length_cons] at out ⊢
      have first := release_exchanges pool buf _ within out
      have counted := first.counted
      have later := ih (pool.release buf) first.within (by omega)
      refine ⟨later.pieceLength.trans first.pieceLength, later.capacity.trans first.capacity, ?_, later.within⟩
      have rest' := later.counted
      rw [List.foldl_cons]
      dsimp only
      omega
    | hashing index => exact ih pool within out

theorem clear_trades (staging : StagingPool) (shared : Option PieceBufferPool) :
    Trades shared (staging.clear shared).2 staging.len 0 := by
  cases shared with
  | none => exact fun _ => rfl
  | some pool => exact fun within out => foldl_release staging.slots pool within out

end Seedchamp.Staging.Exchange
