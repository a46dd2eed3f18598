import Mathlib.Algebra.Group.Nat.Defs
import Mathlib.Data.List.Basic
import Mathlib.Order.Basic

/-!
The shared freelist of piece-sized buffers of a torrent. Only the byte budget matters to its users:
how many buffers are out and how many wait on the freelist.
-/

namespace Seedchamp.Staging.PiecePool

/-- Default leech staging memory of a torrent, 256 MiB. -/
def DEFAULT_STAGING_MEM_LIMIT : Nat := 256 * 1024 * 1024
def MIN_PIECE_BUFFERS : Nat := 2
def MAX_PIECE_BUFFERS : Nat := 4096

/-- A configured limit of zero stands for the default. -/
def effectiveLimit (limitBytes : Nat) : Nat :=
  if limitBytes = 0 then DEFAULT_STAGING_MEM_LIMIT else limitBytes

/-- How many piece buffers fit in the limit. -/
def bufferCountForLimit (pieceLength limitBytes : Nat) : Nat :=
  let plen := max pieceLength 1
  let floor := min (plen * MIN_PIECE_BUFFERS) (2 ^ 64 - 1)
  let limit := max (effectiveLimit limitBytes) floor
  min (max (limit / plen) MIN_PIECE_BUFFERS) MAX_PIECE_BUFFERS

abbrev Buffer := List UInt8

structure PieceBufferPool where
  pieceLength : Nat
  limitBytes : Nat
  capacity : Nat
  free : List Buffer
  outstanding : Nat
  deriving DecidableEq, Repr

/-- `Vec::resize(len, 0)`. -/
def resize (buf : Buffer) (len : Nat) : Buffer :=
  buf.take len ++ List.replicate (len - buf.length) 0

namespace PieceBufferPool

def new (pieceLength limitBytes : Nat) : PieceBufferPool where
  pieceLength := max pieceLength 1
  limitBytes := effectiveLimit limitBytes
  capacity := bufferCountForLimit (max pieceLength 1) (effectiveLimit limitBytes)
  free := []
  outstanding := 0

/-- How many more `tryAcquire` calls can succeed right now. -/
def available (pool : PieceBufferPool) : Nat := pool.capacity - pool.outstanding

/-- Take a recycled buffer (the freelist is a stack), or allocate within the capacity. -/
def tryAcquire (pool : PieceBufferPool) : Option (Buffer × PieceBufferPool) :=
  match pool.free with
  | buf :: rest =>
    some (resize buf pool.pieceLength, { pool with free := rest, outstanding := pool.outstanding + 1 })
  | [] =>
    if pool.capacity ≤ pool.outstanding then none
    else some (List.replicate pool.pieceLength 0, { pool with outstanding := pool.outstanding + 1 })

/-- Recycle a buffer while the freelist and the buffers out stay within the capacity. -/
def donate (pool : PieceBufferPool) (buf : Buffer) : PieceBufferPool :=
  if pool.free.length + pool.outstanding < pool.capacity then
    { pool with free := resize buf pool.pieceLength :: pool.free }
  else pool

/-- The buffer leaves the budget with its piece; the caller keeps the bytes. -/
def detach (pool : PieceBufferPool) : PieceBufferPool :=
  { pool with outstanding := pool.outstanding - 1 }

def release (pool : PieceBufferPool) (buf : Buffer) : PieceBufferPool :=
  pool.detach.donate buf

end PieceBufferPool

end Seedchamp.Staging.PiecePool
