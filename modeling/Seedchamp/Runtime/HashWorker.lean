import Seedchamp.Catalog.RecheckRuns
import Seedchamp.Disk.Agreement

/-!
What a hash worker decides about a piece: the digest of its bytes, read from the files or handed over
by a session, is the stored one.
-/

namespace Seedchamp.Runtime.HashWorker
open Catalog.RecheckRuns Disk.Spans Disk.Places Disk.ReadWrite Foundation.Files

section
variable {H : Type} (digest : Digest H) (fresh : H) (finalize : H → List UInt8)

/-- The stored digest of a piece: twenty bytes of the blob. -/
def pieceHash (hashes : List UInt8) (index : Nat) : List UInt8 := (hashes.drop (index * 20)).take 20

/-- `handle_recheck`: the digest of a piece of the files against the stored one. -/
def handleRecheck (files : Volume PathBuf) (layout : StorageLayout) (hashes : List UInt8)
    (index : Nat) : RecheckPieceResult :=
  match hashPieceWindowed digest HASH_READ_WINDOW files layout index fresh with
  | .error _ => .missing index
  | .ok hasher => if finalize hasher = pieceHash hashes index then .good index else .bad index

/-- The digest of a downloaded piece against the stored one. -/
def verified (hashes : List UInt8) (index : Nat) (data : List UInt8) : Bool :=
  decide (finalize (digest.update fresh data) = pieceHash hashes index)

variable {digest fresh finalize}

/-- A piece is good when the disk holds bytes of its size that have the stored digest. -/
theorem handleRecheck_good_iff (files : Volume PathBuf) (layout : StorageLayout)
    (placed : Placed layout) (hashes : List UInt8) (index : Nat) :
    handleRecheck digest fresh finalize files layout hashes index = .good index ↔
      ∃ bytes, layout.pieceSize index = .ok bytes.length ∧
        Holds layout files (index * layout.pieceLength) bytes ∧
        verified digest fresh finalize hashes index bytes = true := by
  have hashed := hashPieceWindowed_ok_iff layout placed digest HASH_READ_WINDOW (by decide) files index
    fresh
  have reads := readPiece_ok_iff layout placed files index []
  rw [handleRecheck]
  cases ran : hashPieceWindowed digest HASH_READ_WINDOW files layout index fresh with
  | error problem =>
    constructor
    · intro clash
      cases clash
    · rintro ⟨bytes, sized, held, -⟩
      have found := (hashed (digest.update fresh bytes) []).2 ⟨bytes, (reads bytes).2 ⟨sized, held⟩, rfl⟩
      rw [ran] at found
      cases found
  | ok hasher =>
    dsimp only
    constructor
    · intro good
      obtain ⟨bytes, read, absorbed⟩ := (hashed hasher []).1 ran
      obtain ⟨sized, held⟩ := (reads bytes).1 read
      refine ⟨bytes, sized, held, ?_⟩
      rw [verified, ← absorbed, decide_eq_true_eq]
      by_contra wrong
      rw [if_neg wrong] at good
      cases good
    · rintro ⟨bytes, sized, held, same⟩
      have found := (hashed (digest.update fresh bytes) []).2 ⟨bytes, (reads bytes).2 ⟨sized, held⟩, rfl⟩
      rw [ran, Except.ok.injEq] at found
      rw [verified, decide_eq_true_eq, ← found] at same
      rw [if_pos same]

end

end Seedchamp.Runtime.HashWorker
