import Seedchamp.Upload.InFlight
import Seedchamp.Disk.ReadWrite

/-!
A request is checked twice, when it arrives and when its block is filled. The two checks agree on every
block that the upload scratch has room for, and on no other.
-/

namespace Seedchamp.Upload.Service
open Crypto.PayloadCipher Disk.Spans Disk.Places Disk.ReadWrite Foundation.Files Upload.InFlight
open Wire.Messages

/-- Where the block begins in the torrent stream. -/
def blockOffset (layout : StorageLayout) (block : UploadBlock) : Nat :=
  block.index * layout.pieceLength + block.begin'

def notFound : IoError → Bool
  | .read _ _ .missing => true
  | _ => false

/-- What the disk answers to the fill of a block. Either backend reads every span in full, one after
another, into the part of the scratch behind the header. -/
def diskFill (volume : Volume PathBuf) (layout : StorageLayout) (block : UploadBlock)
    (scratch : Bytes) : Fill :=
  match readRange volume layout (blockOffset layout block) block.length
      ((scratch.drop PIECE_HEADER_LEN).take block.length) with
  | .ok filled => .read (fun k => filled.1.getD k 0)
  | .error problem => .failed (notFound problem) []

/-- The frame of a block on the wire, before the cipher. -/
def pieceFrame (block : UploadBlock) (payload : Bytes) : Bytes :=
  fillPieceHeader block.index block.begin' block.length ++ payload

/-- The disk has every byte of the piece. -/
def Possesses (layout : StorageLayout) (volume : Volume PathBuf) (index : Nat) : Prop :=
  ∃ bytes, layout.pieceSize index = .ok bytes.length ∧
    Holds layout volume (index * layout.pieceLength) bytes

/-- The fill passes its checks, and the scratch begins with the frame of exactly the block's bytes. -/
def Serves (layout : StorageLayout) (volume : Volume PathBuf) (block : UploadBlock)
    (rc4 : Option Rc4) (scratch : Bytes) : Prop :=
  ∃ inf payload, payload.length = block.length ∧
    Holds layout volume (blockOffset layout block) payload ∧
    inf.block = block ∧ inf.payload = block.length ∧ inf.sent = 0 ∧
    inf.total = (pieceFrame block payload).length ∧
    beginUpload layout block rc4 (diskFill volume layout block scratch) scratch =
      (.ok inf, (cryptOpt rc4 (pieceFrame block payload)).2,
        overwrite scratch (cryptOpt rc4 (pieceFrame block payload)).1)

theorem classify_accept (pieceCount pieceLen : Nat) (hasPiece peerInterested : Bool)
    (block : UploadBlock)
    (accepted : classifyUploadRequest pieceCount pieceLen hasPiece peerInterested block = .accept) :
    0 < block.length ∧ block.index < pieceCount ∧ block.begin' + block.length ≤ pieceLen ∧
      hasPiece = true := by
  unfold classifyUploadRequest at accepted
  split_ifs at accepted with length outside past idle
  simp only [not_or, Bool.not_eq_false] at length outside idle
  exact ⟨by omega, by omega, by omega, idle.2⟩

/-- A part of what the disk holds. -/
theorem holds_part (layout : StorageLayout) (volume : Volume PathBuf) (start : Nat) (bytes : Bytes)
    (held : Holds layout volume start bytes) (skip len : Nat) (inside : skip + len ≤ bytes.length) :
    Holds layout volume (start + skip) ((bytes.drop skip).take len) := by
  have front : (bytes.take skip).length = skip := List.length_take_of_le (by omega)
  rw [← List.take_append_drop skip bytes, holds_append, front] at held
  have back := held.2
  rw [← List.take_append_drop len (bytes.drop skip), holds_append] at back
  exact back.1

/-- The bytes that a successful read hands to the fill. -/
theorem range_getD (bytes : Bytes) :
    (List.range bytes.length).map (fun k => bytes.getD k 0) = bytes := by
  apply List.ext_getElem
  · rw [List.length_map, List.length_range]
  · intro k _ inside
    rw [List.getElem_map, List.getElem_range, List.getD_eq_getElem?_getD,
      List.getElem?_eq_getElem inside, Option.getD_some]

/-- The scratch has no room for a larger block. -/
theorem large_refused (layout : StorageLayout) (volume : Volume PathBuf) (block : UploadBlock)
    (rc4 : Option Rc4) (scratch : Bytes) (large : UPLOAD_BLOCK_LEN < block.length) :
    ¬ Serves layout volume block rc4 scratch := by
  rintro ⟨inf, payload, _, _, _, _, _, _, began⟩
  have refused : ∃ problem, uploadSpans layout block = .error problem := by
    unfold uploadSpans
    split
    · exact ⟨_, rfl⟩
    · split_ifs
      · exact ⟨_, rfl⟩
      · exact ⟨_, rfl⟩
      · exact ⟨_, rfl⟩
  obtain ⟨problem, refused⟩ := refused
  rw [beginUpload, refused] at began
  cases congrArg Prod.fst began

section
variable (layout : StorageLayout) (placed : Placed layout)
include placed

/-- A block of a piece on disk is read as it is. -/
theorem diskFill_read (volume : Volume PathBuf) (block : UploadBlock) (scratch payload : Bytes)
    (positive : 0 < block.length) (within : blockOffset layout block + block.length ≤ layout.totalSize)
    (room : PIECE_HEADER_LEN + block.length ≤ scratch.length) (sized : payload.length = block.length)
    (held : Holds layout volume (blockOffset layout block) payload) :
    diskFill volume layout block scratch = .read (fun k => payload.getD k 0) := by
  have space : ((scratch.drop PIECE_HEADER_LEN).take block.length).length = block.length := by
    rw [List.length_take, List.length_drop]
    omega
  have whole : put ((scratch.drop PIECE_HEADER_LEN).take block.length) 0 payload = payload :=
    put_whole _ _ (space.trans sized.symm)
  have read := (readRange_ok_iff layout placed volume (blockOffset layout block) block.length
    (fun _ => within) _ space.ge payload block.length).2 ⟨payload, sized, held, whole.symm, rfl⟩
  rw [diskFill, read]

theorem serves_of_small (volume : Volume PathBuf) (block : UploadBlock) (rc4 : Option Rc4)
    (scratch : Bytes) (room : scratch.length = UPLOAD_SCRATCH_LEN) (positive : 0 < block.length)
    (small : block.length ≤ UPLOAD_BLOCK_LEN) (bytes : Bytes)
    (sized : layout.pieceSize block.index = .ok bytes.length)
    (held : Holds layout volume (block.index * layout.pieceLength) bytes)
    (inside : block.begin' + block.length ≤ bytes.length) :
    Serves layout volume block rc4 scratch := by
  have within : blockOffset layout block + block.length ≤ layout.totalSize := by
    have piece := pieceSize_within layout block.index bytes.length sized (by omega)
    rw [blockOffset]
    omega
  have part := holds_part layout volume _ bytes held block.begin' block.length inside
  have counted : ((bytes.drop block.begin').take block.length).length = block.length := by
    rw [List.length_take, List.length_drop]
    omega
  have fits : PIECE_HEADER_LEN + block.length ≤ scratch.length := by
    rw [room, UPLOAD_SCRATCH_LEN]
    omega
  obtain ⟨spans, mapped, _, _⟩ := range_spans layout placed (blockOffset layout block) block.length
    (fun _ => within)
  have checks : uploadSpans layout block = .ok spans := by
    rw [uploadSpans, sized]
    dsimp only
    rw [if_neg (by omega), if_neg (by omega), if_neg (by omega)]
    exact mapped
  have filled := diskFill_read layout placed volume block scratch _ positive within fits counted part
  refine ⟨⟨block, rc4.isSome, 0, PIECE_HEADER_LEN + block.length, 0, block.length⟩,
    (bytes.drop block.begin').take block.length, counted, part, rfl, rfl, rfl, ?_, ?_⟩
  · rw [pieceFrame, List.length_append, fillPieceHeader_length, counted]
  · have payload := range_getD ((bytes.drop block.begin').take block.length)
    rw [counted] at payload
    rw [beginUpload, checks, filled]
    dsimp only
    rw [payload, pieceFrame, cryptOpt_append]

/-- An accepted request is served exactly when the upload scratch has room for its block. -/
theorem accepted_served_iff (volume : Volume PathBuf) (hasPiece peerInterested : Bool)
    (block : UploadBlock) (rc4 : Option Rc4) (scratch : Bytes)
    (room : scratch.length = UPLOAD_SCRATCH_LEN)
    (possessed : hasPiece = true → Possesses layout volume block.index)
    (accepted : classifyUploadRequest layout.pieceCount (layout.pieceBytes block.index) hasPiece
      peerInterested block = .accept) :
    Serves layout volume block rc4 scratch ↔ block.length ≤ UPLOAD_BLOCK_LEN := by
  obtain ⟨positive, _, inside, had⟩ := classify_accept _ _ _ _ block accepted
  obtain ⟨bytes, sized, held⟩ := possessed had
  rw [StorageLayout.pieceBytes, sized] at inside
  dsimp only at inside
  constructor
  · intro serves
    by_contra large
    exact large_refused layout volume block rc4 scratch (Nat.lt_of_not_le large) serves
  · intro small
    exact serves_of_small layout placed volume block rc4 scratch room positive small bytes sized held
      inside

end

/-- The file, full of one byte. -/
def fullFile (size : Nat) (byte : UInt8) : Volume PathBuf :=
  Function.update (fun _ => none) ["data", "a"] (some (List.replicate size byte))

theorem onePiece_placed (size : Nat) (positive : 0 < size) (small : size < 2 ^ 64) :
    Placed (onePiece size) := by
  apply placed_of_geometry
  exact ⟨positive, ⟨rfl, Nat.zero_add size⟩, small, (by decide : 1 < 2 ^ 32), (Nat.one_mul size).ge⟩

theorem fullFile_possessed (size : Nat) (byte : UInt8) (positive : 0 < size)
    (small : size < 2 ^ 64) : Possesses (onePiece size) (fullFile size byte) 0 := by
  have sized : (onePiece size).pieceSize 0 = .ok size := by
    have there : ¬ (onePiece size).pieceCount ≤ 0 := (by decide : ¬ 1 ≤ 0)
    have filled : ¬ (onePiece size).totalSize ≤ 0 * (onePiece size).pieceLength := by
      show ¬ size ≤ 0 * size
      omega
    have whole : min (0 * size + size) size - 0 * size = size := by omega
    rw [StorageLayout.pieceSize, if_neg there, if_neg filled]
    exact congrArg Except.ok whole
  refine ⟨List.replicate size byte, ?_, ?_⟩
  · rw [sized, List.length_replicate]
  · rw [Holds, Nat.zero_mul, List.length_replicate]
    apply List.ext_getElem
    · rw [List.length_map, List.length_map, List.length_replicate, List.length_range]
    · intro k inside _
      rw [List.length_map, List.length_replicate] at inside
      have place : placeAt (onePiece size) k = some (["data", "a"], k) := by
        rw [placeAt_of_covers (onePiece size) (onePiece_placed size positive small) k
          ⟨["a"], size, 0, 1⟩ (List.mem_singleton_self _)]
        · rfl
        · rw [covers_iff]
          exact ⟨Nat.zero_le k, lt_endOffset _ k (show k < 0 + size by omega)
            (show k < 2 ^ 64 - 1 by omega)⟩
      rw [List.getElem_map, List.getElem_replicate, List.getElem_map, List.getElem_range,
        Nat.zero_add, streamByte, place, Option.bind_some, byteAt, fullFile,
        Function.update_self, Option.bind_some, List.getElem?_replicate, if_pos inside]

theorem accepted_served_twoBytes :
    Serves (onePiece 3) (fullFile 3 7) ⟨0, 1, 2⟩ none (List.replicate UPLOAD_SCRATCH_LEN 0) :=
  (accepted_served_iff (onePiece 3) (onePiece_placed 3 (by decide) (by decide)) (fullFile 3 7) true true
    ⟨0, 1, 2⟩ none (List.replicate UPLOAD_SCRATCH_LEN 0) List.length_replicate
    (fun _ => fullFile_possessed 3 7 (by decide) (by decide)) (by decide)).2 (by decide)

/-- A block of one byte more than the scratch has room for is accepted and never served. -/
theorem large_block_dropped :
    ¬ ∀ layout volume hasPiece peerInterested block rc4 scratch, Placed layout →
      scratch.length = UPLOAD_SCRATCH_LEN →
      (hasPiece = true → Possesses layout volume block.index) →
      classifyUploadRequest layout.pieceCount (layout.pieceBytes block.index) hasPiece peerInterested
        block = .accept → Serves layout volume block rc4 scratch := by
  intro always
  have served := always (onePiece 16385) (fullFile 16385 0) true true ⟨0, 0, 16385⟩ none
    (List.replicate UPLOAD_SCRATCH_LEN 0) (onePiece_placed 16385 (by decide) (by decide))
    List.length_replicate (fun _ => fullFile_possessed 16385 0 (by decide) (by decide)) (by decide)
  exact large_refused _ _ _ _ _ (by decide) served

end Seedchamp.Upload.Service
