import Seedchamp.Foundation.Tally
import Mathlib.Data.List.Basic

/-!
The piece bitfield helpers of the catalog. Bit `i` is the most significant free bit first: it lives
in byte `i / 8` under the mask `1 << (7 - i % 8)`.
-/

namespace Seedchamp.Catalog.Bitfield
open Foundation.Tally

abbrev Bits := List UInt8

/-- `(piece_count as usize).div_ceil(8)`. -/
def bitfieldSizeBytes (pieceCount : Nat) : Nat := (pieceCount + 7) / 8

/-- The mask `1 << (7 - i % 8)` of a piece inside its byte. -/
def mask (index : Nat) : UInt8 := 1 <<< UInt8.ofNat (7 - index % 8)

def bitfieldGet (bits : Bits) (index : Nat) : Bool :=
  bits.getD (index / 8) 0 &&& mask index != 0

def bitfieldSet (bits : Bits) (index : Nat) : Bits :=
  if index / 8 < bits.length then
    bits.set (index / 8) (bits.getD (index / 8) 0 ||| mask index)
  else bits

def emptyBitfield (pieceCount : Nat) : Bits :=
  List.replicate (bitfieldSizeBytes pieceCount) 0

/-- Every bit of an existing piece set; the spare bits of the last byte stay clear. -/
def allSetBitfield (pieceCount : Nat) : Bits :=
  let bits := List.replicate (bitfieldSizeBytes pieceCount) (0xff : UInt8)
  if 0 < pieceCount ∧ pieceCount % 8 ≠ 0 then
    bits.set (bits.length - 1) (0xff <<< UInt8.ofNat (8 - pieceCount % 8))
  else bits

def countHaveBits (bits : Bits) (pieceCount : Nat) : Nat :=
  tally (bitfieldGet bits) pieceCount

theorem mask_ne_zero (index : Nat) : mask index ≠ 0 := by
  have byte : ∀ k : Fin 8, (1 : UInt8) <<< UInt8.ofNat (7 - k.val) ≠ 0 := by decide
  exact byte ⟨index % 8, Nat.mod_lt _ (by decide)⟩

theorem mask_disjoint (first second : Nat) (distinct : first % 8 ≠ second % 8) :
    mask first &&& mask second = 0 := by
  have byte : ∀ k l : Fin 8, k ≠ l →
      (1 : UInt8) <<< UInt8.ofNat (7 - k.val) &&& 1 <<< UInt8.ofNat (7 - l.val) = 0 := by decide
  exact byte ⟨first % 8, Nat.mod_lt _ (by decide)⟩ ⟨second % 8, Nat.mod_lt _ (by decide)⟩
    (fun same => distinct (congrArg Fin.val same))

theorem or_and_distrib (first second third : UInt8) :
    (first ||| second) &&& third = first &&& third ||| second &&& third :=
  UInt8.toBitVec_inj.1 BitVec.and_or_distrib_right

/-- The byte a lookup reads after one byte of the field was replaced. -/
theorem getD_set (bits : Bits) (position : Nat) (byte : UInt8) (read : Nat)
    (inside : position < bits.length) :
    (bits.set position byte).getD read 0 = if position = read then byte else bits.getD read 0 := by
  rw [List.getD_eq_getElem?_getD, List.getElem?_set, List.getD_eq_getElem?_getD]
  split_ifs <;> rfl

/-- A lookup behind the last byte answers `false`. -/
theorem bitfieldGet_beyond (bits : Bits) (index : Nat) (beyond : 8 * bits.length ≤ index) :
    bitfieldGet bits index = false := by
  rw [bitfieldGet, List.getD_eq_getElem?_getD, List.getElem?_eq_none (by omega), Option.getD_none,
    UInt8.zero_and, bne_self_eq_false]

@[simp] theorem bitfieldSet_length (bits : Bits) (index : Nat) :
    (bitfieldSet bits index).length = bits.length := by
  unfold bitfieldSet
  split_ifs <;> simp

theorem bitfieldGet_bitfieldSet_self (bits : Bits) (index : Nat) (inside : index / 8 < bits.length) :
    bitfieldGet (bitfieldSet bits index) index = true := by
  simp only [bitfieldGet, bitfieldSet, if_pos inside, getD_set bits _ _ _ inside, bne_iff_ne]
  rw [if_true, or_and_distrib, UInt8.and_self]
  intro clear
  exact mask_ne_zero index (UInt8.or_eq_zero_iff.1 clear).2

theorem bitfieldGet_bitfieldSet_other (bits : Bits) (index other : Nat) (distinct : other ≠ index) :
    bitfieldGet (bitfieldSet bits index) other = bitfieldGet bits other := by
  by_cases inside : index / 8 < bits.length
  · simp only [bitfieldGet, bitfieldSet, if_pos inside, getD_set bits _ _ _ inside]
    by_cases sameByte : index / 8 = other / 8
    · rw [if_pos sameByte, sameByte, or_and_distrib, mask_disjoint index other (by omega),
        UInt8.or_zero]
    · rw [if_neg sameByte]
  · simp only [bitfieldSet, if_neg inside]

theorem bitfieldSet_comm (bits : Bits) (first second : Nat) :
    bitfieldSet (bitfieldSet bits first) second = bitfieldSet (bitfieldSet bits second) first := by
  unfold bitfieldSet
  by_cases inside : first / 8 < bits.length
  · by_cases inside' : second / 8 < bits.length
    · rw [if_pos inside, if_pos inside', List.length_set, List.length_set, if_pos inside', if_pos inside,
        getD_set _ _ _ _ inside, getD_set _ _ _ _ inside']
      by_cases same : first / 8 = second / 8
      · rw [same, if_pos rfl, if_pos rfl, List.set_set, List.set_set, UInt8.or_assoc, UInt8.or_assoc,
          UInt8.or_comm (mask first)]
      · rw [if_neg same, if_neg (fun same' => same same'.symm), List.set_comm _ _ same]
    · rw [if_pos inside, if_neg inside', List.length_set, if_neg inside', if_pos inside]
  · rw [if_neg inside]
    by_cases inside' : second / 8 < bits.length
    · rw [if_pos inside', List.length_set, if_neg inside]
    · rw [if_neg inside', if_neg inside]

@[simp] theorem emptyBitfield_length (pieceCount : Nat) :
    (emptyBitfield pieceCount).length = bitfieldSizeBytes pieceCount := by
  simp [emptyBitfield]

@[simp] theorem bitfieldGet_emptyBitfield (pieceCount index : Nat) :
    bitfieldGet (emptyBitfield pieceCount) index = false := by
  have byte : (List.replicate (bitfieldSizeBytes pieceCount) (0 : UInt8)).getD (index / 8) 0 = 0 := by
    rw [List.getD_eq_getElem?_getD, List.getElem?_replicate]
    split_ifs <;> rfl
  simp only [bitfieldGet, emptyBitfield, byte, UInt8.zero_and, bne_self_eq_false]

@[simp] theorem allSetBitfield_length (pieceCount : Nat) :
    (allSetBitfield pieceCount).length = bitfieldSizeBytes pieceCount := by
  simp only [allSetBitfield]
  split_ifs <;> simp

theorem index_div_lt_size (index pieceCount : Nat) (below : index < pieceCount) :
    index / 8 < bitfieldSizeBytes pieceCount := by
  unfold bitfieldSizeBytes
  omega

/-- The complete bitfield answers `true` on every piece of the torrent. -/
theorem bitfieldGet_allSetBitfield (pieceCount index : Nat) (below : index < pieceCount) :
    bitfieldGet (allSetBitfield pieceCount) index = true := by
  have inside := index_div_lt_size index pieceCount below
  have full : ∀ k : Fin 8, (0xff : UInt8) &&& 1 <<< UInt8.ofNat (7 - k.val) ≠ 0 := by decide
  have short : ∀ rem k : Fin 8, k < rem →
      (0xff : UInt8) <<< UInt8.ofNat (8 - rem.val) &&& 1 <<< UInt8.ofNat (7 - k.val) ≠ 0 := by decide
  have bit : index % 8 < 8 := Nat.mod_lt _ (by decide)
  simp only [bitfieldGet, bne_iff_ne]
  by_cases tail : 0 < pieceCount ∧ pieceCount % 8 ≠ 0
  · have tailInside : bitfieldSizeBytes pieceCount - 1 <
        (List.replicate (bitfieldSizeBytes pieceCount) (0xff : UInt8)).length := by
      rw [List.length_replicate]
      omega
    simp only [allSetBitfield, if_pos tail, List.length_replicate, getD_set _ _ _ _ tailInside]
    by_cases last : bitfieldSizeBytes pieceCount - 1 = index / 8
    · have position : index % 8 < pieceCount % 8 := by
        unfold bitfieldSizeBytes at last
        omega
      rw [if_pos last]
      exact short ⟨pieceCount % 8, Nat.mod_lt _ (by decide)⟩ ⟨index % 8, bit⟩ position
    · rw [if_neg last, List.getD_eq_getElem?_getD, List.getElem?_replicate, if_pos inside]
      exact full ⟨index % 8, bit⟩
  · simp only [allSetBitfield, if_neg tail]
    rw [List.getD_eq_getElem?_getD, List.getElem?_replicate, if_pos inside]
    exact full ⟨index % 8, bit⟩

@[simp] theorem countHaveBits_emptyBitfield (pieceCount : Nat) :
    countHaveBits (emptyBitfield pieceCount) pieceCount = 0 :=
  (tally_eq_zero_iff _ _).2 (fun index _ => bitfieldGet_emptyBitfield pieceCount index)

@[simp] theorem countHaveBits_allSetBitfield (pieceCount : Nat) :
    countHaveBits (allSetBitfield pieceCount) pieceCount = pieceCount :=
  (tally_eq_bound_iff _ _).2 (bitfieldGet_allSetBitfield pieceCount)

/-- Setting a clear bit of an existing piece raises the population count by one. -/
theorem countHaveBits_bitfieldSet (bits : Bits) (pieceCount index : Nat) (below : index < pieceCount)
    (inside : index / 8 < bits.length) (fresh : bitfieldGet bits index = false) :
    countHaveBits (bitfieldSet bits index) pieceCount = countHaveBits bits pieceCount + 1 :=
  tally_mark _ _ pieceCount index below fresh (bitfieldGet_bitfieldSet_self bits index inside)
    (fun other _ distinct => bitfieldGet_bitfieldSet_other bits index other distinct)

end Seedchamp.Catalog.Bitfield
