import Mathlib.Data.Nat.Digits.Lemmas

/-!
Decimal text of numbers as ASCII bytes, and reading it back.
-/

namespace Seedchamp.Foundation.Decimal

def digitByte (digit : Nat) : UInt8 := UInt8.ofNat (48 + digit)

def isDigit (byte : UInt8) : Bool := 48 ≤ byte && byte ≤ 57

/-- The digits of a number, most significant first. -/
def decimal (n : Nat) : List UInt8 :=
  if n = 0 then [digitByte 0] else (Nat.digits 10 n).reverse.map digitByte

/-- The value of a nonempty string of digits. -/
def readDigits (text : List UInt8) : Option Nat :=
  if text ≠ [] ∧ text.all isDigit = true then
    some (text.foldl (fun n byte => n * 10 + (byte.toNat - 48)) 0)
  else none

theorem digitByte_spec (digit : Nat) (small : digit < 10) :
    isDigit (digitByte digit) = true ∧ (digitByte digit).toNat - 48 = digit := by
  have value : (digitByte digit).toNat = 48 + digit := by
    rw [digitByte, UInt8.toNat_ofNat']
    omega
  constructor
  · rw [isDigit, Bool.and_eq_true, decide_eq_true_eq, decide_eq_true_eq, UInt8.le_iff_toNat_le,
      UInt8.le_iff_toNat_le, value]
    change 48 ≤ 48 + digit ∧ 48 + digit ≤ 57
    omega
  · omega

theorem decimal_ne_nil (n : Nat) : decimal n ≠ [] := by
  rw [decimal]
  split_ifs with zero
  · nofun
  · rw [Ne, List.map_eq_nil_iff, List.reverse_eq_nil_iff, Nat.digits_eq_nil_iff_eq_zero]
    exact zero

theorem decimal_length_le (n k : Nat) (some_ : 0 < k) (small : n < 10 ^ k) :
    (decimal n).length ≤ k := by
  rw [decimal]
  split_ifs
  · exact some_
  · rw [List.length_map, List.length_reverse]
    exact (Nat.digits_length_le_iff (by decide) n).2 small

theorem decimal_digits (n : Nat) (byte : UInt8) (listed : byte ∈ decimal n) : isDigit byte = true := by
  rw [decimal] at listed
  split_ifs at listed with zero
  · rw [List.mem_singleton] at listed
    rw [listed]
    rfl
  · obtain ⟨digit, member, same⟩ := List.mem_map.1 listed
    rw [List.mem_reverse] at member
    rw [← same]
    exact (digitByte_spec digit (Nat.digits_lt_base (by decide) member)).1

/-- Most significant first, digits are folded from the left. -/
theorem foldl_digits (digits : List Nat) (small : ∀ digit ∈ digits, digit < 10) :
    (digits.reverse.map digitByte).foldl (fun n byte => n * 10 + (byte.toNat - 48)) 0 =
      Nat.ofDigits 10 digits := by
  induction digits with
  | nil => rfl
  | cons digit rest ih =>
    have value := (digitByte_spec digit (small digit List.mem_cons_self)).2
    rw [List.reverse_cons, List.map_append, List.foldl_append,
      ih (fun other member => small other (List.mem_cons_of_mem _ member)), List.map_singleton,
      List.foldl_cons, List.foldl_nil, value, Nat.ofDigits_cons]
    omega

theorem readDigits_decimal (n : Nat) : readDigits (decimal n) = some n := by
  have digits : (decimal n).all isDigit = true := List.all_eq_true.2 (decimal_digits n)
  rw [readDigits, if_pos ⟨decimal_ne_nil n, digits⟩, decimal]
  split_ifs with zero
  · rw [zero]
    rfl
  · rw [foldl_digits _ (fun digit member => Nat.digits_lt_base (by decide) member),
      Nat.ofDigits_digits]

end Seedchamp.Foundation.Decimal
