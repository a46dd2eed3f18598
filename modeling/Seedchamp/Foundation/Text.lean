import Mathlib.Data.List.Basic

/-!
Texts as lists of Unicode scalar values.
-/

namespace Seedchamp.Foundation.Text

/-- `char::is_whitespace`: the Unicode property `White_Space`. -/
def whiteSpace (c : Char) : Bool :=
  (0x09 ≤ c.toNat && c.toNat ≤ 0x0D) || c.toNat = 0x20 || c.toNat = 0x85 || c.toNat = 0xA0 ||
    c.toNat = 0x1680 || (0x2000 ≤ c.toNat && c.toNat ≤ 0x200A) || c.toNat = 0x2028 ||
    c.toNat = 0x2029 || c.toNat = 0x202F || c.toNat = 0x205F || c.toNat = 0x3000

/-- `str::trim`. -/
def trim (s : List Char) : List Char :=
  ((s.dropWhile whiteSpace).reverse.dropWhile whiteSpace).reverse

/-- `str::to_ascii_lowercase`. -/
def toAsciiLowercase (s : List Char) : List Char := s.map Char.toLower

end Seedchamp.Foundation.Text
