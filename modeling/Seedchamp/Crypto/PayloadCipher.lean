import Seedchamp.Foundation.StreamCipher
import Mathlib.Data.Fin.Basic

/-!
RC4 as the payload cipher of an encrypted connection: the permutation, the two indices, and one
keystream byte per step.
-/

namespace Seedchamp.Crypto.PayloadCipher
open Foundation

/-- The index `n & 255` into the permutation. -/
def low (n : Nat) : Fin 256 := ⟨n % 256, Nat.mod_lt _ (by decide)⟩

structure Rc4 where
  s : Vector UInt8 256
  i : Fin 256
  j : Fin 256
  deriving DecidableEq

/-- One turn of the loop in `crypt_inplace`: the keystream byte and the moved generator. -/
def Rc4.next (rc4 : Rc4) : UInt8 × Rc4 :=
  let i := low (rc4.i.val + 1)
  let si := rc4.s.get i
  let j := low (rc4.j.val + si.toNat)
  let sj := rc4.s.get j
  let s := (rc4.s.set i sj).set j si
  (s.get (low (si.toNat + sj.toNat)), ⟨s, i, j⟩)

/-- Encrypt or decrypt in place. -/
def Rc4.cryptInplace (rc4 : Rc4) (data : List UInt8) : List UInt8 × Rc4 :=
  StreamCipher.crypt Rc4.next rc4 data

/-- The payload transform of a connection, which is RC4 or nothing. -/
def cryptOpt : Option Rc4 → List UInt8 → List UInt8 × Option Rc4
  | none, data => (data, none)
  | some rc4, data => ((rc4.cryptInplace data).1, some (rc4.cryptInplace data).2)

theorem cryptOpt_append (rc4 : Option Rc4) (first second : List UInt8) :
    cryptOpt rc4 (first ++ second) =
      ((cryptOpt rc4 first).1 ++ (cryptOpt (cryptOpt rc4 first).2 second).1,
        (cryptOpt (cryptOpt rc4 first).2 second).2) := by
  cases rc4 with
  | none => rfl
  | some rc4 => simp only [cryptOpt, Rc4.cryptInplace, StreamCipher.crypt_append]

@[simp] theorem cryptOpt_nil (rc4 : Option Rc4) : cryptOpt rc4 [] = ([], rc4) := by
  cases rc4 <;> rfl

@[simp] theorem cryptOpt_length (rc4 : Option Rc4) (data : List UInt8) :
    (cryptOpt rc4 data).1.length = data.length := by
  cases rc4 with
  | none => rfl
  | some rc4 => exact StreamCipher.crypt_length Rc4.next rc4 data

/-- The keystream XORed onto the data, or the data of a plain connection. -/
def wireBytes : Option Rc4 → List UInt8 → List UInt8
  | none, data => data
  | some rc4, data =>
    List.zipWith (fun byte key => byte ^^^ key) data
      (StreamCipher.keystream Rc4.next rc4 data.length)

/-- The cipher behind a number of stream bytes. -/
def moved (rc4 : Option Rc4) (n : Nat) : Option Rc4 :=
  rc4.map (fun rc4 => StreamCipher.advance Rc4.next rc4 n)

theorem cryptOpt_eq (rc4 : Option Rc4) (data : List UInt8) :
    cryptOpt rc4 data = (wireBytes rc4 data, moved rc4 data.length) := by
  cases rc4 with
  | none => rfl
  | some rc4 =>
    simp only [cryptOpt, Rc4.cryptInplace, wireBytes, moved, Option.map_some,
      StreamCipher.crypt_state, StreamCipher.crypt_eq_zipWith]

/-- A connection never changes between plain and encrypted. -/
theorem cryptOpt_isSome (rc4 : Option Rc4) (data : List UInt8) :
    (cryptOpt rc4 data).2.isSome = rc4.isSome := by
  cases rc4 <;> rfl

end Seedchamp.Crypto.PayloadCipher
