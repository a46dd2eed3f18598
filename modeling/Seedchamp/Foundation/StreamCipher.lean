import Mathlib.Data.List.Basic

/-!
Stream ciphers: a generator state, one keystream byte at a time, and encryption as the keystream
XORed onto the data. Encrypting in pieces is encrypting the concatenation.
-/

namespace Seedchamp.Foundation.StreamCipher

variable {σ : Type} (next : σ → UInt8 × σ)

/-- The first bytes of the keystream. -/
def keystream (s : σ) : Nat → List UInt8
  | 0 => []
  | n + 1 => (next s).1 :: keystream (next s).2 n

/-- The generator after some bytes were drawn. -/
def advance (s : σ) : Nat → σ
  | 0 => s
  | n + 1 => advance (next s).2 n

/-- Encrypt the data and return the generator that continues the stream. -/
def crypt (s : σ) : List UInt8 → List UInt8 × σ
  | [] => ([], s)
  | byte :: rest =>
    let tail := crypt (next s).2 rest
    ((byte ^^^ (next s).1) :: tail.1, tail.2)

theorem crypt_append (s : σ) (first second : List UInt8) :
    crypt next s (first ++ second) =
      ((crypt next s first).1 ++ (crypt next (crypt next s first).2 second).1,
        (crypt next (crypt next s first).2 second).2) := by
  induction first generalizing s with
  | nil => rfl
  | cons byte rest ih =>
    rw [List.cons_append, crypt, ih]
    rfl

@[simp] theorem crypt_length (s : σ) (data : List UInt8) :
    (crypt next s data).1.length = data.length := by
  induction data generalizing s with
  | nil => rfl
  | cons byte rest ih =>
    simp only [crypt, List.length_cons, ih]

/-- The ciphertext is the keystream XORed onto the data, position by position. -/
theorem crypt_eq_zipWith (s : σ) (data : List UInt8) :
    (crypt next s data).1 =
      List.zipWith (fun byte key => byte ^^^ key) data (keystream next s data.length) := by
  induction data generalizing s with
  | nil => rfl
  | cons byte rest ih =>
    simp only [crypt, List.length_cons, keystream, List.zipWith_cons_cons, ih]

/-- Encryption draws exactly one keystream byte for each byte of data. -/
theorem crypt_state (s : σ) (data : List UInt8) :
    (crypt next s data).2 = advance next s data.length := by
  induction data generalizing s with
  | nil => rfl
  | cons byte rest ih =>
    simp only [crypt, List.length_cons, advance, ih]

/-- The first part of the data encrypts to the first part of the ciphertext. -/
theorem crypt_take (s : σ) (data : List UInt8) (n : Nat) :
    (crypt next s (data.take n)).1 = (crypt next s data).1.take n := by
  induction data generalizing s n with
  | nil =>
    rw [List.take_nil, crypt, List.take_nil]
  | cons byte rest ih =>
    cases n with
    | zero => rfl
    | succ n => simp only [List.take_succ_cons, crypt, ih]

/-- The keystream XORed twice gives the data back. -/
theorem crypt_crypt (s : σ) (data : List UInt8) : (crypt next s (crypt next s data).1).1 = data := by
  induction data generalizing s with
  | nil => rfl
  | cons byte rest ih =>
    simp only [crypt, ih, UInt8.xor_assoc, UInt8.xor_self, UInt8.xor_zero]

/-- What one step keeps, a stretch of the stream keeps. -/
theorem advance_invariant (inv : σ → Prop) (kept : ∀ s, inv s → inv (next s).2) (s : σ) (n : Nat)
    (start : inv s) : inv (advance next s n) := by
  induction n generalizing s with
  | zero => exact start
  | succ n ih => exact ih (next s).2 (kept s start)

end Seedchamp.Foundation.StreamCipher
