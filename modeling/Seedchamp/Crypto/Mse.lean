import Seedchamp.Crypto.PayloadCipher
import Seedchamp.Wire.Parse
import Seedchamp.Disk.Spans
import Mathlib.Data.Nat.Bits

/-!
Message stream encryption: the policy, the keys, and the messages of both sides with their parsers.
SHA-1 is a parameter.
-/

namespace Seedchamp.Crypto.Mse
open Foundation Crypto.PayloadCipher Wire.Messages Wire.Parse
open Disk.Spans (Error)

/-! ### Key setup -/

def swap (s : Vector UInt8 256) (i j : Fin 256) : Vector UInt8 256 := (s.set i (s.get j)).set j (s.get i)

namespace Rc4

/-- The key schedule. -/
def new (key : Bytes) : Rc4 :=
  let scheduled := (List.finRange 256).foldl (fun (t : Vector UInt8 256 × Fin 256) i =>
    let j := low (t.2.val + (t.1.get i).toNat + (key.getD (i.val % key.length) 0).toNat)
    (swap t.1 i j, j)) (Vector.ofFn (fun i : Fin 256 => UInt8.ofNat i.val), 0)
  ⟨scheduled.1, 0, 0⟩

def dropKeystream (rc4 : Rc4) (n : Nat) : Rc4 := StreamCipher.advance Rc4.next rc4 n

def newMse (key : Bytes) : Rc4 := dropKeystream (new key) 1024

end Rc4

abbrev Digest := { bytes : Bytes // bytes.length = 20 }

def salt (a b c d : Char) : Bytes := [a, b, c, d].map (fun ch => UInt8.ofNat ch.toNat)

section
variable (sha1 : Bytes → Digest)

def sha1Salt1 (salt key : Bytes) : Digest := sha1 (salt ++ key)

def sha1Salt2 (salt key1 key2 : Bytes) : Digest := sha1 (salt ++ key1 ++ key2)

def hashReq1 (secret : Bytes) : Digest := sha1Salt1 sha1 (salt 'r' 'e' 'q' '1') secret

def hashReq2 (skey : Bytes) : Digest := sha1Salt1 sha1 (salt 'r' 'e' 'q' '2') skey

def hashReq3 (secret : Bytes) : Digest := sha1Salt1 sha1 (salt 'r' 'e' 'q' '3') secret

def xorBytes (a b : Bytes) : Bytes := List.zipWith (fun x y => x ^^^ y) a b

def obfuscatedHash (secret skey : Bytes) : Bytes :=
  xorBytes (hashReq2 sha1 skey).1 (hashReq3 sha1 secret).1

def deobfuscateReq2 (secret obfuscated : Bytes) : Bytes := xorBytes obfuscated (hashReq3 sha1 secret).1

def rc4KeyA (secret skey : Bytes) : Rc4 :=
  Rc4.newMse (sha1Salt2 sha1 (salt 'k' 'e' 'y' 'A') secret skey).1

def rc4KeyB (secret skey : Bytes) : Rc4 :=
  Rc4.newMse (sha1Salt2 sha1 (salt 'k' 'e' 'y' 'B') secret skey).1

end

/-! ### Policy -/

inductive EncryptionMode where
  | off
  | preferPlain
  | preferRc4
  | requireRc4
  deriving DecidableEq, Repr

def CRYPTO_PLAIN : Nat := 1
def CRYPTO_RC4 : Nat := 2

namespace EncryptionMode

def cryptoProvideBits : EncryptionMode → Nat
  | off => CRYPTO_PLAIN
  | preferPlain => CRYPTO_PLAIN ||| CRYPTO_RC4
  | preferRc4 => CRYPTO_PLAIN ||| CRYPTO_RC4
  | requireRc4 => CRYPTO_RC4

def wantsPe : EncryptionMode → Bool
  | off => false
  | _ => true

def requiresRc4 : EncryptionMode → Bool
  | requireRc4 => true
  | _ => false

end EncryptionMode

def has (bits method : Nat) : Bool := bits &&& method ≠ 0

def selectCrypto (ourProvide peerProvide : Nat) (mode : EncryptionMode) : Option Nat :=
  let common := ourProvide &&& peerProvide
  if common = 0 then none
  else
    match mode with
    | .off => if has common CRYPTO_PLAIN then some CRYPTO_PLAIN else none
    | .preferPlain =>
      if has common CRYPTO_PLAIN then some CRYPTO_PLAIN
      else if has common CRYPTO_RC4 then some CRYPTO_RC4 else none
    | .preferRc4 =>
      if has common CRYPTO_RC4 then some CRYPTO_RC4
      else if has common CRYPTO_PLAIN then some CRYPTO_PLAIN else none
    | .requireRc4 => if has common CRYPTO_RC4 then some CRYPTO_RC4 else none

/-! ### Diffie–Hellman -/

def DH_PUB_LEN : Nat := 96

def DH_PRIME : Nat :=
  0xFFFFFFFFFFFFFFFFC90FDAA22168C234C4C6628B80DC1CD129024E088A67CC74020BBEA63B139B22514A08798E3404DDEF9519B3CD3A431B302B0A6DF25F14374FE1356D6D51C245E485B576625E7EC6F44C42E9A63A36210000000000090563

/-- Square and multiply, from the highest bit. -/
def modpow (base exponent modulus : Nat) : Nat :=
  exponent.bits.foldr (fun bit acc => acc * acc * (if bit then base else 1) % modulus) (1 % modulus)

def ofBytesBe (bytes : Bytes) : Nat := bytes.foldl (fun n b => n * 256 + b.toNat) 0

/-- Big endian, padded on the left with zeros. -/
def toBytesBe : Nat → Nat → Bytes
  | 0, _ => []
  | width + 1, n => toBytesBe width (n / 256) ++ [UInt8.ofNat n]

structure DhKeyPair where
  privateKey : Nat

namespace DhKeyPair

def publicKeyBytes (dh : DhKeyPair) : Bytes := toBytesBe DH_PUB_LEN (modpow 2 dh.privateKey DH_PRIME)

def computeSecret (dh : DhKeyPair) (peerPublic : Bytes) : Option Bytes :=
  let ya := ofBytesBe peerPublic
  if peerPublic.length ≠ DH_PUB_LEN then none
  else if ya = 0 ∨ DH_PRIME ≤ ya then none
  else some (toBytesBe DH_PUB_LEN (modpow ya dh.privateKey DH_PRIME))

end DhKeyPair

/-! ### The initiator's messages -/

def VC : Bytes := List.replicate 8 0

structure MseSession where
  cryptoSelect : Nat
  encrypt : Rc4
  decrypt : Rc4
  rc4 : Bool

/-- `u16::to_be_bytes`. -/
def u16Bytes (n : Nat) : Bytes := [UInt8.ofNat (n / 256), UInt8.ofNat n]

def u16At (bytes : Bytes) (at' : Nat) : Nat := (bytes.getD at' 0).toNat * 256 + (bytes.getD (at' + 1) 0).toNat

/-- The wire bytes, and the streams that encrypt and decrypt behind them. -/
def initiatorBuildSync (sha1 : Bytes → Digest) (secret skey : Bytes) (provide : Nat) (ia : Bytes) :
    Bytes × Rc4 × Rc4 :=
  let inner := VC ++ toBeBytes provide ++ u16Bytes 0 ++ u16Bytes ia.length ++ ia
  let crypted := (rc4KeyA sha1 secret skey).cryptInplace inner
  ((hashReq1 sha1 secret).1 ++ obfuscatedHash sha1 secret skey ++ crypted.1, crypted.2, rc4KeyB sha1 secret skey)

/-! ### The receiver's parser -/

/-- The first window of the haystack that is the needle. -/
def findSlice (needle : Bytes) : Bytes → Option Nat
  | [] => if needle.isEmpty then some 0 else none
  | byte :: rest => if needle.isPrefixOf (byte :: rest) then some 0 else (findSlice needle rest).map (· + 1)

inductive SyncError where
  | req1NotFound
  | truncated
  | skeyMismatch
  | decryptShort
  | vcMismatch
  | padCOverflow
  | iaOverflow
  deriving DecidableEq, Repr

def SyncError.message : SyncError → String
  | req1NotFound => "MSE req1 not found"
  | truncated => "MSE initiator payload truncated"
  | skeyMismatch => "MSE req2/SKEY mismatch"
  | decryptShort => "MSE decrypt short"
  | vcMismatch => "MSE VC mismatch"
  | padCOverflow => "MSE padC overflow"
  | iaOverflow => "MSE IA overflow"

/-- The message contains `truncated` or `overflow`: the caller reads on. -/
def SyncError.readsOn : SyncError → Bool
  | truncated => true
  | padCOverflow => true
  | iaOverflow => true
  | _ => false

/-- What the receiver learns, with the streams that decrypt and encrypt behind it. -/
structure SyncParsed where
  provide : Nat
  ia : Bytes
  decrypt : Rc4
  encrypt : Rc4

def receiverParseInitiator (sha1 : Bytes → Digest) (secret skey buf : Bytes) : Except SyncError SyncParsed :=
  match findSlice (hashReq1 sha1 secret).1 buf with
  | none => .error .req1NotFound
  | some pos =>
    let base := pos + 20
    if buf.length < base + 20 + 8 + 4 + 2 + 2 then .error .truncated
    else if deobfuscateReq2 sha1 secret ((buf.drop base).take 20) ≠ (hashReq2 sha1 skey).1 then
      .error .skeyMismatch
    else
      let decrypted := (rc4KeyA sha1 secret skey).cryptInplace (buf.drop (base + 20))
      let plain := decrypted.1
      if plain.length < 8 + 4 + 2 + 2 then .error .decryptShort
      else if plain.take 8 ≠ VC then .error .vcMismatch
      else
        let o := 14 + u16At plain 12
        if plain.length < o + 2 then .error .padCOverflow
        else if plain.length < o + 2 + u16At plain o then .error .iaOverflow
        else .ok ⟨u32At plain 8, (plain.drop (o + 2)).take (u16At plain o), decrypted.2, rc4KeyB sha1 secret skey⟩

/-! ### The response -/

def receiverBuildResponse (enc : Rc4) (select : Nat) : Bytes × Rc4 :=
  enc.cryptInplace (VC ++ toBeBytes select ++ u16Bytes 0)

def MAX_PAD_B : Nat := 512

def MSE_RESP_HDR : Nat := 14

inductive InitiatorResponseScan where
  | found (select consumed : Nat)
  | needMore
  deriving DecidableEq, Repr

def vcNotFound : Error := .msg "MSE response VC not found within PadB limit"

/-- The loop over the offsets; `saw` is a header whose padding has not arrived in full. -/
def scanLoop (dec : Rc4) (buf : Bytes) : List Nat → Bool → Except Error (InitiatorResponseScan × Rc4)
  | [], saw =>
    if saw then .ok (.needMore, dec)
    else if MAX_PAD_B + MSE_RESP_HDR ≤ buf.length then .error vcNotFound
    else .ok (.needMore, dec)
  | off :: rest, saw =>
    let hdr := (dec.cryptInplace ((buf.drop off).take MSE_RESP_HDR)).1
    let padD := u16At hdr 12
    let need := off + MSE_RESP_HDR + padD
    if hdr.take 8 ≠ VC then scanLoop dec buf rest saw
    else if MAX_PAD_B < padD then scanLoop dec buf rest saw
    else if buf.length < need then scanLoop dec buf rest true
    else
      let commit := dec.cryptInplace ((buf.take need).drop off)
      if commit.1.take 8 ≠ VC then .error (.msg "MSE response VC commit mismatch")
      else .ok (.found (u32At hdr 8) need, commit.2)

def initiatorScanResponse (dec : Rc4) (buf : Bytes) : Except Error (InitiatorResponseScan × Rc4) :=
  if buf.length < MSE_RESP_HDR then .ok (.needMore, dec)
  else scanLoop dec buf (List.range (min (buf.length - MSE_RESP_HDR) MAX_PAD_B + 1)) false

end Seedchamp.Crypto.Mse
