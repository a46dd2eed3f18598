import Seedchamp.Crypto.Mse

/-!
The scan for the responder's answer: which offsets it accepts, and what it commits to.
-/

namespace Seedchamp.Crypto.MseScan
open Foundation Crypto.PayloadCipher Crypto.Mse Wire.Messages Wire.Parse
open Disk.Spans (Error)

/-- The header at this offset, decrypted. -/
def header (dec : Rc4) (buf : Bytes) (off : Nat) : Bytes :=
  (dec.cryptInplace ((buf.drop off).take MSE_RESP_HDR)).1

/-- The header decrypts to the verification constant, and its padding is admissible. -/
def Accepts (dec : Rc4) (buf : Bytes) (off : Nat) : Prop :=
  (header dec buf off).take 8 = VC ∧ u16At (header dec buf off) 12 ≤ MAX_PAD_B

/-- Where the answer at this offset ends. -/
def need (dec : Rc4) (buf : Bytes) (off : Nat) : Nat := off + MSE_RESP_HDR + u16At (header dec buf off) 12

theorem cryptInplace_take (rc4 : Rc4) (data : Bytes) (n : Nat) :
    (rc4.cryptInplace (data.take n)).1 = (rc4.cryptInplace data).1.take n :=
  StreamCipher.crypt_take Rc4.next rc4 data n

theorem cryptInplace_length (rc4 : Rc4) (data : Bytes) :
    (rc4.cryptInplace data).1.length = data.length := StreamCipher.crypt_length Rc4.next rc4 data

/-- What is committed begins with the header. -/
theorem commit_header (dec : Rc4) (buf : Bytes) (off : Nat) :
    (dec.cryptInplace ((buf.take (need dec buf off)).drop off)).1.take MSE_RESP_HDR = header dec buf off := by
  rw [header, ← cryptInplace_take, List.drop_take, List.take_take]
  congr 3
  unfold need
  omega

theorem take_take_eight (bytes : Bytes) : (bytes.take MSE_RESP_HDR).take 8 = bytes.take 8 := by
  rw [List.take_take]
  rfl

theorem scanLoop_skip (dec : Rc4) (buf : Bytes) (off : Nat) (rest : List Nat) (saw : Bool)
    (refused : ¬Accepts dec buf off) : scanLoop dec buf (off :: rest) saw = scanLoop dec buf rest saw := by
  rw [scanLoop]
  split_ifs with vc long
  · rfl
  · rfl
  all_goals exact absurd ⟨not_not.1 vc, Nat.not_lt.1 long⟩ refused

theorem scanLoop_incomplete (dec : Rc4) (buf : Bytes) (off : Nat) (rest : List Nat) (saw : Bool)
    (accepts : Accepts dec buf off) (short : buf.length < need dec buf off) :
    scanLoop dec buf (off :: rest) saw = scanLoop dec buf rest true := by
  have bound := Nat.not_lt.2 accepts.2
  rw [scanLoop]
  change (if (header dec buf off).take 8 ≠ VC then _ else if MAX_PAD_B < u16At (header dec buf off) 12 then _
    else if buf.length < need dec buf off then _ else _) = _
  rw [if_neg (not_not.2 accepts.1), if_neg bound, if_pos short]

theorem scanLoop_found (dec : Rc4) (buf : Bytes) (off : Nat) (rest : List Nat) (saw : Bool)
    (accepts : Accepts dec buf off) (whole : need dec buf off ≤ buf.length) :
    scanLoop dec buf (off :: rest) saw = .ok (.found (u32At (header dec buf off) 8) (need dec buf off),
      (dec.cryptInplace ((buf.take (need dec buf off)).drop off)).2) := by
  have bound := Nat.not_lt.2 accepts.2
  have committed : (dec.cryptInplace ((buf.take (need dec buf off)).drop off)).1.take 8 = VC := by
    rw [← take_take_eight, commit_header]
    exact accepts.1
  rw [scanLoop]
  change (if (header dec buf off).take 8 ≠ VC then _ else if MAX_PAD_B < u16At (header dec buf off) 12 then _
    else if buf.length < need dec buf off then _ else if
      (dec.cryptInplace ((buf.take (need dec buf off)).drop off)).1.take 8 ≠ VC then _ else _) = _
  rw [if_neg (not_not.2 accepts.1), if_neg bound, if_neg (Nat.not_lt.2 whole),
    if_neg (not_not.2 committed)]
  rfl

/-- A scan that answers has left the stream where it was, or committed to an offset it accepts. -/
theorem scanLoop_ok (dec : Rc4) (buf : Bytes) (offsets : List Nat) (saw : Bool)
    (answer : InitiatorResponseScan × Rc4) (done : scanLoop dec buf offsets saw = .ok answer) :
    answer = (.needMore, dec) ∨ ∃ off ∈ offsets, Accepts dec buf off ∧ need dec buf off ≤ buf.length ∧
      answer = (.found (u32At (header dec buf off) 8) (need dec buf off),
        (dec.cryptInplace ((buf.take (need dec buf off)).drop off)).2) := by
  induction offsets generalizing saw with
  | nil =>
    rw [scanLoop] at done
    split_ifs at done
    · cases done
      exact Or.inl rfl
    · cases done
      exact Or.inl rfl
  | cons off rest ih =>
    by_cases accepts : Accepts dec buf off
    · by_cases whole : need dec buf off ≤ buf.length
      · rw [scanLoop_found dec buf off rest saw accepts whole] at done
        cases done
        exact Or.inr ⟨off, List.mem_cons_self, accepts, whole, rfl⟩
      · rw [scanLoop_incomplete dec buf off rest saw accepts (Nat.not_le.1 whole)] at done
        rcases ih true done with more | ⟨other, member, found⟩
        · exact Or.inl more
        · exact Or.inr ⟨other, List.mem_cons_of_mem _ member, found⟩
    · rw [scanLoop_skip dec buf off rest saw accepts] at done
      rcases ih saw done with more | ⟨other, member, found⟩
      · exact Or.inl more
      · exact Or.inr ⟨other, List.mem_cons_of_mem _ member, found⟩

theorem initiatorScanResponse_ok (dec : Rc4) (buf : Bytes) (answer : InitiatorResponseScan × Rc4)
    (done : initiatorScanResponse dec buf = .ok answer) :
    answer = (.needMore, dec) ∨ ∃ off, off ≤ MAX_PAD_B ∧ Accepts dec buf off ∧ need dec buf off ≤ buf.length ∧
      answer = (.found (u32At (header dec buf off) 8) (need dec buf off),
        (dec.cryptInplace ((buf.take (need dec buf off)).drop off)).2) := by
  rw [initiatorScanResponse] at done
  split_ifs at done
  · cases done
    exact Or.inl rfl
  · rcases scanLoop_ok dec buf _ _ answer done with more | ⟨off, member, found⟩
    · exact Or.inl more
    · right
      refine ⟨off, ?_, found⟩
      have below := List.mem_range.1 member
      omega

end Seedchamp.Crypto.MseScan
