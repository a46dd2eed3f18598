import Seedchamp.Wire.Messages

/-!
`write_all` on a stream socket: the kernel accepts any positive part of what is left, or fails.
-/

namespace Seedchamp.Net.Socket
open Wire.Messages

inductive SocketWrite where
  | accepted (count : Nat)
  | failed
  deriving DecidableEq, Repr

/-- The write loop. Each accepted write takes at least one byte, so a turn for each byte suffices. -/
def writeLoop (answers : Nat → SocketWrite) : Nat → Nat → Bytes → Bytes × Bool
  | 0, _, buf => ([], buf.isEmpty)
  | fuel + 1, k, buf =>
    if buf.isEmpty then ([], true)
    else
      match answers k with
      | .failed => ([], false)
      | .accepted 0 => ([], false)
      | .accepted (count + 1) =>
        let rest := writeLoop answers fuel (k + 1) (buf.drop (count + 1))
        (buf.take (count + 1) ++ rest.1, rest.2)

/-- The bytes that reach the socket, and whether all of them did. -/
def writeAll (answers : Nat → SocketWrite) (buf : Bytes) : Bytes × Bool :=
  writeLoop answers buf.length 0 buf

theorem writeLoop_spec (answers : Nat → SocketWrite) (fuel k : Nat) (buf : Bytes)
    (enough : buf.length ≤ fuel) :
    (writeLoop answers fuel k buf).1 <+: buf ∧
      ((writeLoop answers fuel k buf).2 = true → (writeLoop answers fuel k buf).1 = buf) := by
  induction fuel generalizing k buf with
  | zero =>
    have blank : buf = [] := List.length_eq_zero_iff.1 (Nat.le_zero.1 enough)
    subst blank
    exact ⟨List.prefix_rfl, fun _ => rfl⟩
  | succ fuel ih =>
    rw [writeLoop]
    split_ifs with blank
    · rw [List.isEmpty_iff.1 blank]
      exact ⟨List.prefix_rfl, fun _ => rfl⟩
    · split
      · exact ⟨List.nil_prefix, fun done => absurd done Bool.false_ne_true⟩
      · exact ⟨List.nil_prefix, fun done => absurd done Bool.false_ne_true⟩
      · rename_i count _
        obtain ⟨part, whole⟩ := ih (k + 1) (buf.drop (count + 1)) (by
          rw [List.length_drop]
          omega)
        refine ⟨?_, ?_⟩
        · have glued := (List.prefix_append_right_inj (buf.take (count + 1))).2 part
          rwa [List.take_append_drop] at glued
        · intro done
          dsimp only at done ⊢
          rw [whole done, List.take_append_drop]

theorem writeAll_split (answers : Nat → SocketWrite) (buf : Bytes) :
    (writeAll answers buf).1 <+: buf := (writeLoop_spec answers _ 0 buf (Nat.le_refl _)).1

/-- A write that reports success has written everything, whatever the parts were. -/
theorem writeAll_complete (answers : Nat → SocketWrite) (buf : Bytes)
    (done : (writeAll answers buf).2 = true) : (writeAll answers buf).1 = buf :=
  (writeLoop_spec answers _ 0 buf (Nat.le_refl _)).2 done

end Seedchamp.Net.Socket
