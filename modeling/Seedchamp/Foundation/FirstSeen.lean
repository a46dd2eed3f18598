import Mathlib.Data.List.Nodup
import Mathlib.Data.List.Infix
import Mathlib.Order.Nat

/-!
The distinct values of a sequence in the order in which they are first seen, gathered in rounds until
there are enough of them or a number of rounds in a row brought nothing new.
-/

namespace Seedchamp.Foundation.FirstSeen

variable {α : Type} [DecidableEq α]

def see (before : List α) (a : α) : List α := if a ∈ before then before else before ++ [a]

/-- As `see`, for a list that is full at `cap` values. -/
def seeUpTo (cap : Nat) (before : List α) (a : α) : List α :=
  if cap ≤ before.length then before else see before a

/-- The distinct values among the first `n`. -/
def firsts (s : Nat → α) : Nat → List α
  | 0 => []
  | n + 1 => see (firsts s n) (s n)

theorem mem_see (before : List α) (a b : α) : b ∈ see before a ↔ b ∈ before ∨ b = a := by
  rw [see]
  split_ifs with old
  · constructor
    · exact .inl
    · rintro (member | rfl)
      · exact member
      · exact old
  · rw [List.mem_append, List.mem_singleton]

theorem prefix_see (before : List α) (a : α) : before <+: see before a := by
  rw [see]
  split_ifs
  · exact List.prefix_rfl
  · exact List.prefix_append before [a]

theorem nodup_see (before : List α) (a : α) (distinct : before.Nodup) : (see before a).Nodup := by
  rw [see]
  split_ifs with old
  · exact distinct
  · refine distinct.append (List.nodup_singleton a) (List.disjoint_singleton.2 old)

theorem nodup_firsts (s : Nat → α) (n : Nat) : (firsts s n).Nodup := by
  induction n with
  | zero => exact List.nodup_nil
  | succ n ih => exact nodup_see _ _ ih

theorem mem_firsts (s : Nat → α) (n : Nat) (a : α) : a ∈ firsts s n ↔ ∃ j, j < n ∧ s j = a := by
  induction n with
  | zero => simp [firsts]
  | succ n ih =>
    rw [firsts, mem_see, ih]
    constructor
    · rintro (⟨j, below, rfl⟩ | rfl)
      · exact ⟨j, Nat.lt_succ_of_lt below, rfl⟩
      · exact ⟨n, Nat.lt_succ_self n, rfl⟩
    · rintro ⟨j, below, rfl⟩
      rcases Nat.lt_succ_iff_lt_or_eq.1 below with earlier | rfl
      · exact .inl ⟨j, earlier, rfl⟩
      · exact .inr rfl

theorem firsts_extends (s : Nat → α) (m n : Nat) (earlier : m ≤ n) : firsts s m <+: firsts s n := by
  induction n, earlier using Nat.le_induction with
  | base => exact List.prefix_rfl
  | succ n _ ih => exact ih.trans (prefix_see _ _)

theorem length_firsts_mono (s : Nat → α) (m n : Nat) (earlier : m ≤ n) :
    (firsts s m).length ≤ (firsts s n).length := (firsts_extends s m n earlier).length_le

/-- A stretch that adds nothing to the length adds nothing. -/
theorem firsts_eq_of_length (s : Nat → α) (m n : Nat) (earlier : m ≤ n)
    (same : (firsts s n).length = (firsts s m).length) : firsts s n = firsts s m :=
  ((firsts_extends s m n earlier).eq_of_length same.symm).symm

/-! ### With a cap -/

/-- The capped list is the beginning of the uncapped one. -/
theorem seeUpTo_take (cap : Nat) (s : Nat → α) (n : Nat) :
    seeUpTo cap ((firsts s n).take cap) (s n) = (firsts s (n + 1)).take cap := by
  rw [seeUpTo]
  by_cases full : cap ≤ (firsts s n).length
  · rw [if_pos (by rw [List.length_take, Nat.min_eq_left full])]
    obtain ⟨more, extended⟩ := prefix_see (firsts s n) (s n)
    rw [firsts, ← extended, List.take_append_of_le_length full]
  · have small : (firsts s n).length < cap := not_le.1 full
    rw [List.take_of_length_le (Nat.le_of_lt small), if_neg full, firsts, List.take_of_length_le]
    rw [see]
    split_ifs
    · exact Nat.le_of_lt small
    · rw [List.length_append, List.length_singleton]
      exact small

theorem foldl_seeUpTo (cap : Nat) (s : Nat → α) (n width : Nat) :
    (List.range width).foldl (fun before i => seeUpTo cap before (s (n + i))) ((firsts s n).take cap) =
      (firsts s (n + width)).take cap := by
  induction width with
  | zero => rfl
  | succ width ih =>
    rw [List.range_succ, List.foldl_append, ih, List.foldl_cons, List.foldl_nil, seeUpTo_take]
    rfl

/-! ### In rounds -/

/-- After this round the list is full, or as long as it was `patience` rounds ago. -/
def Stops (s : Nat → α) (width patience cap r : Nat) : Prop :=
  cap ≤ (firsts s (width * r)).length ∨ patience ≤ r ∧
    (firsts s (width * r)).length = (firsts s (width * (r - patience))).length

instance (s : Nat → α) (width patience cap r : Nat) : Decidable (Stops s width patience cap r) :=
  inferInstanceAs (Decidable (_ ∨ _))

section
variable (s : Nat → α) (width patience cap : Nat)

theorem length_rounds_mono (m n : Nat) (earlier : m ≤ n) :
    (firsts s (width * m)).length ≤ (firsts s (width * n)).length :=
  length_firsts_mono s _ _ (Nat.mul_le_mul_left width earlier)

/-- As long as it goes on, every `patience` rounds bring at least one value. -/
theorem length_of_running (q : Nat) (running : ∀ r, r ≤ patience * q → ¬Stops s width patience cap r) :
    q ≤ (firsts s (width * (patience * q))).length := by
  induction q with
  | zero => exact Nat.zero_le _
  | succ q ih =>
    have shorter := ih (fun r bound => running r (bound.trans (Nat.mul_le_mul_left _ (Nat.le_succ q))))
    have moving := running (patience * (q + 1)) le_rfl
    rw [Stops, not_or, not_and] at moving
    have changed := moving.2 (Nat.le_mul_of_pos_right patience (Nat.succ_pos q))
    rw [Nat.mul_succ, Nat.add_sub_cancel] at changed
    have grown := length_rounds_mono s width (patience * q) (patience * q + patience)
      (Nat.le_add_right _ _)
    rw [Nat.mul_succ]
    omega

/-- Gathering stops after `patience` rounds for each value that is wanted, at the latest. -/
theorem exists_stops : ∃ r, r ≤ patience * cap ∧ Stops s width patience cap r := by
  by_contra running
  rw [not_exists] at running
  have going : ∀ r, r ≤ patience * cap → ¬Stops s width patience cap r :=
    fun r bound stops => running r ⟨bound, stops⟩
  exact going (patience * cap) le_rfl (.inl (length_of_running s width patience cap cap going))

/-- A larger cap is reached no earlier. -/
theorem stops_of_larger (cap' r : Nat) (larger : cap ≤ cap') (stops : Stops s width patience cap' r) :
    Stops s width patience cap r :=
  stops.imp larger.trans id

/-- The rounds where gathering with a cap and with a larger one stop, and what they have then. -/
theorem take_prefix_of_larger (cap' r r' : Nat) (larger : cap ≤ cap')
    (stops : Stops s width patience cap r) (stops' : Stops s width patience cap' r')
    (first : ∀ n, n < r → ¬Stops s width patience cap n)
    (first' : ∀ n, n < r' → ¬Stops s width patience cap' n) :
    (firsts s (width * r)).take cap <+: (firsts s (width * r')).take cap' := by
  have order : r ≤ r' := by
    by_contra later
    exact first r' (not_le.1 later) (stops_of_larger s width patience cap cap' r' larger stops')
  rcases stops with full | stalled
  · have grown := firsts_extends s (width * r) (width * r') (Nat.mul_le_mul_left width order)
    have same : (firsts s (width * r)).take cap = (firsts s (width * r')).take cap := by
      obtain ⟨more, extended⟩ := grown
      rw [← extended, List.take_append_of_le_length full]
    rw [same]
    exact List.take_prefix_take_left larger
  · have same : r = r' := by
      apply Nat.le_antisymm order
      by_contra later
      exact first' r (not_le.1 later) (.inr stalled)
    rw [same]
    exact List.take_prefix_take_left larger

end

end Seedchamp.Foundation.FirstSeen
