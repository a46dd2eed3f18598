import Mathlib.Algebra.BigOperators.Group.Finset.Basic
import Mathlib.Data.Finset.Card
import Mathlib.Data.Set.Card
import Mathlib.Order.Interval.Finset.Nat

/-!
Tallies over an initial segment of the naturals: a counting loop `for i in 0..bound` that adds the
weight of every marked index, and how its result moves when one index becomes marked.
-/

namespace Seedchamp.Foundation.Tally

/-- The loop that adds `weight i` for every marked `i < bound`. -/
def weigh (weight : Nat → Nat) (marked : Nat → Bool) : Nat → Nat
  | 0 => 0
  | bound + 1 => weigh weight marked bound + if marked bound then weight bound else 0

/-- The loop that counts the marked indices below `bound`. -/
def tally (marked : Nat → Bool) (bound : Nat) : Nat :=
  weigh (fun _ => 1) marked bound

theorem weigh_eq_sum (weight : Nat → Nat) (marked : Nat → Bool) (bound : Nat) :
    weigh weight marked bound =
      ∑ i ∈ (Finset.range bound).filter (fun i => marked i = true), weight i := by
  induction bound with
  | zero => rfl
  | succ bound ih =>
    rw [Finset.sum_filter, Finset.sum_range_succ, ← Finset.sum_filter, ← ih]
    rfl

theorem tally_eq_card (marked : Nat → Bool) (bound : Nat) :
    tally marked bound = ((Finset.range bound).filter (fun i => marked i = true)).card := by
  rw [tally, weigh_eq_sum, Finset.card_eq_sum_ones]

theorem weigh_congr (weight : Nat → Nat) (first second : Nat → Bool) (bound : Nat)
    (agree : ∀ i, i < bound → first i = second i) :
    weigh weight first bound = weigh weight second bound := by
  induction bound with
  | zero => rfl
  | succ bound ih =>
    simp only [weigh, agree bound (Nat.lt_succ_self bound)]
    rw [ih (fun i below => agree i (by omega))]

theorem tally_congr (first second : Nat → Bool) (bound : Nat)
    (agree : ∀ i, i < bound → first i = second i) : tally first bound = tally second bound :=
  weigh_congr _ first second bound agree

/-- Marking one fresh index below the bound adds exactly its weight. -/
theorem weigh_mark (weight : Nat → Nat) (before after : Nat → Bool) (bound index : Nat)
    (below : index < bound) (fresh : before index = false) (marked : after index = true)
    (frame : ∀ i, i < bound → i ≠ index → after i = before i) :
    weigh weight after bound = weigh weight before bound + weight index := by
  induction bound with
  | zero => omega
  | succ bound ih =>
    by_cases last : index = bound
    · subst last
      have rest : weigh weight after index = weigh weight before index :=
        weigh_congr weight _ _ _ (fun i small => frame i (by omega) (by omega))
      simp only [weigh, fresh, marked, rest, if_true, Bool.false_eq_true, if_false, Nat.add_zero]
    · have rest := ih (by omega) (fun i small => frame i (by omega))
      simp only [weigh, rest, frame bound (by omega) (fun same => last same.symm)]
      omega

theorem tally_mark (before after : Nat → Bool) (bound index : Nat)
    (below : index < bound) (fresh : before index = false) (marked : after index = true)
    (frame : ∀ i, i < bound → i ≠ index → after i = before i) :
    tally after bound = tally before bound + 1 :=
  weigh_mark _ before after bound index below fresh marked frame

theorem tally_succ (marked : Nat → Bool) (bound : Nat) :
    tally marked (bound + 1) = tally marked bound + (marked bound).toNat := by
  rw [tally, weigh, ← tally]
  cases marked bound <;> rfl

/-- How a tally moves when one index below the bound changes. -/
theorem tally_update (before after : Nat → Bool) (bound index : Nat) (below : index < bound)
    (frame : ∀ i, i < bound → i ≠ index → after i = before i) :
    tally after bound + (before index).toNat = tally before bound + (after index).toNat := by
  cases was : before index with
  | false =>
    cases is : after index with
    | false =>
      rw [tally_congr after before bound]
      intro i inside
      by_cases same : i = index
      · rw [same, was, is]
      · exact frame i inside same
    | true =>
      rw [tally_mark before after bound index below was is frame]
      rfl
  | true =>
    cases is : after index with
    | false =>
      rw [tally_mark after before bound index below is was (fun i inside other => (frame i inside other).symm)]
      rfl
    | true =>
      rw [tally_congr after before bound]
      intro i inside
      by_cases same : i = index
      · rw [same, was, is]
      · exact frame i inside same

/-- The marked indices are those with a second mark and those without. -/
theorem tally_split (first second : Nat → Bool) (bound : Nat) :
    tally first bound = tally (fun i => first i && second i) bound + tally (fun i => first i && !second i) bound := by
  induction bound with
  | zero => rfl
  | succ bound ih =>
    rw [tally_succ, tally_succ, tally_succ, ih]
    cases first bound <;> cases second bound <;> simp only [Bool.toNat, cond, Bool.and_self, Bool.and_true,
      Bool.and_false, Bool.not_true, Bool.not_false] <;> omega

theorem tally_mono (few many : Nat → Bool) (bound : Nat)
    (covered : ∀ i, i < bound → few i = true → many i = true) : tally few bound ≤ tally many bound := by
  rw [tally_eq_card, tally_eq_card]
  apply Finset.card_le_card
  intro i member
  rw [Finset.mem_filter, Finset.mem_range] at member ⊢
  exact ⟨member.1, covered i member.1 member.2⟩

theorem tally_le (marked : Nat → Bool) (bound : Nat) : tally marked bound ≤ bound := by
  rw [tally_eq_card]
  exact (Finset.card_filter_le _ _).trans (by rw [Finset.card_range])

theorem tally_eq_bound_iff (marked : Nat → Bool) (bound : Nat) :
    tally marked bound = bound ↔ ∀ i, i < bound → marked i = true := by
  rw [tally_eq_card]
  have total := Finset.card_filter_eq_iff (s := Finset.range bound) (p := fun i => marked i = true)
  rw [Finset.card_range] at total
  simpa only [Finset.mem_range] using total

theorem tally_eq_zero_iff (marked : Nat → Bool) (bound : Nat) :
    tally marked bound = 0 ↔ ∀ i, i < bound → marked i = false := by
  rw [tally_eq_card, Finset.card_eq_zero, Finset.filter_eq_empty_iff]
  simp only [Finset.mem_range, Bool.not_eq_true]

/-! ### Marked indices of an interval -/

/-- How many indices from `low` up to `high` are marked. -/
def between (marked : Nat → Bool) (low high : Nat) : Nat :=
  ((Finset.Ico low high).filter (fun i => marked i = true)).card

@[simp] theorem between_self (marked : Nat → Bool) (low : Nat) : between marked low low = 0 := by
  rw [between, Finset.Ico_self, Finset.filter_empty, Finset.card_empty]

theorem between_split (marked : Nat → Bool) (low mid high : Nat) (first : low ≤ mid)
    (second : mid ≤ high) :
    between marked low high = between marked low mid + between marked mid high := by
  rw [between, ← Finset.Ico_union_Ico_eq_Ico first second, Finset.filter_union,
    Finset.card_union_of_disjoint]
  · rfl
  · exact Finset.disjoint_filter_filter (Finset.Ico_disjoint_Ico_consecutive low mid high)

/-- An interval whose indices are all marked, or all unmarked. -/
theorem between_constant (marked : Nat → Bool) (low high : Nat) (mark : Bool)
    (constant : ∀ i, low ≤ i → i < high → marked i = mark) :
    between marked low high = if mark then high - low else 0 := by
  rw [between]
  cases mark with
  | true =>
    rw [Finset.filter_true_of_mem, Nat.card_Ico]
    · rfl
    · intro i member
      rw [Finset.mem_Ico] at member
      exact constant i member.1 member.2
  | false =>
    rw [Finset.filter_false_of_mem]
    · rfl
    · intro i member
      rw [Finset.mem_Ico] at member
      rw [constant i member.1 member.2]
      exact Bool.false_ne_true

theorem between_eq_ncard (marked : Nat → Bool) (low high : Nat) :
    between marked low high = {i : Nat | low ≤ i ∧ i < high ∧ marked i = true}.ncard := by
  rw [between, ← Set.ncard_coe_finset]
  congr 1
  ext i
  rw [Finset.mem_coe, Finset.mem_filter, Finset.mem_Ico, and_assoc]
  rfl

end Seedchamp.Foundation.Tally
