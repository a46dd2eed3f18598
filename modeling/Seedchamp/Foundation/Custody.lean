import Mathlib.Algebra.GroupWithZero.Nat
import Mathlib.Data.List.Count
import Mathlib.Data.List.Basic
import Mathlib.Tactic.SplitIfs

/-!
Custody of items that pass from holder to holder: what was held before a step is, after it, still
held, answered or dropped, each item as often as before.
-/

namespace Seedchamp.Foundation.Custody

variable {α β : Type} [DecidableEq α]

def Balanced (before after answered dropped : List α) : Prop :=
  ∀ item, after.count item + answered.count item + dropped.count item = before.count item

namespace Balanced

theorem still (held : List α) : Balanced held held [] [] := by
  intro item
  simp

/-- Only what was held is answered. -/
theorem answered_mem (before after answered dropped : List α)
    (balance : Balanced before after answered dropped) (item : α) (told : item ∈ answered) :
    item ∈ before := by
  have positive := List.count_pos_iff.2 told
  have account := balance item
  exact List.count_pos_iff.1 (by omega)

end Balanced

/-- One holder of several changes what it holds. -/
theorem count_flatMap_set (holders : List β) (held : β → List α) (k : Nat) (before after : β)
    (running : holders[k]? = some before) (item : α) :
    ((holders.set k after).flatMap held).count item + (held before).count item =
      (holders.flatMap held).count item + (held after).count item := by
  induction holders generalizing k with
  | nil => cases running
  | cons head rest ih =>
    cases k with
    | zero =>
      cases running
      rw [List.set_cons_zero, List.flatMap_cons, List.flatMap_cons, List.count_append,
        List.count_append]
      omega
    | succ k =>
      have later := ih k running
      rw [List.set_cons_succ, List.flatMap_cons, List.flatMap_cons, List.count_append,
        List.count_append]
      omega

omit [DecidableEq α] in
/-- One of several weights changes. -/
theorem sum_map_set (holders : List β) (weight : β → Nat) (k : Nat) (before after : β)
    (running : holders[k]? = some before) :
    ((holders.set k after).map weight).sum + weight before =
      (holders.map weight).sum + weight after := by
  induction holders generalizing k with
  | nil => cases running
  | cons head rest ih =>
    cases k with
    | zero =>
      cases running
      rw [List.set_cons_zero, List.map_cons, List.map_cons, List.sum_cons, List.sum_cons]
      omega
    | succ k =>
      have later := ih k running
      rw [List.set_cons_succ, List.map_cons, List.map_cons, List.sum_cons, List.sum_cons]
      omega

omit [DecidableEq α] in
/-- What one of several holds, and what the others hold. -/
theorem flatMap_perm (holders : List β) (held : β → List α) (k : Nat) (one : β)
    (running : holders[k]? = some one) :
    (holders.flatMap held).Perm (held one ++ (holders.eraseIdx k).flatMap held) := by
  induction holders generalizing k with
  | nil => cases running
  | cons head rest ih =>
    cases k with
    | zero =>
      cases running
      exact List.Perm.refl _
    | succ k =>
      have later := ih k running
      rw [List.flatMap_cons, List.eraseIdx_cons_succ, List.flatMap_cons]
      exact (later.append_left (held head)).trans (List.perm_append_comm_assoc _ _ _)

omit [DecidableEq α] in
theorem flatMap_set_perm (holders : List β) (held : β → List α) (k : Nat) (before after : β)
    (running : holders[k]? = some before) :
    ((holders.set k after).flatMap held).Perm (held after ++ (holders.eraseIdx k).flatMap held) := by
  obtain ⟨inside, _⟩ := List.getElem?_eq_some_iff.1 running
  have here := flatMap_perm (holders.set k after) held k after (List.getElem?_set_self inside)
  rw [List.eraseIdx_set_eq] at here
  exact here

end Seedchamp.Foundation.Custody
