import Mathlib.Algebra.GroupWithZero.Nat
import Mathlib.Data.List.Nodup
import Mathlib.Data.List.Basic

/-!
Rows under a primary key: lookup, rewriting one row, deleting one row and adding a row under a fresh
key, with what a lookup returns after each.
-/

namespace Seedchamp.Foundation.KeyedRows

structure Rows {κ ρ : Type} (key : ρ → κ) where
  list : List ρ
  unique : (list.map key).Nodup

namespace Rows

variable {κ ρ : Type} {key : ρ → κ} [DecidableEq κ]

def empty : Rows key := ⟨[], List.nodup_nil⟩

def find? (t : Rows key) (k : κ) : Option ρ := t.list.find? (fun r => key r = k)

/-- Rewrite the row under one key. -/
def update (t : Rows key) (k : κ) (change : ρ → ρ) (same : ∀ r, key (change r) = key r) :
    Rows key where
  list := t.list.map (fun r => if key r = k then change r else r)
  unique := by
    have kept : ∀ r : ρ, key (if key r = k then change r else r) = key r := by
      intro r
      split_ifs
      · exact same r
      · rfl
    rw [List.map_map, show key ∘ _ = key from funext kept]
    exact t.unique

def delete (t : Rows key) (k : κ) : Rows key where
  list := t.list.filter (fun r => key r ≠ k)
  unique := (List.filter_sublist.map key).nodup t.unique

def append (t : Rows key) (r : ρ) (fresh : key r ∉ t.list.map key) : Rows key where
  list := t.list ++ [r]
  unique := by
    rw [List.map_append, List.map_singleton]
    exact t.unique.append (List.nodup_singleton _) (List.disjoint_singleton.2 fresh)

theorem find?_key (t : Rows key) (k : κ) (r : ρ) (found : t.find? k = some r) : key r = k := by
  simpa using List.find?_some found

theorem find?_mem (t : Rows key) (k : κ) (r : ρ) (found : t.find? k = some r) : r ∈ t.list :=
  List.mem_of_find?_eq_some found

theorem find?_eq_none (t : Rows key) (k : κ) : t.find? k = none ↔ k ∉ t.list.map key := by
  rw [find?, List.find?_eq_none]
  simp

/-- A key names one row at most. -/
theorem find?_of_mem (t : Rows key) (r : ρ) (member : r ∈ t.list) : t.find? (key r) = some r := by
  cases found : t.find? (key r) with
  | none => exact absurd (List.mem_map_of_mem member) ((find?_eq_none t _).1 found)
  | some other =>
    have same := List.inj_on_of_nodup_map t.unique (find?_mem t _ other found) member
      (find?_key t _ other found)
    rw [same]

theorem mem_iff_find? (t : Rows key) (r : ρ) : r ∈ t.list ↔ t.find? (key r) = some r :=
  ⟨find?_of_mem t r, find?_mem t _ r⟩

theorem find?_update (t : Rows key) (k : κ) (change : ρ → ρ) (same : ∀ r, key (change r) = key r)
    (j : κ) : (t.update k change same).find? j =
      if j = k then (t.find? j).map change else t.find? j := by
  have kept : ∀ r : ρ, decide (key (if key r = k then change r else r) = j) = decide (key r = j) := by
    intro r
    split_ifs
    · rw [same]
    · rfl
  rw [find?, update, List.find?_map, show (fun r => decide (key r = j)) ∘ _ = _ from funext kept]
  split_ifs with named
  · cases found : t.find? j with
    | none =>
      rw [find?] at found
      rw [found]
      rfl
    | some r =>
      have keyed := find?_key t j r found
      rw [find?] at found
      rw [found, Option.map_some, if_pos (keyed.trans named)]
      rfl
  · cases found : t.find? j with
    | none =>
      rw [find?] at found
      rw [found]
      rfl
    | some r =>
      have keyed := find?_key t j r found
      rw [find?] at found
      rw [found, Option.map_some, if_neg (fun clash => named (keyed.symm.trans clash))]

theorem find?_update_self (t : Rows key) (k : κ) (change : ρ → ρ)
    (same : ∀ r, key (change r) = key r) :
    (t.update k change same).find? k = (t.find? k).map change := by
  rw [find?_update, if_pos rfl]

theorem find?_update_other (t : Rows key) (k : κ) (change : ρ → ρ)
    (same : ∀ r, key (change r) = key r) (j : κ) (other : j ≠ k) :
    (t.update k change same).find? j = t.find? j := by
  rw [find?_update, if_neg other]

theorem find?_delete (t : Rows key) (k j : κ) :
    (t.delete k).find? j = if j = k then none else t.find? j := by
  split_ifs with named
  · rw [find?_eq_none, named]
    simp [delete]
  · rw [find?, delete, List.find?_filter]
    unfold find?
    congr 1
    funext r
    by_cases keyed : key r = j
    · rw [decide_eq_true keyed]
      simpa using fun clash => named (keyed.symm.trans clash)
    · simp [keyed]

theorem find?_append (t : Rows key) (r : ρ) (fresh : key r ∉ t.list.map key) (j : κ) :
    (t.append r fresh).find? j = if j = key r then some r else t.find? j := by
  split_ifs with named
  · rw [named]
    exact find?_of_mem _ r (by simp [append])
  · rw [find?, append, List.find?_append]
    have miss : List.find? (fun r => decide (key r = j)) [r] = none := by
      simpa using fun clash => named clash.symm
    rw [miss, Option.or_none]
    rfl

/-- A property of the rows is kept by a rewrite that keeps it on the row it rewrites. -/
theorem forall_update (t : Rows key) (k : κ) (change : ρ → ρ)
    (same : ∀ r, key (change r) = key r) (P : ρ → Prop) (before : ∀ r ∈ t.list, P r)
    (kept : ∀ r, t.find? k = some r → P r → P (change r)) :
    ∀ r ∈ (t.update k change same).list, P r := by
  intro r member
  obtain ⟨old, listed, changed⟩ := List.mem_map.1 member
  by_cases named : key old = k
  · rw [if_pos named] at changed
    have found := find?_of_mem t old listed
    rw [named] at found
    rw [← changed]
    exact kept old found (before old listed)
  · rw [if_neg named] at changed
    rw [← changed]
    exact before old listed

theorem forall_delete (t : Rows key) (k : κ) (P : ρ → Prop) (before : ∀ r ∈ t.list, P r) :
    ∀ r ∈ (t.delete k).list, P r :=
  fun r member => before r (List.mem_of_mem_filter member)

omit [DecidableEq κ] in
theorem forall_append (t : Rows key) (r : ρ) (fresh : key r ∉ t.list.map key) (P : ρ → Prop)
    (before : ∀ old ∈ t.list, P old) (added : P r) : ∀ row ∈ (t.append r fresh).list, P row := by
  intro row member
  rcases List.mem_append.1 member with old | new
  · exact before row old
  · rw [List.mem_singleton.1 new]
    exact added

/-- A sum over the rows moves by what the rewritten row gains. -/
theorem sum_update (t : Rows key) (k : κ) (change : ρ → ρ) (same : ∀ r, key (change r) = key r)
    (weight : ρ → Nat) :
    ((t.update k change same).list.map weight).sum + ((t.find? k).map weight).getD 0 =
      (t.list.map weight).sum + ((t.find? k).map (fun r => weight (change r))).getD 0 := by
  obtain ⟨list, unique⟩ := t
  simp only [update, find?]
  induction list with
  | nil => rfl
  | cons r rest ih =>
    rw [List.map_cons, List.nodup_cons] at unique
    by_cases named : key r = k
    · have others : rest.map (fun r => if key r = k then change r else r) = rest := by
        refine (List.map_congr_left ?_).trans (List.map_id rest)
        intro other member
        rw [if_neg]
        · rfl
        · intro clash
          exact unique.1 (named ▸ clash ▸ List.mem_map_of_mem member)
      simp only [List.map_cons, List.find?_cons, named, decide_true, if_true, others, List.sum_cons,
        Option.map_some, Option.getD_some]
      omega
    · have tail := ih unique.2
      simp only [List.map_cons, List.find?_cons, named, decide_false, if_false, List.sum_cons]
      omega

end Rows

end Seedchamp.Foundation.KeyedRows
