import Mathlib.Data.List.Perm.Lattice
import Seedchamp.Foundation.KeyedRows

/-!
Finite maps with natural-number keys, as rows of key and value. Each write comes with what a read
returns after it.
-/

namespace Seedchamp.Foundation.KeyedMap
open Foundation.KeyedRows

variable {α : Type}

abbrev Map (α : Type) := Rows (Prod.fst : Nat × α → Nat)

def get? (m : Map α) (k : Nat) : Option α := (m.find? k).map Prod.snd

def keys (m : Map α) : List Nat := m.list.map Prod.fst

/-- Write a value under a key, whether or not the key has one. -/
def insert (m : Map α) (k : Nat) (value : α) : Map α :=
  if listed : k ∈ m.list.map Prod.fst then m.update k (fun e => (e.1, value)) (fun _ => rfl)
  else m.append (k, value) listed

/-- Change the value under a key; a key without one stays without. -/
def modify (m : Map α) (k : Nat) (change : α → α) : Map α :=
  m.update k (fun e => (e.1, change e.2)) (fun _ => rfl)

/-- The value under a key, made fresh where there is none, and then changed. -/
def orInsertWith (m : Map α) (k : Nat) (fresh : α) (change : α → α) : Map α :=
  insert m k (change ((get? m k).getD fresh))

def erase (m : Map α) (k : Nat) : Map α := m.delete k

theorem get?_empty (k : Nat) : get? (Rows.empty : Map α) k = none := rfl

theorem nodup_keys (m : Map α) : (keys m).Nodup := m.unique

theorem get?_insert (m : Map α) (k : Nat) (value : α) (j : Nat) :
    get? (insert m k value) j = if j = k then some value else get? m j := by
  rw [insert]
  split_ifs with listed named named
  · rw [named, get?, Rows.find?_update_self, Option.map_map]
    have present : (m.find? k).isSome = true := by
      rw [Option.isSome_iff_ne_none, Ne, Rows.find?_eq_none, not_not]
      exact listed
    obtain ⟨e, found⟩ := Option.isSome_iff_exists.1 present
    rw [found]
    rfl
  · rw [get?, Rows.find?_update_other m k _ _ j named]
    rfl
  · rw [get?, Rows.find?_append, if_pos named]
    rfl
  · rw [get?, Rows.find?_append, if_neg named]
    rfl

theorem get?_modify (m : Map α) (k : Nat) (change : α → α) (j : Nat) :
    get? (modify m k change) j = if j = k then (get? m j).map change else get? m j := by
  rw [get?, get?, modify, Rows.find?_update]
  split_ifs
  · rw [Option.map_map, Option.map_map]
    rfl
  · rfl

theorem get?_orInsertWith (m : Map α) (k : Nat) (fresh : α) (change : α → α) (j : Nat) :
    get? (orInsertWith m k fresh change) j =
      if j = k then some (change ((get? m k).getD fresh)) else get? m j := get?_insert ..

theorem get?_erase (m : Map α) (k j : Nat) :
    get? (erase m k) j = if j = k then none else get? m j := by
  rw [get?, erase, Rows.find?_delete]
  split_ifs
  · rfl
  · rfl

/-- The values are the ones reads return. -/
theorem mem_list (m : Map α) (k : Nat) (value : α) :
    (k, value) ∈ m.list ↔ get? m k = some value := by
  rw [Rows.mem_iff_find?, get?]
  constructor
  · intro found
    rw [found]
    rfl
  · intro found
    obtain ⟨e, present, same⟩ := Option.map_eq_some_iff.1 found
    have keyed := Rows.find?_key m k e present
    rw [present, ← keyed, ← same]

/-- A map that reads like another one with one fresh entry has that entry and the other's. -/
theorem list_perm_cons (m rest : Map α) (k : Nat) (value : α) (fresh : get? rest k = none)
    (reads : ∀ j, get? m j = if j = k then some value else get? rest j) :
    m.list.Perm ((k, value) :: rest.list) := by
  have absent : (k, value) ∉ rest.list := by
    intro listed
    rw [(mem_list rest k value).1 listed] at fresh
    cases fresh
  have separate : ((k, value) :: rest.list).Nodup :=
    List.nodup_cons.2 ⟨absent, rest.unique.of_map⟩
  rw [List.perm_ext_iff_of_nodup m.unique.of_map separate]
  intro e
  rw [show e = (e.1, e.2) from rfl, mem_list, reads, List.mem_cons, mem_list]
  by_cases named : e.1 = k
  · rw [if_pos named, named, fresh, Option.some_inj, Prod.mk.injEq]
    simp [eq_comm]
  · rw [if_neg named, Prod.mk.injEq]
    simp [named]

theorem list_perm_insert (m : Map α) (k : Nat) (value : α) :
    (insert m k value).list.Perm ((k, value) :: (erase m k).list) := by
  apply list_perm_cons
  · rw [get?_erase, if_pos rfl]
  · intro j
    rw [get?_insert, get?_erase]
    split_ifs
    · rfl
    · rfl

theorem list_perm_erase (m : Map α) (k : Nat) (value : α) (found : get? m k = some value) :
    m.list.Perm ((k, value) :: (erase m k).list) := by
  apply list_perm_cons
  · rw [get?_erase, if_pos rfl]
  · intro j
    rw [get?_erase]
    split_ifs with named
    · rw [named, found]
    · rfl

theorem erase_list_of_absent (m : Map α) (k : Nat) (absent : get? m k = none) :
    (erase m k).list = m.list := by
  apply List.filter_eq_self.2
  intro e listed
  have other : e.1 ≠ k := by
    intro named
    have found := (mem_list m e.1 e.2).1 listed
    rw [named, absent] at found
    cases found
  exact decide_eq_true other

end Seedchamp.Foundation.KeyedMap
