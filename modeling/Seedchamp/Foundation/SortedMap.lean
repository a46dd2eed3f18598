import Mathlib.Data.List.Basic
import Mathlib.Tactic.SplitIfs

/-!
Ordered maps as entries with strictly increasing keys.
-/

namespace Seedchamp.Foundation.SortedMap

variable {κ α : Type} [DecidableEq κ] [LT κ] [DecidableLT κ]

def Sorted (entries : List (κ × α)) : Prop := entries.Pairwise (fun a b => a.1 < b.1)

/-- Write a value under a key, in the place of an entry with the same key. -/
def insert (key : κ) (value : α) : List (κ × α) → List (κ × α)
  | [] => [(key, value)]
  | entry :: rest =>
    if key < entry.1 then (key, value) :: entry :: rest
    else if key = entry.1 then (key, value) :: rest
    else entry :: insert key value rest

def get? (key : κ) (entries : List (κ × α)) : Option α :=
  (entries.find? (fun entry => decide (entry.1 = key))).map Prod.snd

theorem mem_insert (key : κ) (value : α) (entries : List (κ × α)) (entry : κ × α)
    (listed : entry ∈ insert key value entries) : entry = (key, value) ∨ entry ∈ entries := by
  induction entries with
  | nil =>
    rw [insert, List.mem_singleton] at listed
    exact Or.inl listed
  | cons first rest ih =>
    rw [insert] at listed
    split_ifs at listed
    · rcases List.mem_cons.1 listed with same | old
      · exact Or.inl same
      · exact Or.inr old
    · rcases List.mem_cons.1 listed with same | old
      · exact Or.inl same
      · exact Or.inr (List.mem_cons_of_mem _ old)
    · rcases List.mem_cons.1 listed with same | later
      · exact Or.inr (same ▸ List.mem_cons_self)
      · rcases ih later with same | old
        · exact Or.inl same
        · exact Or.inr (List.mem_cons_of_mem _ old)

omit [LT κ] [DecidableLT κ] in
theorem get?_cons (key : κ) (entry : κ × α) (rest : List (κ × α)) :
    get? key (entry :: rest) = if entry.1 = key then some entry.2 else get? key rest := by
  by_cases same : entry.1 = key
  · rw [get?, List.find?_cons_of_pos (by rw [decide_eq_true_eq]; exact same), if_pos same]
    rfl
  · rw [get?, List.find?_cons_of_neg (by rw [decide_eq_true_eq]; exact same), if_neg same]
    rfl

theorem get?_insert (key other : κ) (value : α) (entries : List (κ × α)) :
    get? other (insert key value entries) =
      if key = other then some value else get? other entries := by
  induction entries with
  | nil => exact get?_cons other (key, value) []
  | cons first rest ih =>
    rw [insert]
    by_cases before : key < first.1
    · rw [if_pos before]
      exact get?_cons other _ _
    rw [if_neg before]
    by_cases here : key = first.1
    · rw [if_pos here, get?_cons, get?_cons, ← here]
      split_ifs
      · rfl
      · rfl
    · rw [if_neg here, get?_cons, get?_cons, ih]
      by_cases same : first.1 = other
      · rw [if_pos same, if_neg (fun key_same => here (key_same.trans same.symm)), if_pos same]
      · rw [if_neg same, if_neg same]

variable [LE κ] [Std.IsLinearOrder κ] [Std.LawfulOrderLT κ]

theorem sorted_insert (key : κ) (value : α) (entries : List (κ × α)) (sorted : Sorted entries) :
    Sorted (insert key value entries) := by
  induction entries with
  | nil => exact List.pairwise_singleton _ _
  | cons first rest ih =>
    obtain ⟨least, tail⟩ := List.pairwise_cons.1 sorted
    rw [insert]
    split_ifs with before same
    · refine List.pairwise_cons.2 ⟨?_, sorted⟩
      intro entry member
      rcases List.mem_cons.1 member with head | later
      · rw [head]
        exact before
      · exact Std.lt_trans before (least entry later)
    · refine List.pairwise_cons.2 ⟨?_, tail⟩
      intro entry member
      dsimp only
      rw [same]
      exact least entry member
    · refine List.pairwise_cons.2 ⟨?_, ih tail⟩
      intro entry member
      rcases mem_insert key value rest entry member with written | old
      · rw [written]
        exact Std.lt_of_le_of_ne (Std.not_lt.1 before) (Ne.symm same)
      · exact least entry old

omit [LE κ] [Std.IsLinearOrder κ] [Std.LawfulOrderLT κ] in
/-- A key above all others is written at the end. -/
theorem insert_last [Std.Irrefl (fun a b : κ => a < b)] [Std.Asymm (fun a b : κ => a < b)]
    (key : κ) (value : α) (entries : List (κ × α)) (above : ∀ entry ∈ entries, entry.1 < key) :
    insert key value entries = entries ++ [(key, value)] := by
  induction entries with
  | nil => rfl
  | cons first rest ih =>
    have below := above first List.mem_cons_self
    rw [insert, if_neg (Std.Asymm.asymm _ _ below), if_neg, ih, List.cons_append]
    · intro entry member
      exact above entry (List.mem_cons_of_mem _ member)
    · intro same
      rw [same] at below
      exact Std.Irrefl.irrefl _ below

omit [DecidableEq κ] [DecidableLT κ] [Std.IsLinearOrder κ] in
/-- Keys that are in order differ from each other. -/
theorem ne_of_sorted (first : κ × α) (rest : List (κ × α)) (sorted : Sorted (first :: rest))
    (entry : κ × α) (member : entry ∈ rest) : entry.1 ≠ first.1 := by
  intro same
  have above := (List.pairwise_cons.1 sorted).1 entry member
  rw [same] at above
  exact Std.lt_irrefl above

omit [LT κ] [DecidableLT κ] [LE κ] [Std.IsLinearOrder κ] [Std.LawfulOrderLT κ] in
theorem filter_eq_self (key : κ) (entries : List (κ × α)) (others : ∀ entry ∈ entries, entry.1 ≠ key) :
    entries.filter (fun entry => entry.1 ≠ key) = entries :=
  List.filter_eq_self.2 (fun entry member => decide_eq_true (others entry member))

/-- An insertion puts its entry in the place of the entry with its key. -/
theorem insert_perm (key : κ) (value : α) (entries : List (κ × α)) (sorted : Sorted entries) :
    (insert key value entries).Perm ((key, value) :: entries.filter (fun entry => entry.1 ≠ key)) := by
  induction entries with
  | nil => exact List.Perm.refl _
  | cons first rest ih =>
    rw [insert]
    by_cases before : key < first.1
    · rw [if_pos before, filter_eq_self]
      intro entry member same
      rcases List.mem_cons.1 member with rfl | later
      · rw [same] at before
        exact Std.lt_irrefl before
      · have above := (List.pairwise_cons.1 sorted).1 entry later
        rw [same] at above
        exact Std.lt_irrefl (Std.lt_trans before above)
    · rw [if_neg before]
      by_cases here : key = first.1
      · rw [if_pos here, List.filter_cons, if_neg (by rw [decide_eq_true_eq, not_not]; exact here.symm),
          filter_eq_self]
        intro entry member
        rw [here]
        exact ne_of_sorted first rest sorted entry member
      · rw [if_neg here, List.filter_cons, if_pos (decide_eq_true (Ne.symm here))]
        exact ((ih (List.pairwise_cons.1 sorted).2).cons first).trans (List.Perm.swap _ _ _)

omit [DecidableLT κ] [Std.IsLinearOrder κ] in
/-- A map is the entry of a key and the other entries. -/
theorem perm_of_get? (key : κ) (value : α) (entries : List (κ × α)) (sorted : Sorted entries)
    (found : get? key entries = some value) :
    entries.Perm ((key, value) :: entries.filter (fun entry => entry.1 ≠ key)) := by
  induction entries with
  | nil => cases found
  | cons first rest ih =>
    rw [get?_cons] at found
    by_cases here : first.1 = key
    · rw [if_pos here] at found
      cases found
      rw [List.filter_cons, if_neg (by rw [decide_eq_true_eq, not_not]; exact here), filter_eq_self]
      · rw [← here]
      · intro entry member
        rw [← here]
        exact ne_of_sorted first rest sorted entry member
    · rw [if_neg here] at found
      rw [List.filter_cons, if_pos (decide_eq_true here)]
      exact ((ih (List.pairwise_cons.1 sorted).2 found).cons first).trans (List.Perm.swap _ _ _)

omit [LT κ] [DecidableLT κ] [LE κ] [Std.IsLinearOrder κ] [Std.LawfulOrderLT κ] in
theorem ne_of_get?_none (key : κ) (entries : List (κ × α)) (missing : get? key entries = none) :
    ∀ entry ∈ entries, entry.1 ≠ key := by
  induction entries with
  | nil => exact fun entry clash => (by cases clash)
  | cons first rest ih =>
    rw [get?_cons] at missing
    split_ifs at missing with here
    intro entry member
    rcases List.mem_cons.1 member with rfl | later
    · exact here
    · exact ih missing entry later

omit [LT κ] [DecidableLT κ] [LE κ] [Std.IsLinearOrder κ] [Std.LawfulOrderLT κ] in
theorem mem_of_get? (key : κ) (value : α) (entries : List (κ × α)) (found : get? key entries = some value) :
    (key, value) ∈ entries := by
  obtain ⟨entry, listed, same⟩ := Option.map_eq_some_iff.1 found
  have named := List.find?_some listed
  rw [decide_eq_true_eq] at named
  rw [← named, ← same]
  exact List.mem_of_find?_eq_some listed

end Seedchamp.Foundation.SortedMap
