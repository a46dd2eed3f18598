import Mathlib.Data.List.Nodup
import Mathlib.Data.List.Infix

/-!
Candidates that are tried in order until one succeeds, each only if no candidate with its key came
before it; and what a coarser key passes over.
-/

namespace Seedchamp.Foundation.FirstSuccess

variable {α κ : Type} [DecidableEq κ]

/-- The values whose key is neither seen nor the key of an earlier one. -/
def distinctBy (key : α → κ) : List κ → List α → List α
  | _, [] => []
  | seen, a :: rest =>
    if key a ∈ seen then distinctBy key seen rest else a :: distinctBy key (key a :: seen) rest

/-- The values up to the first that succeeds. -/
def upTo (succeeds : α → Bool) : List α → List α
  | [] => []
  | a :: rest => if succeeds a then [a] else a :: upTo succeeds rest

/-! ### Distinct values -/

theorem distinctBy_sublist (key : α → κ) (seen : List κ) (l : List α) :
    (distinctBy key seen l).Sublist l := by
  induction l generalizing seen with
  | nil => exact .slnil
  | cons a rest ih =>
    rw [distinctBy]
    split_ifs
    · exact (ih seen).cons a
    · exact (ih _).cons_cons a

theorem notMem_of_mem_distinctBy (key : α → κ) (seen : List κ) (l : List α) (a : α)
    (member : a ∈ distinctBy key seen l) : key a ∉ seen := by
  induction l generalizing seen with
  | nil => cases member
  | cons b rest ih =>
    rw [distinctBy] at member
    split_ifs at member with old
    · exact ih seen member
    · rcases List.mem_cons.1 member with rfl | later
      · exact old
      · exact fun old' => ih _ later (List.mem_cons_of_mem _ old')

theorem nodup_distinctBy (key : α → κ) (seen : List κ) (l : List α) :
    ((distinctBy key seen l).map key).Nodup := by
  induction l generalizing seen with
  | nil => exact List.nodup_nil
  | cons a rest ih =>
    rw [distinctBy]
    split_ifs
    · exact ih seen
    · rw [List.map_cons, List.nodup_cons]
      refine ⟨fun again => ?_, ih _⟩
      obtain ⟨b, member, same⟩ := List.mem_map.1 again
      exact notMem_of_mem_distinctBy key _ rest b member (same ▸ List.mem_cons_self)

/-- Every key is kept with one of its values. -/
theorem exists_distinctBy (key : α → κ) (seen : List κ) (l : List α) (a : α) (member : a ∈ l)
    (fresh : key a ∉ seen) : ∃ b ∈ distinctBy key seen l, key b = key a := by
  induction l generalizing seen with
  | nil => cases member
  | cons b rest ih =>
    rw [distinctBy]
    rcases List.mem_cons.1 member with rfl | later
    · rw [if_neg fresh]
      exact ⟨a, List.mem_cons_self, rfl⟩
    · by_cases old : key b ∈ seen
      · rw [if_pos old]
        exact ih seen later fresh
      · rw [if_neg old]
        by_cases same : key b = key a
        · exact ⟨b, List.mem_cons_self, same⟩
        · obtain ⟨c, kept, equal⟩ := ih (key b :: seen) later
            (List.not_mem_cons_of_ne_of_not_mem (Ne.symm same) fresh)
          exact ⟨c, List.mem_cons_of_mem _ kept, equal⟩

theorem eq_of_mem_distinctBy (key : α → κ) (seen : List κ) (l : List α) (a b : α)
    (first : a ∈ distinctBy key seen l) (second : b ∈ distinctBy key seen l) (same : key a = key b) :
    a = b :=
  List.inj_on_of_nodup_map (nodup_distinctBy key seen l) first second same

/-- Only the members of the seen list count. -/
theorem distinctBy_congr (key : α → κ) (seen seen' : List κ) (same : ∀ k, k ∈ seen ↔ k ∈ seen')
    (l : List α) : distinctBy key seen l = distinctBy key seen' l := by
  induction l generalizing seen seen' with
  | nil => rfl
  | cons a rest ih =>
    rw [distinctBy, distinctBy]
    by_cases old : key a ∈ seen
    · rw [if_pos old, if_pos ((same _).1 old), ih seen seen' same]
    · rw [if_neg old, if_neg (fun old' => old ((same _).2 old'))]
      rw [ih (key a :: seen) (key a :: seen') (fun k => by rw [List.mem_cons, List.mem_cons, same])]

theorem distinctBy_append (key : α → κ) (seen : List κ) (front back : List α) :
    distinctBy key seen (front ++ back) =
      distinctBy key seen front ++ distinctBy key ((distinctBy key seen front).map key ++ seen) back := by
  induction front generalizing seen with
  | nil => rfl
  | cons a rest ih =>
    rw [List.cons_append, distinctBy, distinctBy]
    split_ifs
    · exact ih seen
    · rw [ih, List.cons_append, List.map_cons, List.cons_append]
      congr 2
      apply distinctBy_congr
      intro k
      simp only [List.mem_append, List.mem_cons]
      exact or_left_comm

/-- Values that are distinct by a finer key lose nothing to a coarser one. -/
theorem distinctBy_finer {κ' : Type} [DecidableEq κ'] (fine : α → κ') (coarse : α → κ)
    (finer : ∀ a b, fine a = fine b → coarse a = coarse b) (seen : List κ) (seen' : List κ')
    (known : ∀ a, fine a ∈ seen' → coarse a ∈ seen) (l : List α) :
    distinctBy coarse seen (distinctBy fine seen' l) = distinctBy coarse seen l := by
  induction l generalizing seen seen' with
  | nil => rfl
  | cons a rest ih =>
    have known' : ∀ b, fine b ∈ fine a :: seen' → coarse b ∈ coarse a :: seen := by
      intro b old
      rcases List.mem_cons.1 old with same | before
      · exact List.mem_cons.2 (Or.inl (finer b a same))
      · exact List.mem_cons_of_mem _ (known b before)
    rw [distinctBy]
    by_cases old : fine a ∈ seen'
    · rw [if_pos old, distinctBy, if_pos (known a old)]
      exact ih seen seen' known
    · rw [if_neg old, distinctBy, distinctBy]
      split_ifs with coarser
      · refine ih seen (fine a :: seen') (fun b older => ?_)
        rcases List.mem_cons.1 (known' b older) with same | before
        · exact same ▸ coarser
        · exact before
      · rw [ih (coarse a :: seen) (fine a :: seen') known']

/-! ### Up to the first success -/

theorem upTo_extends (succeeds : α → Bool) (l : List α) : upTo succeeds l <+: l := by
  induction l with
  | nil => exact List.prefix_rfl
  | cons a rest ih =>
    rw [upTo]
    split_ifs
    · exact ⟨rest, rfl⟩
    · exact (List.cons_prefix_cons).2 ⟨rfl, ih⟩

/-- A success is the last one tried. -/
theorem upTo_stops (succeeds : α → Bool) (l front : List α) (a : α) (back : List α)
    (split : upTo succeeds l = front ++ a :: back) (success : succeeds a = true) : back = [] := by
  induction l generalizing front with
  | nil =>
    rw [upTo] at split
    exact absurd split.symm (List.append_ne_nil_of_right_ne_nil _ (List.cons_ne_nil _ _))
  | cons b rest ih =>
    rw [upTo] at split
    split_ifs at split with here
    · cases front with
      | nil => exact (List.cons.inj split).2.symm
      | cons c front =>
        exact absurd (List.cons.inj split).2.symm
          (List.append_ne_nil_of_right_ne_nil _ (List.cons_ne_nil _ _))
    · cases front with
      | nil =>
        rw [(List.cons.inj split).1] at here
        exact absurd success here
      | cons c front => exact ih front (List.cons.inj split).2

theorem upTo_of_none (succeeds : α → Bool) (l : List α) (none : ∀ a ∈ upTo succeeds l, succeeds a = false) :
    upTo succeeds l = l := by
  induction l with
  | nil => rfl
  | cons a rest ih =>
    rw [upTo] at none ⊢
    split_ifs at none ⊢ with success
    · exact absurd ((none a List.mem_cons_self).symm.trans success) Bool.false_ne_true
    · rw [ih (fun b member => none b (List.mem_cons_of_mem _ member))]

/-- Dropping repeated keys changes nothing that is tried when no key is due twice. -/
theorem upTo_distinctBy (succeeds : α → Bool) (key : α → κ) (seen : List κ) (l : List α)
    (fresh : ∀ a ∈ upTo succeeds l, key a ∉ seen) (distinct : ((upTo succeeds l).map key).Nodup) :
    upTo succeeds (distinctBy key seen l) = upTo succeeds l := by
  induction l generalizing seen with
  | nil => rfl
  | cons a rest ih =>
    have head : a ∈ upTo succeeds (a :: rest) := by
      rw [upTo]
      split_ifs <;> exact List.mem_cons_self
    rw [distinctBy, if_neg (fresh a head), upTo, upTo]
    rw [upTo] at fresh distinct
    split_ifs at fresh distinct ⊢
    · rfl
    · rw [List.map_cons, List.nodup_cons] at distinct
      rw [ih (key a :: seen) ?_ distinct.2]
      intro b member
      refine List.not_mem_cons_of_ne_of_not_mem (fun same => ?_) (fresh b (List.mem_cons_of_mem _ member))
      exact distinct.1 (List.mem_map.2 ⟨b, member, same⟩)

omit [DecidableEq κ] in
/-- The converse: with a key that is due twice something is passed over. -/
theorem nodup_of_covered (succeeds : α → Bool) (key : α → κ) (l tried : List α)
    (once : (tried.map key).Nodup) (distinct : l.Nodup)
    (covered : ∀ a ∈ upTo succeeds l, a ∈ tried) : ((upTo succeeds l).map key).Nodup := by
  refine List.Nodup.map_on ?_ (distinct.sublist (upTo_extends succeeds l).sublist)
  intro a first b second same
  exact List.inj_on_of_nodup_map once (covered a first) (covered b second) same

end Seedchamp.Foundation.FirstSuccess
