import Mathlib.Data.List.Basic

/-!
Concurrent tasks as a list of program counters. A task is named by its position; it moves by
rewriting its own entry and never leaves the list.
-/

namespace Seedchamp.Foundation.Tasks

variable {α : Type}

/-- A task that moves leaves the others as they were. -/
theorem forall_mem_set (tasks : List α) (k : Nat) (after : α) (P : α → Prop)
    (before : ∀ task ∈ tasks, P task) (new : P after) : ∀ task ∈ tasks.set k after, P task := by
  intro task member
  rcases List.mem_or_eq_of_mem_set member with old | same
  · exact before task old
  · rw [same]
    exact new

theorem forall_mem_append (tasks : List α) (fresh : α) (P : α → Prop)
    (before : ∀ task ∈ tasks, P task) (new : P fresh) : ∀ task ∈ tasks ++ [fresh], P task := by
  intro task member
  rcases List.mem_append.1 member with old | last
  · exact before task old
  · rw [List.mem_singleton.1 last]
    exact new

/-- A task that is not the one that moved is still there. -/
theorem mem_set_of_ne (tasks : List α) (k : Nat) (before after task : α)
    (running : tasks[k]? = some before) (member : task ∈ tasks) (other : task ≠ before) :
    task ∈ tasks.set k after := by
  obtain ⟨j, found⟩ := List.mem_iff_getElem?.1 member
  have elsewhere : k ≠ j := by
    rintro rfl
    exact other (Option.some.inj (found.symm.trans running))
  apply List.mem_iff_getElem?.2
  exact ⟨j, (List.getElem?_set_ne elsewhere).trans found⟩

theorem mem_set_self (tasks : List α) (k : Nat) (before after : α)
    (running : tasks[k]? = some before) : after ∈ tasks.set k after := by
  have inside : k < tasks.length := (List.getElem?_eq_some_iff.1 running).1
  exact List.mem_iff_getElem?.2 ⟨k, List.getElem?_set_self inside⟩

/-- After one task has moved, a task is the moved one or stands at another position. -/
theorem mem_set_cases (tasks : List α) (k : Nat) (after task : α) (member : task ∈ tasks.set k after) :
    task = after ∨ ∃ j, j ≠ k ∧ tasks[j]? = some task := by
  obtain ⟨j, found⟩ := List.mem_iff_getElem?.1 member
  by_cases here : j = k
  · rw [here, List.getElem?_set, if_pos rfl] at found
    split_ifs at found
    exact Or.inl (Option.some.inj found).symm
  · rw [List.getElem?_set_ne (fun same => here same.symm)] at found
    exact Or.inr ⟨j, here, found⟩

theorem mem_of_getElem? (tasks : List α) (k : Nat) (task : α) (running : tasks[k]? = some task) :
    task ∈ tasks := List.mem_iff_getElem?.2 ⟨k, running⟩

/-! ### Counting tasks -/

theorem countP_pos (tasks : List α) (k : Nat) (task : α) (p : α → Bool)
    (running : tasks[k]? = some task) (counts : p task = true) : 0 < tasks.countP p :=
  List.countP_pos_iff.2 ⟨task, mem_of_getElem? tasks k task running, counts⟩

/-- A move adds what the task counts for after it and takes away what it counted for before. -/
theorem countP_set (tasks : List α) (k : Nat) (before after : α) (p : α → Bool)
    (running : tasks[k]? = some before) :
    (tasks.set k after).countP p + (if p before then 1 else 0) =
      tasks.countP p + (if p after then 1 else 0) := by
  obtain ⟨inside, value⟩ := List.getElem?_eq_some_iff.1 running
  rw [List.countP_set inside, value]
  by_cases counts : p before = true
  · have positive := countP_pos tasks k before p running counts
    rw [if_pos counts]
    omega
  · rw [if_neg counts]
    omega

theorem countP_or_le (tasks : List α) (p q : α → Bool) :
    tasks.countP (fun task => p task || q task) ≤ tasks.countP p + tasks.countP q := by
  induction tasks with
  | nil => exact Nat.le_refl _
  | cons task rest ih =>
    rw [List.countP_cons, List.countP_cons, List.countP_cons]
    cases p task <;> cases q task <;> simp <;> omega

theorem countP_append_singleton (tasks : List α) (fresh : α) (p : α → Bool) :
    (tasks ++ [fresh]).countP p = tasks.countP p + (if p fresh then 1 else 0) := by
  rw [List.countP_append, List.countP_singleton]

/-- Where at most one task counts, two positions that count are the same. -/
theorem position_unique (tasks : List α) (p : α → Bool) (one : tasks.countP p ≤ 1) (j k : Nat)
    (first second : α) (atJ : tasks[j]? = some first) (atK : tasks[k]? = some second)
    (countsFirst : p first = true) (countsSecond : p second = true) : j = k := by
  induction tasks generalizing j k with
  | nil => cases atJ
  | cons task rest ih =>
    rw [List.countP_cons] at one
    cases j with
    | zero =>
      cases k with
      | zero => rfl
      | succ k =>
        cases atJ
        have later := countP_pos rest k second p atK countsSecond
        rw [if_pos countsFirst] at one
        omega
    | succ j =>
      cases k with
      | zero =>
        cases atK
        have later := countP_pos rest j first p atJ countsFirst
        rw [if_pos countsSecond] at one
        omega
      | succ k => rw [ih (by omega) j k atJ atK]

end Seedchamp.Foundation.Tasks
