import Mathlib.Logic.Basic
import Mathlib.Logic.ExistsUnique

/-!
Leases on resources that are used up one by one. A registry says which resources are taken; every
agent keeps its own list of what it holds. The two are updated apart from each other, and a resource
that was closed is never handed out again.
-/

namespace Seedchamp.Foundation.Leases

variable {σ ι : Type}

/-- What belongs to one agent. `shared` are the holds taken in shared mode. -/
structure Own (ι : Type) where
  live : Prop
  holds : ι → Prop
  shared : ι → Prop
  busy : ι → Prop
  closing : ι → Prop

structure Registry (σ ι : Type) where
  taken : ι → Prop
  closed : ι → Prop
  own : σ → Own ι

inductive Action (ι : Type) where
  | rest
  | acquire (i : ι) (shared : Prop)
  | abandon (i : ι)
  | forget (i : ι)
  | beginClose (i : ι)
  | endClose (i : ι)
  | leave
  | join

/-- The agents other than the acting one keep what they have. -/
def Frame (l l' : Registry σ ι) (s : σ) : Prop := ∀ t, t ≠ s → l'.own t = l.own t

/-- Holds, mode and liveness of the acting agent stay, and it takes up nothing new. -/
structure Steady (o o' : Own ι) : Prop where
  live : o'.live ↔ o.live
  holds : ∀ i, o'.holds i ↔ o.holds i
  shared : ∀ i, o'.shared i ↔ o.shared i
  busy : ∀ i, o'.busy i → o.busy i

/-- One step of an agent. A resource leaves the registry when its agent abandons it, fails on it,
closes it or goes; the agent keeps a failed or closed resource among its holds. -/
inductive Step (l l' : Registry σ ι) (s : σ) : Action ι → Prop where
  | rest (frame : Frame l l' s) (taken : ∀ j, l'.taken j ↔ l.taken j)
      (closed : ∀ j, l'.closed j ↔ l.closed j) (steady : Steady (l.own s) (l'.own s))
      (closing : ∀ j, (l'.own s).closing j → (l.own s).closing j) : Step l l' s .rest
  | acquire (i : ι) (mode : Prop) (frame : Frame l l' s) (live : (l.own s).live)
      (live' : (l'.own s).live)
      (taken : ∀ j, l'.taken j ↔ l.taken j ∨ j = i) (closed : ∀ j, l'.closed j ↔ l.closed j)
      (holds : ∀ j, (l'.own s).holds j ↔ (l.own s).holds j ∨ j = i)
      (shared : (l'.own s).shared i ↔ mode)
      (kept : ∀ j, j ≠ i → ((l'.own s).shared j ↔ (l.own s).shared j))
      (busy : ∀ j, (l'.own s).busy j → (l.own s).busy j ∨ j = i)
      (closing : ∀ j, ¬(l'.own s).closing j) : Step l l' s (.acquire i mode)
  | abandon (i : ι) (frame : Frame l l' s) (held : (l.own s).holds i)
      (live : (l'.own s).live ↔ (l.own s).live)
      (taken : ∀ j, l'.taken j ↔ l.taken j ∧ (j ≠ i ∨ l.closed i))
      (closed : ∀ j, l'.closed j ↔ l.closed j)
      (holds : ∀ j, (l'.own s).holds j ↔ (l.own s).holds j ∧ j ≠ i)
      (shared : ∀ j, j ≠ i → ((l'.own s).shared j ↔ (l.own s).shared j))
      (busy : ∀ j, (l'.own s).busy j → (l.own s).busy j ∧ j ≠ i)
      (closing : ∀ j, ¬(l'.own s).closing j) : Step l l' s (.abandon i)
  | forget (i : ι) (frame : Frame l l' s) (failed : (l.own s).busy i)
      (taken : ∀ j, l'.taken j ↔ l.taken j ∧ j ≠ i) (closed : ∀ j, l'.closed j ↔ l.closed j)
      (steady : Steady (l.own s) (l'.own s))
      (closing : ∀ j, ¬(l'.own s).closing j) : Step l l' s (.forget i)
  | beginClose (i : ι) (frame : Frame l l' s) (done : (l.own s).busy i)
      (taken : ∀ j, l'.taken j ↔ l.taken j ∧ j ≠ i) (closed : ∀ j, l'.closed j ↔ l.closed j)
      (steady : Steady (l.own s) (l'.own s))
      (closing : ∀ j, (l'.own s).closing j ↔ j = i) : Step l l' s (.beginClose i)
  | endClose (i : ι) (frame : Frame l l' s) (begun : (l.own s).closing i)
      (taken : ∀ j, l'.taken j ↔ l.taken j) (closed : ∀ j, l'.closed j → l.closed j ∨ j = i)
      (steady : Steady (l.own s) (l'.own s))
      (closing : ∀ j, ¬(l'.own s).closing j) : Step l l' s (.endClose i)
  | leave (frame : Frame l l' s)
      (taken : ∀ j, l'.taken j ↔ l.taken j ∧ ¬((l.own s).holds j ∧ ¬l.closed j))
      (closed : ∀ j, l'.closed j ↔ l.closed j) (gone : ¬(l'.own s).live)
      (holds : ∀ j, ¬(l'.own s).holds j) (busy : ∀ j, ¬(l'.own s).busy j)
      (closing : ∀ j, ¬(l'.own s).closing j) : Step l l' s .leave
  | join (frame : Frame l l' s) (fresh : ¬(l.own s).live) (taken : ∀ j, l'.taken j ↔ l.taken j)
      (closed : ∀ j, l'.closed j ↔ l.closed j) (live : (l'.own s).live)
      (holds : ∀ j, ¬(l'.own s).holds j) (busy : ∀ j, ¬(l'.own s).busy j)
      (closing : ∀ j, ¬(l'.own s).closing j) : Step l l' s .join

/-- The condition on an acquisition: the resource is neither closed nor being closed, and outside
shared mode no other agent holds it outside shared mode. -/
def Permitted (l : Registry σ ι) (s : σ) : Action ι → Prop
  | .acquire i mode => ¬l.closed i ∧ (∀ t, ¬(l.own t).closing i) ∧
      (mode ∨ ∀ t, t ≠ s → (l.own t).holds i → (l.own t).shared i)
  | _ => True

/-- The actions after which the acting agent holds a resource that the registry no longer shows. -/
def Forgets : Action ι → Prop
  | .forget _ => True
  | .beginClose _ => True
  | _ => False

/-- Every agent holds what it works on. -/
@[grind] def Covered (l : Registry σ ι) : Prop := ∀ s i, (l.own s).busy i → (l.own s).holds i

/-- Registry and holds agree. -/
structure Valid (l : Registry σ ι) : Prop where
  held : ∀ s i, (l.own s).holds i → (l.own s).live
  busy : Covered l
  unique : ∀ s t i, (l.own s).holds i → ¬(l.own s).shared i → (l.own t).holds i →
    ¬(l.own t).shared i → s = t
  owned : ∀ i, l.taken i → ∃ s, (l.own s).holds i
  shut : ∀ i, l.closed i → ¬l.taken i
  shutting : ∀ s i, (l.own s).closing i → ¬l.taken i

theorem frame_cases (l l' : Registry σ ι) (s : σ) (frame : Frame l l' s) (t : σ) :
    t = s ∨ l'.own t = l.own t := or_iff_not_imp_left.2 (frame t)

theorem covered_step (l l' : Registry σ ι) (s : σ) (action : Action ι) (covered : Covered l)
    (moved : Step l l' s action) : Covered l' := by
  intro t i works
  have mine := covered s
  have theirs := covered t i
  cases moved with
  | rest frame _ _ steady =>
    have same := frame_cases l l' s frame t
    have holds := steady.holds
    have busy := steady.busy
    grind
  | acquire j _ frame _ _ _ _ holds _ _ busy =>
    have same := frame_cases l l' s frame t
    grind
  | abandon j frame _ _ _ _ holds _ busy =>
    have same := frame_cases l l' s frame t
    grind
  | forget j frame _ _ _ steady =>
    have same := frame_cases l l' s frame t
    have holds := steady.holds
    have busy := steady.busy
    grind
  | beginClose j frame _ _ _ steady =>
    have same := frame_cases l l' s frame t
    have holds := steady.holds
    have busy := steady.busy
    grind
  | endClose j frame _ _ _ steady =>
    have same := frame_cases l l' s frame t
    have holds := steady.holds
    have busy := steady.busy
    grind
  | leave frame _ _ _ _ busy =>
    have same := frame_cases l l' s frame t
    grind
  | join frame _ _ _ _ _ busy =>
    have same := frame_cases l l' s frame t
    grind

/-- Where a hold outlives the mark of its resource: the agent forgot the resource, or the mark was
taken away by another agent. -/
theorem lost_hold (l l' : Registry σ ι) (s : σ) (action : Action ι) (moved : Step l l' s action)
    (t : σ) (i : ι) (holds' : (l'.own t).holds i) (lost : ¬l'.taken i) :
    (l.own t).holds i ∧ (l.taken i → t ≠ s ∨ Forgets action) := by
  cases moved with
  | rest frame taken _ steady =>
    have same := frame_cases l l' s frame t
    have kept := steady.holds i
    grind
  | acquire j _ frame _ _ taken _ holds =>
    have same := frame_cases l l' s frame t
    grind
  | abandon j frame _ _ taken _ holds =>
    have same := frame_cases l l' s frame t
    grind
  | forget j frame _ _ _ steady =>
    have same := frame_cases l l' s frame t
    have kept := steady.holds i
    exact ⟨by grind, fun _ => Or.inr trivial⟩
  | beginClose j frame _ _ _ steady =>
    have same := frame_cases l l' s frame t
    have kept := steady.holds i
    exact ⟨by grind, fun _ => Or.inr trivial⟩
  | endClose j frame _ taken _ steady =>
    have same := frame_cases l l' s frame t
    have kept := steady.holds i
    grind
  | leave frame taken _ _ holds =>
    have same := frame_cases l l' s frame t
    grind
  | join frame _ taken _ _ holds =>
    have same := frame_cases l l' s frame t
    grind

theorem valid_step (l l' : Registry σ ι) (s : σ) (action : Action ι) (valid : Valid l)
    (moved : Step l l' s action) (permitted : Permitted l s action) : Valid l' := by
  have covered := covered_step l l' s action valid.busy moved
  obtain ⟨held, busy, unique, owned, shut, shutting⟩ := valid
  cases moved with
  | rest frame taken closed steady closing =>
    have same := frame_cases l l' s frame
    obtain ⟨live', holds', shared', busy'⟩ := steady
    constructor <;> grind
  | acquire i mode frame live live' taken closed holds shared kept busy' closing =>
    have same := frame_cases l l' s frame
    obtain ⟨open', idle, alone⟩ := permitted
    constructor <;> grind
  | abandon i frame mine live taken closed holds shared busy' closing =>
    have same := frame_cases l l' s frame
    constructor <;> grind
  | forget i frame failed taken closed steady closing =>
    have same := frame_cases l l' s frame
    obtain ⟨live', holds', shared', busy'⟩ := steady
    constructor <;> grind
  | beginClose i frame done taken closed steady closing =>
    have same := frame_cases l l' s frame
    obtain ⟨live', holds', shared', busy'⟩ := steady
    constructor <;> grind
  | endClose i frame begun taken closed steady closing =>
    have same := frame_cases l l' s frame
    obtain ⟨live', holds', shared', busy'⟩ := steady
    constructor <;> grind
  | leave frame taken closed gone holds busy' closing =>
    have same := frame_cases l l' s frame
    constructor <;> grind
  | join frame fresh taken closed live holds busy' closing =>
    have same := frame_cases l l' s frame
    constructor <;> grind

/-- No agent holds the resource in shared mode. -/
def Exclusive (l : Registry σ ι) (i : ι) : Prop := ∀ s, (l.own s).holds i → ¬(l.own s).shared i

theorem holder_unique (l : Registry σ ι) (valid : Valid l) (i : ι) (exclusive : Exclusive l i)
    (s t : σ) (first : (l.own s).holds i) (second : (l.own t).holds i) : s = t :=
  valid.unique s t i first (exclusive s first) second (exclusive t second)

/-- A taken resource outside shared mode has exactly one holder. -/
theorem taken_holder (l : Registry σ ι) (valid : Valid l) (i : ι) (exclusive : Exclusive l i)
    (taken : l.taken i) : ∃! s, (l.own s).holds i := by
  obtain ⟨s, holds⟩ := valid.owned i taken
  exact ⟨s, holds, fun t other => holder_unique l valid i exclusive t s other holds⟩

/-- No step of one agent takes a resource of another out of the registry. -/
theorem taken_kept (l l' : Registry σ ι) (s t : σ) (action : Action ι) (valid : Valid l)
    (moved : Step l l' s action) (i : ι) (exclusive : Exclusive l i) (distinct : t ≠ s)
    (holds : (l.own t).holds i) (taken : l.taken i) : l'.taken i := by
  have alone : ¬(l.own s).holds i :=
    fun mine => distinct (holder_unique l valid i exclusive t s holds mine)
  have calm : ¬(l.own s).busy i := fun busy => alone (valid.busy s i busy)
  cases moved with
  | rest _ kept => exact (kept i).2 taken
  | acquire _ _ _ _ _ kept => exact (kept i).2 (Or.inl taken)
  | abandon other _ mine _ kept =>
    exact (kept i).2 ⟨taken, Or.inl fun same => alone (same ▸ mine)⟩
  | forget other _ failed kept => exact (kept i).2 ⟨taken, fun same => calm (same ▸ failed)⟩
  | beginClose other _ done kept => exact (kept i).2 ⟨taken, fun same => calm (same ▸ done)⟩
  | endClose _ _ _ kept => exact (kept i).2 taken
  | leave _ kept => exact (kept i).2 ⟨taken, fun dropped => alone dropped.1⟩
  | join _ _ kept => exact (kept i).2 taken

end Seedchamp.Foundation.Leases
