import Mathlib.Logic.Basic
import Mathlib.Data.Option.Basic
import Mathlib.Order.WellFounded

/-!
Executable transition systems. A step function answers `none` where an event is not enabled. A
guard restricts a run: every event of a guarded run meets the guard in the state before it.
-/

namespace Seedchamp.Foundation.TransitionSystem

variable {σ ε : Type} (step : σ → ε → Option σ)

def exec (s : σ) : List ε → Option σ
  | [] => some s
  | event :: rest => (step s event).bind (fun s' => exec s' rest)

def Guarded (guard : σ → ε → Prop) (s : σ) : List ε → Prop
  | [] => True
  | event :: rest => guard s event ∧ ∀ s', step s event = some s' → Guarded guard s' rest

/-- A guarded run, decided one event at a time. -/
def guardedB (guard : σ → ε → Bool) (s : σ) : List ε → Bool
  | [] => true
  | event :: rest => guard s event && (step s event).all (fun s' => guardedB guard s' rest)

theorem exec_nil (s : σ) : exec step s [] = some s := rfl

theorem exec_cons (s s' : σ) (event : ε) (rest : List ε) :
    exec step s (event :: rest) = some s' ↔
      ∃ next, step s event = some next ∧ exec step next rest = some s' := by
  rw [exec, Option.bind_eq_some_iff]

theorem exec_append (s : σ) (first second : List ε) :
    exec step s (first ++ second) = (exec step s first).bind (fun s' => exec step s' second) := by
  induction first generalizing s with
  | nil => rfl
  | cons event rest ih =>
    rw [List.cons_append, exec, exec, Option.bind_assoc]
    exact congrArg (Option.bind (step s event)) (funext ih)

theorem guarded_of_guardedB (guard : σ → ε → Bool) (s : σ) (events : List ε)
    (checked : guardedB step guard s events = true) :
    Guarded step (fun s event => guard s event = true) s events := by
  induction events generalizing s with
  | nil => trivial
  | cons event rest ih =>
    rw [guardedB, Bool.and_eq_true] at checked
    refine ⟨checked.1, ?_⟩
    intro next taken
    have later := checked.2
    rw [taken] at later
    exact ih next later

theorem guarded_mono (strong weak : σ → ε → Prop) (implies : ∀ s event, strong s event → weak s event)
    (s : σ) (events : List ε) (guarded : Guarded step strong s events) :
    Guarded step weak s events := by
  induction events generalizing s with
  | nil => trivial
  | cons event rest ih =>
    exact ⟨implies s event guarded.1, fun next taken => ih next (guarded.2 next taken)⟩

/-- The last event of a guarded run meets the guard where the run stood before it. -/
theorem guarded_last (guard : σ → ε → Prop) (s s' : σ) (events : List ε) (last : ε)
    (guarded : Guarded step guard s (events ++ [last])) (ran : exec step s events = some s') :
    guard s' last := by
  induction events generalizing s with
  | nil =>
    cases ran
    exact guarded.1
  | cons event rest ih =>
    obtain ⟨next, taken, later⟩ := (exec_cons step s s' event rest).1 ran
    exact ih next (guarded.2 next taken) later

/-- The invariant rule: what holds at the start and survives every guarded step holds at the end of
every guarded run. -/
theorem exec_invariant (guard : σ → ε → Prop) (inv : σ → Prop)
    (preserved : ∀ s event s', inv s → guard s event → step s event = some s' → inv s')
    (s s' : σ) (events : List ε) (start : inv s) (guarded : Guarded step guard s events)
    (ran : exec step s events = some s') : inv s' := by
  induction events generalizing s with
  | nil =>
    cases ran
    exact start
  | cons event rest ih =>
    obtain ⟨next, taken, later⟩ := (exec_cons step s s' event rest).1 ran
    exact ih next (preserved s event next start guarded.1 taken) (guarded.2 next taken) later

/-- The invariant rule without a guard. -/
theorem exec_invariant_free (inv : σ → Prop)
    (preserved : ∀ s event s', inv s → step s event = some s' → inv s')
    (s s' : σ) (events : List ε) (start : inv s) (ran : exec step s events = some s') : inv s' := by
  induction events generalizing s with
  | nil =>
    cases ran
    exact start
  | cons event rest ih =>
    obtain ⟨next, taken, later⟩ := (exec_cons step s s' event rest).1 ran
    exact ih next (preserved s event next start taken) later

/-- The system with a history beside its state. The record of a step sees both of its ends. -/
def recorded {η : Type} (record : η → σ → ε → σ → η) (s : σ × η) (event : ε) : Option (σ × η) :=
  (step s.1 event).map (fun next => (next, record s.2 s.1 event next))

theorem recorded_some {η : Type} (record : η → σ → ε → σ → η) (s s' : σ × η) (event : ε) :
    recorded step record s event = some s' ↔
      step s.1 event = some s'.1 ∧ record s.2 s.1 event s'.1 = s'.2 := by
  rw [recorded, Option.map_eq_some_iff]
  constructor
  · rintro ⟨next, taken, rfl⟩
    exact ⟨taken, rfl⟩
  · rintro ⟨taken, same⟩
    exact ⟨s'.1, taken, by rw [same]⟩

/-- A history disables nothing: every run has one. -/
theorem exec_recorded {η : Type} (record : η → σ → ε → σ → η) (s s' : σ) (history : η) (events : List ε)
    (ran : exec step s events = some s') :
    ∃ history', exec (recorded step record) (s, history) events = some (s', history') := by
  induction events generalizing s history with
  | nil =>
    cases ran
    exact ⟨history, rfl⟩
  | cons event rest ih =>
    obtain ⟨next, taken, later⟩ := (exec_cons step s s' event rest).1 ran
    obtain ⟨history', ended⟩ := ih next (record history s event next) later
    exact ⟨history', (exec_cons _ _ _ event rest).2
      ⟨_, (recorded_some step record (s, history) _ event).2 ⟨taken, rfl⟩, ended⟩⟩

/-- Two guards that agree at every enabled event of an invariant's states agree on every run. -/
theorem guarded_congr (inv : σ → Prop) (first second : σ → ε → Prop)
    (preserved : ∀ s event s', inv s → step s event = some s' → inv s')
    (same : ∀ s event s', inv s → step s event = some s' → (first s event ↔ second s event))
    (s s' : σ) (events : List ε) (start : inv s) (ran : exec step s events = some s') :
    Guarded step first s events ↔ Guarded step second s events := by
  induction events generalizing s with
  | nil => exact Iff.rfl
  | cons event rest ih =>
    obtain ⟨next, taken, later⟩ := (exec_cons step s s' event rest).1 ran
    have tail := ih next (preserved s event next start taken) later
    rw [Guarded, Guarded, same s event next start taken]
    apply and_congr Iff.rfl
    constructor
    · intro guarded other reached
      rw [taken] at reached
      cases reached
      exact tail.1 (guarded next taken)
    · intro guarded other reached
      rw [taken] at reached
      cases reached
      exact tail.2 (guarded next taken)

/-- A property of the start and of every state a run reaches. -/
def Always (P : σ → Prop) (s : σ) : List ε → Prop
  | [] => P s
  | event :: rest => P s ∧ ∀ s', step s event = some s' → Always P s' rest

/-- Where a guard says of each step whether it keeps a property, the runs that keep the property
throughout are the guarded runs. -/
theorem always_iff_guarded (inv P : σ → Prop) (guard : σ → ε → Prop)
    (preserved : ∀ s event s', inv s → step s event = some s' → inv s')
    (exact' : ∀ s event s', inv s → P s → step s event = some s' → (P s' ↔ guard s event))
    (idle : ∀ s event, step s event = none → guard s event)
    (s : σ) (events : List ε) (start : inv s) (holds : P s) :
    Always step P s events ↔ Guarded step guard s events := by
  induction events generalizing s with
  | nil => exact ⟨fun _ => trivial, fun _ => holds⟩
  | cons event rest ih =>
    rw [Always, Guarded]
    cases taken : step s event with
    | none =>
      exact ⟨fun _ => ⟨idle s event taken, fun next clash => (by cases clash)⟩,
        fun _ => ⟨holds, fun next clash => (by cases clash)⟩⟩
    | some next =>
      have kept := preserved s event next start taken
      have same := exact' s event next start holds taken
      constructor
      · rintro ⟨-, later⟩
        have tail := later next rfl
        have here : P next := by
          cases rest with
          | nil => exact tail
          | cons _ _ => exact tail.1
        refine ⟨same.1 here, fun other reached => ?_⟩
        cases reached
        exact (ih next kept here).1 tail
      · rintro ⟨fine, later⟩
        refine ⟨holds, fun other reached => ?_⟩
        cases reached
        exact (ih next kept (same.2 fine)).2 (later next rfl)

/-- The progress rule: where some step makes a well-founded measure smaller until the goal is reached, some
run reaches the goal. -/
theorem exec_descends {α : Type} [LT α] [WellFoundedLT α] (measure : σ → α) (inv done : σ → Prop)
    (progress : ∀ s, inv s → ¬done s → ∃ event s', step s event = some s' ∧ inv s' ∧ measure s' < measure s)
    (s : σ) (start : inv s) : ∃ events s', exec step s events = some s' ∧ done s' := by
  induction smaller : measure s using WellFoundedLT.induction generalizing s with
  | ind n ih =>
    by_cases reached : done s
    · exact ⟨[], s, rfl, reached⟩
    · obtain ⟨event, next, taken, kept, less⟩ := progress s start reached
      obtain ⟨events, last, ran, ended⟩ := ih (measure next) (smaller ▸ less) next kept rfl
      exact ⟨event :: events, last, (exec_cons step s last event events).2 ⟨next, taken, ran⟩, ended⟩

end Seedchamp.Foundation.TransitionSystem
