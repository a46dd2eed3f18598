import Seedchamp.Foundation.Tasks
import Seedchamp.Foundation.TransitionSystem

/-!
The per-host gate for announces. The channels are those of the `flume` crate; the limiter is any
number of `acquire` calls, on any threads, between whose steps the others run.
-/

namespace Seedchamp.Tracker.Limit
open Foundation.TransitionSystem Foundation.Tasks

/-- A bounded channel of unit messages. A send that would block has no result; a polled receive has
its message or stays pending, and a pending receive can be dropped. -/
structure Flume (χ : Type) where
  bounded : Nat → χ
  capacity : χ → Nat
  len : χ → Nat
  send : χ → Option χ
  pollRecv : χ → Bool × χ
  dropRecv : χ → χ

/-- What the limiter relies on. -/
structure Flume.Lawful {χ : Type} (flume : Flume χ) : Prop where
  bounded_len : ∀ n, flume.len (flume.bounded n) = 0
  bounded_capacity : ∀ n, flume.capacity (flume.bounded n) = n
  send_room : ∀ c, flume.len c < flume.capacity c → ∃ c', flume.send c = some c' ∧
    flume.len c' = flume.len c + 1 ∧ flume.capacity c' = flume.capacity c
  send_full : ∀ c, flume.capacity c ≤ flume.len c → flume.send c = none
  recv_message : ∀ c, 0 < flume.len c → (flume.pollRecv c).1 = true ∧
    flume.len (flume.pollRecv c).2 + 1 = flume.len c ∧
    flume.capacity (flume.pollRecv c).2 = flume.capacity c
  recv_empty : ∀ c, flume.len c = 0 → (flume.pollRecv c).1 = false ∧
    flume.len (flume.pollRecv c).2 = 0 ∧ flume.capacity (flume.pollRecv c).2 = flume.capacity c
  drop_keeps : ∀ c, flume.len (flume.dropRecv c) = flume.len c ∧
    flume.capacity (flume.dropRecv c) = flume.capacity c

/-- A call of `acquire`, up to the end of its permit. A `HostSem` is its position in `sems`. -/
inductive Call where
  | created (key : String)
  | waiting (key : String) (sem : Nat)
  | permit (key : String) (release : Option Nat)
  | ended
  deriving DecidableEq, Repr

namespace Call

/-- Whether the call has a permit for the host. -/
def holds (key : String) : Call → Bool
  | permit key' _ => key' = key
  | _ => false

/-- Whether the call has a permit that returns its token to the channel. -/
def releases (sem : Nat) : Call → Bool
  | permit _ (some sem') => sem' = sem
  | _ => false

end Call

/-- The host map and the channels, with the calls in the order they were made. -/
structure State (χ : Type) where
  hosts : String → Option Nat
  sems : List χ
  calls : List Call

inductive Event where
  | acquire (key : String)
  | poll (k : Nat)
  | recv (k : Nat)
  | cancel (k : Nat)
  | drop (k : Nat)
  deriving DecidableEq, Repr

variable {χ : Type} (flume : Flume χ) (max : Nat)

/-- `for _ in 0..max { tx.send(()) }`. -/
def prefill : Nat → χ → Option χ
  | 0, c => some c
  | n + 1, c => (flume.send c).bind (prefill n)

/-- The entry of the host, made under the lock when it is missing. -/
def semFor (s : State χ) (key : String) : Option (Nat × State χ) :=
  match s.hosts key with
  | some sem => some (sem, s)
  | none =>
    let max := Nat.max max 1
    (prefill flume max (flume.bounded max)).map (fun c => (s.sems.length, { s with
      hosts := fun key' => if key' = key then some s.sems.length else s.hosts key'
      sems := s.sems ++ [c] }))

def unlimited (key : String) : Bool := max = 0 || key.isEmpty

/-- `poll` is the first poll of the future, up to the channel; a call that waits is polled by `recv`
as often as it is woken. A drop of a permit whose send would block is not a step. -/
def step (s : State χ) : Event → Option (State χ)
  | .acquire key => some { s with calls := s.calls ++ [.created key] }
  | .poll k =>
    match s.calls[k]? with
    | some (.created key) =>
      if unlimited max key then some { s with calls := s.calls.set k (.permit key none) }
      else (semFor flume max s key).map (fun found =>
        { found.2 with calls := s.calls.set k (.waiting key found.1) })
    | _ => none
  | .recv k =>
    match s.calls[k]? with
    | some (.waiting key sem) =>
      s.sems[sem]?.map (fun c =>
        { s with
          sems := s.sems.set sem (flume.pollRecv c).2
          calls := if (flume.pollRecv c).1 then s.calls.set k (.permit key (some sem)) else s.calls })
    | _ => none
  | .cancel k =>
    match s.calls[k]? with
    | some (.created _) => some { s with calls := s.calls.set k .ended }
    | some (.waiting _ sem) =>
      s.sems[sem]?.map (fun c =>
        { s with sems := s.sems.set sem (flume.dropRecv c), calls := s.calls.set k .ended })
    | _ => none
  | .drop k =>
    match s.calls[k]? with
    | some (.permit _ (some sem)) =>
      (s.sems[sem]?.bind flume.send).map (fun c =>
        { s with sems := s.sems.set sem c, calls := s.calls.set k .ended })
    | some (.permit _ none) => some { s with calls := s.calls.set k .ended }
    | _ => none

def initial : State χ := ⟨fun _ => none, [], []⟩

namespace State

/-- The permits held for a host. -/
def held (s : State χ) (key : String) : Nat := s.calls.countP (Call.holds key)

/-- The tokens in the host's channel. -/
def tokens (s : State χ) (key : String) : Nat :=
  ((s.hosts key).bind (fun sem => s.sems[sem]?.map flume.len)).getD 0

end State

/-! ### The invariant -/

/-- What a call knows is what the map says. -/
def Placed (s : State χ) : Call → Prop
  | .waiting key sem => s.hosts key = some sem
  | .permit key (some sem) => s.hosts key = some sem
  | .permit key none => unlimited max key = true
  | _ => True

structure Invariant (s : State χ) : Prop where
  limited : ∀ key sem, s.hosts key = some sem → sem < s.sems.length ∧ unlimited max key = false
  distinct : ∀ key key' sem, s.hosts key = some sem → s.hosts key' = some sem → key = key'
  placed : ∀ call ∈ s.calls, Placed max s call
  balance : ∀ sem c, s.sems[sem]? = some c → flume.capacity c = max ∧
    s.calls.countP (Call.releases sem) + flume.len c = max

section Steps
variable {flume : Flume χ} {max : Nat}

/-- The prefill of a fresh channel does not block and fills it. -/
theorem prefill_fills (laws : flume.Lawful) (n : Nat) (c : χ)
    (room : flume.len c + n ≤ flume.capacity c) :
    ∃ c', prefill flume n c = some c' ∧ flume.len c' = flume.len c + n ∧
      flume.capacity c' = flume.capacity c := by
  induction n generalizing c with
  | zero => exact ⟨c, rfl, rfl, rfl⟩
  | succ n ih =>
    obtain ⟨next, sent, longer, same⟩ := laws.send_room c (by omega)
    obtain ⟨c', filled, length, capacity⟩ := ih next (by omega)
    refine ⟨c', ?_, by omega, capacity.trans same⟩
    rw [prefill, sent, Option.bind_some, filled]

theorem sem_prefilled (laws : flume.Lawful) (limited : max ≠ 0) :
    ∃ c, prefill flume (Nat.max max 1) (flume.bounded (Nat.max max 1)) = some c ∧
      flume.len c = max ∧ flume.capacity c = max := by
  have same : Nat.max max 1 = max := Nat.max_eq_left (Nat.pos_of_ne_zero limited)
  obtain ⟨c, filled, length, capacity⟩ := prefill_fills laws (Nat.max max 1)
    (flume.bounded (Nat.max max 1)) (by rw [laws.bounded_len, laws.bounded_capacity, Nat.zero_add])
  refine ⟨c, filled, ?_, ?_⟩
  · rw [length, laws.bounded_len, Nat.zero_add, same]
  · rw [capacity, laws.bounded_capacity, same]

theorem limited_of_key (key : String) (limited : unlimited max key = false) : max ≠ 0 := by
  simp only [unlimited, Bool.or_eq_false_iff, decide_eq_false_iff_not] at limited
  exact limited.1

/-- One call moves while its channel takes in or gives out what the call gains or loses. -/
theorem balance_set {s : State χ} (invariant : Invariant flume max s) (k : Nat) (before after : Call)
    (running : s.calls[k]? = some before) (sem : Nat) (c c' : χ) (there : s.sems[sem]? = some c)
    (capacity : flume.capacity c' = flume.capacity c)
    (moved : (if after.releases sem then 1 else 0) + flume.len c' =
      (if before.releases sem then 1 else 0) + flume.len c)
    (others : ∀ other, other ≠ sem → after.releases other = before.releases other) :
    ∀ i d, (s.sems.set sem c')[i]? = some d → flume.capacity d = max ∧
      (s.calls.set k after).countP (Call.releases i) + flume.len d = max := by
  intro i d found
  have counted := countP_set s.calls k before after (Call.releases i) running
  by_cases same : sem = i
  · subst same
    have inside := (List.getElem?_eq_some_iff.1 there).1
    rw [List.getElem?_set_self inside, Option.some.injEq] at found
    subst found
    obtain ⟨full, level⟩ := invariant.balance sem c there
    refine ⟨capacity.trans full, ?_⟩
    omega
  · rw [List.getElem?_set_ne same] at found
    obtain ⟨full, level⟩ := invariant.balance i d found
    rw [others i (Ne.symm same)] at counted
    refine ⟨full, ?_⟩
    omega

/-- A call that never had a token leaves the books as they are. -/
theorem balance_calls {s : State χ} (invariant : Invariant flume max s) (k : Nat) (before after : Call)
    (running : s.calls[k]? = some before)
    (same : ∀ sem, after.releases sem = before.releases sem) :
    ∀ i d, s.sems[i]? = some d → flume.capacity d = max ∧
      (s.calls.set k after).countP (Call.releases i) + flume.len d = max := by
  intro i d found
  have counted := countP_set s.calls k before after (Call.releases i) running
  obtain ⟨full, level⟩ := invariant.balance i d found
  rw [same i] at counted
  refine ⟨full, ?_⟩
  omega

/-- The entry is there for good once it is made, and two hosts never share one. -/
theorem semFor_spec (laws : flume.Lawful) {s : State χ} (invariant : Invariant flume max s)
    (key : String) (limited : unlimited max key = false) :
    ∃ sem s', semFor flume max s key = some (sem, s') ∧ s'.hosts key = some sem ∧
      s'.calls = s.calls ∧ Invariant flume max s' := by
  rw [semFor]
  cases known : s.hosts key with
  | some sem => exact ⟨sem, s, rfl, known, rfl, invariant⟩
  | none =>
    obtain ⟨c, filled, length, capacity⟩ := sem_prefilled laws (limited_of_key key limited)
    refine ⟨s.sems.length, { s with
      hosts := fun key' => if key' = key then some s.sems.length else s.hosts key'
      sems := s.sems ++ [c] }, by simp only [filled, Option.map_some], if_pos rfl, rfl, ⟨?_, ?_, ?_, ?_⟩⟩
    · intro key' sem found
      rw [List.length_append, List.length_singleton]
      dsimp only at found
      split_ifs at found with same
      · cases found
        exact ⟨Nat.lt_succ_self _, same ▸ limited⟩
      · obtain ⟨below, bounded⟩ := invariant.limited key' sem found
        exact ⟨Nat.lt_succ_of_lt below, bounded⟩
    · intro first second sem foundFirst foundSecond
      dsimp only at foundFirst foundSecond
      split_ifs at foundFirst foundSecond with one two two
      · rw [one, two]
      · cases foundFirst
        exact absurd (invariant.limited second _ foundSecond).1 (Nat.lt_irrefl _)
      · cases foundSecond
        exact absurd (invariant.limited first _ foundFirst).1 (Nat.lt_irrefl _)
      · exact invariant.distinct first second sem foundFirst foundSecond
    · intro call member
      have before := invariant.placed call member
      have kept : ∀ key' sem, s.hosts key' = some sem →
          (if key' = key then some s.sems.length else s.hosts key') = some sem := by
        intro key' sem found
        have other : key' ≠ key := by
          rintro rfl
          rw [known] at found
          cases found
        rw [if_neg other, found]
      cases call with
      | created key' => trivial
      | waiting key' sem => exact kept key' sem before
      | permit key' release =>
        cases release with
        | none => exact before
        | some sem => exact kept key' sem before
      | ended => trivial
    · intro i d found
      rcases Nat.lt_trichotomy i s.sems.length with below | new | past
      · rw [List.getElem?_append_left below] at found
        exact invariant.balance i d found
      · subst new
        rw [List.getElem?_concat_length, Option.some.injEq] at found
        subst found
        have idle : s.calls.countP (Call.releases s.sems.length) = 0 := by
          rw [List.countP_eq_zero]
          intro call member releases
          have here := invariant.placed call member
          cases call with
          | permit key' release =>
            cases release with
            | none => cases releases
            | some sem =>
              rw [Call.releases, decide_eq_true_eq] at releases
              subst releases
              exact absurd (invariant.limited key' _ here).1 (Nat.lt_irrefl _)
          | created | waiting | ended => cases releases
        exact ⟨capacity, by rw [idle, length, Nat.zero_add]⟩
      · rw [List.getElem?_eq_none (by rw [List.length_append, List.length_singleton]; omega)] at found
        cases found

theorem Invariant.placed_set {s : State χ} (invariant : Invariant flume max s) (k : Nat) (after : Call)
    (there : Placed max s after) : ∀ call ∈ s.calls.set k after, Placed max s call :=
  forall_mem_set s.calls k after (Placed max s) invariant.placed there

theorem invariant_step (laws : flume.Lawful) (s : State χ) (event : Event) (s' : State χ)
    (invariant : Invariant flume max s) (taken : step flume max s event = some s') :
    Invariant flume max s' := by
  cases event with
  | acquire key =>
    cases taken
    refine ⟨invariant.limited, invariant.distinct, ?_, ?_⟩
    · exact forall_mem_append s.calls (.created key) (Placed max s) invariant.placed trivial
    · intro i d found
      rw [countP_append_singleton]
      exact invariant.balance i d found
  | poll k =>
    rw [step] at taken
    cases running : s.calls[k]? with
    | none => rw [running] at taken; cases taken
    | some call =>
      rw [running] at taken
      cases call with
      | waiting | permit | ended => cases taken
      | created key =>
        dsimp only at taken
        by_cases free : unlimited max key = true
        · rw [if_pos free] at taken
          cases taken
          exact ⟨invariant.limited, invariant.distinct, invariant.placed_set k _ free,
            balance_calls invariant k _ _ running (fun _ => rfl)⟩
        · rw [if_neg free] at taken
          obtain ⟨sem, mid, found, entry, calls, kept⟩ :=
            semFor_spec laws invariant key (Bool.eq_false_of_not_eq_true free)
          rw [found] at taken
          cases taken
          rw [← calls] at running ⊢
          exact ⟨kept.limited, kept.distinct, kept.placed_set k _ entry,
            balance_calls kept k _ _ running (fun _ => rfl)⟩
  | recv k =>
    rw [step] at taken
    cases running : s.calls[k]? with
    | none => rw [running] at taken; cases taken
    | some call =>
      rw [running] at taken
      cases call with
      | created | permit | ended => cases taken
      | waiting key sem =>
        dsimp only at taken
        rw [Option.map_eq_some_iff] at taken
        obtain ⟨c, there, rfl⟩ := taken
        have entry : s.hosts key = some sem :=
          invariant.placed _ (List.mem_of_getElem? running)
        have known : ∀ key' sem', s.hosts key' = some sem' →
            sem' < (s.sems.set sem (flume.pollRecv c).2).length ∧ unlimited max key' = false := by
          intro key' sem' found
          rw [List.length_set]
          exact invariant.limited key' sem' found
        by_cases empty : flume.len c = 0
        · obtain ⟨pending, still, capacity⟩ := laws.recv_empty c empty
          have same : s.calls.set k (.waiting key sem) = s.calls := by
            obtain ⟨inside, value⟩ := List.getElem?_eq_some_iff.1 running
            rw [← value, List.set_getElem_self]
          have books := balance_set invariant k _ (.waiting key sem) running sem c _ there capacity
            (by rw [still, empty]) (fun _ _ => rfl)
          rw [same] at books
          refine ⟨known, invariant.distinct, ?_, ?_⟩
          · rw [pending]
            exact invariant.placed
          · rw [pending]
            exact books
        · obtain ⟨ready, fewer, capacity⟩ := laws.recv_message c (Nat.pos_of_ne_zero empty)
          have books := balance_set invariant k _ (.permit key (some sem)) running sem c _ there capacity
            (by simp only [Call.releases, decide_true, if_true, Bool.false_eq_true, if_false]; omega)
            (fun other distinct => decide_eq_false (Ne.symm distinct))
          refine ⟨known, invariant.distinct, ?_, ?_⟩
          · rw [ready]
            exact invariant.placed_set k _ entry
          · rw [ready]
            exact books
  | cancel k =>
    rw [step] at taken
    cases running : s.calls[k]? with
    | none => rw [running] at taken; cases taken
    | some call =>
      rw [running] at taken
      cases call with
      | permit | ended => cases taken
      | created key =>
        cases taken
        exact ⟨invariant.limited, invariant.distinct, invariant.placed_set k _ trivial,
          balance_calls invariant k _ _ running (fun _ => rfl)⟩
      | waiting key sem =>
        dsimp only at taken
        rw [Option.map_eq_some_iff] at taken
        obtain ⟨c, there, rfl⟩ := taken
        obtain ⟨length, capacity⟩ := laws.drop_keeps c
        refine ⟨?_, invariant.distinct, invariant.placed_set k .ended trivial,
          balance_set invariant k _ .ended running sem c _ there capacity (by rw [length]; rfl)
            (fun _ _ => rfl)⟩
        intro key' sem' found
        rw [List.length_set]
        exact invariant.limited key' sem' found
  | drop k =>
    rw [step] at taken
    cases running : s.calls[k]? with
    | none => rw [running] at taken; cases taken
    | some call =>
      rw [running] at taken
      cases call with
      | created | waiting | ended => cases taken
      | permit key release =>
        cases release with
        | none =>
          cases taken
          exact ⟨invariant.limited, invariant.distinct, invariant.placed_set k _ trivial,
            balance_calls invariant k _ _ running (fun _ => rfl)⟩
        | some sem =>
          dsimp only at taken
          rw [Option.map_eq_some_iff] at taken
          obtain ⟨c', sent, rfl⟩ := taken
          rw [Option.bind_eq_some_iff] at sent
          obtain ⟨c, there, sent⟩ := sent
          have room : flume.len c < flume.capacity c := by
            by_contra full
            rw [laws.send_full c (not_lt.1 full)] at sent
            cases sent
          obtain ⟨next, filled, longer, capacity⟩ := laws.send_room c room
          rw [sent, Option.some.injEq] at filled
          subst filled
          refine ⟨?_, invariant.distinct, invariant.placed_set k .ended trivial,
            balance_set invariant k _ .ended running sem c c' there capacity ?_ ?_⟩
          · intro key' sem' found
            rw [List.length_set]
            exact invariant.limited key' sem' found
          · simp only [Call.releases, decide_true, if_true, Bool.false_eq_true, if_false]
            omega
          · intro other distinct
            exact (decide_eq_false (Ne.symm distinct)).symm

theorem invariant_initial : Invariant flume max (initial : State χ) := by
  refine ⟨?_, ?_, fun call member => absurd member List.not_mem_nil, ?_⟩
  · intro key sem found
    cases found
  · intro key key' sem found
    cases found
  · intro sem c found
    cases found

/-! ### What holds of one host -/

/-- A permit of a gated host is one that returns its token to the host's channel. -/
theorem held_eq_releases {s : State χ} (invariant : Invariant flume max s) (key : String) (sem : Nat)
    (entry : s.hosts key = some sem) : s.held key = s.calls.countP (Call.releases sem) := by
  apply List.countP_congr
  intro call member
  have here := invariant.placed call member
  cases call with
  | created | waiting | ended => rfl
  | permit key' release =>
    cases release with
    | none =>
      have other : key' ≠ key := by
        rintro rfl
        exact absurd (here.symm.trans (invariant.limited _ _ entry).2) (by decide)
      simp [Call.holds, Call.releases, other]
    | some sem' =>
      rw [Call.holds, Call.releases, decide_eq_true_eq, decide_eq_true_eq]
      constructor
      · rintro rfl
        exact Option.some.inj (here.symm.trans entry)
      · rintro rfl
        exact invariant.distinct key' key sem' here entry

theorem held_of_unused {s : State χ} (invariant : Invariant flume max s) (key : String)
    (limited : unlimited max key = false) (unused : s.hosts key = none) : s.held key = 0 := by
  rw [State.held, List.countP_eq_zero]
  intro call member holds
  have here := invariant.placed call member
  cases call with
  | created | waiting | ended => cases holds
  | permit key' release =>
    rw [Call.holds, decide_eq_true_eq] at holds
    subst holds
    cases release with
    | none => exact absurd (here.symm.trans limited) (by decide)
    | some sem => exact absurd (here.symm.trans unused) (by simp)

/-- The channel of a gated host, with its permits. -/
theorem channel_of_entry {s : State χ} (invariant : Invariant flume max s) (key : String) (sem : Nat)
    (entry : s.hosts key = some sem) :
    ∃ c, s.sems[sem]? = some c ∧ flume.capacity c = max ∧ s.tokens flume key = flume.len c ∧
      s.held key + flume.len c = max := by
  have below := (invariant.limited key sem entry).1
  have there : s.sems[sem]? = some (s.sems.get ⟨sem, below⟩) := List.getElem?_eq_getElem below
  obtain ⟨capacity, level⟩ := invariant.balance sem _ there
  refine ⟨_, there, capacity, ?_, ?_⟩
  · rw [State.tokens, entry, Option.bind_some, there, Option.map_some, Option.getD_some]
  · rw [held_eq_releases invariant key sem entry]
    exact level

/-- The drop of a permit finds room in its channel. -/
theorem drop_enabled (laws : flume.Lawful) {s : State χ} (invariant : Invariant flume max s) (k : Nat)
    (key : String) (release : Option Nat) (running : s.calls[k]? = some (.permit key release)) :
    ∃ s', step flume max s (.drop k) = some s' ∧ s'.hosts = s.hosts ∧
      s'.calls = s.calls.set k .ended := by
  cases release with
  | none => exact ⟨{ s with calls := s.calls.set k .ended }, by rw [step, running], rfl, rfl⟩
  | some sem =>
    have entry : s.hosts key = some sem := invariant.placed _ (List.mem_of_getElem? running)
    obtain ⟨c, there, capacity, -, level⟩ := channel_of_entry invariant key sem entry
    have positive : 0 < s.held key :=
      countP_pos s.calls k _ (Call.holds key) running (decide_eq_true rfl)
    obtain ⟨c', sent, -, -⟩ := laws.send_room c (by omega)
    refine ⟨{ s with sems := s.sems.set sem c', calls := s.calls.set k .ended }, ?_, rfl, rfl⟩
    simp only [step, running, there, Option.bind_some, sent, Option.map_some]

/-- A call that waits gets its permit while fewer than the maximum are held. -/
theorem recv_served (laws : flume.Lawful) {s : State χ} (invariant : Invariant flume max s) (j : Nat)
    (key : String) (sem : Nat) (running : s.calls[j]? = some (.waiting key sem))
    (fewer : s.held key < max) :
    ∃ s', step flume max s (.recv j) = some s' ∧ s'.calls[j]? = some (.permit key (some sem)) := by
  have entry : s.hosts key = some sem := invariant.placed _ (List.mem_of_getElem? running)
  obtain ⟨c, there, -, -, level⟩ := channel_of_entry invariant key sem entry
  have ready := (laws.recv_message c (by omega)).1
  have inside := (List.getElem?_eq_some_iff.1 running).1
  refine ⟨{ s with
    sems := s.sems.set sem (flume.pollRecv c).2
    calls := s.calls.set j (.permit key (some sem)) }, ?_, List.getElem?_set_self inside⟩
  simp only [step, running, there, Option.map_some, ready, if_true]

/-- What a host is promised when the limiter has a maximum and the key is not empty. -/
structure Gated (flume : Flume χ) (max : Nat) (s : State χ) (key : String) : Prop where
  conserved : (s.hosts key).isSome = true → s.held key + s.tokens flume key = max
  unused : s.hosts key = none → s.held key = 0
  capped : s.held key ≤ max
  opens : ∀ k, s.calls[k]? = some (.created key) → (step flume max s (.poll k)).isSome = true
  releases : ∀ k release, s.calls[k]? = some (.permit key release) →
    (step flume max s (.drop k)).isSome = true
  served : ∀ j sem, s.calls[j]? = some (.waiting key sem) → s.held key < max →
    ∃ s', step flume max s (.recv j) = some s' ∧ s'.calls[j]? = some (.permit key (some sem))
  proceeds : ∀ j k sem release s', s.calls[j]? = some (.waiting key sem) →
    s.calls[k]? = some (.permit key release) → step flume max s (.drop k) = some s' →
    ∃ s'', step flume max s' (.recv j) = some s'' ∧ s''.calls[j]? = some (.permit key (some sem))

/-- The permits of the other hosts hold nothing and wait for nothing. -/
structure Ungated (flume : Flume χ) (max : Nat) (s : State χ) (key : String) : Prop where
  channelless : s.hosts key = none
  immediate : ∀ k, s.calls[k]? = some (.created key) →
    step flume max s (.poll k) = some { s with calls := s.calls.set k (.permit key none) }
  releases : ∀ k release, s.calls[k]? = some (.permit key release) →
    (step flume max s (.drop k)).isSome = true

theorem gated_of_invariant (laws : flume.Lawful) {s : State χ} (invariant : Invariant flume max s)
    (key : String) (limited : unlimited max key = false) : Gated flume max s key := by
  have conserved : (s.hosts key).isSome = true → s.held key + s.tokens flume key = max := by
    intro entered
    obtain ⟨sem, entry⟩ := Option.isSome_iff_exists.1 entered
    obtain ⟨c, -, -, tokens, level⟩ := channel_of_entry invariant key sem entry
    rw [tokens]
    exact level
  have unused := held_of_unused invariant key limited
  refine ⟨conserved, unused, ?_, ?_, ?_, fun j => recv_served laws invariant j key, ?_⟩
  · cases entered : s.hosts key with
    | none => exact (unused entered).trans_le (Nat.zero_le _)
    | some sem => exact Nat.le.intro (conserved (by rw [entered]; rfl))
  · intro k running
    obtain ⟨sem, s', found, -⟩ := semFor_spec laws invariant key limited
    simp only [step, running, limited, Bool.false_eq_true, if_false, found, Option.map_some,
      Option.isSome_some]
  · intro k release running
    obtain ⟨s', taken, -⟩ := drop_enabled laws invariant k key release running
    rw [taken, Option.isSome_some]
  · intro j k sem release s' waiting running taken
    obtain ⟨next, reached, hosts, calls⟩ := drop_enabled laws invariant k key release running
    rw [taken, Option.some.injEq] at reached
    subst reached
    have apart : k ≠ j := by
      rintro rfl
      rw [running] at waiting
      cases waiting
    have entry : s.hosts key = some sem := invariant.placed _ (List.mem_of_getElem? waiting)
    have level := conserved (by rw [entry]; rfl)
    have counted := countP_set s.calls k _ .ended (Call.holds key) running
    have one : Call.holds key (.permit key release) = true := decide_eq_true rfl
    have gone : Call.holds key .ended = false := rfl
    simp only [← calls, one, gone, if_true, Bool.false_eq_true, if_false] at counted
    apply recv_served laws (invariant_step laws s (.drop k) s' invariant taken) j key sem
    · rw [calls, List.getElem?_set_ne apart, waiting]
    · rw [State.held] at level ⊢
      omega

theorem ungated_of_invariant (laws : flume.Lawful) {s : State χ} (invariant : Invariant flume max s)
    (key : String) (free : unlimited max key = true) : Ungated flume max s key := by
  refine ⟨?_, ?_, ?_⟩
  · cases entered : s.hosts key with
    | none => rfl
    | some sem => exact absurd (free.symm.trans (invariant.limited key sem entered).2) (by decide)
  · intro k running
    simp only [step, running, free, if_true]
  · intro k release running
    obtain ⟨s', taken, -⟩ := drop_enabled laws invariant k key release running
    rw [taken, Option.isSome_some]

end Steps

/-- In every interleaving the permits of a host and the tokens in its channel are the maximum. Where
the maximum is 0 or the key is empty, permits are free. -/
theorem permits_conserved (laws : flume.Lawful) (events : List Event) (s : State χ)
    (ran : exec (step flume max) initial events = some s) (key : String) :
    (unlimited max key = false → Gated flume max s key) ∧
      (unlimited max key = true → Ungated flume max s key) := by
  have invariant : Invariant flume max s := exec_invariant_free (step flume max) (Invariant flume max)
    (invariant_step laws) initial s events invariant_initial ran
  exact ⟨gated_of_invariant laws invariant key, ungated_of_invariant laws invariant key⟩

/-- A channel of unit messages is known by its capacity and its length. -/
def counter : Flume (Nat × Nat) where
  bounded := fun capacity => (capacity, 0)
  capacity := Prod.fst
  len := Prod.snd
  send := fun c => if c.2 < c.1 then some (c.1, c.2 + 1) else none
  pollRecv := fun c => (decide (0 < c.2), (c.1, c.2 - 1))
  dropRecv := id

theorem lawful_counter : counter.Lawful where
  bounded_len := fun _ => rfl
  bounded_capacity := fun _ => rfl
  send_room := fun c room => ⟨(c.1, c.2 + 1), if_pos room, rfl, rfl⟩
  send_full := fun _ full => if_neg (not_lt.2 full)
  recv_message := fun _ some => ⟨decide_eq_true some, Nat.sub_add_cancel some, rfl⟩
  recv_empty := fun _ empty =>
    ⟨decide_eq_false (Nat.le_of_eq empty).not_gt, congrArg (· - 1) empty, rfl⟩
  drop_keeps := fun _ => ⟨rfl, rfl⟩

/-- Three announces to a host that takes two at once; the third is cancelled. -/
def threeAnnounces : List Event :=
  [.acquire "t:80", .acquire "t:80", .acquire "t:80", .poll 0, .poll 1, .recv 0, .poll 2, .recv 1,
    .recv 2, .cancel 2]

theorem permits_conserved_threeAnnounces :
    Gated counter 2 ((exec (step counter 2) initial threeAnnounces).getD initial) "t:80" := by
  have ran : (exec (step counter 2) initial threeAnnounces).isSome = true := by decide +kernel
  obtain ⟨s, reached⟩ := Option.isSome_iff_exists.1 ran
  rw [reached, Option.getD_some]
  exact (permits_conserved counter 2 lawful_counter threeAnnounces s reached "t:80").1 (by decide)

/-- Announces to the empty key are not counted against the maximum. -/
theorem empty_key_uncapped :
    ¬ ∀ max events s, exec (step counter max) initial events = some s → ∀ key, s.held key ≤ max := by
  intro always
  have both : (exec (step counter 1) initial [.acquire "", .acquire "", .poll 0, .poll 1]).any
      (fun s => s.held "" = 2) = true := by decide +kernel
  cases reached : exec (step counter 1) initial [.acquire "", .acquire "", .poll 0, .poll 1] with
  | none =>
    rw [reached] at both
    cases both
  | some s =>
    rw [reached, Option.any_some, decide_eq_true_eq] at both
    have capped := always 1 _ s reached ""
    omega

end Seedchamp.Tracker.Limit
