import Mathlib.Algebra.Group.Nat.Defs
import Mathlib.Data.List.Basic
import Seedchamp.Foundation.Tasks
import Seedchamp.Foundation.TransitionSystem

/-!
How peer sessions are spread over the workers. A caller of `spawn_peer` reads the counters one after the
other, and others may raise them before it raises the one that it chose.
-/

namespace Seedchamp.Runtime.LeastPeers
open Foundation.Tasks Foundation.TransitionSystem

def USIZE_MAX : Nat := 2 ^ 64 - 1

/-- Where a thread is in `spawn_peer`. The scan goes on with worker `next`; of the earlier ones `bestI`
has the fewest peers, `bestN`. -/
inductive Call where
  | idle
  | scanning (next bestI bestN : Nat)
  | chosen (i : Nat)
  | counted
  | booked
  deriving DecidableEq, Repr

/-- The counters of the workers and of the process, and the threads that spawn peers. -/
structure Pool where
  counts : List Nat
  activePeers : Nat
  shut : Bool
  calls : List Call

/-- `end_` and `endGlobal` are the two halves of the guard's drop. -/
inductive Event where
  | spawnPeer (k : Nat)
  | run (k : Nat)
  | end_ (i : Nat)
  | endGlobal
  | shutdown
  deriving DecidableEq, Repr

namespace Pool

def goto (s : Pool) (k : Nat) (call : Call) : Pool := { s with calls := s.calls.set k call }

/-- A turn of the loop in `least_peers_worker`. -/
def scan (s : Pool) (k next bestI bestN : Nat) : Pool :=
  match s.counts[next]? with
  | none => s.goto k (.chosen bestI)
  | some n =>
    if n < bestN then s.goto k (.scanning (next + 1) next n) else s.goto k (.scanning (next + 1) bestI bestN)

/-- `count.fetch_add`. -/
def count (s : Pool) (k i : Nat) : Pool :=
  { s with counts := s.counts.modify i (· + 1) }.goto k .counted

/-- The next operation of a thread. The last one sends the job, and the thread returns in any case. -/
def advance (s : Pool) (k : Nat) : Call → Option Pool
  | .idle => none
  | .scanning next bestI bestN => some (s.scan k next bestI bestN)
  | .chosen i => some (s.count k i)
  | .counted => some ({ s with activePeers := s.activePeers + 1 }.goto k .booked)
  | .booked => some (s.goto k .idle)

end Pool

def step (s : Pool) : Event → Option Pool
  | .spawnPeer k =>
    if s.calls[k]? = some .idle then some (if s.shut then s else s.goto k (.scanning 0 0 USIZE_MAX))
    else none
  | .run k => (s.calls[k]?).bind (s.advance k)
  | .end_ i => some { s with counts := s.counts.modify i (· - 1) }
  | .endGlobal => some { s with activePeers := s.activePeers - 1 }
  | .shutdown => some { s with shut := true }

/-- A pool with some peers, where `m` threads may spawn more. -/
def resting (counts : List Nat) (activePeers m : Nat) : Pool :=
  ⟨counts, activePeers, false, List.replicate m .idle⟩

/-- No session ends. -/
def Lasts : Event → Prop
  | .end_ _ => False
  | _ => True

/-! ### Stakes -/

/-- A thread that has read worker `i` with at most `v` peers and may choose it. -/
def stake (i v : Nat) : Call → Bool
  | .scanning next bestI bestN => next ≠ 0 && bestI = i && bestN ≤ v
  | .chosen bestI => bestI = i
  | _ => false

def Pool.staked (s : Pool) (i v : Nat) : Nat := s.calls.countP (stake i v)

/-- What a thread has read is still a lower bound of the counters that it has read. -/
def Reads (old counts : List Nat) : Call → Prop
  | .scanning next bestI bestN => next = 0 ∧ bestN = USIZE_MAX ∨
      bestI < next ∧ next ≤ counts.length ∧ old.getD bestI 0 ≤ bestN ∧
        ∀ j, j < next → bestN ≤ counts.getD j 0
  | .chosen bestI => ∃ r, old.getD bestI 0 ≤ r ∧ ∀ j, j < counts.length → r ≤ counts.getD j 0
  | _ => True

/-- No worker has more than `m` peers beyond another one, those counted that threads are about to
give it, unless it was given none. -/
structure Balanced (old : List Nat) (m : Nat) (s : Pool) : Prop where
  sized : s.counts.length = old.length
  callers : s.calls.length = m
  grown : ∀ i, old.getD i 0 ≤ s.counts.getD i 0
  reads : ∀ call ∈ s.calls, Reads old s.counts call
  level : ∀ i j, i < old.length → j < old.length → s.counts.getD i 0 = old.getD i 0 ∨
    ∀ v, s.counts.getD j 0 ≤ v → s.counts.getD i 0 + s.staked i v ≤ v + m

theorem getD_modify (counts : List Nat) (i j : Nat) (inside : i < counts.length) :
    (counts.modify i (· + 1)).getD j 0 = if i = j then counts.getD j 0 + 1 else counts.getD j 0 := by
  rw [List.getD_eq_getElem?_getD, List.getElem?_modify, List.getD_eq_getElem?_getD]
  by_cases same : i = j
  · subst same
    simp [List.getElem?_eq_getElem inside]
  · simp [same]

theorem getD_modify_le (counts : List Nat) (i j : Nat) :
    counts.getD j 0 ≤ (counts.modify i (· + 1)).getD j 0 := by
  by_cases inside : i < counts.length
  · rw [getD_modify counts i j inside]
    split_ifs <;> omega
  · rw [List.modify_eq_self (by omega)]

/-- A lower bound stays one when counters go up. -/
theorem Reads.mono {old counts counts' : List Nat} {call : Call} (reads : Reads old counts call)
    (same : counts'.length = counts.length) (grown : ∀ j, counts.getD j 0 ≤ counts'.getD j 0) :
    Reads old counts' call := by
  cases call with
  | scanning next bestI bestN =>
    rcases reads with first | ⟨before, inside, above, lower⟩
    · exact Or.inl first
    · exact Or.inr ⟨before, by rw [same]; exact inside, above, fun j below =>
        (lower j below).trans (grown j)⟩
  | chosen bestI =>
    obtain ⟨r, above, lower⟩ := reads
    exact ⟨r, above, fun j below => (lower j (by rw [← same]; exact below)).trans (grown j)⟩
  | _ => trivial

section
variable {old : List Nat} {m : Nat} {s : Pool}

theorem staked_le (balanced : Balanced old m s) (i v : Nat) : s.staked i v ≤ m := by
  rw [← balanced.callers]
  exact List.countP_le_length

/-- A thread moves and no counter does: a stake is new only in a worker that is not above `v`. -/
theorem balanced_goto (balanced : Balanced old m s) (k : Nat) (before after : Call)
    (found : s.calls[k]? = some before) (reads : Reads old s.counts after)
    (stakes : ∀ i j v, j < old.length → s.counts.getD j 0 ≤ v → stake i v after = true →
      stake i v before = true ∨ s.counts.getD i 0 ≤ v) : Balanced old m (s.goto k after) := by
  obtain ⟨inside, here⟩ := List.getElem?_eq_some_iff.1 found
  have moved : ∀ i v, (s.goto k after).staked i v = s.staked i v - (if stake i v before then 1 else 0) +
      if stake i v after then 1 else 0 := by
    intro i v
    rw [Pool.staked, Pool.goto, List.countP_set inside, here]
    rfl
  have callers : (s.goto k after).calls.length = m := by
    rw [Pool.goto, List.length_set]
    exact balanced.callers
  refine ⟨balanced.sized, callers, balanced.grown, ?_, ?_⟩
  · exact forall_mem_set s.calls k after _ balanced.reads reads
  · intro i j first second
    rcases balanced.level i j first second with fresh | level
    · exact Or.inl fresh
    · right
      intro v above
      have few : (s.goto k after).staked i v ≤ m := by
        rw [← callers]
        exact List.countP_le_length
      have before_ := level v above
      have change := moved i v
      by_cases low : s.counts.getD i 0 ≤ v
      · change s.counts.getD i 0 + _ ≤ v + m
        omega
      · have kept : stake i v after = true → stake i v before = true :=
          fun new => (stakes i j v second above new).resolve_right low
        have held : stake i v before = true → 0 < s.staked i v := by
          intro holds
          exact List.countP_pos_iff.2 ⟨before, List.mem_of_getElem? found, holds⟩
        change s.counts.getD i 0 + _ ≤ v + m
        rw [change]
        cases new : stake i v after with
        | false =>
          rw [if_neg Bool.false_ne_true]
          omega
        | true =>
          have old_ := kept new
          have some_ := held old_
          rw [if_pos rfl, if_pos old_]
          omega

/-- A turn of the scan. -/
theorem balanced_scan (balanced : Balanced old m s) (k next bestI bestN : Nat)
    (found : s.calls[k]? = some (.scanning next bestI bestN))
    (small : ∀ j, s.counts.getD j 0 < USIZE_MAX) : Balanced old m (s.scan k next bestI bestN) := by
  have reads := balanced.reads _ (List.mem_of_getElem? found)
  rw [Pool.scan]
  cases read : s.counts[next]? with
  | none =>
    have past : s.counts.length ≤ next := List.getElem?_eq_none_iff.1 read
    refine balanced_goto balanced k _ _ found ?_ ?_
    · rcases reads with ⟨zero, -⟩ | ⟨before, inside, above, lower⟩
      · exact ⟨old.getD bestI 0, Nat.le_refl _, fun j below => by omega⟩
      · exact ⟨bestN, above, fun j below => lower j (by omega)⟩
    · intro i j v inside above new
      have same : bestI = i := by simpa [stake] using new
      rcases reads with ⟨zero, -⟩ | ⟨before, -, -, lower⟩
      · rw [← balanced.sized] at inside
        omega
      · have bound : bestN ≤ v := (lower j (by rw [← balanced.sized] at inside; omega)).trans above
        left
        simp [stake, same, bound]
        omega
  | some n =>
    obtain ⟨inside, here⟩ := List.getElem?_eq_some_iff.1 read
    have value : s.counts.getD next 0 = n := by
      rw [List.getD_eq_getElem?_getD, read]
      rfl
    have best : n < USIZE_MAX := by
      rw [← value]
      exact small next
    dsimp only
    split_ifs with fewer
    · refine balanced_goto balanced k _ _ found (Or.inr ⟨by omega, by omega, ?_, ?_⟩) ?_
      · rw [← value]
        exact balanced.grown next
      · intro j below
        by_cases last : j = next
        · rw [last, value]
        · rcases reads with ⟨zero, -⟩ | ⟨-, -, -, lower⟩
          · omega
          · have earlier := lower j (by omega)
            omega
      · intro i j v _ _ new
        simp only [stake, Bool.and_eq_true, decide_eq_true_eq] at new
        right
        rw [← new.1.2, value]
        exact new.2
    · rcases reads with ⟨zero, most⟩ | ⟨before, -, above, lower⟩
      · omega
      · refine balanced_goto balanced k _ _ found (Or.inr ⟨by omega, by omega, above, ?_⟩) ?_
        · intro j below
          by_cases last : j = next
          · rw [last, value]
            omega
          · exact lower j (by omega)
        · intro i j v _ _ new
          left
          simp only [stake, Bool.and_eq_true, decide_eq_true_eq] at new ⊢
          exact ⟨⟨by simp; omega, new.1.2⟩, new.2⟩

/-- A counter goes up by one, and the stake of the thread is gone. -/
theorem balanced_count (balanced : Balanced old m s) (k bestI : Nat)
    (found : s.calls[k]? = some (.chosen bestI)) : Balanced old m (s.count k bestI) := by
  obtain ⟨inside, here⟩ := List.getElem?_eq_some_iff.1 found
  obtain ⟨r, above, lower⟩ := balanced.reads _ (List.mem_of_getElem? found)
  have moved : ∀ i v, (s.count k bestI).staked i v = s.staked i v - if bestI = i then 1 else 0 := by
    intro i v
    rw [Pool.staked, Pool.count, Pool.goto, List.countP_set inside, here]
    simp [stake, Pool.staked]
  have sized : (s.counts.modify bestI (· + 1)).length = s.counts.length := List.length_modify _ _ _
  have raised : ∀ j, s.counts.getD j 0 ≤ (s.count k bestI).counts.getD j 0 := getD_modify_le s.counts bestI
  refine ⟨sized.trans balanced.sized, ?_, fun i => (balanced.grown i).trans (raised i), ?_, ?_⟩
  · rw [Pool.count, Pool.goto, List.length_set]
    exact balanced.callers
  · apply forall_mem_set s.calls k .counted
    · intro call listed
      exact (balanced.reads call listed).mono sized raised
    · trivial
  · intro i j first second
    have level := balanced.level i j first second
    by_cases mine : bestI = i
    · right
      intro v above'
      have there : s.counts.getD j 0 ≤ v := (raised j).trans above'
      have held : 0 < s.staked i v :=
        List.countP_pos_iff.2 ⟨_, List.mem_of_getElem? found, by simp [stake, mine]⟩
      have now : (s.count k bestI).counts.getD i 0 = s.counts.getD i 0 + 1 := by
        change (s.counts.modify bestI (· + 1)).getD i 0 = _
        rw [getD_modify _ _ _ (by rw [mine, balanced.sized]; exact first), if_pos mine]
      have few := staked_le balanced i v
      rw [now, moved, if_pos mine]
      rcases level with fresh | bound
      · have least := lower j (by rw [balanced.sized]; exact second)
        rw [mine] at above
        omega
      · have bound' := bound v there
        omega
    · have same : (s.count k bestI).counts.getD i 0 = s.counts.getD i 0 := by
        change (s.counts.modify bestI (· + 1)).getD i 0 = _
        by_cases real : bestI < s.counts.length
        · rw [getD_modify _ _ _ real, if_neg mine]
        · rw [List.modify_eq_self (by omega)]
      rw [same]
      rcases level with fresh | bound
      · exact Or.inl fresh
      · right
        intro v above'
        have bound' := bound v ((raised j).trans above')
        rw [moved, if_neg mine]
        omega

theorem balanced_step (balanced : Balanced old m s) (s' : Pool) (event : Event) (lasts : Lasts event)
    (small : ∀ j, s.counts.getD j 0 < USIZE_MAX) (taken : step s event = some s') : Balanced old m s' := by
  cases event with
  | spawnPeer k =>
    rw [step] at taken
    split_ifs at taken with idle shut
    · cases taken
      exact balanced
    · cases taken
      refine balanced_goto balanced k _ _ idle (Or.inl ⟨rfl, rfl⟩) ?_
      intro i j v _ _ new
      simp [stake] at new
  | run k =>
    rw [step] at taken
    obtain ⟨call, found, went⟩ := Option.bind_eq_some_iff.1 taken
    cases call with
    | idle => cases went
    | scanning next bestI bestN =>
      cases went
      exact balanced_scan balanced k next bestI bestN found small
    | chosen bestI =>
      cases went
      exact balanced_count balanced k bestI found
    | counted =>
      cases went
      have kept : Balanced old m (s.goto k .booked) :=
        balanced_goto balanced k _ _ found trivial (fun i j v _ _ new => by cases new)
      exact ⟨kept.sized, kept.callers, kept.grown, kept.reads, kept.level⟩
    | booked =>
      cases went
      exact balanced_goto balanced k _ _ found trivial (fun i j v _ _ new => by cases new)
  | end_ i => exact lasts.elim
  | endGlobal =>
    cases taken
    exact ⟨balanced.sized, balanced.callers, balanced.grown, balanced.reads, balanced.level⟩
  | shutdown =>
    cases taken
    exact ⟨balanced.sized, balanced.callers, balanced.grown, balanced.reads, balanced.level⟩

end

theorem step_grows (s s' : Pool) (event : Event) (lasts : Lasts event) (taken : step s event = some s')
    (j : Nat) : s'.counts.getD j 0 ≤ s.counts.getD j 0 + 1 := by
  have same : ∀ t : Pool, t.counts = s.counts → t.counts.getD j 0 ≤ s.counts.getD j 0 + 1 := by
    intro t kept
    rw [kept]
    exact Nat.le_succ _
  cases event with
  | spawnPeer k =>
    rw [step] at taken
    split_ifs at taken
    · cases taken
      exact same s rfl
    · cases taken
      exact same _ rfl
  | run k =>
    rw [step] at taken
    obtain ⟨call, found, went⟩ := Option.bind_eq_some_iff.1 taken
    cases call with
    | idle => cases went
    | scanning next bestI bestN =>
      cases went
      apply same
      rw [Pool.scan]
      split
      · rfl
      · split_ifs <;> rfl
    | chosen bestI =>
      cases went
      change (s.counts.modify bestI (· + 1)).getD j 0 ≤ _
      by_cases real : bestI < s.counts.length
      · rw [getD_modify _ _ _ real]
        split_ifs <;> omega
      · rw [List.modify_eq_self (by omega)]
        exact Nat.le_succ _
    | counted =>
      cases went
      exact same _ rfl
    | booked =>
      cases went
      exact same _ rfl
  | end_ i => exact lasts.elim
  | endGlobal =>
    cases taken
    exact same _ rfl
  | shutdown =>
    cases taken
    exact same _ rfl

theorem balanced_exec (old : List Nat) (m : Nat) (events : List Event)
    (lasts : ∀ event ∈ events, Lasts event) (s s' : Pool) (balanced : Balanced old m s)
    (small : ∀ j, s.counts.getD j 0 + events.length < USIZE_MAX) (ran : exec step s events = some s') :
    Balanced old m s' := by
  induction events generalizing s with
  | nil =>
    cases ran
    exact balanced
  | cons event rest ih =>
    obtain ⟨next, taken, later⟩ := (exec_cons step s s' event rest).1 ran
    have lasting := lasts event List.mem_cons_self
    refine ih (fun other member => lasts other (List.mem_cons_of_mem event member)) next ?_ ?_ later
    · exact balanced_step balanced next event lasting (fun j => by
        have room := small j
        omega) taken
    · intro j
      have room := small j
      have grown := step_grows s next event lasting taken j
      rw [List.length_cons] at room
      omega

theorem balanced_resting (old : List Nat) (activePeers m : Nat) :
    Balanced old m (resting old activePeers m) where
  sized := rfl
  callers := List.length_replicate
  grown := fun _ => Nat.le_refl _
  reads := by
    intro call listed
    rw [(List.mem_replicate.1 listed).2]
    trivial
  level := fun _ _ _ _ => Or.inl rfl

/-- While no session ends, `m` threads that spawn peers in any interleaving keep the workers level: a
worker that is given a session never has more than `m` beyond any other. -/
theorem least_peers_level (old : List Nat) (activePeers m : Nat) (events : List Event) (s : Pool)
    (lasts : ∀ event ∈ events, Lasts event)
    (small : ∀ c ∈ old, c + events.length < USIZE_MAX)
    (ran : exec step (resting old activePeers m) events = some s) (i j : Nat)
    (worker : i < old.length) (other : j < old.length) :
    s.counts.getD i 0 ≤ max (old.getD i 0) (s.counts.getD j 0 + m) := by
  have balanced := balanced_exec old m events lasts _ s (balanced_resting old activePeers m) (by
    intro c
    change old.getD c 0 + _ < _
    by_cases real : c < old.length
    · rw [List.getD_eq_getElem?_getD, List.getElem?_eq_getElem real]
      exact small _ (List.getElem_mem real)
    · have first := small _ (List.getElem_mem worker)
      rw [List.getD_eq_getElem?_getD, List.getElem?_eq_none (by omega)]
      change 0 + _ < _
      omega) ran
  rcases balanced.level i j worker other with fresh | level
  · rw [fresh]
    exact Nat.le_max_left _ _
  · have bound := level _ (Nat.le_refl _)
    omega

/-- Two threads read two workers without peers before either raises a counter. -/
def race : List Event :=
  [.spawnPeer 0, .spawnPeer 1] ++ List.replicate 3 (.run 0) ++ List.replicate 3 (.run 1) ++ [.run 0, .run 1]

/-- Both choose the first worker, and the bound is reached. -/
theorem race_level : ∃ s, exec step (resting [0, 0] 0 2) race = some s ∧ s.counts = [2, 0] ∧
    s.counts.getD 0 0 ≤ max 0 (s.counts.getD 1 0 + 2) := by
  refine ⟨_, rfl, rfl, ?_⟩
  exact least_peers_level [0, 0] 0 2 race _ (by
    intro event listed
    simp only [race, List.replicate, List.cons_append, List.nil_append, List.mem_cons, List.not_mem_nil,
      or_false] at listed
    rcases listed with rfl | rfl | rfl | rfl | rfl | rfl | rfl | rfl | rfl | rfl <;> trivial)
    (by decide) rfl 0 1 (by decide) (by decide)

end Seedchamp.Runtime.LeastPeers
