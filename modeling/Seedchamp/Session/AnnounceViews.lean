import Seedchamp.Session.Announces

/-!
What holds of the announce schedule over whole runs. A torrent is seen through a view: its flags in
the schedule, its baseline, the history of its current start and the number of its announces. Each
section of the code is one change of that view.
-/

namespace Seedchamp.Session.AnnounceViews
open Foundation.KeyedMap Hot.Torrent Session.Announces

/-! ### Views -/

def Task.about : Task → Option Nat
  | .publishing torrent _ => some torrent.id
  | .polling _ _ | .returned => none
  | .reading id _ | .baselining id _ _ _ | .scheduling id _ _ _ | .kicking id | .claiming id
  | .spawned id _ | .found id _ | .announcing id _ _ | .answered id _ _ _ _ | .landed id _ _ _ _
  | .requesting id | .requestingComplete id | .stoppedAnnounce id | .removing id | .unscheduling id
  | .unbaselining id => some id

/-- The task is an announce of the torrent that has claimed its entry. -/
def Task.runs (id : Nat) : Task → Bool
  | .spawned i _ | .found i _ | .announcing i _ _ | .answered i _ _ _ _ | .landed i _ _ _ _ => i = id
  | _ => false

/-- The task is a stopped event of the torrent. -/
def Task.stops (id : Nat) : Task → Bool
  | .stoppedAnnounce i => i = id
  | _ => false

theorem about_of_runs (task : Task) (id : Nat) (runs : Task.runs id task = true) :
    Task.about task = some id := by
  cases task <;> simp_all [Task.runs, Task.about]

theorem about_of_stops (task : Task) (id : Nat) (stops : Task.stops id task = true) :
    Task.about task = some id := by
  cases task <;> simp_all [Task.stops, Task.about]

/-- `hot` tells of a hot torrent whether it is complete. -/
@[ext]
structure View where
  hot : Option Bool
  inFlight : Bool
  sentStarted : Bool
  sentCompleted : Bool
  pending : Bool
  baseline : Option Bool
  start : Start
  running : Nat
  stopping : Nat

def view (s : State) (id : Nat) : View where
  hot := (get? s.registry id).map HotTorrent.isComplete
  inFlight := flag TorrentAnnounce.inFlight (get? s.sched id)
  sentStarted := flag TorrentAnnounce.sentStarted (get? s.sched id)
  sentCompleted := flag TorrentAnnounce.sentCompleted (get? s.sched id)
  pending := flag TorrentAnnounce.pendingCompleted (get? s.sched id)
  baseline := (get? s.baseline id).map AnnounceBaseline.incompleteAtStart
  start := s.start id
  running := s.tasks.countP (Task.runs id)
  stopping := s.tasks.countP (Task.stops id)

/-! ### When nothing disturbs the schedule -/

/-- The torrent is hot, its stopped event is not on its way, and the pool takes tasks. -/
def claimable (s : State) (id : Nat) : Bool :=
  (view s id).hot.isSome && (view s id).stopping = 0 && !s.shut

/-- Starts and stops do not cross the torrent's own announces, nor leave anything to the next start:
an entry is claimed only of a hot torrent, and replaced or removed only while no announce runs. -/
def undisturbed (cfg : Config) (s : State) (event : Event) : Bool :=
  match event.position.bind (fun k => s.tasks[k]?), event with
  | some (.publishing torrent _), .publish _ =>
    let v := view s torrent.id
    v.hot.isSome || (!v.sentStarted && !v.pending && (v.baseline ≠ some true || !torrent.isComplete))
  | some (.baselining id _ begun _), .putBaseline _ => begun = (view s id).start.number
  | some (.scheduling id incomplete begun true), .schedule _ =>
    let v := view s id
    v.running = 0 && begun = v.start.number && (v.baseline ≠ some true || incomplete)
  | some (.claiming id), .claim _ => (view s id).inFlight || claimable s id
  | some (.polling hotIds now), .claimDue _ => (dueIds cfg s.sched now hotIds).all (claimable s)
  | some (.requestingComplete id), .requestPend _ =>
    let v := view s id
    (get? s.sched id).isNone || v.sentCompleted || v.pending || v.baseline = some true
  | some (.removing id), .remove _ => (view s id).running = 0
  | some (.unscheduling id), .unschedule _ =>
    let v := view s id
    v.running = 0 && (v.hot.isNone || !v.sentCompleted)
  | none, .stop id =>
    !(cfg.announce && (view s id).hot.isSome && !s.shut) ||
      ((view s id).running = 0 && (view s id).stopping = 0)
  | _, _ => true

/-! ### The invariant -/

/-- Within one start, completed is announced once, after started, of a torrent that was incomplete. -/
structure Orderly (st : Start) : Prop where
  first : ∀ event, st.announced.head? = some event → event = some .started
  once : st.announced.count (some .completed) ≤ 1
  due : some AnnounceEvent.completed ∈ st.announced → st.incomplete = true

structure Coherent (cfg : Config) (v : View) : Prop where
  running : v.running = if v.inFlight then 1 else 0
  hot : v.inFlight = true → v.hot.isSome = true
  single : v.running + v.stopping ≤ 1
  orderly : Orderly v.start
  started : v.hot.isSome = true → v.sentStarted = true → cfg.announce = true → v.start.announced ≠ []
  completed : v.hot.isSome = true → v.sentCompleted = false →
    some AnnounceEvent.completed ∉ v.start.announced
  pending : v.hot.isSome = true → v.pending = true → v.start.incomplete = true
  baseline : v.hot.isSome = true → v.baseline = some true → v.start.incomplete = true
  missing : v.hot = some false → v.start.incomplete = true

/-- A start has read whether the torrent is incomplete; the reading stands until another begins. -/
def Read (v : View) (incomplete : Bool) (begun : Nat) : Prop :=
  begun ≤ v.start.number ∧
    (begun = v.start.number →
      (incomplete = true → v.start.incomplete = true) ∧ (v.hot = some false → incomplete = true))

/-- The event an announce of the current start carries. -/
structure Carries (cfg : Config) (v : View) (issued : Nat) (event : Option AnnounceEvent) : Prop where
  own : issued = v.start.number
  completed : event = some .completed → v.sentCompleted = true ∧ v.start.incomplete = true

/-- What a task about the torrent knows. -/
def Fits (cfg : Config) (v : View) : Task → Prop
  | .baselining _ incomplete begun _ | .scheduling _ incomplete begun _ => Read v incomplete begun
  | .spawned _ issued | .found _ issued => issued = v.start.number
  | .announcing _ issued event =>
    Carries cfg v issued event ∧
      (cfg.announce = true → event ≠ some .started → v.start.announced ≠ []) ∧
      (event = some .completed → some AnnounceEvent.completed ∉ v.start.announced)
  | .answered _ issued event _ _ => Carries cfg v issued event ∧ v.start.announced ≠ []
  | .landed _ issued event anyOk _ =>
    Carries cfg v issued event ∧
      (anyOk = true → cfg.announce = true → v.start.announced ≠ []) ∧
      (anyOk = false → event = some .completed → some AnnounceEvent.completed ∉ v.start.announced)
  | _ => True

structure Inv (cfg : Config) (s : State) : Prop where
  coherent : ∀ id, Coherent cfg (view s id)
  fits : ∀ task ∈ s.tasks, ∀ id, Task.about task = some id → Fits cfg (view s id) task
  polls : ∀ hotIds now, Task.polling hotIds now ∈ s.tasks → hotIds.Nodup

/-! ### What the sections do to a view -/

namespace View

def claimed (v : View) : View := { v with inFlight := true, running := v.running + 1 }

def owes (v : View) : Bool := v.pending && v.sentStarted && !v.sentCompleted

def nextEvent (v : View) : Option AnnounceEvent :=
  if v.owes then some .completed else if !v.sentStarted then some .started else none

def picked (v : View) : View :=
  if v.owes then { v with sentCompleted := true, pending := false } else v

def announced (v : View) (event : Option AnnounceEvent) : View :=
  { v with start := { v.start with announced := v.start.announced ++ [event] } }

def finished (v : View) (event : Option AnnounceEvent) (anyOk : Bool) : View :=
  { v with
    inFlight := false
    running := v.running - 1
    sentStarted := v.sentStarted || (anyOk && event = some .started)
    sentCompleted := if event = some .completed then anyOk else v.sentCompleted
    pending := if event = some .completed then !anyOk else v.pending }

def begun (v : View) (incomplete : Bool) : View :=
  { v with start := ⟨v.start.number + 1, incomplete, []⟩ }

/-- The torrent has no entry, or a fresh one. -/
def blank (v : View) : View :=
  { v with inFlight := false, sentStarted := false, sentCompleted := false, pending := false }

end View

theorem orderly_nil (number : Nat) (incomplete : Bool) : Orderly ⟨number, incomplete, []⟩ := by
  constructor
  · intro event found
    cases found
  · exact Nat.zero_le _
  · intro member
    cases member

theorem coherent_claimed (cfg : Config) (v : View) (coherent : Coherent cfg v)
    (free : v.inFlight = false) (hot : v.hot.isSome = true) (quiet : v.stopping = 0) :
    Coherent cfg v.claimed := by
  have none := coherent.running
  rw [free, if_neg Bool.false_ne_true] at none
  exact {
    running := by
      show v.running + 1 = 1
      omega
    hot := fun _ => hot
    single := by
      show v.running + 1 + v.stopping ≤ 1
      omega
    orderly := coherent.orderly
    started := coherent.started
    completed := coherent.completed
    pending := coherent.pending
    baseline := coherent.baseline
    missing := coherent.missing }

theorem coherent_picked (cfg : Config) (v : View) (coherent : Coherent cfg v) :
    Coherent cfg v.picked := by
  rw [View.picked]
  split_ifs
  · exact {
      running := coherent.running
      hot := coherent.hot
      single := coherent.single
      orderly := coherent.orderly
      started := coherent.started
      completed := fun _ unsent => by cases unsent
      pending := fun _ none => by cases none
      baseline := coherent.baseline
      missing := coherent.missing }
  · exact coherent

theorem coherent_published (cfg : Config) (v : View) (complete : Bool) (coherent : Coherent cfg v)
    (unsent : v.sentStarted = false) (unowed : v.pending = false)
    (based : v.baseline = some true → complete = false) :
    Coherent cfg { v.begun (!complete) with hot := some complete } where
  running := coherent.running
  hot := fun _ => rfl
  single := coherent.single
  orderly := orderly_nil _ _
  started := by
    intro _ sent
    rw [show v.sentStarted = true from sent] at unsent
    cases unsent
  completed := fun _ _ => List.not_mem_nil
  pending := by
    intro _ owed
    rw [show v.pending = true from owed] at unowed
    cases unowed
  baseline := by
    intro _ before
    show (!complete) = true
    rw [based before]
    rfl
  missing := by
    intro incomplete
    show (!complete) = true
    rw [Option.some.inj incomplete]
    rfl

theorem coherent_scheduled (cfg : Config) (v : View) (incomplete : Bool) (coherent : Coherent cfg v)
    (idle : v.running = 0) (based : v.baseline = some true → incomplete = true)
    (missing : v.hot = some false → incomplete = true) : Coherent cfg (v.blank.begun incomplete) where
  running := idle
  hot := fun clash => by cases clash
  single := coherent.single
  orderly := orderly_nil _ _
  started := fun _ clash => by cases clash
  completed := fun _ _ => List.not_mem_nil
  pending := fun _ clash => by cases clash
  baseline := fun _ => based
  missing := missing

theorem coherent_blank (cfg : Config) (v : View) (coherent : Coherent cfg v) (idle : v.running = 0)
    (unsent : v.hot.isSome = true → v.sentCompleted = false) : Coherent cfg v.blank where
  running := idle
  hot := fun clash => by cases clash
  single := coherent.single
  orderly := coherent.orderly
  started := fun _ clash => by cases clash
  completed := fun hot _ => coherent.completed hot (unsent hot)
  pending := fun _ clash => by cases clash
  baseline := coherent.baseline
  missing := coherent.missing

theorem coherent_based (cfg : Config) (v : View) (incomplete : Bool) (coherent : Coherent cfg v)
    (based : incomplete = true → v.start.incomplete = true) :
    Coherent cfg { v with baseline := some incomplete } where
  running := coherent.running
  hot := coherent.hot
  single := coherent.single
  orderly := coherent.orderly
  started := coherent.started
  completed := coherent.completed
  pending := coherent.pending
  baseline := fun _ set => based (Option.some.inj set)
  missing := coherent.missing

theorem coherent_unbased (cfg : Config) (v : View) (coherent : Coherent cfg v) :
    Coherent cfg { v with baseline := none } where
  running := coherent.running
  hot := coherent.hot
  single := coherent.single
  orderly := coherent.orderly
  started := coherent.started
  completed := coherent.completed
  pending := coherent.pending
  baseline := fun _ clash => by cases clash
  missing := coherent.missing

/-- A torrent that is no longer hot owes its schedule nothing. -/
theorem coherent_cold (cfg : Config) (v : View) (coherent : Coherent cfg v) (idle : v.running = 0) :
    Coherent cfg { v with hot := none } where
  running := coherent.running
  hot := by
    intro claimed
    have counted := coherent.running
    rw [show v.inFlight = true from claimed, if_pos rfl] at counted
    omega
  single := coherent.single
  orderly := coherent.orderly
  started := fun clash => by cases clash
  completed := fun clash => by cases clash
  pending := fun clash => by cases clash
  baseline := fun clash => by cases clash
  missing := fun clash => by cases clash

/-- A torrent becomes complete and not incomplete again. -/
theorem coherent_grown (cfg : Config) (v : View) (hot : Option Bool) (coherent : Coherent cfg v)
    (same : hot.isSome = v.hot.isSome) (missing : hot = some false → v.hot = some false) :
    Coherent cfg { v with hot := hot } where
  running := coherent.running
  hot := fun claimed => same.trans (coherent.hot claimed)
  single := coherent.single
  orderly := coherent.orderly
  started := fun set => coherent.started (same.symm.trans set)
  completed := fun set => coherent.completed (same.symm.trans set)
  pending := fun set => coherent.pending (same.symm.trans set)
  baseline := fun set => coherent.baseline (same.symm.trans set)
  missing := fun incomplete => coherent.missing (missing incomplete)

theorem coherent_requested (cfg : Config) (v : View) (coherent : Coherent cfg v)
    (based : v.baseline = some true) : Coherent cfg { v with pending := true } where
  running := coherent.running
  hot := coherent.hot
  single := coherent.single
  orderly := coherent.orderly
  started := coherent.started
  completed := coherent.completed
  pending := fun hot _ => coherent.baseline hot based
  baseline := coherent.baseline
  missing := coherent.missing

theorem coherent_stopping (cfg : Config) (v : View) (count : Nat) (coherent : Coherent cfg v)
    (single : v.running + count ≤ 1) : Coherent cfg { v with stopping := count } where
  running := coherent.running
  hot := coherent.hot
  single := single
  orderly := coherent.orderly
  started := coherent.started
  completed := coherent.completed
  pending := coherent.pending
  baseline := coherent.baseline
  missing := coherent.missing

/-- The picked event fits the history: started first, completed once and when it is due. -/
theorem carries_picked (cfg : Config) (v : View) (coherent : Coherent cfg v) (hot : v.hot.isSome = true)
    (id : Nat) : Fits cfg v.picked (.announcing id v.start.number v.nextEvent) := by
  by_cases owes : v.owes = true
  · have parts := owes
    rw [View.owes, Bool.and_eq_true, Bool.and_eq_true, Bool.not_eq_true'] at parts
    obtain ⟨⟨pending, started⟩, unsent⟩ := parts
    rw [View.picked, View.nextEvent, if_pos owes, if_pos owes]
    refine ⟨⟨rfl, fun _ => ⟨rfl, coherent.pending hot pending⟩⟩, ?_, ?_⟩
    · exact fun announces _ => coherent.started hot started announces
    · exact fun _ => coherent.completed hot unsent
  · rw [View.picked, View.nextEvent, if_neg owes, if_neg owes]
    by_cases started : v.sentStarted = true
    · rw [started]
      refine ⟨⟨rfl, fun clash => by cases clash⟩, ?_, fun clash => by cases clash⟩
      exact fun announces _ => coherent.started hot started announces
    · rw [Bool.not_eq_true] at started
      rw [started]
      exact ⟨⟨rfl, fun clash => by cases clash⟩, fun _ other => absurd rfl other,
        fun clash => by cases clash⟩

theorem orderly_announced (st : Start) (event : Option AnnounceEvent) (orderly : Orderly st)
    (first : event ≠ some .started → st.announced ≠ [])
    (fresh : event = some .completed → some AnnounceEvent.completed ∉ st.announced)
    (due : event = some .completed → st.incomplete = true) :
    Orderly { st with announced := st.announced ++ [event] } := by
  constructor
  · intro head found
    cases earlier : st.announced with
    | nil =>
      simp only [earlier, List.nil_append, List.head?_cons, Option.some.injEq] at found
      rw [← found]
      by_contra other
      exact first other earlier
    | cons one rest =>
      apply orderly.first
      simpa [earlier] using found
  · show (st.announced ++ [event]).count (some .completed) ≤ 1
    rw [List.count_append, List.count_singleton]
    by_cases completes : event = some .completed
    · rw [List.count_eq_zero_of_not_mem (fresh completes)]
      split_ifs
      · omega
      · omega
    · have others := orderly.once
      rw [if_neg (by simpa using completes)]
      omega
  · intro member
    rcases List.mem_append.1 member with before | now
    · exact orderly.due before
    · exact due (List.mem_singleton.1 now).symm

theorem coherent_announced (cfg : Config) (v : View) (event : Option AnnounceEvent)
    (announces : cfg.announce = true) (coherent : Coherent cfg v) (id issued : Nat)
    (fits : Fits cfg v (.announcing id issued event)) : Coherent cfg (v.announced event) := by
  obtain ⟨carries, started, fresh⟩ := fits
  exact {
    running := coherent.running
    hot := coherent.hot
    single := coherent.single
    orderly := orderly_announced v.start event coherent.orderly (started announces) fresh
      (fun completes => (carries.completed completes).2)
    started := fun _ _ _ => List.append_ne_nil_of_right_ne_nil _ (List.cons_ne_nil _ _)
    completed := by
      intro hot unsent member
      rcases List.mem_append.1 member with before | now
      · exact coherent.completed hot unsent before
      · have sent := (carries.completed (List.mem_singleton.1 now).symm).1
        rw [show v.sentCompleted = false from unsent] at sent
        cases sent
    pending := coherent.pending
    baseline := coherent.baseline
    missing := coherent.missing }

theorem coherent_finished (cfg : Config) (v : View) (event : Option AnnounceEvent) (anyOk : Bool)
    (coherent : Coherent cfg v) (id issued interval : Nat)
    (fits : Fits cfg v (.landed id issued event anyOk interval)) : Coherent cfg (v.finished event anyOk) := by
  obtain ⟨carries, landed, failed⟩ := fits
  have one := coherent.single
  have counted := coherent.running
  exact {
    running := by
      show v.running - 1 = 0
      omega
    hot := fun clash => by cases clash
    single := by
      show v.running - 1 + v.stopping ≤ 1
      omega
    orderly := coherent.orderly
    started := by
      intro hot sent announces
      rcases Bool.or_eq_true_iff.1 sent with before | now
      · exact coherent.started hot before announces
      · exact landed (Bool.and_eq_true_iff.1 now).1 announces
    completed := by
      intro hot unsent
      by_cases completes : event = some .completed
      · have lost : anyOk = false := by
          simpa [View.finished, completes] using unsent
        exact failed lost completes
      · apply coherent.completed hot
        simpa [View.finished, completes] using unsent
    pending := by
      intro hot owed
      by_cases completes : event = some .completed
      · exact (carries.completed completes).2
      · apply coherent.pending hot
        simpa [View.finished, completes] using owed
    baseline := coherent.baseline
    missing := coherent.missing }

/-! ### What the sections leave of what other tasks know -/

theorem read_same (v v' : View) (incomplete : Bool) (begun : Nat) (read : Read v incomplete begun)
    (number : v'.start.number = v.start.number) (same : v'.start.incomplete = v.start.incomplete)
    (missing : v'.hot = some false → v.hot = some false) : Read v' incomplete begun := by
  obtain ⟨bound, stands⟩ := read
  rw [Read, number, same]
  exact ⟨bound, fun current => ⟨(stands current).1, fun hot => (stands current).2 (missing hot)⟩⟩

/-- A new start leaves no earlier reading standing. -/
theorem read_next (v v' : View) (incomplete : Bool) (begun : Nat) (read : Read v incomplete begun)
    (number : v'.start.number = v.start.number + 1) : Read v' incomplete begun := by
  have bound := read.1
  rw [Read, number]
  exact ⟨by omega, fun current => by omega⟩

/-- A task that is no announce knows only what it has read. -/
theorem fits_of_read (cfg : Config) (v v' : View) (task : Task) (id : Nat)
    (about : Task.about task = some id) (idle : Task.runs id task = false)
    (read : ∀ incomplete begun, Read v incomplete begun → Read v' incomplete begun)
    (fits : Fits cfg v task) : Fits cfg v' task := by
  cases task with
  | baselining _ _ _ _ | scheduling _ _ _ _ => exact read _ _ fits
  | spawned _ _ | found _ _ | announcing _ _ _ | answered _ _ _ _ _ | landed _ _ _ _ _
     => simp_all [Task.about, Task.runs]
  | _ => trivial

/-- What a task knows survives where the start stays and a completed event stays sent. -/
theorem fits_same (cfg : Config) (v v' : View) (task : Task) (start : v'.start = v.start)
    (missing : v'.hot = some false → v.hot = some false)
    (sent : v.sentCompleted = true → v'.sentCompleted = true) (fits : Fits cfg v task) :
    Fits cfg v' task := by
  have carries : ∀ issued event, Carries cfg v issued event → Carries cfg v' issued event := by
    intro issued event known
    constructor
    · rw [start]
      exact known.own
    · intro completes
      rw [start]
      exact ⟨sent (known.completed completes).1, (known.completed completes).2⟩
  have read : ∀ incomplete begun, Read v incomplete begun → Read v' incomplete begun := by
    intro incomplete begun known
    exact read_same v v' incomplete begun known (by rw [start]) (by rw [start]) missing
  cases task with
  | baselining _ _ _ _ | scheduling _ _ _ _ => exact read _ _ fits
  | spawned i issued =>
    show issued = v'.start.number
    rw [start]
    exact fits
  | found i issued =>
    show issued = v'.start.number
    rw [start]
    exact fits
  | announcing i issued event =>
    obtain ⟨known, rest⟩ := fits
    rw [← start] at rest
    exact ⟨carries _ _ known, rest⟩
  | answered i issued event interval minInterval =>
    obtain ⟨known, rest⟩ := fits
    rw [← start] at rest
    exact ⟨carries _ _ known, rest⟩
  | landed i issued event anyOk interval =>
    obtain ⟨known, rest⟩ := fits
    rw [← start] at rest
    exact ⟨carries _ _ known, rest⟩
  | _ => trivial

end Seedchamp.Session.AnnounceViews
