import Seedchamp.Session.AnnounceOrder

/-!
How soon a torrent is announced again. A watch beside the schedule keeps what the trackers declared and how
long the last announce of each torrent asks to wait; the invariant ties both to the schedule.
-/

namespace Seedchamp.Session.AnnouncePacing
open Foundation.KeyedRows Foundation.KeyedMap Foundation.Tasks Foundation.TransitionSystem
open Session.Announces Session.AnnounceViews Session.AnnounceOrder

/-! ### The watch -/

/-- The end of an announce: when it was, and how long the next one has to wait. -/
structure Ending where
  time : Nat
  delay : Nat
  failed : Bool
  deriving DecidableEq

/-- What the intervals that a tracker declares ask for. -/
def pause (interval minInterval : Nat) : Nat :=
  min (clampAnnounceInterval interval) (max (clampMinInterval minInterval) ANNOUNCE_DEFAULT_MIN_INTERVAL_SECS)

structure Watch where
  state : State
  declared : Nat → Option (Nat × Nat)
  ended : Nat → Option Ending

def declaredAfter (w : Watch) : Event → Nat → Option (Nat × Nat)
  | .answer k reply =>
    match w.state.tasks[k]? with
    | some (.announcing id _ _) => Function.update w.declared id reply
    | _ => w.declared
  | _ => w.declared

/-- A success is noted when it lands, a failure when its announce ends. -/
def endedAfter (w : Watch) : Event → Nat → Option Ending
  | .land k =>
    match w.state.tasks[k]? with
    | some (.answered id _ _ _ _) =>
      Function.update w.ended id ((w.declared id).map (fun told => ⟨w.state.now, pause told.1 told.2, false⟩))
    | _ => w.ended
  | .finish k =>
    match w.state.tasks[k]? with
    | some (.landed id _ _ false _) => Function.update w.ended id (some ⟨w.state.now, 300, true⟩)
    | _ => w.ended
  | _ => w.ended

/-- With announces turned off no tracker is asked. -/
def watch (cfg : Config) (w : Watch) (event : Event) : Option Watch :=
  (step cfg w.state event).map fun next =>
    if cfg.announce then ⟨next, declaredAfter w event, endedAfter w event⟩ else ⟨next, w.declared, w.ended⟩

def watching (s : State) : Watch := ⟨s, fun _ => none, fun _ => none⟩

/-- The step claims the torrent's entry and spawns an announce. -/
def Begins (s s' : State) (id : Nat) : Prop :=
  ∃ k issued, s.tasks.length ≤ k ∧ s'.tasks[k]? = some (.spawned id issued)

/-- No user start, stop, completion or startup batch acts on the schedule. -/
def unhurried (w : Watch) : Event → Bool
  | .claim _ | .unschedule _ | .stagger _ => false
  | .requestPend k =>
    match w.state.tasks[k]? with
    | some (.requestingComplete id) =>
      (get? w.state.sched id).all (fun e => e.sentCompleted || e.pendingCompleted)
    | _ => true
  | .schedule k =>
    match w.state.tasks[k]? with
    | some (.scheduling _ _ _ user) => !user
    | _ => true
  | .finish k =>
    match w.state.tasks[k]? with
    | some (.landed id _ event anyOk _) =>
      !flag (TorrentAnnounce.followsUp event anyOk) (get? w.state.sched id)
    | _ => true
  | _ => true

/-- The own check of `maybe_starve_announce` refuses. -/
def starveRefused (now : Nat) (e : TorrentAnnounce) : Bool :=
  e.inFlight || e.lastSuccess.any (fun last =>
    now < last + max e.minIntervalSecs ANNOUNCE_DEFAULT_MIN_INTERVAL_SECS)

/-- Within the back-off of a failed announce. -/
def backingOff (w : Watch) (id : Nat) : Bool :=
  (w.ended id).any (fun x => x.failed && decide (w.state.now < x.time + x.delay))

/-- Starve pulls leave a back-off alone. -/
def patient (w : Watch) : Event → Bool
  | .starve id => !backingOff w id || ((get? w.state.sched id).map (starveRefused w.state.now)).getD true
  | _ => true

def pacingGuard (w : Watch) (event : Event) : Bool := unhurried w event && patient w event

/-- No torrent has two announces under way. -/
structure OneEach (s : State) : Prop where
  claimed : ∀ task ∈ s.tasks, ∀ id, Task.announces task = some id →
    flag TorrentAnnounce.inFlight (get? s.sched id) = true
  single : ∀ id, s.tasks.countP (Task.runs id) ≤ 1
  polls : ∀ hotIds now, .polling hotIds now ∈ s.tasks → now ≤ s.now

/-! ### The invariant -/

/-- The entry remembers the success. -/
def Noted (x : Ending) (e : TorrentAnnounce) : Prop :=
  e.lastSuccess = some x.time ∧ x.delay ≤ max e.minIntervalSecs ANNOUNCE_DEFAULT_MIN_INTERVAL_SECS

def Claimed (w : Watch) (id : Nat) : Prop := flag TorrentAnnounce.inFlight (get? w.state.sched id) = true

def Fits (w : Watch) : Task → Prop
  | .polling _ now => now ≤ w.state.now
  | .answered id _ _ interval minInterval => Claimed w id ∧ ∀ told, w.declared id = some told →
    interval = clampAnnounceInterval told.1 ∧ minInterval = clampMinInterval told.2
  | .landed id _ _ true interval => Claimed w id ∧ ∀ x, w.ended id = some x →
    x.failed = false ∧ x.time ≤ w.state.now ∧ x.delay ≤ interval ∧
      ∀ e, get? w.state.sched id = some e → Noted x e
  | .landed id _ _ false _ | .spawned id _ | .found id _ | .announcing id _ _ => Claimed w id
  | _ => True

/-- A torrent at rest is due no sooner than its last announce asks for. -/
def Rested (w : Watch) (id : Nat) : Prop :=
  ∀ e, get? w.state.sched id = some e → e.inFlight = false → ∀ x, w.ended id = some x →
    x.time + x.delay ≤ e.nextDue ∧ (x.failed = false → Noted x e)

structure Paced (w : Watch) : Prop where
  fits : ∀ task ∈ w.state.tasks, Fits w task
  single : ∀ id, w.state.tasks.countP (Task.runs id) ≤ 1
  rested : ∀ id, Rested w id
  known : ∀ id, (w.ended id).isSome = true → (get? w.state.sched id).isSome = true

theorem paced_watching (s : State) (one : OneEach s) : Paced (watching s) := by
  refine ⟨?_, one.single, (fun _ _ _ _ _ last => by cases last), (fun _ some' => by cases some')⟩
  intro task member
  have claimed := one.claimed task member
  cases task with
  | polling hotIds now => exact one.polls hotIds now member
  | spawned id _ | found id _ | announcing id _ _ => exact claimed id rfl
  | answered id _ _ _ _ => exact ⟨claimed id rfl, (fun _ last => by cases last)⟩
  | landed id issued event anyOk interval =>
    cases anyOk with
    | true => exact ⟨claimed id rfl, (fun _ last => by cases last)⟩
    | false => exact claimed id rfl
  | _ => trivial

/-- Whether a task fits depends on its own torrent alone. -/
theorem fits_same (w w' : Watch) (task : Task) (fits : Fits w task) (later : w.state.now ≤ w'.state.now)
    (same : ∀ id, Task.announces task = some id → get? w'.state.sched id = get? w.state.sched id ∧
      w'.declared id = w.declared id ∧ w'.ended id = w.ended id) : Fits w' task := by
  cases task with
  | polling hotIds now => exact Nat.le_trans fits later
  | spawned id _ | found id _ | announcing id _ _ =>
    rw [Fits, Claimed, (same id rfl).1]
    exact fits
  | answered id _ _ _ _ =>
    obtain ⟨entry, declared, _⟩ := same id rfl
    rw [Fits, Claimed, entry, declared]
    exact fits
  | landed id issued event anyOk interval =>
    obtain ⟨entry, _, ended⟩ := same id rfl
    cases anyOk with
    | true =>
      rw [Fits, Claimed, entry, ended]
      refine ⟨fits.1, ?_⟩
      intro x last
      obtain ⟨success, time, delay, noted⟩ := fits.2 x last
      exact ⟨success, time.trans later, delay, noted⟩
    | false =>
      rw [Fits, Claimed, entry]
      exact fits
  | _ => trivial

theorem rested_same (w w' : Watch) (id : Nat) (rested : Rested w id)
    (entry : get? w'.state.sched id = get? w.state.sched id) (ended : w'.ended id = w.ended id) :
    Rested w' id := by
  rw [Rested, entry, ended]
  exact rested

/-- A step that leaves the schedule and every announce alone. -/
theorem paced_calm (w : Watch) (s' : State) (paced : Paced w)
    (entry : ∀ id, get? s'.sched id = get? w.state.sched id)
    (later : w.state.now ≤ s'.now)
    (tasks : ∀ task ∈ s'.tasks, task ∈ w.state.tasks ∨ Fits ⟨s', w.declared, w.ended⟩ task)
    (counts : ∀ id, s'.tasks.countP (Task.runs id) ≤ w.state.tasks.countP (Task.runs id)) :
    Paced ⟨s', w.declared, w.ended⟩ := by
  refine ⟨?_, fun id => (counts id).trans (paced.single id), ?_, ?_⟩
  · intro task member
    rcases tasks task member with old | new
    · exact fits_same w _ task (paced.fits task old) later (fun id _ => ⟨entry id, rfl, rfl⟩)
    · exact new
  · exact fun id => rested_same w _ id (paced.rested id) (entry id) rfl
  · intro id some'
    rw [entry id]
    exact paced.known id some'

/-- A section of an announce of one torrent. -/
theorem paced_section (w w' : Watch) (k id : Nat) (before after : Task) (paced : Paced w)
    (running : w.state.tasks[k]? = some before) (mine : Task.announces before = some id)
    (tasks : w'.state.tasks = w.state.tasks.set k after) (now : w'.state.now = w.state.now)
    (others : ∀ j, j ≠ id → get? w'.state.sched j = get? w.state.sched j ∧
      w'.declared j = w.declared j ∧ w'.ended j = w.ended j)
    (still : Task.announces after = none ∨ Task.announces after = some id)
    (fits : Fits w' after) (rested : Rested w' id)
    (known : (w'.ended id).isSome = true → (get? w'.state.sched id).isSome = true) : Paced w' := by
  refine ⟨?_, ?_, ?_, ?_⟩
  · intro task member
    rw [tasks] at member
    rcases mem_set_cases w.state.tasks k after task member with new | ⟨j, elsewhere, found⟩
    · rw [new]
      exact fits
    · refine fits_same w w' task (paced.fits task (mem_of_getElem? _ j task found)) (le_of_eq now.symm) ?_
      intro i about
      apply others
      rintro rfl
      exact elsewhere (position_unique w.state.tasks (Task.runs i) (paced.single i) j k task before found running
        ((runs_iff task i).2 about) ((runs_iff before i).2 mine))
  · intro j
    have moved := countP_set w.state.tasks k before after (Task.runs j) running
    have one := paced.single j
    rw [tasks]
    by_cases counts : Task.runs j after = true
    · have same : id = j := by
        rcases still with none' | kept
        · rw [(runs_iff after j).1 counts] at none'
          cases none'
        · rw [(runs_iff after j).1 counts] at kept
          exact (Option.some.inj kept).symm
      rw [if_pos counts, if_pos ((runs_iff before j).2 (same ▸ mine))] at moved
      omega
    · rw [if_neg counts] at moved
      omega
  · intro j
    by_cases same : j = id
    · rw [same]
      exact rested
    · obtain ⟨entry, _, ended⟩ := others j same
      exact rested_same w w' j (paced.rested j) entry ended
  · intro j
    by_cases same : j = id
    · rw [same]
      exact known
    · obtain ⟨entry, _, ended⟩ := others j same
      rw [entry, ended]
      exact paced.known j

theorem entry_of_claimed (w : Watch) (id : Nat) (claimed : Claimed w id) :
    ∃ e, get? w.state.sched id = some e ∧ e.inFlight = true := by
  unfold Claimed flag at claimed
  cases entry : get? w.state.sched id with
  | none =>
    rw [entry] at claimed
    cases claimed
  | some e =>
    rw [entry] at claimed
    exact ⟨e, rfl, claimed⟩

theorem claimed_of_fits (w : Watch) (task : Task) (id : Nat) (fits : Fits w task)
    (about : Task.announces task = some id) : Claimed w id := by
  cases task with
  | spawned _ _ | found _ _ | announcing _ _ _ =>
    cases about
    exact fits
  | answered _ _ _ _ _ =>
    cases about
    exact fits.1
  | landed _ _ _ anyOk _ =>
    cases about
    cases anyOk with
    | true => exact fits.1
    | false => exact fits
  | _ => cases about

/-- A task that is no announce moves on, or ends. -/
theorem paced_move (w : Watch) (s' : State) (k : Nat) (before after : Task) (paced : Paced w)
    (running : w.state.tasks[k]? = some before) (tasks : s'.tasks = w.state.tasks.set k after)
    (entry : ∀ id, get? s'.sched id = get? w.state.sched id) (now : s'.now = w.state.now)
    (idle : Task.announces after = none) (fits : Fits ⟨s', w.declared, w.ended⟩ after) :
    Paced ⟨s', w.declared, w.ended⟩ := by
  refine paced_calm w s' paced entry (le_of_eq now.symm) ?_ ?_
  · intro task member
    rw [tasks] at member
    rcases List.mem_or_eq_of_mem_set member with old | new
    · exact Or.inl old
    · right
      rw [new]
      exact fits
  · intro id
    have moved := countP_set w.state.tasks k before after (Task.runs id) running
    have quiet : ¬Task.runs id after = true := by
      rw [runs_iff, idle]
      nofun
    rw [if_neg quiet] at moved
    rw [tasks]
    omega

/-- Tasks that are no announces begin. -/
theorem paced_arrive (w : Watch) (s' : State) (fresh : List Task) (paced : Paced w)
    (tasks : s'.tasks = w.state.tasks ++ fresh) (sched : s'.sched = w.state.sched)
    (later : w.state.now ≤ s'.now) (idle : ∀ task ∈ fresh, Task.announces task = none)
    (fits : ∀ task ∈ fresh, Fits ⟨s', w.declared, w.ended⟩ task) : Paced ⟨s', w.declared, w.ended⟩ := by
  refine paced_calm w s' paced (fun id => by rw [sched]) later ?_ ?_
  · intro task member
    rw [tasks] at member
    exact (List.mem_append.1 member).imp id (fits task)
  · intro id
    have none' : fresh.countP (Task.runs id) = 0 := by
      rw [List.countP_eq_zero]
      intro task member runs
      rw [runs_iff, idle task member] at runs
      cases runs
    rw [tasks, List.countP_append, none', Nat.add_zero]

/-! ### Claims of the poll -/

/-- A claim takes an entry that is not in flight. -/
theorem paced_claimNow (now : Nat) (id : Nat) (w : Watch) (paced : Paced w) :
    Paced ⟨claimNow now w.state id, w.declared, w.ended⟩ := by
  unfold claimNow
  by_cases claimed : flag TorrentAnnounce.inFlight (get? w.state.sched id) = true
  · rw [if_pos claimed]
    exact paced
  rw [if_neg claimed]
  have entry : ∀ j, get? (orInsertWith w.state.sched id (.fresh now) (fun e => { e with inFlight := true })) j =
      if j = id then some { (get? w.state.sched id).getD (.fresh now) with inFlight := true }
      else get? w.state.sched j := fun j => get?_orInsertWith ..
  have mine := (entry id).trans (if_pos rfl)
  have none' : w.state.tasks.countP (Task.runs id) = 0 := by
    by_contra running
    obtain ⟨task, member, runs⟩ := List.countP_pos_iff.1 (Nat.pos_of_ne_zero running)
    exact claimed (claimed_of_fits w task id (paced.fits task member) ((runs_iff task id).1 runs))
  refine ⟨?_, ?_, ?_, ?_⟩
  · intro task member
    rcases List.mem_append.1 member with old | new
    · refine fits_same w _ task (paced.fits task old) (Nat.le_refl _) ?_
      intro j about
      have other : j ≠ id := by
        rintro rfl
        have counted := List.countP_pos_iff.2 ⟨task, old, (runs_iff task j).2 about⟩
        omega
      exact ⟨(entry j).trans (if_neg other), rfl, rfl⟩
    · split_ifs at new
      · cases new
      · rw [List.mem_singleton.1 new, Fits, Claimed]
        dsimp only
        rw [mine]
        rfl
  · intro j
    have one := paced.single j
    dsimp only
    rw [List.countP_append]
    split_ifs
    · exact one
    · rw [List.countP_singleton]
      split_ifs with same
      · have about := (runs_iff (.spawned id (w.state.start id).number) j).1 same
        cases about
        omega
      · exact one
  · intro j e found rest x last
    dsimp only at found
    rw [entry j] at found
    split_ifs at found
    · cases found
      cases rest
    · exact paced.rested j e found rest x last
  · intro j some'
    dsimp only
    rw [entry j]
    split_ifs
    · rfl
    · exact paced.known j some'

theorem paced_foldl_claimNow (now : Nat) (ids : List Nat) (w : Watch) (paced : Paced w) :
    Paced ⟨ids.foldl (claimNow now) w.state, w.declared, w.ended⟩ := by
  induction ids generalizing w with
  | nil => exact paced
  | cons id rest ih => exact ih ⟨claimNow now w.state id, w.declared, w.ended⟩ (paced_claimNow now id w paced)

theorem isDue_of_dueIds (cfg : Config) (sched : Schedule) (now id : Nat) (hotIds : List Nat)
    (member : id ∈ dueIds cfg sched now hotIds) : isDue sched now id = true := by
  have sorted : id ∈ (hotIds.filter (isDue sched now)).insertionSort
      (fun a b => dueTime sched now a ≤ dueTime sched now b) := by
    rw [dueIds] at member
    split_ifs at member
    · exact member
    · exact List.mem_of_mem_take member
  rw [List.mem_insertionSort, List.mem_filter] at sorted
  exact sorted.2

/-- A poll spawns announces of the torrents that it found due. -/
theorem spawned_foldl (now id : Nat) (ids : List Nat) (s : State) (k issued : Nat) (new : s.tasks.length ≤ k)
    (spawned : (ids.foldl (claimNow now) s).tasks[k]? = some (.spawned id issued)) : id ∈ ids := by
  induction ids generalizing s with
  | nil =>
    rw [List.foldl_nil, List.getElem?_eq_none new] at spawned
    cases spawned
  | cons first rest ih =>
    rw [List.foldl_cons] at spawned
    by_cases later : (claimNow now s first).tasks.length ≤ k
    · exact List.mem_cons_of_mem first (ih (claimNow now s first) later spawned)
    · have kept : ∀ (rest : List Nat) (s : State), k < s.tasks.length →
          (rest.foldl (claimNow now) s).tasks[k]? = s.tasks[k]? := by
        intro rest
        induction rest with
        | nil => exact fun _ _ => rfl
        | cons next rest ih =>
          intro s inside
          have longer : k < (claimNow now s next).tasks.length ∧
              (claimNow now s next).tasks[k]? = s.tasks[k]? := by
            unfold claimNow
            split_ifs
            · exact ⟨inside, rfl⟩
            · dsimp only
              rw [List.length_append, List.getElem?_append_left inside]
              exact ⟨by omega, rfl⟩
            · dsimp only
              rw [List.length_append, List.getElem?_append_left inside]
              exact ⟨by omega, rfl⟩
          rw [List.foldl_cons, ih _ longer.1, longer.2]
      rw [kept rest _ (Nat.not_le.1 later)] at spawned
      unfold claimNow at spawned later
      split_ifs at spawned later
      · exact absurd new later
      · dsimp only at spawned later
        rw [List.append_nil] at later
        exact absurd new later
      · dsimp only at spawned
        rw [List.getElem?_append_right new] at spawned
        cases here : k - s.tasks.length with
        | zero =>
          rw [here] at spawned
          cases spawned
          exact List.mem_cons_self
        | succ n =>
          rw [here] at spawned
          cases spawned

/-! ### Sections of an announce -/

section
variable (cfg : Config) (on : cfg.announce = true) (w : Watch) (paced : Paced w) (k id issued : Nat)
include paced

theorem paced_lookup (running : w.state.tasks[k]? = some (.spawned id issued)) :
    Paced ⟨w.state.move k (if (get? w.state.registry id).isSome then .found id issued else .returned),
      w.declared, w.ended⟩ := by
  have claimed : Claimed w id := paced.fits _ (mem_of_getElem? _ _ _ running)
  refine paced_section w _ k id _ _ paced running rfl rfl rfl (fun j _ => ⟨rfl, rfl, rfl⟩) ?_ ?_
    (paced.rested id) (paced.known id)
  · split_ifs
    · exact Or.inr rfl
    · exact Or.inl rfl
  · split_ifs
    · exact claimed
    · trivial

theorem paced_pick (running : w.state.tasks[k]? = some (.found id issued)) (event : Option AnnounceEvent) :
    Paced ⟨{ w.state with
      sched := orInsertWith w.state.sched id (.fresh w.state.now) TorrentAnnounce.pick
      tasks := w.state.tasks.set k (.announcing id issued event) }, w.declared, w.ended⟩ := by
  have entry : ∀ j, get? (orInsertWith w.state.sched id (.fresh w.state.now) TorrentAnnounce.pick) j =
      if j = id then some ((get? w.state.sched id).getD (.fresh w.state.now)).pick
      else get? w.state.sched j := fun j => get?_orInsertWith ..
  have flight : ∀ e : TorrentAnnounce, e.pick.inFlight = true := by
    intro e
    unfold TorrentAnnounce.pick
    split_ifs <;> rfl
  have mine := (entry id).trans (if_pos rfl)
  refine paced_section w _ k id _ _ paced running rfl rfl rfl ?_ (Or.inr rfl) ?_ ?_ ?_
  · intro j other
    exact ⟨(entry j).trans (if_neg other), rfl, rfl⟩
  · rw [Fits, Claimed]
    dsimp only
    rw [mine]
    exact flight _
  · intro e found rest
    dsimp only at found
    rw [mine] at found
    cases found
    rw [flight] at rest
    cases rest
  · intro _
    dsimp only
    rw [mine]
    rfl

include on in
theorem paced_answer (event : Option AnnounceEvent) (running : w.state.tasks[k]? = some (.announcing id issued event))
    (reply : Option (Nat × Nat)) :
    Paced ⟨answered cfg w.state k id issued event reply, Function.update w.declared id reply, w.ended⟩ := by
  have claimed : Claimed w id := paced.fits _ (mem_of_getElem? _ _ _ running)
  have others : ∀ j, j ≠ id → Function.update w.declared id reply j = w.declared j :=
    fun j other => Function.update_of_ne other ..
  have told : Function.update w.declared id reply id = reply := Function.update_self ..
  unfold answered
  cases reply with
  | none =>
    rw [on]
    exact paced_section w _ k id _ (.landed id issued event false ANNOUNCE_DEFAULT_SECS) paced running rfl rfl rfl
      (fun j other => ⟨rfl, others j other, rfl⟩) (Or.inr rfl) claimed (paced.rested id) (paced.known id)
  | some reply =>
    dsimp only
    rw [on, if_pos rfl]
    refine paced_section w _ k id _ (.answered id issued event (clampAnnounceInterval reply.1)
      (clampMinInterval reply.2)) paced running rfl rfl rfl
      (fun j other => ⟨rfl, others j other, rfl⟩) (Or.inr rfl) ⟨claimed, ?_⟩ (paced.rested id) (paced.known id)
    intro known same
    dsimp only at same
    rw [told] at same
    cases same
    exact ⟨rfl, rfl⟩

theorem paced_land (event : Option AnnounceEvent) (interval minInterval : Nat)
    (running : w.state.tasks[k]? = some (.answered id issued event interval minInterval)) :
    Paced ⟨{ w.state with
        sched := modify w.state.sched id (TorrentAnnounce.noteSuccess minInterval w.state.now)
        tasks := w.state.tasks.set k (.landed id issued event true interval) }, w.declared,
      Function.update w.ended id
        ((w.declared id).map (fun told => ⟨w.state.now, pause told.1 told.2, false⟩))⟩ := by
  obtain ⟨claimed, told⟩ := paced.fits _ (mem_of_getElem? _ _ _ running)
  obtain ⟨e, entry, flight⟩ := entry_of_claimed w id claimed
  have entries : ∀ j, get? (modify w.state.sched id (TorrentAnnounce.noteSuccess minInterval w.state.now)) j =
      if j = id then (get? w.state.sched j).map (TorrentAnnounce.noteSuccess minInterval w.state.now)
      else get? w.state.sched j := fun j => get?_modify ..
  have mine : get? (modify w.state.sched id (TorrentAnnounce.noteSuccess minInterval w.state.now)) id =
      some (e.noteSuccess minInterval w.state.now) := by
    rw [entries id, if_pos rfl, entry, Option.map_some]
  refine paced_section w _ k id _ _ paced running rfl rfl rfl ?_ (Or.inr rfl) ⟨?_, ?_⟩ ?_ ?_
  · intro j other
    exact ⟨(entries j).trans (if_neg other), rfl, Function.update_of_ne other ..⟩
  · rw [Claimed]
    dsimp only
    rw [mine]
    exact flight
  · intro x last
    dsimp only at last
    rw [Function.update_self, Option.map_eq_some_iff] at last
    obtain ⟨declared, known, rfl⟩ := last
    obtain ⟨interval', minInterval'⟩ := told declared known
    refine ⟨rfl, Nat.le_refl _, ?_, ?_⟩
    · rw [interval']
      exact Nat.min_le_left _ _
    · intro e' found
      dsimp only at found
      rw [mine] at found
      cases found
      refine ⟨rfl, ?_⟩
      dsimp only [TorrentAnnounce.noteSuccess]
      rw [minInterval']
      exact Nat.min_le_right _ _
  · intro e' found rest
    dsimp only at found
    rw [mine] at found
    cases found
    exact absurd flight (by rw [Bool.not_eq_true]; exact rest)
  · intro _
    dsimp only
    rw [mine]
    rfl

/-- An announce that no completed event follows schedules the next one. -/
theorem paced_finish (event : Option AnnounceEvent) (anyOk : Bool) (interval : Nat) (after : Task)
    (running : w.state.tasks[k]? = some (.landed id issued event anyOk interval))
    (alone : flag (TorrentAnnounce.followsUp event anyOk) (get? w.state.sched id) = false)
    (idle : after = .kicking id ∨ after = .returned) (ended : Nat → Option Ending)
    (noted : ended = if anyOk then w.ended else Function.update w.ended id (some ⟨w.state.now, 300, true⟩)) :
    Paced ⟨{ w.state with
        sched := modify w.state.sched id (TorrentAnnounce.finish event anyOk interval w.state.now)
        tasks := w.state.tasks.set k after }, w.declared, ended⟩ := by
  have fits := paced.fits _ (mem_of_getElem? _ _ _ running)
  have claimed : Claimed w id := claimed_of_fits w _ id fits rfl
  obtain ⟨e, entry, flight⟩ := entry_of_claimed w id claimed
  have entries : ∀ j, get? (modify w.state.sched id
      (TorrentAnnounce.finish event anyOk interval w.state.now)) j =
      if j = id then (get? w.state.sched j).map (TorrentAnnounce.finish event anyOk interval w.state.now)
      else get? w.state.sched j := fun j => get?_modify ..
  have mine : get? (modify w.state.sched id (TorrentAnnounce.finish event anyOk interval w.state.now)) id =
      some (e.finish event anyOk interval w.state.now) := by
    rw [entries id, if_pos rfl, entry, Option.map_some]
  refine paced_section w _ k id _ after paced running rfl rfl rfl ?_ ?_ ?_ ?_ ?_
  · intro j other
    refine ⟨(entries j).trans (if_neg other), rfl, ?_⟩
    dsimp only
    rw [noted]
    split_ifs
    · rfl
    · exact Function.update_of_ne other ..
  · left
    rcases idle with same | same <;> rw [same] <;> rfl
  · rcases idle with same | same <;> rw [same] <;> trivial
  · intro e' found rest x last
    dsimp only at found last
    rw [mine] at found
    cases found
    cases anyOk with
    | true =>
      rw [noted, if_pos rfl] at last
      obtain ⟨success, time, delay, known⟩ := fits.2 x last
      obtain ⟨success', minimum⟩ := known e entry
      rw [entry, flag, Option.map_some, Option.getD_some, TorrentAnnounce.followsUp, Bool.true_and] at alone
      have due : (e.finish event true interval w.state.now).nextDue = w.state.now + interval ∧
          (e.finish event true interval w.state.now).lastSuccess = e.lastSuccess ∧
          (e.finish event true interval w.state.now).minIntervalSecs = e.minIntervalSecs := by
        unfold TorrentAnnounce.finish
        unfold TorrentAnnounce.owesCompleted at alone ⊢
        rw [if_pos rfl]
        cases event with
        | none =>
          dsimp only [TorrentAnnounce.sent] at alone ⊢
          rw [alone]
          exact ⟨rfl, rfl, rfl⟩
        | some event =>
          cases event with
          | started =>
            dsimp only [TorrentAnnounce.sent] at alone ⊢
            rw [alone]
            exact ⟨rfl, rfl, rfl⟩
          | completed =>
            dsimp only [TorrentAnnounce.sent]
            exact ⟨rfl, rfl, rfl⟩
      rw [due.1]
      refine ⟨by omega, fun _ => ?_⟩
      rw [Noted, due.2.1, due.2.2]
      exact ⟨success', minimum⟩
    | false =>
      rw [noted, if_neg Bool.false_ne_true, Function.update_self] at last
      cases last
      exact ⟨Nat.le_refl _, (fun clash => by cases clash)⟩
  · intro _
    dsimp only
    rw [mine]
    rfl

end

/-! ### Every step -/

/-- A starve pull that the torrent's own check allows, or that no back-off stands against. -/
theorem paced_starve (w : Watch) (paced : Paced w) (id : Nat) (guard : patient w (.starve id) = true) :
    Paced ⟨{ w.state with sched := modify w.state.sched id (TorrentAnnounce.starve w.state.now) },
      w.declared, w.ended⟩ := by
  have entries : ∀ j, get? (modify w.state.sched id (TorrentAnnounce.starve w.state.now)) j =
      if j = id then (get? w.state.sched j).map (TorrentAnnounce.starve w.state.now)
      else get? w.state.sched j := fun j => get?_modify ..
  have kept : ∀ e : TorrentAnnounce, (e.starve w.state.now).inFlight = e.inFlight ∧
      (e.starve w.state.now).lastSuccess = e.lastSuccess ∧
      (e.starve w.state.now).minIntervalSecs = e.minIntervalSecs := by
    intro e
    unfold TorrentAnnounce.starve
    dsimp only
    split_ifs <;> exact ⟨rfl, rfl, rfl⟩
  have noted : ∀ x e, Noted x e → Noted x (e.starve w.state.now) := by
    intro x e noted
    rw [Noted, (kept e).2.1, (kept e).2.2]
    exact noted
  refine ⟨?_, paced.single, ?_, ?_⟩
  · intro task member
    have fits := paced.fits task member
    have claimed : ∀ j, Claimed w j → flag TorrentAnnounce.inFlight
        (get? (modify w.state.sched id (TorrentAnnounce.starve w.state.now)) j) = true := by
      intro j claimed
      obtain ⟨e, entry, flight⟩ := entry_of_claimed w j claimed
      rw [entries j, entry]
      split_ifs
      · exact (kept e).1.trans flight
      · exact flight
    cases task with
    | polling _ _ => exact fits
    | spawned j _ | found j _ | announcing j _ _ => exact claimed j fits
    | answered j _ _ _ _ => exact ⟨claimed j fits.1, fits.2⟩
    | landed j _ _ anyOk _ =>
      cases anyOk with
      | true =>
        refine ⟨claimed j fits.1, ?_⟩
        intro x last
        obtain ⟨success, time, delay, known⟩ := fits.2 x last
        refine ⟨success, time, delay, ?_⟩
        intro e found
        dsimp only at found
        rw [entries j] at found
        split_ifs at found
        · obtain ⟨e', entry, rfl⟩ := Option.map_eq_some_iff.1 found
          exact noted x e' (known e' entry)
        · exact known e found
      | false => exact claimed j fits
    | _ => trivial
  · intro j e found rest x last
    dsimp only at found
    rw [entries j] at found
    split_ifs at found with same
    · subst same
      obtain ⟨e', entry, rfl⟩ := Option.map_eq_some_iff.1 found
      rw [(kept e').1] at rest
      obtain ⟨due, known⟩ := paced.rested j e' entry rest x last
      refine ⟨?_, fun success => noted x e' (known success)⟩
      unfold TorrentAnnounce.starve
      dsimp only
      split_ifs with refused
      · exact due
      · have allowed : x.time + x.delay ≤ w.state.now := by
          rw [Bool.or_eq_true, not_or] at refused
          cases outcome : x.failed with
          | true =>
            rw [patient, Bool.or_eq_true, Bool.not_eq_true', backingOff, entry] at guard
            rcases guard with passed | refuses
            · change w.ended j = some x at last
              rw [last, Option.any_some, outcome, Bool.true_and, decide_eq_false_iff_not] at passed
              exact Nat.not_lt.1 passed
            · rw [Option.map_some, Option.getD_some, starveRefused, Bool.or_eq_true] at refuses
              exact absurd refuses (not_or.2 refused)
          | false =>
            obtain ⟨success, minimum⟩ := known outcome
            rw [success, Option.any_some, decide_eq_true_eq] at refused
            omega
        exact Nat.le_min.2 ⟨due, allowed⟩
    · exact paced.rested j e found rest x last
  · intro j some'
    have known := paced.known j some'
    dsimp only
    rw [entries j]
    split_ifs
    · rw [Option.isSome_map]
      exact known
    · exact known

/-- An activation schedules a torrent that has no entry yet. -/
theorem paced_activated (w : Watch) (paced : Paced w) (k id due begun : Nat) (incomplete : Bool)
    (running : w.state.tasks[k]? = some (.scheduling id incomplete begun false)) :
    Paced ⟨{ w.state with
        sched := orInsertWith w.state.sched id (.fresh due) (fun e => e)
        tasks := w.state.tasks.set k .returned }, w.declared, w.ended⟩ := by
  have moved := paced_move w (w.state.move k .returned) k _ _ paced running rfl (fun _ => rfl) rfl rfl trivial
  have entries : ∀ j, get? (orInsertWith w.state.sched id (.fresh due) (fun e => e)) j =
      if j = id then some ((get? w.state.sched id).getD (.fresh due)) else get? w.state.sched j :=
    fun j => get?_orInsertWith ..
  have same : ∀ j, (get? w.state.sched j).isSome = true →
      get? (orInsertWith w.state.sched id (.fresh due) (fun e => e)) j = get? w.state.sched j := by
    intro j some'
    rw [entries j]
    split_ifs with here
    · obtain ⟨e, entry⟩ := Option.isSome_iff_exists.1 some'
      rw [here] at entry
      rw [here, entry, Option.getD_some]
    · rfl
  refine ⟨?_, moved.single, ?_, ?_⟩
  · intro task member
    have fits := moved.fits task member
    have entry : ∀ j, Claimed w j →
        get? (orInsertWith w.state.sched id (.fresh due) (fun e => e)) j = get? w.state.sched j := by
      intro j claimed
      obtain ⟨e, entry, _⟩ := entry_of_claimed w j claimed
      exact same j (entry ▸ rfl)
    refine fits_same _ _ task fits (Nat.le_refl _) ?_
    intro j about
    exact ⟨entry j (claimed_of_fits _ task j fits about), rfl, rfl⟩
  · intro j e found rest x last
    have known := paced.known j (by rw [show w.ended j = some x from last]; rfl)
    dsimp only at found
    rw [same j known] at found
    exact paced.rested j e found rest x last
  · intro j some'
    have known := paced.known j some'
    dsimp only
    rw [same j known]
    exact known

theorem paced_arrives (cfg : Config) (w : Watch) (event : Event) (s' : State) (paced : Paced w)
    (guard : pacingGuard w event = true) (taken : arrive cfg w.state event = some s') :
    Paced ⟨s', w.declared, w.ended⟩ := by
  rw [pacingGuard, Bool.and_eq_true] at guard
  have begun : ∀ task, Task.announces task = none →
      Fits ⟨{ w.state with tasks := w.state.tasks ++ [task] }, w.declared, w.ended⟩ task →
      Paced ⟨{ w.state with tasks := w.state.tasks ++ [task] }, w.declared, w.ended⟩ := by
    intro task idle fits
    refine paced_arrive w _ [task] paced rfl rfl (Nat.le_refl _) ?_ ?_
    · intro task' member
      rw [List.mem_singleton.1 member]
      exact idle
    · intro task' member
      rw [List.mem_singleton.1 member]
      exact fits
  cases event with
  | wait seconds =>
    cases taken
    exact paced_arrive w _ [] paced (List.append_nil _).symm rfl (Nat.le_add_right _ _) nofun nofun
  | shutdown | markHave _ _ =>
    cases taken
    exact paced_arrive w _ [] paced (List.append_nil _).symm rfl (Nat.le_refl _) nofun nofun
  | start id loaded =>
    simp only [arrive] at taken
    split_ifs at taken
    · cases taken
      exact begun (.reading id true) rfl trivial
    · cases taken
      exact begun (.publishing loaded true) rfl trivial
  | activate id loaded =>
    simp only [arrive] at taken
    split_ifs at taken
    cases taken
    exact begun (.publishing loaded false) rfl trivial
  | poll hotIds =>
    simp only [arrive] at taken
    split_ifs at taken
    cases taken
    exact begun (.polling hotIds w.state.now) rfl (Nat.le_refl _)
  | request id =>
    simp only [arrive] at taken
    split_ifs at taken
    cases taken
    exact begun (.requesting id) rfl trivial
  | starve id =>
    cases taken
    exact paced_starve w paced id guard.2
  | stagger dues => cases guard.1
  | stop id =>
    cases taken
    refine paced_arrive w _ ((if cfg.announce && (get? w.state.registry id).isSome && !w.state.shut then
      [.stoppedAnnounce id] else []) ++ [.removing id]) paced (List.append_assoc ..) rfl (Nat.le_refl _) ?_ ?_
    · intro task member
      split_ifs at member
      · rcases List.mem_pair.1 member with same | same <;> rw [same] <;> rfl
      · rw [List.mem_singleton.1 member]
        rfl
    · intro task member
      split_ifs at member
      · rcases List.mem_pair.1 member with same | same <;> rw [same] <;> trivial
      · rw [List.mem_singleton.1 member]
        trivial
  | _ => cases taken

theorem paced_advance (cfg : Config) (on : cfg.announce = true) (w : Watch) (k : Nat) (task : Task) (event : Event)
    (s' : State) (paced : Paced w) (at_ : event.position = some k) (running : w.state.tasks[k]? = some task)
    (guard : unhurried w event = true) (taken : advance cfg w.state k task event = some s') :
    Paced ⟨s', declaredAfter w event, endedAfter w event⟩ := by
  have moves : ∀ (s' : State) (after : Task), Task.announces after = none → Fits ⟨s', w.declared, w.ended⟩ after →
      s'.tasks = w.state.tasks.set k after → s'.sched = w.state.sched → s'.now = w.state.now →
      Paced ⟨s', w.declared, w.ended⟩ := fun s' after idle fits tasks sched now =>
    paced_move w s' k task after paced running tasks (fun id => by rw [sched]) now idle fits
  cases task with
  | publishing torrent user =>
    cases event with
    | publish j =>
      cases at_
      cases taken
      split_ifs <;> exact moves _ (.reading torrent.id user) rfl trivial rfl rfl rfl
    | _ => cases taken
  | reading id user =>
    cases event with
    | readBaseline j =>
      cases at_
      cases taken
      exact moves _ (.baselining id _ _ user) rfl trivial rfl rfl rfl
    | _ => cases taken
  | baselining id incomplete begun user =>
    cases event with
    | putBaseline j =>
      cases at_
      cases taken
      exact moves _ (.scheduling id incomplete begun user) rfl trivial rfl rfl rfl
    | _ => cases taken
  | scheduling id incomplete begun user =>
    cases event with
    | schedule j =>
      cases at_
      cases user with
      | true =>
        rw [unhurried, running] at guard
        cases guard
      | false =>
        cases taken
        exact paced_activated w paced k id _ begun incomplete running
    | _ => cases user <;> cases taken
  | kicking id =>
    cases event with
    | check j =>
      cases at_
      cases taken
      split_ifs
      · exact moves _ (.claiming id) rfl trivial rfl rfl rfl
      · exact moves _ .returned rfl trivial rfl rfl rfl
    | _ => cases taken
  | claiming id =>
    cases event with
    | claim j => cases guard
    | _ => cases taken
  | polling hotIds now =>
    cases event with
    | claimDue j =>
      cases at_
      cases taken
      exact paced_foldl_claimNow now _ ⟨w.state.move k .returned, w.declared, w.ended⟩
        (moves _ .returned rfl trivial rfl rfl rfl)
    | _ => cases taken
  | spawned id issued =>
    cases event with
    | lookup j =>
      cases at_
      cases taken
      exact paced_lookup w paced k id issued running
    | _ => cases taken
  | found id issued =>
    cases event with
    | pick j =>
      cases at_
      cases taken
      exact paced_pick w paced k id issued running _
    | _ => cases taken
  | announcing id issued sent =>
    cases event with
    | answer j reply =>
      cases at_
      cases taken
      have known : declaredAfter w (.answer k reply) = Function.update w.declared id reply := by
        rw [declaredAfter, running]
      rw [known]
      exact paced_answer cfg on w paced k id issued sent running reply
    | _ => cases taken
  | answered id issued sent interval minInterval =>
    cases event with
    | land j =>
      cases at_
      cases taken
      have known : endedAfter w (.land k) = Function.update w.ended id
          ((w.declared id).map (fun told => ⟨w.state.now, pause told.1 told.2, false⟩)) := by
        rw [endedAfter, running]
      rw [known]
      exact paced_land w paced k id issued sent interval minInterval running
    | _ => cases taken
  | landed id issued sent anyOk interval =>
    cases event with
    | finish j =>
      cases at_
      cases taken
      rw [unhurried, running] at guard
      dsimp only at guard
      rw [Bool.not_eq_true'] at guard
      refine paced_finish w paced k id issued sent anyOk interval _ running guard ?_ _ ?_
      · split_ifs
        · exact Or.inl rfl
        · exact Or.inr rfl
      · rw [endedAfter, running]
        cases anyOk <;> rfl
    | _ => cases taken
  | requesting id =>
    cases event with
    | requestHot j =>
      cases at_
      cases taken
      split_ifs
      · exact moves _ (.requestingComplete id) rfl trivial rfl rfl rfl
      · exact moves _ .returned rfl trivial rfl rfl rfl
    | _ => cases taken
  | requestingComplete id =>
    cases event with
    | requestPend j =>
      cases at_
      cases taken
      rw [unhurried, running] at guard
      dsimp only at guard
      refine paced_move w _ k _ _ paced running rfl ?_ rfl ?_ ?_
      · intro i
        rw [get?_modify]
        split_ifs with same
        · cases entry : get? w.state.sched i with
          | none => rfl
          | some e =>
            rw [← same, entry, Option.all_some] at guard
            rw [Option.map_some, TorrentAnnounce.requestCompleted, if_pos guard]
        · rfl
      · split_ifs <;> rfl
      · split_ifs <;> trivial
    | _ => cases taken
  | stoppedAnnounce id =>
    cases event with
    | answerStopped j =>
      cases at_
      cases taken
      exact moves _ .returned rfl trivial rfl rfl rfl
    | _ => cases taken
  | removing id =>
    cases event with
    | remove j =>
      cases at_
      cases taken
      exact moves _ (.unscheduling id) rfl trivial rfl rfl rfl
    | _ => cases taken
  | unscheduling id =>
    cases event with
    | unschedule j => cases guard
    | _ => cases taken
  | unbaselining id =>
    cases event with
    | unbaseline j =>
      cases at_
      cases taken
      exact moves _ .returned rfl trivial rfl rfl rfl
    | _ => cases taken
  | returned =>
    rw [advance_returned] at taken
    cases taken

theorem watch_paced (cfg : Config) (on : cfg.announce = true) (w : Watch) (event : Event) (w' : Watch)
    (paced : Paced w) (guard : pacingGuard w event = true) (taken : watch cfg w event = some w') : Paced w' := by
  rw [watch, Option.map_eq_some_iff] at taken
  obtain ⟨s', moved, rfl⟩ := taken
  rw [if_pos on]
  rw [step] at moved
  cases at_ : event.position with
  | none =>
    rw [at_] at moved
    have quiet : declaredAfter w event = w.declared ∧ endedAfter w event = w.ended := by
      cases event with
      | answer _ _ | land _ | finish _ => cases at_
      | _ => exact ⟨rfl, rfl⟩
    rw [quiet.1, quiet.2]
    exact paced_arrives cfg w event s' paced guard moved
  | some k =>
    rw [at_] at moved
    obtain ⟨task, running, moved⟩ := Option.bind_eq_some_iff.1 moved
    rw [pacingGuard, Bool.and_eq_true] at guard
    exact paced_advance cfg on w k task event s' paced at_ running guard.1 moved

/-! ### Every run -/

/-- Every section but a claim rewrites its own task and leaves the list as long as it was. -/
theorem advance_tasks (cfg : Config) (s s' : State) (k : Nat) (task : Task) (event : Event)
    (at_ : event.position = some k) (taken : advance cfg s k task event = some s') :
    (∃ hotIds now, task = .polling hotIds now ∧
      s' = (dueIds cfg s.sched now hotIds).foldl (claimNow now) (s.move k .returned)) ∨
    event = .claim k ∨ ∃ after, s'.tasks = s.tasks.set k after := by
  cases task with
  | polling hotIds now =>
    cases event with
    | claimDue j =>
      cases taken
      exact Or.inl ⟨hotIds, now, rfl, rfl⟩
    | _ => cases taken
  | claiming id =>
    cases event with
    | claim j =>
      cases at_
      exact Or.inr (Or.inl rfl)
    | _ => cases taken
  | publishing torrent user =>
    cases event with
    | publish j =>
      cases taken
      refine Or.inr (Or.inr ⟨.reading torrent.id user, ?_⟩)
      split_ifs <;> rfl
    | _ => cases taken
  | announcing id issued sent =>
    cases event with
    | answer j reply =>
      cases taken
      unfold answered
      split
      · split_ifs <;> exact Or.inr (Or.inr ⟨_, rfl⟩)
      · exact Or.inr (Or.inr ⟨_, rfl⟩)
    | _ => cases taken
  | scheduling id incomplete begun user =>
    cases event with
    | schedule j => cases user <;> cases taken <;> exact Or.inr (Or.inr ⟨_, rfl⟩)
    | _ => cases user <;> cases taken
  | returned =>
    rw [advance_returned] at taken
    cases taken
  | _ =>
    cases event
    all_goals cases taken
    all_goals exact Or.inr (Or.inr ⟨_, rfl⟩)

/-- Apart from a kick's claim, only a poll spawns an announce. -/
theorem polls_of_begins (cfg : Config) (s s' : State) (event : Event) (id : Nat) (noKick : ∀ k, event ≠ .claim k)
    (taken : step cfg s event = some s') (begins : Begins s s' id) : ∃ (k : Nat) (hotIds : List Nat) (now : Nat),
      s.tasks[k]? = some (Task.polling hotIds now) ∧ id ∈ dueIds cfg s.sched now hotIds := by
  obtain ⟨p, issued, beyond, spawned⟩ := begins
  have arrived : ∀ fresh, s'.tasks = s.tasks ++ fresh → .spawned id issued ∉ fresh → False := by
    intro fresh tasks absent
    rw [tasks, List.getElem?_append_right beyond] at spawned
    exact absent (List.mem_of_getElem? spawned)
  rw [step] at taken
  cases at_ : event.position with
  | none =>
    rw [at_] at taken
    cases event with
    | start _ _ =>
      simp only [arrive] at taken
      split_ifs at taken
      · cases taken
        exact (arrived _ rfl (by simp)).elim
      · cases taken
        exact (arrived _ rfl (by simp)).elim
    | activate _ _ | poll _ | request _ =>
      simp only [arrive] at taken
      split_ifs at taken
      cases taken
      exact (arrived _ rfl (by simp)).elim
    | stop j =>
      cases taken
      refine (arrived _ (List.append_assoc ..) ?_).elim
      split_ifs <;> simp
    | wait _ | shutdown | markHave _ _ | starve _ | stagger _ =>
      cases taken
      exact (arrived [] (List.append_nil _).symm (fun clash => by cases clash)).elim
    | _ => cases at_
  | some k =>
    rw [at_] at taken
    obtain ⟨task, running, taken⟩ := Option.bind_eq_some_iff.1 taken
    rcases advance_tasks cfg s s' k task event at_ taken with ⟨hotIds, now, rfl, rfl⟩ | kick | ⟨after, tasks⟩
    · refine ⟨k, hotIds, now, running, ?_⟩
      refine spawned_foldl now id _ (s.move k .returned) p issued ?_ spawned
      exact (List.length_set ..).le.trans beyond
    · exact absurd kick (noKick k)
    · rw [tasks, List.getElem?_eq_none (by rw [List.length_set]; exact beyond)] at spawned
      cases spawned

/-- Where a poll finds a torrent due, its last announce asks for no longer wait. -/
theorem due_of_paced (cfg : Config) (w : Watch) (paced : Paced w) (k now id : Nat) (hotIds : List Nat)
    (running : w.state.tasks[k]? = some (Task.polling hotIds now))
    (due : id ∈ dueIds cfg w.state.sched now hotIds) (x : Ending) (last : w.ended id = some x) :
    x.time + x.delay ≤ w.state.now := by
  have before : now ≤ w.state.now := paced.fits _ (mem_of_getElem? _ _ _ running)
  have ripe := isDue_of_dueIds cfg w.state.sched now id hotIds due
  obtain ⟨e, entry⟩ := Option.isSome_iff_exists.1 (paced.known id (last ▸ rfl))
  rw [isDue, entry] at ripe
  dsimp only at ripe
  rw [Bool.and_eq_true, Bool.not_eq_true', decide_eq_true_eq] at ripe
  have rested := (paced.rested id e entry ripe.1 x last).1
  omega

theorem ended_off (cfg : Config) (off : cfg.announce = false) (w w' : Watch) (event : Event)
    (taken : watch cfg w event = some w') : w'.ended = w.ended := by
  rw [watch, Option.map_eq_some_iff] at taken
  obtain ⟨s', _, rfl⟩ := taken
  rw [off, if_neg Bool.false_ne_true]

/-- In every run without starts, stops, completions and the startup batch, whose starve pulls leave the
back-off of a failure alone: an announce begins no sooner than the last one of its torrent asks for. -/
theorem announces_paced (cfg : Config) (s : State) (one : OneEach s) (events : List Event) (w w' : Watch)
    (event : Event) (kept : Guarded (watch cfg) (fun w event => pacingGuard w event = true) (watching s) events)
    (ran : exec (watch cfg) (watching s) events = some w) (guard : pacingGuard w event = true)
    (taken : watch cfg w event = some w') (id : Nat) (begins : Begins w.state w'.state id) (x : Ending)
    (last : w.ended id = some x) : x.time + x.delay ≤ w.state.now := by
  by_cases on : cfg.announce = true
  · have paced := exec_invariant (watch cfg) _ Paced
      (fun w event w' paced guard taken => watch_paced cfg on w event w' paced guard taken) _ w events
      (paced_watching s one) kept ran
    rw [watch, Option.map_eq_some_iff] at taken
    obtain ⟨s', moved, rfl⟩ := taken
    rw [if_pos on] at begins
    have noKick : ∀ k, event ≠ .claim k := by
      rintro k rfl
      cases guard
    obtain ⟨k, hotIds, now, running, due⟩ := polls_of_begins cfg w.state s' event id noKick moved begins
    exact due_of_paced cfg w paced k now id hotIds running due x last
  · have none' := exec_invariant_free (watch cfg) (fun w => w.ended = fun _ => none)
      (fun w event w' none' taken => (ended_off cfg (Bool.eq_false_of_not_eq_true on) w w' event taken).trans none')
      _ w events rfl ran
    rw [none'] at last
    cases last

/-- A hot torrent that is due at once. -/
def dueNow : State :=
  { initial with
    registry := insert Rows.empty 1 leecher
    sched := insert Rows.empty 1 (.fresh 0) }

/-- One announce, with the answer of the trackers. -/
def announceOnce (k : Nat) (reply : Option (Nat × Nat)) : List Event :=
  [.poll [1], .claimDue k, .lookup (k + 1), .pick (k + 1), .answer (k + 1) reply] ++
    (if reply.isSome then [.land (k + 1)] else []) ++ [.finish (k + 1)]

/-- Every tracker fails; two seconds later the tick finds too few peers. -/
def failsThenStarves : List Event := announceOnce 0 none ++ [.wait 2, .starve 1, .poll [1]]

def pulled : Watch := (exec (watch unlimited) (watching dueNow) failsThenStarves).getD (watching dueNow)

def pulledNext : Watch := (watch unlimited pulled (.claimDue 2)).getD (watching dueNow)

/-- Failing trackers are announced to again after two seconds. -/
theorem starve_ignores_backoff :
    ¬∀ (cfg : Config) (s : State), OneEach s → ∀ (events : List Event) (w w' : Watch) (event : Event),
      Guarded (watch cfg) (fun w event => unhurried w event = true) (watching s) events →
      exec (watch cfg) (watching s) events = some w → unhurried w event = true →
      watch cfg w event = some w' → ∀ id, Begins w.state w'.state id →
      ∀ x, w.ended id = some x → x.time + x.delay ≤ w.state.now := by
  intro always
  have one : OneEach dueNow := ⟨nofun, fun _ => Nat.zero_le _, nofun⟩
  have kept := guarded_of_guardedB (watch unlimited) unhurried (watching dueNow) failsThenStarves (by decide +kernel)
  have ran : exec (watch unlimited) (watching dueNow) failsThenStarves = some pulled :=
    (Option.getD_of_ne_none (Option.isSome_iff_ne_none.1 (by decide +kernel)) _).symm
  have taken : watch unlimited pulled (.claimDue 2) = some pulledNext :=
    (Option.getD_of_ne_none (Option.isSome_iff_ne_none.1 (by decide +kernel)) _).symm
  have begins : Begins pulled.state pulledNext.state 1 := ⟨3, 0, by decide +kernel, by decide +kernel⟩
  have early := always unlimited dueNow one failsThenStarves pulled pulledNext (.claimDue 2) kept ran rfl taken 1
    begins ⟨0, 300, true⟩ (by decide +kernel)
  exact absurd early (by decide +kernel)

/-- A success that declares half an hour, and a starve pull after ten minutes. -/
def succeedsThenStarves : List Event := announceOnce 0 (some (1800, 0)) ++ [.wait 600, .starve 1, .poll [1]]

def paused : Watch := (exec (watch unlimited) (watching dueNow) succeedsThenStarves).getD (watching dueNow)

def pausedNext : Watch := (watch unlimited paused (.claimDue 2)).getD (watching dueNow)

theorem announces_paced_succeedsThenStarves : Begins paused.state pausedNext.state 1 ∧ 0 + 600 ≤ paused.state.now := by
  have one : OneEach dueNow := ⟨nofun, fun _ => Nat.zero_le _, nofun⟩
  have kept := guarded_of_guardedB (watch unlimited) pacingGuard (watching dueNow) succeedsThenStarves
    (by decide +kernel)
  have ran : exec (watch unlimited) (watching dueNow) succeedsThenStarves = some paused :=
    (Option.getD_of_ne_none (Option.isSome_iff_ne_none.1 (by decide +kernel)) _).symm
  have taken : watch unlimited paused (.claimDue 2) = some pausedNext :=
    (Option.getD_of_ne_none (Option.isSome_iff_ne_none.1 (by decide +kernel)) _).symm
  have begins : Begins paused.state pausedNext.state 1 := ⟨3, 0, by decide +kernel, by decide +kernel⟩
  exact ⟨begins, announces_paced unlimited dueNow one succeedsThenStarves paused pausedNext (.claimDue 2) kept ran rfl
    taken 1 begins ⟨0, 600, false⟩ (by decide +kernel)⟩

end Seedchamp.Session.AnnouncePacing
