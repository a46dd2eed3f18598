import Seedchamp.Session.AnnounceSteps

/-!
The announce schedule over whole runs: in a run that nothing disturbs, one announce of a torrent is
in flight at a time, started comes first, completed once, and no entry stays claimed without a task.
-/

namespace Seedchamp.Session.AnnounceOrder
open Foundation.KeyedMap Foundation.Tasks Foundation.TransitionSystem Disk.Spans Hot.Torrent
open Session.Announces Session.AnnounceViews Session.AnnounceSteps

/-! ### Events from outside -/

/-- A task that knows nothing yet begins, and nothing else is seen to change. -/
theorem inv_quiet (cfg : Config) (s s' : State) (inv : Inv cfg s)
    (same : ∀ id, view s' id = view s id)
    (tasks : ∀ task ∈ s'.tasks, task ∈ s.tasks ∨
      (∀ v, Fits cfg v task) ∧ ∀ hotIds now, task = .polling hotIds now → hotIds.Nodup) : Inv cfg s' := by
  constructor
  · intro id
    rw [same]
    exact inv.coherent id
  · intro task member id about
    rw [same]
    rcases tasks task member with old | ⟨fits, _⟩
    · exact inv.fits task old id about
    · exact fits _
  · intro hotIds now member
    rcases tasks _ member with old | ⟨_, polls⟩
    · exact inv.polls hotIds now old
    · exact polls hotIds now rfl

/-- The case of one new task that counts for nothing. -/
theorem inv_begun (cfg : Config) (s : State) (task : Task) (inv : Inv cfg s)
    (runs : ∀ id, Task.runs id task = false) (stops : ∀ id, Task.stops id task = false)
    (fits : ∀ v, Fits cfg v task) (polls : ∀ hotIds now, task = .polling hotIds now → hotIds.Nodup) :
    Inv cfg { s with tasks := s.tasks ++ [task] } := by
  apply inv_quiet cfg s _ inv
  · intro id
    apply view_congr
    · rfl
    · rfl
    · rfl
    · rfl
    · exact (countP_append_singleton ..).trans (by rw [runs]; rfl)
    · exact (countP_append_singleton ..).trans (by rw [stops]; rfl)
  · intro other member
    rcases List.mem_append.1 member with old | new
    · exact Or.inl old
    · rw [List.mem_singleton.1 new]
      exact Or.inr ⟨fits, polls⟩

/-- `mark_have` does not make a complete torrent incomplete. -/
theorem isComplete_markHave (t : HotTorrent) (index : Nat) (complete : t.isComplete = true) :
    (t.markHave index).1.isComplete = true := by
  have whole : t.pieces.complete = true := complete
  simp only [HotTorrent.markHave, HotTorrent.releasePieceClaim, whole, Bool.true_or, if_true]
  exact whole

theorem inv_markHave (cfg : Config) (s : State) (id index : Nat) (inv : Inv cfg s) :
    Inv cfg { s with registry := modify s.registry id (fun t => (t.markHave index).1) } := by
  have hot : ∀ j, (view { s with registry := modify s.registry id (fun t => (t.markHave index).1) } j).hot =
      if j = id then (get? s.registry j).map (fun t => (t.markHave index).1.isComplete)
      else (view s j).hot := by
    intro j
    show (get? (modify s.registry id _) j).map _ = _
    rw [get?_modify]
    split_ifs
    · rw [Option.map_map]
      rfl
    · rfl
  have seen : view { s with registry := modify s.registry id (fun t => (t.markHave index).1) } id =
      { view s id with hot := (get? s.registry id).map (fun t => (t.markHave index).1.isComplete) } := by
    have here := hot id
    rw [if_pos rfl] at here
    exact View.ext here rfl rfl rfl rfl rfl rfl rfl rfl
  have missing : (get? s.registry id).map (fun t => (t.markHave index).1.isComplete) = some false →
      (view s id).hot = some false := by
    intro incomplete
    rw [view]
    cases found : get? s.registry id with
    | none =>
      rw [found] at incomplete
      cases incomplete
    | some t =>
      rw [found, Option.map_some, Option.some.injEq] at incomplete
      cases before : t.isComplete with
      | false =>
        show some t.isComplete = some false
        rw [before]
      | true =>
        rw [isComplete_markHave t index before] at incomplete
        cases incomplete
  apply inv_of cfg s _ id inv
  · intro j other
    have there := hot j
    rw [if_neg other] at there
    exact View.ext there rfl rfl rfl rfl rfl rfl rfl rfl
  · rw [seen]
    apply coherent_grown cfg _ _ (inv.coherent id) _ missing
    rw [view, Option.isSome_map, Option.isSome_map]
  · intro task member
    rw [seen]
    exact Or.inl ⟨member, fun _ fits =>
      fits_same cfg (view s id) _ task rfl missing (fun same => same) fits⟩

theorem inv_stop (cfg : Config) (s s' : State) (id : Nat) (inv : Inv cfg s)
    (guard : undisturbed cfg s (.stop id) = true) (taken : arrive cfg s (.stop id) = some s') :
    Inv cfg s' := by
  simp only [arrive, Option.some.injEq] at taken
  by_cases last : (cfg.announce && (get? s.registry id).isSome && !s.shut) = true
  · rw [if_pos last] at taken
    have hot : (view s id).hot.isSome = (get? s.registry id).isSome := by
      rw [view, Option.isSome_map]
    simp only [undisturbed, Event.position, Option.bind_none, hot, last, Bool.not_true, Bool.false_or,
      Bool.and_eq_true, decide_eq_true_eq] at guard
    obtain ⟨idle, quiet⟩ := guard
    have running : ∀ j, (view s' j).running = (view s j).running := by
      intro j
      rw [← taken]
      simp [view, Task.runs]
    have stopping : ∀ j, (view s' j).stopping = (view s j).stopping + if j = id then 1 else 0 := by
      intro j
      rw [← taken]
      by_cases here : j = id
      · simp [view, Task.stops, here]
      · simp [view, Task.stops, here]
        exact fun same => here same.symm
    have seen : ∀ j, view s' j =
        { view s j with stopping := (view s j).stopping + if j = id then 1 else 0 } := by
      intro j
      have sameRunning := running j
      have sameStopping := stopping j
      rw [← taken] at sameRunning sameStopping ⊢
      exact View.ext rfl rfl rfl rfl rfl rfl rfl sameRunning sameStopping
    apply inv_of cfg s s' id inv
    · intro j other
      rw [seen, if_neg other]
      rfl
    · rw [seen, if_pos rfl]
      exact coherent_stopping cfg _ _ (inv.coherent id) (by omega)
    · intro task member
      rw [seen]
      rw [← taken] at member
      rcases List.mem_append.1 member with front | final
      · rcases List.mem_append.1 front with old | said
        · exact Or.inl ⟨old, fun _ fits =>
            fits_same cfg (view s id) _ task rfl (fun same => same) (fun same => same) fits⟩
        · rw [List.mem_singleton.1 said]
          exact Or.inr (Or.inl ⟨rfl, trivial⟩)
      · rw [List.mem_singleton.1 final]
        exact Or.inr (Or.inl ⟨rfl, trivial⟩)
  · rw [if_neg last, List.append_nil] at taken
    rw [← taken]
    exact inv_begun cfg s (.removing id) inv (fun _ => rfl) (fun _ => rfl) (fun _ => trivial)
      (fun _ _ clash => by cases clash)

theorem inv_arrive (cfg : Config) (s s' : State) (event : Event) (inv : Inv cfg s)
    (outside : event.position = none) (guard : undisturbed cfg s event = true)
    (taken : arrive cfg s event = some s') : Inv cfg s' := by
  cases event with
  | wait seconds =>
    cases taken
    exact inv_quiet cfg s _ inv (fun _ => rfl) (fun _ member => Or.inl member)
  | shutdown =>
    cases taken
    exact inv_quiet cfg s _ inv (fun _ => rfl) (fun _ member => Or.inl member)
  | markHave id index =>
    cases taken
    exact inv_markHave cfg s id index inv
  | start id loaded =>
    simp only [arrive] at taken
    split_ifs at taken
    · cases taken
      exact inv_begun cfg s (.reading id true) inv (fun _ => rfl) (fun _ => rfl) (fun _ => trivial)
        (fun _ _ clash => by cases clash)
    · cases taken
      exact inv_begun cfg s (.publishing loaded true) inv (fun _ => rfl) (fun _ => rfl)
        (fun _ => trivial) (fun _ _ clash => by cases clash)
  | activate id loaded =>
    simp only [arrive] at taken
    split_ifs at taken
    cases taken
    exact inv_begun cfg s (.publishing loaded false) inv (fun _ => rfl) (fun _ => rfl)
      (fun _ => trivial) (fun _ _ clash => by cases clash)
  | poll hotIds =>
    simp only [arrive] at taken
    split_ifs at taken with known
    cases taken
    apply inv_begun cfg s (.polling hotIds s.now) inv (fun _ => rfl) (fun _ => rfl) (fun _ => trivial)
    intro ids now same
    cases same
    exact known.nodup_iff.2 (nodup_keys s.registry)
  | request id =>
    simp only [arrive] at taken
    split_ifs at taken
    cases taken
    exact inv_begun cfg s (.requesting id) inv (fun _ => rfl) (fun _ => rfl) (fun _ => trivial)
      (fun _ _ clash => by cases clash)
  | starve id =>
    cases taken
    apply inv_quiet cfg s _ inv
    · intro j
      exact view_shown s _ j rfl (shown_modify s.sched id _ (flags_starve s.now) j) rfl rfl rfl rfl
    · exact fun _ member => Or.inl member
  | stagger dues =>
    cases taken
    apply inv_quiet cfg s _ inv
    · intro j
      exact view_shown s _ j rfl (shown_stagger dues s.sched j) rfl rfl rfl rfl
    · exact fun _ member => Or.inl member
  | stop id => exact inv_stop cfg s s' id inv guard taken
  | _ => cases outside

/-! ### Every step -/

theorem inv_advance (cfg : Config) (s s' : State) (k : Nat) (task : Task) (event : Event)
    (inv : Inv cfg s) (at_ : event.position = some k) (found : s.tasks[k]? = some task)
    (guard : undisturbed cfg s event = true) (taken : advance cfg s k task event = some s') :
    Inv cfg s' := by
  cases task with
  | publishing torrent user =>
    cases event with
    | publish j =>
      cases at_
      exact inv_publish cfg s s' k torrent user inv found guard taken
    | _ => cases taken
  | reading id user =>
    cases event with
    | readBaseline j =>
      cases at_
      exact inv_readBaseline cfg s s' k id user inv found taken
    | _ => cases taken
  | baselining id incomplete begun user =>
    cases event with
    | putBaseline j =>
      cases at_
      exact inv_putBaseline cfg s s' k id incomplete begun user inv found guard taken
    | _ => cases taken
  | scheduling id incomplete begun user =>
    cases event with
    | schedule j =>
      cases at_
      cases user with
      | true => exact inv_schedule cfg s s' k id incomplete begun inv found guard taken
      | false => exact inv_activated cfg s s' k id incomplete begun inv found taken
    | _ => cases user <;> cases taken
  | kicking id =>
    cases event with
    | check j =>
      cases at_
      exact inv_check cfg s s' k id inv found taken
    | _ => cases taken
  | claiming id =>
    cases event with
    | claim j =>
      cases at_
      exact inv_claim cfg s s' k id inv found guard taken
    | _ => cases taken
  | polling hotIds now =>
    cases event with
    | claimDue j =>
      cases at_
      exact inv_claimDue cfg s s' k now hotIds inv found guard taken
    | _ => cases taken
  | spawned id issued =>
    cases event with
    | lookup j =>
      cases at_
      exact inv_lookup cfg s s' k id issued inv found taken
    | _ => cases taken
  | found id issued =>
    cases event with
    | pick j =>
      cases at_
      exact inv_pick cfg s s' k id issued inv found taken
    | _ => cases taken
  | announcing id issued sent =>
    cases event with
    | answer j reply =>
      cases at_
      exact inv_answer cfg s s' k id issued sent reply inv found taken
    | _ => cases taken
  | answered id issued sent interval minInterval =>
    cases event with
    | land j =>
      cases at_
      exact inv_land cfg s s' k id issued sent interval minInterval inv found taken
    | _ => cases taken
  | landed id issued sent anyOk interval =>
    cases event with
    | finish j =>
      cases at_
      exact inv_finish cfg s s' k id issued sent anyOk interval inv found taken
    | _ => cases taken
  | requesting id =>
    cases event with
    | requestHot j =>
      cases at_
      exact inv_requestHot cfg s s' k id inv found taken
    | _ => cases taken
  | requestingComplete id =>
    cases event with
    | requestPend j =>
      cases at_
      exact inv_requestPend cfg s s' k id inv found guard taken
    | _ => cases taken
  | stoppedAnnounce id =>
    cases event with
    | answerStopped j =>
      cases at_
      exact inv_answerStopped cfg s s' k id inv found taken
    | _ => cases taken
  | removing id =>
    cases event with
    | remove j =>
      cases at_
      exact inv_remove cfg s s' k id inv found guard taken
    | _ => cases taken
  | unscheduling id =>
    cases event with
    | unschedule j =>
      cases at_
      exact inv_unschedule cfg s s' k id inv found guard taken
    | _ => cases taken
  | unbaselining id =>
    cases event with
    | unbaseline j =>
      cases at_
      exact inv_unbaseline cfg s s' k id inv found taken
    | _ => cases taken
  | returned =>
    rw [advance_returned] at taken
    cases taken

theorem inv_step (cfg : Config) (s : State) (event : Event) (s' : State) (inv : Inv cfg s)
    (guard : undisturbed cfg s event = true) (taken : step cfg s event = some s') : Inv cfg s' := by
  rw [step] at taken
  cases at_ : event.position with
  | none =>
    rw [at_] at taken
    exact inv_arrive cfg s s' event inv at_ guard taken
  | some k =>
    rw [at_] at taken
    obtain ⟨task, found, moved⟩ := Option.bind_eq_some_iff.1 taken
    exact inv_advance cfg s s' k task event inv at_ found guard moved

theorem inv_initial (cfg : Config) : Inv cfg initial := by
  constructor
  · intro id
    exact {
      running := rfl
      hot := fun clash => by cases clash
      single := Nat.zero_le 1
      orderly := orderly_nil 0 false
      started := fun clash => by cases clash
      completed := fun clash => by cases clash
      pending := fun clash => by cases clash
      baseline := fun clash => by cases clash
      missing := fun clash => by cases clash }
  · intro task member
    cases member
  · intro hotIds now member
    cases member

/-! ### Ticks -/

/-- The torrent whose claimed announce the task is. -/
def Task.announces : Task → Option Nat
  | .spawned id _ | .found id _ | .announcing id _ _ | .answered id _ _ _ _ | .landed id _ _ _ _ => some id
  | _ => none

theorem runs_iff (task : Task) (id : Nat) : Task.runs id task = true ↔ Task.announces task = some id := by
  cases task <;> simp [Task.runs, Task.announces]

/-- Every announce under way, of whatever torrent. -/
def underway (s : State) : Nat := s.tasks.countP (fun task => (Task.announces task).isSome)

/-- Claimed entries are no more than the announces under way. -/
theorem inflightCount_le (cfg : Config) (s : State) (inv : Inv cfg s) :
    inflightCount s.sched ≤ underway s := by
  have distinct : ((s.sched.list.filter (fun entry => entry.2.inFlight)).map Prod.fst).Nodup :=
    (List.filter_sublist.map Prod.fst).nodup s.sched.unique
  have covered : (s.sched.list.filter (fun entry => entry.2.inFlight)).map Prod.fst ⊆
      s.tasks.filterMap Task.announces := by
    intro id member
    obtain ⟨entry, listed, named⟩ := List.mem_map.1 member
    obtain ⟨present, flight⟩ := List.mem_filter.1 listed
    have stored : get? s.sched id = some entry.2 := by
      rw [← named]
      exact (mem_list s.sched entry.1 entry.2).1 present
    have claimed : (view s id).inFlight = true := by
      rw [view, stored]
      exact flight
    have one := (inv.coherent id).running
    rw [claimed, if_pos rfl] at one
    have positive : 0 < s.tasks.countP (Task.runs id) := by
      rw [show s.tasks.countP (Task.runs id) = 1 from one]
      omega
    obtain ⟨task, running, runs⟩ := List.countP_pos_iff.1 positive
    exact List.mem_filterMap.2 ⟨task, running, (runs_iff task id).1 runs⟩
  calc inflightCount s.sched
      = ((s.sched.list.filter (fun entry => entry.2.inFlight)).map Prod.fst).length := by
        rw [inflightCount, List.length_map, List.countP_eq_length_filter]
    _ ≤ (s.tasks.filterMap Task.announces).length := (distinct.subperm covered).length_le
    _ = underway s := List.length_filterMap_eq_countP

theorem unclaimed_of_isDue (s : State) (now id : Nat) (due : isDue s.sched now id = true) :
    (view s id).inFlight = false := by
  rw [isDue] at due
  rw [view]
  cases entry : get? s.sched id with
  | none => rfl
  | some e =>
    rw [entry] at due
    simp only [Bool.and_eq_true, Bool.not_eq_true'] at due
    exact due.1

theorem tasks_foldl_claimNow (now : Nat) (ids : List Nat) (s : State) (distinct : ids.Nodup)
    (free : ∀ id ∈ ids, (view s id).inFlight = false) (takes : s.shut = false) :
    (ids.foldl (claimNow now) s).tasks =
      s.tasks ++ ids.map (fun id => .spawned id (s.start id).number) := by
  induction ids generalizing s with
  | nil => exact (List.append_nil s.tasks).symm
  | cons id rest ih =>
    obtain ⟨fresh, distinctRest⟩ := List.nodup_cons.1 distinct
    have absent : ¬ flag TorrentAnnounce.inFlight (get? s.sched id) = true := by
      rw [Bool.not_eq_true]
      exact free id List.mem_cons_self
    have first : (claimNow now s id).tasks = s.tasks ++ [.spawned id (s.start id).number] := by
      rw [claimNow, if_neg absent, takes]
      rfl
    have shut : (claimNow now s id).shut = false := by
      rw [claimNow, if_neg absent]
      exact takes
    have start : (claimNow now s id).start = s.start := by
      rw [claimNow, if_neg absent]
    have later : ∀ j ∈ rest, (view (claimNow now s id) j).inFlight = false := by
      intro j member
      have other : j ≠ id := fun same => fresh (same ▸ member)
      rw [view_claimNow_other now s id j other]
      exact free j (List.mem_cons_of_mem _ member)
    rw [List.foldl_cons, ih _ distinctRest later shut, first, start, List.append_assoc]
    rfl

/-- A tick that finds a torrent due announces it, or has as many announces under way as are allowed. -/
theorem polled_of_inv (cfg : Config) (s s' : State) (k now id : Nat) (hotIds : List Nat)
    (inv : Inv cfg s) (found : s.tasks[k]? = some (.polling hotIds now)) (hot : id ∈ hotIds)
    (due : isDue s.sched now id = true) (takes : s.shut = false)
    (taken : step cfg s (.claimDue k) = some s') :
    (∃ task ∈ s'.tasks, Task.runs id task = true) ∨
      (0 < cfg.maxInflightAnnounces ∧ cfg.maxInflightAnnounces ≤ underway s') := by
  have polled : s' = (dueIds cfg s.sched now hotIds).foldl (claimNow now) (s.move k .returned) := by
    simp only [step, Event.position, found, Option.bind_some, advance, Option.some.injEq] at taken
    exact taken.symm
  have sorted : ∀ j, j ∈ (hotIds.filter (isDue s.sched now)).insertionSort
      (fun a b => dueTime s.sched now a ≤ dueTime s.sched now b) ↔
      j ∈ hotIds ∧ isDue s.sched now j = true := by
    intro j
    rw [List.mem_insertionSort, List.mem_filter]
  have distinctSorted : ((hotIds.filter (isDue s.sched now)).insertionSort
      (fun a b => dueTime s.sched now a ≤ dueTime s.sched now b)).Nodup := by
    have known := inv.polls hotIds now (mem_of_getElem? _ _ _ found)
    exact (List.perm_insertionSort _ _).nodup_iff.2 (known.filter _)
  have some_ : ∀ j ∈ dueIds cfg s.sched now hotIds, isDue s.sched now j = true := by
    intro j member
    rw [dueIds] at member
    split_ifs at member
    · exact ((sorted j).1 member).2
    · exact ((sorted j).1 (List.mem_of_mem_take member)).2
  have distinct : (dueIds cfg s.sched now hotIds).Nodup := by
    rw [dueIds]
    split_ifs
    · exact distinctSorted
    · exact (List.take_sublist _ _).nodup distinctSorted
  have free : ∀ j ∈ dueIds cfg s.sched now hotIds, (view (s.move k .returned) j).inFlight = false :=
    fun j member => unclaimed_of_isDue s now j (some_ j member)
  have tasks := tasks_foldl_claimNow now _ (s.move k .returned) distinct free takes
  rw [← polled] at tasks
  by_cases claimed : id ∈ dueIds cfg s.sched now hotIds
  · left
    refine ⟨.spawned id (s.start id).number, ?_, decide_eq_true rfl⟩
    rw [tasks]
    exact List.mem_append_right _ (List.mem_map_of_mem claimed)
  · right
    have listed := (sorted id).2 ⟨hot, due⟩
    rw [dueIds] at claimed
    split_ifs at claimed with unlimited
    · exact absurd listed claimed
    · have cut : (dueIds cfg s.sched now hotIds).length =
          cfg.maxInflightAnnounces - inflightCount s.sched := by
        rw [dueIds, if_neg unlimited, List.length_take]
        apply Nat.min_eq_left
        by_contra short
        rw [List.take_of_length_le (by omega)] at claimed
        exact claimed listed
      have before := inflightCount_le cfg s inv
      have moved := countP_set s.tasks k (.polling hotIds now) .returned
        (fun task => (Task.announces task).isSome) found
      have after : underway s' = underway s + (dueIds cfg s.sched now hotIds).length := by
        rw [underway, tasks, List.countP_append, List.countP_map]
        have all : (dueIds cfg s.sched now hotIds).countP
            ((fun task => (Task.announces task).isSome) ∘
              fun id => .spawned id ((s.move k .returned).start id).number) =
            (dueIds cfg s.sched now hotIds).length := by
          rw [List.countP_eq_length]
          exact fun _ _ => rfl
        rw [all]
        exact congrArg (· + _) moved
      omega

/-! ### The schedule -/

/-- The start in which an announce of the torrent was issued. -/
def Task.issued (id : Nat) : Task → Option Nat
  | .spawned i n | .found i n | .announcing i n _ | .answered i n _ _ _ | .landed i n _ _ _ =>
    if i = id then some n else none
  | _ => none

theorem issued_current (cfg : Config) (s : State) (inv : Inv cfg s) (id n : Nat) (task : Task)
    (member : task ∈ s.tasks) (issued : Task.issued id task = some n) : n = (s.start id).number := by
  have about : Task.about task = some id := by
    cases task <;> simp_all [Task.issued, Task.about]
  have fits := inv.fits task member id about
  cases task with
  | spawned i m =>
    simp only [Task.issued, Option.ite_none_right_eq_some, Option.some.injEq] at issued
    exact issued.2.symm.trans fits
  | found i m =>
    simp only [Task.issued, Option.ite_none_right_eq_some, Option.some.injEq] at issued
    exact issued.2.symm.trans fits
  | announcing i m event =>
    simp only [Task.issued, Option.ite_none_right_eq_some, Option.some.injEq] at issued
    exact issued.2.symm.trans fits.1.own
  | answered i m event interval minInterval =>
    simp only [Task.issued, Option.ite_none_right_eq_some, Option.some.injEq] at issued
    exact issued.2.symm.trans fits.1.own
  | landed i m event anyOk interval =>
    simp only [Task.issued, Option.ite_none_right_eq_some, Option.some.injEq] at issued
    exact issued.2.symm.trans fits.1.own
  | _ => cases issued

/-- What the schedule owes a torrent. Announces are counted from the claim of the entry on, the
stopped event of a stop among them. -/
structure Scheduled (cfg : Config) (s : State) (id : Nat) : Prop where
  single : s.tasks.countP (fun task => Task.runs id task || Task.stops id task) ≤ 1
  started : ∀ event, (s.start id).announced.head? = some event → event = some .started
  completed : ∀ before after, (s.start id).announced = before ++ some .completed :: after →
    some .started ∈ before ∧ some .completed ∉ before ∧ (s.start id).incomplete = true
  own : ∀ k task n event s', s.tasks[k]? = some task → Task.issued id task = some n →
    n ≠ (s.start id).number → event.position = some k → step cfg s event = some s' →
    get? s'.sched id = get? s.sched id
  running : ∀ e, get? s.sched id = some e → e.inFlight = true → ∃ task ∈ s.tasks, Task.runs id task = true
  polled : ∀ k hotIds now s', s.tasks[k]? = some (.polling hotIds now) → id ∈ hotIds →
    isDue s.sched now id = true → s.shut = false → step cfg s (.claimDue k) = some s' →
    (∃ task ∈ s'.tasks, Task.runs id task = true) ∨
      (0 < cfg.maxInflightAnnounces ∧ cfg.maxInflightAnnounces ≤ underway s')

theorem completed_of_orderly (st : Start) (orderly : Orderly st)
    (before after : List (Option AnnounceEvent))
    (split : st.announced = before ++ some .completed :: after) :
    some .started ∈ before ∧ some .completed ∉ before ∧ st.incomplete = true := by
  refine ⟨?_, ?_, ?_⟩
  · cases before with
    | nil =>
      have first := orderly.first (some .completed) (by rw [split]; rfl)
      cases first
    | cons head rest =>
      have first := orderly.first head (by rw [split]; rfl)
      rw [first]
      exact List.mem_cons_self
  · intro earlier
    have once := orderly.once
    have positive := List.count_pos_iff.2 earlier
    rw [split, List.count_append, List.count_cons_self] at once
    omega
  · apply orderly.due
    rw [split]
    exact List.mem_append_right _ List.mem_cons_self

/-- A run that nothing disturbs keeps the schedule of every torrent. -/
theorem announce_schedule (cfg : Config) (events : List Event) (s : State)
    (free : Guarded (step cfg) (fun s event => undisturbed cfg s event = true) initial events)
    (ran : exec (step cfg) initial events = some s) (id : Nat) : Scheduled cfg s id := by
  have inv : Inv cfg s :=
    exec_invariant (step cfg) _ _ (inv_step cfg) initial s events (inv_initial cfg) free ran
  have coherent := inv.coherent id
  constructor
  · calc s.tasks.countP (fun task => Task.runs id task || Task.stops id task)
        ≤ s.tasks.countP (Task.runs id) + s.tasks.countP (Task.stops id) := by
          exact countP_or_le s.tasks (Task.runs id) (Task.stops id)
      _ ≤ 1 := coherent.single
  · exact coherent.orderly.first
  · exact completed_of_orderly (s.start id) coherent.orderly
  · intro k task n event s' found issued earlier _ _
    exact absurd (issued_current cfg s inv id n task (mem_of_getElem? _ _ _ found) issued) earlier
  · intro e entry flight
    have claimed : (view s id).inFlight = true := by
      rw [view, entry]
      exact flight
    have one := coherent.running
    rw [claimed, if_pos rfl] at one
    apply List.countP_pos_iff.1
    rw [show s.tasks.countP (Task.runs id) = 1 from one]
    omega
  · intro k hotIds now s' found hot due takes taken
    exact polled_of_inv cfg s s' k now id hotIds inv found hot due takes taken

/-! ### Concrete runs -/

def leecher : HotTorrent := HotTorrent.newEmpty 1 (List.replicate 20 1) (bytePieces 1) (List.replicate 20 0)

def unlimited : Config := ⟨true, 0⟩

/-- A start by the user, up to the claim of the entry by its kick. -/
def userStart (k : Nat) : List Event :=
  [.start 1 leecher, .publish k, .readBaseline k, .putBaseline k, .schedule k, .check k, .claim k]

/-- Started and completed are announced, a later tick announces again, and the torrent is stopped. -/
def wholeStart : List Event :=
  userStart 0 ++
    [.lookup 1, .pick 1, .answer 1 (some (1800, 0)), .land 1, .markHave 1 0, .request 1, .requestHot 2,
      .requestPend 2, .finish 1, .check 1, .claim 1, .lookup 3, .pick 3, .answer 3 (some (1800, 0)),
      .land 3, .finish 3, .wait 1800, .poll [1], .claimDue 4, .lookup 5, .pick 5, .answer 5 none,
      .finish 5, .stop 1, .answerStopped 6, .remove 7, .unschedule 7, .unbaseline 7]

theorem announce_schedule_wholeStart :
    Scheduled unlimited ((exec (step unlimited) initial wholeStart).getD initial) 1 :=
  announce_schedule unlimited wholeStart _
    (guarded_of_guardedB (step unlimited) (undisturbed unlimited) initial wholeStart (by decide +kernel))
    (Option.some_get (by decide +kernel)).symm 1

/-- A torrent stopped and started again while its announce is in flight is announced twice over. -/
theorem restart_announces_twice :
    ¬ ∀ cfg events s id, exec (step cfg) initial events = some s → Scheduled cfg s id := by
  intro always
  have twice := (always unlimited
    (userStart 0 ++ [.lookup 1, .pick 1, .stop 1, .answerStopped 2, .remove 3, .unschedule 3, .unbaseline 3] ++
      userStart 4) _ 1 (Option.some_get (by decide +kernel)).symm).single
  revert twice
  decide +kernel

/-- A stop between the claim and the look-up ends the announce, and the entry stays claimed. -/
example : ((exec (step unlimited) initial
      (userStart 0 ++ [.stop 1, .answerStopped 2, .remove 3, .lookup 1])).any (fun s =>
    flag TorrentAnnounce.inFlight (get? s.sched 1) && s.tasks.all (fun task => !Task.runs 1 task))) = true := by
  decide +kernel

end Seedchamp.Session.AnnounceOrder
