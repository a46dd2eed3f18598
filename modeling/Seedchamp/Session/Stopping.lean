import Seedchamp.Session.Lifecycle

/-!
A stop that returned stays in force. A tick of `sync_want_start` can undo it: it acts on a list of
wanted torrents that it read before.
-/

namespace Seedchamp.Session.Stopping
open Foundation.TransitionSystem Hot.Torrent Session.Registry Session.Registry.Catalog
open Session.Registry.HotRegistry Session.Lifecycle Session.Lifecycle.Runtime

/-- The torrent that the worker is starting. -/
def starting : WorkerPc → Option Nat
  | .startChecking id => some id
  | .startHot id => some id
  | .startLoading id => some id
  | .startPreparing id _ => some id
  | .startInserting id _ => some id
  | _ => none

/-- What the worker loaded, with the id it was asked for. -/
def workerTorrent : WorkerPc → Option (Nat × HotTorrent)
  | .startPreparing id t => some (id, t)
  | .startInserting id t => some (id, t)
  | _ => none

def syncTorrent : SyncPc → Option HotTorrent
  | .preparing t _ => some t
  | .inserting t _ => some t
  | _ => none

/-- The torrent whose stop has read the registry. -/
def passedLookup : WorkerPc → Option Nat
  | .stopRemoving id _ _ => some id
  | .stopSweeping id _ => some id
  | .stopSaving id => some id
  | _ => none

/-- The torrent whose stop has emptied its place in the registry. -/
def cleared : WorkerPc → Option Nat
  | .stopRemoving id _ none => some id
  | .stopSweeping id _ => some id
  | .stopSaving id => some id
  | _ => none

/-- What connections leave alone. -/
structure Core where
  catalog : Catalog
  registry : HotRegistry
  worker : WorkerPc
  syncs : Nat → SyncPc
  stopped : Finset Nat

def core (w : Runtime) : Core := ⟨w.catalog, w.registry, w.worker, w.syncs, w.stopped⟩

theorem core_connStep (w : Runtime) (c : Nat) (event : ConnEvent) (w' : Runtime)
    (taken : connStep w c event = some w') : core w' = core w := by
  unfold connStep at taken
  split at taken
  · cases taken
    rfl
  · split at taken <;> cases taken <;> rfl
  · split at taken <;> cases taken <;> rfl
  · cases taken
    unfold Runtime.bind
    split_ifs <;> rfl
  · split at taken
    · cases taken
      rfl
    · split_ifs at taken <;> cases taken <;> rfl
  · cases taken
    unfold Runtime.reserve
    split_ifs <;> rfl
  · split_ifs at taken <;> cases taken <;> rfl
  · split_ifs at taken
    cases taken
    rfl
  · cases taken
    rfl
  · cases taken
    rfl
  · cases taken
    rfl
  · cases taken

/-- Every loaded torrent has its row, and the registry is in order. -/
structure Placed (c : Catalog) (reg : HotRegistry) (worker : WorkerPc) (syncs : Nat → SyncPc) :
    Prop where
  linked : Linked reg c
  synced : ∀ s t, syncTorrent (syncs s) = some t → c.Lists t.id t.infohash
  started : ∀ id t, workerTorrent worker = some (id, t) → t.id = id ∧ c.Lists t.id t.infohash
  removing : ∀ id took infohash, worker = .stopRemoving id took (some infohash) →
    c.Lists id infohash

theorem prepare_names (w : Runtime) (t : HotTorrent) :
    (w.prepare t).id = t.id ∧ (w.prepare t).infohash = t.infohash := by
  unfold prepare HotTorrent.ensureStagingPool HotTorrent.fillStagingPool
  dsimp only
  split_ifs <;> exact ⟨rfl, rfl⟩

/-- An activation either leaves the catalog alone and loads nothing, or wants the torrent. -/
theorem wantAndLoad_cases (c : Catalog) (id : Nat) (reached loads : Bool) :
    wantAndLoad c id reached loads = (c, none) ∨
      reached = true ∧ ∃ wanted loaded, c.setWantStart id true = .ok wanted ∧
        wantAndLoad c id reached loads = (wanted, loaded) ∧
        ∀ t, loaded = some t → wanted.load id = some t := by
  unfold wantAndLoad
  cases reached with
  | false => exact Or.inl rfl
  | true =>
    cases done : c.setWantStart id true with
    | error _ => exact Or.inl rfl
    | ok wanted =>
      refine Or.inr ⟨rfl, wanted, _, rfl, rfl, ?_⟩
      intro t loaded
      cases loads with
      | false => cases loaded
      | true => exact loaded

theorem wantAndLoad_lists (c : Catalog) (id : Nat) (reached loads : Bool) (i : Nat)
    (infohash : List UInt8) :
    (wantAndLoad c id reached loads).1.Lists i infohash ↔ c.Lists i infohash := by
  rcases wantAndLoad_cases c id reached loads with same | ⟨_, wanted, loaded, done, same, _⟩
  · rw [same]
  · rw [same]
    exact lists_setWantStart c wanted id true done i infohash

theorem wantAndLoad_loaded (c : Catalog) (id : Nat) (reached loads : Bool) (t : HotTorrent)
    (hot : (wantAndLoad c id reached loads).2 = some t) :
    t.id = id ∧ c.Lists t.id t.infohash := by
  rcases wantAndLoad_cases c id reached loads with same | ⟨_, wanted, loaded, done, same, found⟩
  · rw [same] at hot
    cases hot
  · rw [same] at hot
    obtain ⟨named, listed⟩ := load_lists wanted id t (found t hot)
    rw [lists_setWantStart c wanted id true done] at listed
    rw [named]
    exact ⟨rfl, listed⟩

theorem wantAndLoad_wants (c : Catalog) (id : Nat) (reached loads : Bool) (i : Nat)
    (wanted' : (wantAndLoad c id reached loads).1.wants i = true) :
    c.wants i = true ∨ (i = id ∧ reached = true) := by
  rcases wantAndLoad_cases c id reached loads with same | ⟨given, wanted, loaded, done, same, _⟩
  · rw [same] at wanted'
    exact Or.inl wanted'
  · rw [same] at wanted'
    rcases wants_setWantStart c wanted id true i done wanted' with ⟨_, before⟩ | ⟨here, _⟩
    · exact Or.inl before
    · exact Or.inr ⟨here, given⟩

section Placed
variable (c : Catalog) (reg : HotRegistry) (worker : WorkerPc) (syncs : Nat → SyncPc)

theorem placed_catalog (c' : Catalog) (placed : Placed c reg worker syncs)
    (same : ∀ id infohash, c'.Lists id infohash ↔ c.Lists id infohash) :
    Placed c' reg worker syncs := by
  refine ⟨linked_catalog _ _ _ placed.linked same, ?_, ?_, ?_⟩
  · intro s t loaded
    rw [same]
    exact placed.synced s t loaded
  · intro id t loaded
    rw [same]
    exact placed.started id t loaded
  · intro id took infohash removing
    rw [same]
    exact placed.removing id took infohash removing

/-- A worker that holds no torrent and no infohash. -/
theorem placed_bare (pc : WorkerPc) (placed : Placed c reg worker syncs)
    (empty : workerTorrent pc = none)
    (unread : ∀ id took infohash, pc ≠ .stopRemoving id took (some infohash)) :
    Placed c reg pc syncs := by
  refine ⟨placed.linked, placed.synced, ?_, ?_⟩
  · intro id t loaded
    rw [empty] at loaded
    cases loaded
  · intro id took infohash removing
    exact absurd removing (unread id took infohash)

theorem placed_idle (placed : Placed c reg worker syncs) : Placed c reg .idle syncs :=
  placed_bare c reg worker syncs .idle placed rfl (fun _ _ _ => WorkerPc.noConfusion)

theorem placed_sync (s : Nat) (pc : SyncPc) (placed : Placed c reg worker syncs)
    (synced : ∀ t, syncTorrent pc = some t → c.Lists t.id t.infohash) :
    Placed c reg worker (Function.update syncs s pc) := by
  refine ⟨placed.linked, ?_, placed.started, placed.removing⟩
  intro s' t loaded
  by_cases same : s' = s
  · rw [same, Function.update_self] at loaded
    exact synced t loaded
  · rw [Function.update_of_ne same] at loaded
    exact placed.synced s' t loaded

theorem placed_insert (t : HotTorrent) (placed : Placed c reg worker syncs)
    (listed : c.Lists t.id t.infohash) (absent : ¬(reg.getId t.id).isSome = true) :
    Placed c (reg.insert t) worker syncs :=
  ⟨linked_insert _ _ _ placed.linked listed (Option.not_isSome_iff_eq_none.1 absent), placed.synced,
    placed.started, placed.removing⟩

end Placed

theorem placed_workerStep (w : Runtime) (reached loads : Bool) (w' : Runtime)
    (placed : Placed w.catalog w.registry w.worker w.syncs)
    (taken : w.workerStep reached loads = some w') :
    Placed w'.catalog w'.registry w'.worker w'.syncs := by
  have idle := placed_idle _ _ _ _ placed
  unfold workerStep at taken
  split at taken
  · cases taken
  · split_ifs at taken <;> cases taken
    · exact placed_bare _ _ _ _ _ placed rfl (fun _ _ _ => WorkerPc.noConfusion)
    · exact placed_bare _ _ _ _ _ placed rfl (fun _ _ _ => WorkerPc.noConfusion)
  · cases taken
    exact placed_catalog _ _ _ _ _ idle (wantAndLoad_lists _ _ _ _)
  · rename_i id _
    cases taken
    apply placed_catalog w.catalog _ _ _ _ _ (wantAndLoad_lists _ _ _ _)
    cases loaded : (wantAndLoad w.catalog id reached loads).2 with
    | none => exact idle
    | some t =>
      refine ⟨placed.linked, placed.synced, ?_, ?_⟩
      · rintro i t' ⟨⟩
        exact wantAndLoad_loaded w.catalog id reached loads t loaded
      · rintro i took infohash ⟨⟩
  · rename_i id t pc
    cases taken
    obtain ⟨named, listed⟩ := placed.started id t (by rw [pc]; rfl)
    cases reached with
    | false => exact idle
    | true =>
      refine ⟨placed.linked, placed.synced, ?_, ?_⟩
      · rintro i t' ⟨⟩
        rw [(prepare_names w t).1, (prepare_names w t).2]
        exact ⟨named, listed⟩
      · rintro i took infohash ⟨⟩
  · rename_i id t pc
    cases taken
    obtain ⟨_, listed⟩ := placed.started id t (by rw [pc]; rfl)
    unfold publish
    split_ifs with hot
    · exact idle
    · exact placed_insert _ _ _ _ t idle listed hot
  · cases taken
    exact placed_bare _ _ _ _ _ placed rfl (fun _ _ _ => WorkerPc.noConfusion)
  · rename_i id took _
    cases taken
    refine ⟨placed.linked, placed.synced, ?_, ?_⟩
    · rintro i t ⟨⟩
    · intro i took' infohash found
      simp only [WorkerPc.stopRemoving.injEq, Option.map_eq_some_iff] at found
      obtain ⟨rfl, _, t, hot, rfl⟩ := found
      obtain ⟨named, hashed⟩ := placed.linked.byId id t hot
      rw [← named]
      exact (placed.linked.byHash _ t hashed).2.2
  · cases taken
    refine ⟨?_, placed.synced, ?_, ?_⟩
    · dsimp only
      split
      · exact linked_remove _ _ _ placed.linked
      · exact placed.linked
    · rintro i t ⟨⟩
    · rintro i took infohash ⟨⟩
  · cases taken
    exact placed_bare _ _ _ _ _ placed rfl (fun _ _ _ => WorkerPc.noConfusion)
  · rename_i id _
    split_ifs at taken
    · split at taken
      · cases taken
        exact idle
      · rename_i unwanted done
        cases taken
        exact placed_catalog _ _ _ _ _ idle (lists_setWantStart w.catalog unwanted id false done)
    · cases taken
      exact idle

theorem placed_syncStep (w : Runtime) (s : Nat) (reached loads : Bool)
    (placed : Placed w.catalog w.registry w.worker w.syncs) :
    Placed (w.syncStep s reached loads).catalog (w.syncStep s reached loads).registry
      (w.syncStep s reached loads).worker (w.syncStep s reached loads).syncs := by
  have empty : ∀ pc, syncTorrent pc = none →
      Placed w.catalog w.registry w.worker (Function.update w.syncs s pc) := by
    intro pc nothing
    apply placed_sync _ _ _ _ s pc placed
    intro t loaded
    rw [nothing] at loaded
    cases loaded
  unfold syncStep
  split
  · exact empty _ rfl
  · cases reached with
    | false => exact empty .idle rfl
    | true => exact empty (.checking _) rfl
  · exact empty _ rfl
  · rename_i id rest _
    by_cases hot : (w.registry.getId id).isSome = true
    · rw [if_pos hot]
      exact empty _ rfl
    · rw [if_neg hot]
      exact empty _ rfl
  · split_ifs
    · exact empty _ rfl
    · exact empty _ rfl
  · rename_i id rest _
    apply placed_catalog w.catalog _ _ _ _ _ (wantAndLoad_lists _ _ _ _)
    apply placed_sync _ _ _ _ s _ placed
    intro t loaded
    cases hot : (wantAndLoad w.catalog id reached loads).2 with
    | none =>
      rw [hot] at loaded
      cases loaded
    | some t' =>
      rw [hot] at loaded
      cases loaded
      exact (wantAndLoad_loaded w.catalog id reached loads t hot).2
  · rename_i t rest pc
    have listed := placed.synced s t (by rw [pc]; rfl)
    cases reached with
    | false => exact empty (.checking rest) rfl
    | true =>
      apply placed_sync _ _ _ _ s (.inserting (w.prepare t) rest) placed
      rintro t' ⟨⟩
      rw [(prepare_names w t).1, (prepare_names w t).2]
      exact listed
  · rename_i t rest pc
    have listed := placed.synced s t (by rw [pc]; rfl)
    unfold publish
    split_ifs with hot
    · exact empty (.checking rest) rfl
    · exact placed_insert _ _ _ _ t (empty (.checking rest) rfl) listed hot

theorem placed_step (w : Runtime) (event : Event) (w' : Runtime)
    (placed : Placed w.catalog w.registry w.worker w.syncs) (taken : step w event = some w') :
    Placed w'.catalog w'.registry w'.worker w'.syncs := by
  cases event with
  | start id =>
    simp only [step] at taken
    split_ifs at taken
    cases taken
    exact placed_bare _ _ _ _ _ placed rfl (fun _ _ _ => WorkerPc.noConfusion)
  | stop id =>
    simp only [step] at taken
    split_ifs at taken
    cases taken
    exact placed_bare _ _ _ _ _ placed rfl (fun _ _ _ => WorkerPc.noConfusion)
  | worker reached loads => exact placed_workerStep w reached loads w' placed taken
  | sync s reached loads =>
    cases taken
    exact placed_syncStep w s reached loads placed
  | delete id =>
    simp only [step] at taken
    split at taken
    · rename_i catalog done
      cases taken
      exact placed_catalog _ _ _ _ _ placed (lists_markDeleted w.catalog catalog id done)
    · cases taken
  | restore id want =>
    cases taken
    exact placed_catalog _ _ _ _ _ placed (lists_restoreDeleted w.catalog id want)
  | setMaxPeers limit =>
    cases taken
    exact placed
  | accept =>
    simp only [step] at taken
    split_ifs at taken
    cases taken
    exact placed
  | dial id =>
    simp only [step] at taken
    split at taken <;> cases taken
    exact placed
  | conn c event =>
    have same := core_connStep w c event w' taken
    simp only [core, Core.mk.injEq] at same
    obtain ⟨catalog, registry, worker, syncs, _⟩ := same
    rw [catalog, registry, worker, syncs]
    exact placed

/-- A tick may activate the torrent: the catalog still wants it, or the worker is starting it. -/
def mayActivate (w : Runtime) (id : Nat) : Bool :=
  w.catalog.wants id || decide (starting w.worker = some id)

/-- A tick sets `want_start` only for a torrent it may still activate. -/
def wantGuard (w : Runtime) : Event → Bool
  | .sync s reached _ =>
    match w.syncs s with
    | .loading id _ => !reached || mayActivate w id
    | _ => true
  | _ => true

/-- A tick publishes a torrent only if it may still activate it and no stop of it has read the
registry. -/
def insertGuard (w : Runtime) : Event → Bool
  | .sync s _ _ =>
    match w.syncs s with
    | .inserting t _ =>
      (w.registry.getId t.id).isSome ||
        (mayActivate w t.id && decide (passedLookup w.worker ≠ some t.id))
    | _ => true
  | _ => true

/-- No stopped torrent is wanted or being started. -/
def Unwanted (c : Catalog) (worker : WorkerPc) (stopped : Finset Nat) : Prop :=
  ∀ id ∈ stopped, c.wants id = false ∧ starting worker ≠ some id

theorem unwanted_mono (c c' : Catalog) (worker worker' : WorkerPc) (stopped : Finset Nat)
    (before : Unwanted c worker stopped)
    (wants : ∀ i, c'.wants i = true → c.wants i = true ∨ starting worker = some i)
    (jobs : ∀ i, starting worker' = some i → starting worker = some i) :
    Unwanted c' worker' stopped := by
  intro i member
  obtain ⟨unwanted, unstarted⟩ := before i member
  refine ⟨?_, fun job => unstarted (jobs i job)⟩
  rw [← Bool.not_eq_true]
  intro wanted
  rcases wants i wanted with old | job
  · rw [unwanted] at old
    cases old
  · exact unstarted job

theorem unwanted_workerStep (w : Runtime) (reached loads : Bool) (w' : Runtime)
    (unwanted : Unwanted w.catalog w.worker w.stopped)
    (taken : w.workerStep reached loads = some w') : Unwanted w'.catalog w'.worker w'.stopped := by
  have idle : Unwanted w.catalog .idle w.stopped := by
    apply unwanted_mono _ _ _ _ _ unwanted (fun _ => Or.inl)
    intro i job
    cases job
  unfold workerStep at taken
  split at taken
  · cases taken
  · rename_i id pc
    split_ifs at taken <;> cases taken
    · exact unwanted_mono _ _ _ _ _ unwanted (fun _ => Or.inl) (fun i job => by rw [pc]; exact job)
    · exact unwanted_mono _ _ _ _ _ unwanted (fun _ => Or.inl) (fun i job => by rw [pc]; exact job)
  · rename_i id pc
    cases taken
    apply unwanted_mono _ _ _ _ _ unwanted
    · intro i wanted
      rcases wantAndLoad_wants _ _ _ _ i wanted with old | ⟨rfl, _⟩
      · exact Or.inl old
      · exact Or.inr (by rw [pc]; rfl)
    · intro i job
      cases job
  · rename_i id pc
    cases taken
    apply unwanted_mono _ _ _ _ _ unwanted
    · intro i wanted
      rcases wantAndLoad_wants _ _ _ _ i wanted with old | ⟨rfl, _⟩
      · exact Or.inl old
      · exact Or.inr (by rw [pc]; rfl)
    · intro i job
      rw [pc]
      dsimp only at job
      split at job
      · exact job
      · cases job
  · rename_i id t pc
    cases taken
    cases reached with
    | false => exact idle
    | true =>
      exact unwanted_mono _ _ _ _ _ unwanted (fun _ => Or.inl) (fun i job => by rw [pc]; exact job)
  · cases taken
    unfold publish
    split_ifs <;> exact idle
  · cases taken
    exact unwanted_mono _ _ _ _ _ unwanted (fun _ => Or.inl) (fun i job => by cases job)
  · cases taken
    exact unwanted_mono _ _ _ _ _ unwanted (fun _ => Or.inl) (fun i job => by cases job)
  · cases taken
    exact unwanted_mono _ _ _ _ _ unwanted (fun _ => Or.inl) (fun i job => by cases job)
  · cases taken
    exact unwanted_mono _ _ _ _ _ unwanted (fun _ => Or.inl) (fun i job => by cases job)
  · rename_i id _
    split_ifs at taken
    · split at taken
      · cases taken
        exact idle
      · rename_i catalog done
        cases taken
        intro i member
        refine ⟨?_, fun job => by cases job⟩
        rw [← Bool.not_eq_true]
        intro wanted
        rcases wants_setWantStart w.catalog catalog id false i done wanted with ⟨other, old⟩ | ⟨_, absurd'⟩
        · have earlier := (Finset.mem_insert.1 member).resolve_left other
          rw [(unwanted i earlier).1] at old
          cases old
        · cases absurd'
    · cases taken
      exact idle

theorem unwanted_syncStep (w : Runtime) (s : Nat) (reached loads : Bool)
    (unwanted : Unwanted w.catalog w.worker w.stopped)
    (guarded : wantGuard w (.sync s reached loads) = true) :
    Unwanted (w.syncStep s reached loads).catalog (w.syncStep s reached loads).worker
      (w.syncStep s reached loads).stopped := by
  unfold syncStep
  split
  · exact unwanted
  · exact unwanted
  · exact unwanted
  · exact unwanted
  · split_ifs <;> exact unwanted
  · rename_i id rest pc
    apply unwanted_mono _ _ _ _ _ unwanted _ (fun _ same => same)
    intro i wanted
    rcases wantAndLoad_wants _ _ _ _ i wanted with old | ⟨rfl, given⟩
    · exact Or.inl old
    · simp only [wantGuard, pc, given, mayActivate, Bool.not_true, Bool.false_or, Bool.or_eq_true,
        decide_eq_true_eq] at guarded
      exact guarded
  · exact unwanted
  · unfold publish
    split_ifs <;> exact unwanted

theorem unwanted_step (w : Runtime) (event : Event) (w' : Runtime)
    (unwanted : Unwanted w.catalog w.worker w.stopped) (guarded : wantGuard w event = true)
    (taken : step w event = some w') : Unwanted w'.catalog w'.worker w'.stopped := by
  cases event with
  | start id =>
    simp only [step] at taken
    split_ifs at taken
    cases taken
    intro i member
    obtain ⟨other, earlier⟩ := Finset.mem_erase.1 member
    refine ⟨(unwanted i earlier).1, ?_⟩
    simp only [beginStart, starting, ne_eq, Option.some.injEq]
    exact fun same => other same.symm
  | stop id =>
    simp only [step] at taken
    split_ifs at taken
    cases taken
    exact unwanted_mono _ _ _ _ _ unwanted (fun _ => Or.inl) (fun i job => by cases job)
  | worker reached loads => exact unwanted_workerStep w reached loads w' unwanted taken
  | sync s reached loads =>
    cases taken
    exact unwanted_syncStep w s reached loads unwanted guarded
  | delete id =>
    simp only [step] at taken
    split at taken
    · rename_i catalog done
      cases taken
      exact unwanted_mono _ _ _ _ _ unwanted
        (fun i wanted => Or.inl (wants_markDeleted w.catalog catalog id i done wanted)) (fun _ same => same)
    · cases taken
  | restore id want =>
    cases taken
    intro i member
    have earlier : i ∈ w.stopped := by
      dsimp only at member
      split_ifs at member
      · exact Finset.mem_of_mem_erase member
      · exact member
    refine ⟨?_, (unwanted i earlier).2⟩
    rw [← Bool.not_eq_true]
    intro wanted
    rcases wants_restoreDeleted w.catalog id want i wanted with old | ⟨rfl, deleted, asked⟩
    · rw [(unwanted i earlier).1] at old
      cases old
    · simp only [deleted, asked, Bool.and_true, if_true] at member
      exact Finset.notMem_erase i w.stopped member
  | setMaxPeers limit =>
    cases taken
    exact unwanted
  | accept =>
    simp only [step] at taken
    split_ifs at taken
    cases taken
    exact unwanted
  | dial id =>
    simp only [step] at taken
    split at taken <;> cases taken
    exact unwanted
  | conn c event =>
    have same := core_connStep w c event w' taken
    simp only [core, Core.mk.injEq] at same
    rw [same.1, same.2.2.1, same.2.2.2.2]
    exact unwanted

/-- No stopped torrent is hot, nor one whose stop has emptied its place. -/
structure Cold (reg : HotRegistry) (worker : WorkerPc) (stopped : Finset Nat) : Prop where
  stopped : ∀ id ∈ stopped, reg.getId id = none
  cleared : ∀ id, cleared worker = some id → reg.getId id = none

theorem cold_worker (reg : HotRegistry) (worker worker' : WorkerPc) (stopped : Finset Nat)
    (cold : Cold reg worker stopped)
    (jobs : ∀ i, Stopping.cleared worker' = some i → Stopping.cleared worker = some i) :
    Cold reg worker' stopped :=
  ⟨cold.stopped, fun i job => cold.cleared i (jobs i job)⟩

/-- A torrent that is neither stopped nor on its way out becomes hot. -/
theorem cold_insert (reg : HotRegistry) (worker : WorkerPc) (stopped : Finset Nat) (t : HotTorrent)
    (cold : Cold reg worker stopped) (running : t.id ∉ stopped)
    (uncleared : Stopping.cleared worker ≠ some t.id) : Cold (reg.insert t) worker stopped := by
  constructor
  · intro i member
    rw [getId_insert_of_ne reg t i (fun same => running (same ▸ member))]
    exact cold.stopped i member
  · intro i job
    rw [getId_insert_of_ne reg t i (fun same => uncleared (same ▸ job))]
    exact cold.cleared i job

theorem cold_workerStep (w : Runtime) (reached loads : Bool) (w' : Runtime)
    (placed : Placed w.catalog w.registry w.worker w.syncs)
    (unwanted : Unwanted w.catalog w.worker w.stopped) (cold : Cold w.registry w.worker w.stopped)
    (taken : w.workerStep reached loads = some w') : Cold w'.registry w'.worker w'.stopped := by
  have idle : Cold w.registry .idle w.stopped :=
    cold_worker _ _ _ _ cold (fun i job => by cases job)
  unfold workerStep at taken
  split at taken
  · cases taken
  · split_ifs at taken <;> cases taken
    · exact cold_worker _ _ _ _ cold (fun i job => by cases job)
    · exact cold_worker _ _ _ _ cold (fun i job => by cases job)
  · cases taken
    exact idle
  · cases taken
    apply cold_worker _ _ _ _ cold
    intro i job
    dsimp only at job
    split at job <;> cases job
  · cases taken
    cases reached with
    | false => exact idle
    | true => exact cold_worker _ _ _ _ cold (fun i job => by cases job)
  · rename_i id t pc
    cases taken
    have named := (placed.started id t (by rw [pc]; rfl)).1
    unfold publish
    split_ifs
    · exact idle
    · apply cold_insert _ _ _ t idle
      · intro member
        refine (unwanted t.id member).2 ?_
        rw [pc, named]
        rfl
      · intro job
        cases job
  · cases taken
    exact cold_worker _ _ _ _ cold (fun i job => by cases job)
  · rename_i id took _
    cases taken
    refine ⟨cold.stopped, ?_⟩
    intro i job
    dsimp only at job
    cases found : w.registry.getId id with
    | none =>
      rw [found] at job
      cases job
      exact found
    | some t =>
      rw [found] at job
      cases job
  · rename_i id took found pc
    cases taken
    cases found with
    | none =>
      refine cold_worker _ _ _ _ cold ?_
      intro i job
      rw [pc]
      exact job
    | some infohash =>
      constructor
      · exact fun i member => getId_remove_none _ _ i (cold.stopped i member)
      · rintro i ⟨⟩
        exact getId_remove _ _ id infohash placed.linked (placed.removing id took infohash pc)
  · rename_i id took pc
    cases taken
    refine cold_worker _ _ _ _ cold ?_
    intro i job
    rw [pc]
    exact job
  · rename_i id pc
    split_ifs at taken
    · split at taken
      · cases taken
        exact idle
      · cases taken
        refine ⟨?_, fun i job => by cases job⟩
        intro i member
        rcases Finset.mem_insert.1 member with rfl | earlier
        · exact cold.cleared i (by rw [pc]; rfl)
        · exact cold.stopped i earlier
    · cases taken
      exact idle

theorem passedLookup_of_cleared (worker : WorkerPc) (id : Nat) (empty : cleared worker = some id) :
    passedLookup worker = some id := by
  unfold cleared at empty
  split at empty <;> cases empty <;> rfl

theorem cold_syncStep (w : Runtime) (s : Nat) (reached loads : Bool)
    (unwanted : Unwanted w.catalog w.worker w.stopped) (cold : Cold w.registry w.worker w.stopped)
    (guarded : insertGuard w (.sync s reached loads) = true) :
    Cold (w.syncStep s reached loads).registry (w.syncStep s reached loads).worker
      (w.syncStep s reached loads).stopped := by
  unfold syncStep
  split
  · exact cold
  · exact cold
  · exact cold
  · exact cold
  · split_ifs <;> exact cold
  · exact cold
  · exact cold
  · rename_i t rest pc
    unfold publish
    split_ifs with hot
    · exact cold
    · simp only [insertGuard, pc, hot, Bool.false_or, Bool.and_eq_true, mayActivate, Bool.or_eq_true,
        decide_eq_true_eq] at guarded
      apply cold_insert _ _ _ t cold
      · intro member
        obtain ⟨refused, unstarted⟩ := unwanted t.id member
        rcases guarded.1 with wanted | job
        · rw [refused] at wanted
          cases wanted
        · exact unstarted job
      · exact fun empty => guarded.2 (passedLookup_of_cleared w.worker t.id empty)

theorem cold_step (w : Runtime) (event : Event) (w' : Runtime)
    (placed : Placed w.catalog w.registry w.worker w.syncs)
    (unwanted : Unwanted w.catalog w.worker w.stopped) (cold : Cold w.registry w.worker w.stopped)
    (guarded : insertGuard w event = true) (taken : step w event = some w') :
    Cold w'.registry w'.worker w'.stopped := by
  cases event with
  | start id =>
    simp only [step] at taken
    split_ifs at taken
    cases taken
    exact ⟨fun i member => cold.stopped i (Finset.mem_of_mem_erase member), fun i job => by cases job⟩
  | stop id =>
    simp only [step] at taken
    split_ifs at taken
    cases taken
    exact cold_worker _ _ _ _ cold (fun i job => by cases job)
  | worker reached loads => exact cold_workerStep w reached loads w' placed unwanted cold taken
  | sync s reached loads =>
    cases taken
    exact cold_syncStep w s reached loads unwanted cold guarded
  | delete id =>
    simp only [step] at taken
    split at taken <;> cases taken
    exact cold
  | restore id want =>
    cases taken
    refine ⟨?_, cold.cleared⟩
    intro i member
    dsimp only at member
    split_ifs at member
    · exact cold.stopped i (Finset.mem_of_mem_erase member)
    · exact cold.stopped i member
  | setMaxPeers limit =>
    cases taken
    exact cold
  | accept =>
    simp only [step] at taken
    split_ifs at taken
    cases taken
    exact cold
  | dial id =>
    simp only [step] at taken
    split at taken <;> cases taken
    exact cold
  | conn c event =>
    have same := core_connStep w c event w' taken
    simp only [core, Core.mk.injEq] at same
    rw [same.2.1, same.2.2.1, same.2.2.2.2]
    exact cold

/-- What a run of the session keeps, as far as starting and stopping go. -/
structure Settled (w : Runtime) : Prop where
  placed : Placed w.catalog w.registry w.worker w.syncs
  unwanted : Unwanted w.catalog w.worker w.stopped
  cold : Cold w.registry w.worker w.stopped

theorem placed_initial (catalog : Catalog) (maxPeers maxConnections stagingMemLimit : Nat) :
    Placed (initial catalog maxPeers maxConnections stagingMemLimit).catalog HotRegistry.new .idle
      (fun _ => .idle) := by
  refine ⟨linked_new _, ?_, ?_, ?_⟩
  · intro s t loaded
    cases loaded
  · intro id t loaded
    cases loaded
  · intro id took infohash removing
    cases removing

theorem settled_initial (catalog : Catalog) (maxPeers maxConnections stagingMemLimit : Nat) :
    Settled (initial catalog maxPeers maxConnections stagingMemLimit) := by
  refine ⟨placed_initial _ _ _ _, ?_, ?_, ?_⟩
  · exact fun i member => absurd member (Finset.notMem_empty i)
  · exact fun i member => absurd member (Finset.notMem_empty i)
  · intro i job
    cases job

def stopGuard (w : Runtime) (event : Event) : Bool := wantGuard w event && insertGuard w event

/-- Once a stop returned, the torrent stays out of the registry and unwanted until its next start, in
every run whose ticks meet `stopGuard`. -/
theorem stop_final (catalog : Catalog) (maxPeers maxConnections stagingMemLimit : Nat)
    (events : List Event) (w : Runtime)
    (kept : Guarded step (fun w event => stopGuard w event = true)
      (initial catalog maxPeers maxConnections stagingMemLimit) events)
    (ran : exec step (initial catalog maxPeers maxConnections stagingMemLimit) events = some w)
    (id : Nat) (stopped : id ∈ w.stopped) :
    w.registry.getId id = none ∧ (∀ infohash t, w.registry.get infohash = some t → t.id ≠ id) ∧
      w.catalog.wants id = false := by
  have settled : Settled w := by
    refine exec_invariant step _ Settled ?_ _ w events
      (settled_initial catalog maxPeers maxConnections stagingMemLimit) kept ran
    rintro w event w' ⟨placed, unwanted, cold⟩ guarded taken
    obtain ⟨wanting, inserting⟩ := Bool.and_eq_true_iff.1 guarded
    exact ⟨placed_step w event w' placed taken, unwanted_step w event w' unwanted wanting taken,
      cold_step w event w' placed unwanted cold inserting taken⟩
  have gone := settled.cold.stopped id stopped
  refine ⟨gone, ?_, (settled.unwanted id stopped).1⟩
  rintro infohash t found rfl
  have present := (settled.placed.linked.byHash infohash t found).2.1
  rw [show w.registry.byId t.id = none from gone] at present
  cases present

/-- One stopped torrent of three pieces. -/
def oneTorrent : Catalog where
  rows := [⟨⟨1, List.replicate 20 7, 3, false, [], 0, List.replicate 60 0⟩,
    Disk.Spans.bytePieces 3, false, false, fun gone => by cases gone⟩]
  ids := by decide
  infohashes := by decide

def startWhole : List Event := .start 1 :: List.replicate 4 (.worker true true)

def stopWhole : List Event := .stop 1 :: List.replicate 5 (.worker true true)

/-- A tick activates the torrent that the worker is starting; it is stopped, and another tick finds
nothing to do. -/
def startThenStop : List Event :=
  .start 1 :: List.replicate 2 (.worker true true) ++ List.replicate 8 (.sync 0 true true) ++
    List.replicate 2 (.worker true true) ++ stopWhole ++ List.replicate 3 (.sync 1 true true)

def halted : Runtime := (exec step (initial oneTorrent 50 200 0) startThenStop).getD
  (initial oneTorrent 50 200 0)

theorem stop_final_startThenStop : 1 ∈ halted.stopped ∧ halted.registry.getId 1 = none := by
  have returns : (exec step (initial oneTorrent 50 200 0) startThenStop).isSome = true := by
    decide +kernel
  have ran := (Option.getD_of_ne_none (Option.isSome_iff_ne_none.1 returns)
    (initial oneTorrent 50 200 0)).symm
  have kept := guarded_of_guardedB step stopGuard (initial oneTorrent 50 200 0) startThenStop
    (by decide +kernel)
  have stopped : 1 ∈ halted.stopped := by decide +kernel
  exact ⟨stopped, (stop_final oneTorrent 50 200 0 startThenStop halted kept ran 1 stopped).1⟩

/-- A tick lists the wanted torrents, the torrent is stopped, and the tick goes on with its list. -/
def listThenStop : List Event :=
  startWhole ++ List.replicate 2 (.sync 0 true true) ++ stopWhole ++
    List.replicate 5 (.sync 0 true true)

def revived : Runtime := (exec step (initial oneTorrent 50 200 0) listThenStop).getD
  (initial oneTorrent 50 200 0)

/-- A stopped torrent comes back: the tick sets `want_start` again and publishes it. -/
theorem stopped_torrent_revived :
    ¬∀ (catalog : Catalog) (maxPeers maxConnections stagingMemLimit : Nat) (events : List Event)
      (w : Runtime) (id : Nat),
      exec step (initial catalog maxPeers maxConnections stagingMemLimit) events = some w →
      id ∈ w.stopped → w.registry.getId id = none ∧ w.catalog.wants id = false := by
  intro always
  have returns : (exec step (initial oneTorrent 50 200 0) listThenStop).isSome = true := by
    decide +kernel
  have ran := (Option.getD_of_ne_none (Option.isSome_iff_ne_none.1 returns)
    (initial oneTorrent 50 200 0)).symm
  obtain ⟨cold, _⟩ := always oneTorrent 50 200 0 listThenStop revived 1 ran (by decide +kernel)
  have hot : (revived.registry.getId 1).isSome = true := by decide +kernel
  rw [cold] at hot
  cases hot

end Seedchamp.Session.Stopping
