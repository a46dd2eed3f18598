import Seedchamp.Control.Mutation
import Seedchamp.Session.Stopping

/-!
A recheck beside the user's starts and stops. Its last section reads what the catalog wants and what
was hot at its begin, and posts a restart; a stop that falls between is undone by that restart.
-/

namespace Seedchamp.Control.RecheckIntent
open Foundation.TransitionSystem Foundation.Tasks Hot.Torrent Session.Registry
open Session.Registry.HotRegistry
open Session.Lifecycle hiding step Event initial
open Session.Lifecycle.Runtime Session.Stopping Control.Mutation

/-! ### What a section of the worker does -/

/-- The torrent that the worker is stopping. -/
def stopping : WorkerPc → Option Nat
  | .stopFlag id => some id
  | .stopLooking id _ => some id
  | .stopRemoving id _ _ => some id
  | .stopSweeping id _ => some id
  | .stopSaving id => some id
  | _ => none

def hot (w : Runtime) (id : Nat) : Bool := (w.registry.getId id).isSome

/-- A start goes on to its end: the load gives the torrent, and no section fails. -/
def goesOn (w : Runtime) (reached loads : Bool) : Bool :=
  reached &&
    match w.worker with
    | .startLoading id => (wantAndLoad w.catalog id reached loads).2.isSome
    | _ => true

theorem getId_remove_other (reg : HotRegistry) (c : Catalog) (infohash : List UInt8) (id other : Nat)
    (linked : Linked reg c) (listed : c.Lists id infohash) (apart : other ≠ id) :
    (reg.remove infohash).getId other = reg.getId other := by
  rw [remove]
  cases found : reg.byHash infohash with
  | none => rfl
  | some t =>
    have row := (linked.byHash infohash t found).2.2
    have named : t.id = id := c.lists_id infohash t.id id row listed
    simp only [getId, named]
    exact Function.update_of_ne apart ..

theorem hot_insert (reg : HotRegistry) (t : HotTorrent) (id : Nat)
    (before : (reg.getId id).isSome = true ∨ id = t.id) : ((reg.insert t).getId id).isSome = true := by
  by_cases mine : id = t.id
  · rw [mine]
    simp [getId, HotRegistry.insert]
  · rw [getId_insert_of_ne reg t id mine]
    exact before.resolve_right mine

theorem hot_publish (w : Runtime) (t : HotTorrent) (id : Nat) (before : hot w id = true) :
    hot (w.publish t) id = true := by
  rw [publish]
  split_ifs
  · exact before
  · exact hot_insert w.registry t id (Or.inl before)

/-- Only its own stop takes a torrent out of the registry. -/
theorem hot_workerStep (w w' : Runtime) (reached loads : Bool) (id : Nat)
    (placed : Placed w.catalog w.registry w.worker w.syncs) (running : stopping w.worker ≠ some id)
    (taken : w.workerStep reached loads = some w') (before : hot w id = true) : hot w' id = true := by
  cases pc : w.worker with
  | startChecking i =>
    simp only [workerStep, pc] at taken
    split_ifs at taken <;> cases taken <;> exact before
  | startInserting i t =>
    simp only [workerStep, pc, Option.some.injEq] at taken
    rw [← taken]
    exact hot_publish w t id before
  | stopRemoving i took found =>
    simp only [workerStep, pc, Option.some.injEq] at taken
    rw [← taken]
    cases found with
    | none => exact before
    | some infohash =>
      have apart : id ≠ i := by
        rintro rfl
        exact running (by rw [pc]; rfl)
      rw [hot]
      rw [getId_remove_other w.registry w.catalog infohash i id placed.linked
        (placed.removing i took infohash pc) apart]
      exact before
  | stopSaving i =>
    simp only [workerStep, pc] at taken
    split_ifs at taken
    · split at taken <;> cases taken <;> exact before
    · cases taken
      exact before
  | idle =>
    simp only [workerStep, pc] at taken
    cases taken
  | _ =>
    simp only [workerStep, pc, Option.some.injEq] at taken
    rw [← taken]
    exact before

/-- A start that goes on is still under way, or has made its torrent hot. -/
theorem starting_workerStep (w w' : Runtime) (reached loads : Bool) (id : Nat)
    (placed : Placed w.catalog w.registry w.worker w.syncs) (on : goesOn w reached loads = true)
    (checked : w.worker = .startHot id → hot w id = true) (running : starting w.worker = some id)
    (taken : w.workerStep reached loads = some w') :
    hot w' id = true ∨ (starting w'.worker = some id ∧ (w'.worker = .startHot id → hot w' id = true)) := by
  rw [goesOn, Bool.and_eq_true] at on
  obtain ⟨reaches, lands⟩ := on
  cases pc : w.worker with
  | startChecking i =>
    rw [pc] at running
    cases running
    simp only [workerStep, pc] at taken
    split_ifs at taken with present
    · cases taken
      exact Or.inl present
    · cases taken
      exact Or.inr ⟨rfl, fun clash => by cases clash⟩
  | startHot i =>
    rw [pc] at running
    cases running
    simp only [workerStep, pc, Option.some.injEq] at taken
    rw [← taken]
    exact Or.inl (checked pc)
  | startLoading i =>
    rw [pc] at running
    cases running
    rw [pc] at lands
    obtain ⟨t, loaded⟩ := Option.isSome_iff_exists.1 lands
    simp only [workerStep, pc, loaded, Option.some.injEq] at taken
    rw [← taken]
    exact Or.inr ⟨rfl, fun clash => by cases clash⟩
  | startPreparing i t =>
    rw [pc] at running
    cases running
    simp only [workerStep, pc, reaches, if_true, Option.some.injEq] at taken
    rw [← taken]
    exact Or.inr ⟨rfl, fun clash => by cases clash⟩
  | startInserting i t =>
    rw [pc] at running
    cases running
    simp only [workerStep, pc, Option.some.injEq] at taken
    rw [← taken]
    have named := (placed.started id t (by rw [pc]; rfl)).1
    left
    show hot (w.publish t) id = true
    rw [publish]
    split_ifs with present
    · rw [← named]
      exact present
    · exact hot_insert w.registry t id (Or.inr named.symm)
  | _ =>
    rw [pc] at running
    cases running

/-- A stop goes on, or has returned and is on record. -/
theorem stopping_workerStep (w w' : Runtime) (reached loads : Bool) (id : Nat) (reaches : reached = true)
    (running : stopping w.worker = some id) (taken : w.workerStep reached loads = some w') :
    stopping w'.worker = some id ∨ (w'.worker = .idle ∧ id ∈ w'.stopped) := by
  cases pc : w.worker with
  | stopSaving i =>
    rw [pc] at running
    cases running
    simp only [workerStep, pc, reaches, if_true, Catalog.setWantStart, Bool.false_and, Bool.false_eq_true,
      if_false, Option.some.injEq] at taken
    rw [← taken]
    exact Or.inr ⟨rfl, Finset.mem_insert_self id w.stopped⟩
  | stopFlag i =>
    rw [pc] at running
    cases running
    simp only [workerStep, pc, Option.some.injEq] at taken
    rw [← taken]
    exact Or.inl rfl
  | stopLooking i took =>
    rw [pc] at running
    cases running
    simp only [workerStep, pc, Option.some.injEq] at taken
    rw [← taken]
    exact Or.inl rfl
  | stopRemoving i took found =>
    rw [pc] at running
    cases running
    simp only [workerStep, pc, Option.some.injEq] at taken
    rw [← taken]
    exact Or.inl rfl
  | stopSweeping i took =>
    rw [pc] at running
    cases running
    simp only [workerStep, pc, Option.some.injEq] at taken
    rw [← taken]
    exact Or.inl rfl
  | _ =>
    rw [pc] at running
    cases running

/-- A section begins no other job, and no stop that returned is forgotten. -/
theorem workerStep_keeps (w w' : Runtime) (reached loads : Bool)
    (taken : w.workerStep reached loads = some w') :
    (∀ id, stopping w'.worker = some id → stopping w.worker = some id) ∧
      (∀ id, starting w'.worker = some id → starting w.worker = some id) ∧
      ∀ id ∈ w.stopped, id ∈ w'.stopped := by
  cases pc : w.worker with
  | idle =>
    simp only [workerStep, pc] at taken
    cases taken
  | startChecking i =>
    simp only [workerStep, pc] at taken
    split_ifs at taken <;> cases taken <;>
      exact ⟨fun _ clash => (by cases clash), fun _ same => same, fun _ member => member⟩
  | startHot i =>
    simp only [workerStep, pc, Option.some.injEq] at taken
    rw [← taken]
    exact ⟨fun _ clash => (by cases clash), fun _ clash => (by cases clash), fun _ member => member⟩
  | startLoading i =>
    simp only [workerStep, pc, Option.some.injEq] at taken
    rw [← taken]
    refine ⟨fun _ clash => ?_, fun _ same => ?_, fun _ member => member⟩
    · dsimp only at clash
      split at clash <;> cases clash
    · dsimp only at same
      split at same
      · exact same
      · cases same
  | startPreparing i t =>
    simp only [workerStep, pc, Option.some.injEq] at taken
    rw [← taken]
    refine ⟨fun _ clash => ?_, fun _ same => ?_, fun _ member => member⟩
    · dsimp only at clash
      split_ifs at clash <;> cases clash
    · dsimp only at same
      split_ifs at same
      · exact same
      · cases same
  | startInserting i t =>
    simp only [workerStep, pc, Option.some.injEq] at taken
    rw [← taken]
    refine ⟨fun _ clash => (by cases clash), fun _ clash => (by cases clash), fun _ member => ?_⟩
    rw [publish]
    split_ifs
    · exact member
    · exact member
  | stopSaving i =>
    simp only [workerStep, pc] at taken
    split_ifs at taken
    · split at taken
      · cases taken
        exact ⟨fun _ clash => (by cases clash), fun _ clash => (by cases clash), fun _ member => member⟩
      · cases taken
        exact ⟨fun _ clash => (by cases clash), fun _ clash => (by cases clash),
          fun _ member => Finset.mem_insert_of_mem member⟩
    · cases taken
      exact ⟨fun _ clash => (by cases clash), fun _ clash => (by cases clash), fun _ member => member⟩
  | _ =>
    simp only [workerStep, pc, Option.some.injEq] at taken
    rw [← taken]
    exact ⟨fun _ same => same, fun _ same => same, fun _ member => member⟩

/-- A tick leaves the worker and the stops on record alone, and takes no torrent out. -/
theorem syncStep_keeps (w : Runtime) (s : Nat) (reached loads : Bool) :
    (w.syncStep s reached loads).worker = w.worker ∧ (w.syncStep s reached loads).stopped = w.stopped ∧
      ∀ id, hot w id = true → hot (w.syncStep s reached loads) id = true := by
  unfold syncStep
  split
  · exact ⟨rfl, rfl, fun _ same => same⟩
  · exact ⟨rfl, rfl, fun _ same => same⟩
  · exact ⟨rfl, rfl, fun _ same => same⟩
  · exact ⟨rfl, rfl, fun _ same => same⟩
  · split_ifs
    · exact ⟨rfl, rfl, fun _ same => same⟩
    · exact ⟨rfl, rfl, fun _ same => same⟩
  · exact ⟨rfl, rfl, fun _ same => same⟩
  · exact ⟨rfl, rfl, fun _ same => same⟩
  · rename_i t rest pc
    refine ⟨?_, ?_, fun id before => hot_publish w t id before⟩
    · show (w.publish t).worker = w.worker
      rw [publish]
      split_ifs
      · rfl
      · rfl
    · show (w.publish t).stopped = w.stopped
      rw [publish]
      split_ifs
      · rfl
      · rfl

theorem settled_step (w : Runtime) (event : Session.Lifecycle.Event) (w' : Runtime)
    (settled : Settled w) (guarded : stopGuard w event = true)
    (taken : Session.Lifecycle.step w event = some w') : Settled w' := by
  obtain ⟨wanting, inserting⟩ := Bool.and_eq_true_iff.1 guarded
  exact ⟨placed_step w event w' settled.placed taken, unwanted_step w event w' settled.unwanted wanting taken,
    cold_step w event w' settled.placed settled.unwanted settled.cold inserting taken⟩

/-! ### The condition and the invariant -/

/-- The recheck is about to post a restart. -/
def posts (s : Plane) (r : Recheck) (reached : Bool) : Bool :=
  r.wasHot || (reached && s.session.catalog.wants r.id)

/-- A finishing recheck that will restart finds the torrent wanted, or being restarted by an earlier
one, with no stop of it queued or running; and none is asked for before its restart is queued. Starts
load, stops are saved, ticks respect stops, and a rechecked torrent is not waiting for its activation. -/
def unopposed (s : Plane) : Event → Bool
  | .requestStop id => s.rechecks.all (fun r => r.id ≠ id || r.phase ≠ .sending)
  | .receive _ =>
    match s.resume, s.queue with
    | none, .recheck id :: _ => s.isHot id || (s.intent id).isSome
    | _, _ => true
  | .worker reached loads => goesOn s.session reached loads
  | .tick t reached loads => stopGuard s.session (.sync t reached loads)
  | .readWant k reached =>
    match s.rechecks[k]? with
    | some r =>
      !posts s r reached ||
        ((s.session.catalog.wants r.id || s.resume = some (r.id, true)) &&
          MutationJob.stop r.id ∉ s.queue &&
          (stopping s.session.worker ≠ some r.id || s.resume.isSome))
    | none => true
  | _ => true

structure Inv (s : Plane) : Prop where
  settled : Settled s.session
  checked : ∀ id, s.session.worker = .startHot id → hot s.session id = true
  wanted : ∀ id, s.intent id = some true →
    hot s.session id = true ∨ starting s.session.worker = some id ∨ s.resume = some (id, true)
  refused : ∀ id, s.intent id = some false →
    id ∈ s.session.stopped ∨ (stopping s.session.worker = some id ∧ s.resume = none)
  stops : ∀ id, stopping s.session.worker = some id →
    (s.resume = none ∧ s.intent id = some false) ∨ s.resume = some (id, true)
  resumed : ∀ id start, s.resume = some (id, start) → start = true ∧ s.intent id = some true ∧
    (s.session.worker = .idle ∨ stopping s.session.worker = some id)
  queued : ∀ id start, MutationJob.syncAfterRecheck id start ∈ s.queue →
    start = true ∧ s.intent id = some true
  ordered : s.queue.Pairwise (fun a b => ∀ id start, a = .stop id → b ≠ .syncAfterRecheck id start)
  known : ∀ r ∈ s.rechecks, s.intent r.id ≠ none
  sending : ∀ r ∈ s.rechecks, r.phase = .sending →
    r.start = true ∧ s.intent r.id = some true ∧ MutationJob.stop r.id ∉ s.queue

/-! ### Each event keeps it -/

theorem inv_worker (s : Plane) (session : Runtime) (reached loads : Bool) (inv : Inv s)
    (guarded : goesOn s.session reached loads = true)
    (taken : s.session.workerStep reached loads = some session) : Inv { s with session := session } := by
  have reaches : reached = true := (Bool.and_eq_true_iff.1 guarded).1
  obtain ⟨noStop, noStart, recorded⟩ := workerStep_keeps s.session session reached loads taken
  have placed := inv.settled.placed
  exact {
    settled := settled_step s.session (.worker reached loads) session inv.settled rfl taken
    checked := by
      intro id now
      have running : starting s.session.worker = some id := noStart id (by rw [now]; rfl)
      rcases starting_workerStep s.session session reached loads id placed guarded (inv.checked id)
        running taken with made | ⟨_, checked⟩
      · exact made
      · exact checked now
    wanted := by
      intro id asked
      rcases inv.wanted id asked with already | running | resumed
      · by_cases stops : stopping s.session.worker = some id
        · rcases inv.stops id stops with ⟨_, refused⟩ | resumed
          · rw [asked] at refused
            cases refused
          · exact Or.inr (Or.inr resumed)
        · exact Or.inl (hot_workerStep s.session session reached loads id placed stops taken already)
      · rcases starting_workerStep s.session session reached loads id placed guarded (inv.checked id)
          running taken with made | ⟨goes, _⟩
        · exact Or.inl made
        · exact Or.inr (Or.inl goes)
      · exact Or.inr (Or.inr resumed)
    refused := by
      intro id asked
      rcases inv.refused id asked with stopped | ⟨running, own⟩
      · exact Or.inl (recorded id stopped)
      · rcases stopping_workerStep s.session session reached loads id reaches running taken with
          goes | ⟨_, stopped⟩
        · exact Or.inr ⟨goes, own⟩
        · exact Or.inl stopped
    stops := fun id running => inv.stops id (noStop id running)
    resumed := by
      intro id start resuming
      obtain ⟨starts, asked, phase⟩ := inv.resumed id start resuming
      refine ⟨starts, asked, ?_⟩
      rcases phase with idle | running
      · rw [workerStep, idle] at taken
        cases taken
      · rcases stopping_workerStep s.session session reached loads id reaches running taken with
          goes | ⟨idle, _⟩
        · exact Or.inr goes
        · exact Or.inl idle
    queued := inv.queued
    ordered := inv.ordered
    known := inv.known
    sending := inv.sending }

theorem inv_tick (s : Plane) (t : Nat) (reached loads : Bool) (inv : Inv s)
    (guarded : stopGuard s.session (.sync t reached loads) = true) :
    Inv { s with session := s.session.syncStep t reached loads } := by
  obtain ⟨worker, stopped, grows⟩ := syncStep_keeps s.session t reached loads
  exact {
    settled := settled_step s.session (.sync t reached loads) _ inv.settled guarded rfl
    checked := by
      intro id now
      rw [show (s.session.syncStep t reached loads).worker = s.session.worker from worker] at now
      exact grows id (inv.checked id now)
    wanted := by
      intro id asked
      show _ ∨ starting (s.session.syncStep t reached loads).worker = some id ∨ _
      rw [worker]
      rcases inv.wanted id asked with already | rest
      · exact Or.inl (grows id already)
      · exact Or.inr rest
    refused := by
      intro id asked
      show id ∈ (s.session.syncStep t reached loads).stopped ∨
        (stopping (s.session.syncStep t reached loads).worker = some id ∧ _)
      rw [worker, stopped]
      exact inv.refused id asked
    stops := by
      intro id running
      rw [show (s.session.syncStep t reached loads).worker = s.session.worker from worker] at running
      exact inv.stops id running
    resumed := by
      intro id start resuming
      show _ ∧ _ ∧ ((s.session.syncStep t reached loads).worker = _ ∨
        stopping (s.session.syncStep t reached loads).worker = some id)
      rw [worker]
      exact inv.resumed id start resuming
    queued := inv.queued
    ordered := inv.ordered
    known := inv.known
    sending := inv.sending }

/-- A request goes to the end of the queue; a stop only where no restart is about to be posted. -/
theorem inv_enqueue (s : Plane) (job : MutationJob) (inv : Inv s)
    (own : ∀ id start, job ≠ .syncAfterRecheck id start)
    (free : ∀ r ∈ s.rechecks, r.phase = .sending → job ≠ .stop r.id) : Inv (s.enqueue job) where
  settled := inv.settled
  checked := inv.checked
  wanted := inv.wanted
  refused := inv.refused
  stops := inv.stops
  resumed := inv.resumed
  queued := by
    intro id start member
    rcases List.mem_append.1 member with old | new
    · exact inv.queued id start old
    · exact absurd (List.mem_singleton.1 new).symm (own id start)
  ordered := by
    refine List.pairwise_append.2 ⟨inv.ordered, List.pairwise_singleton _ _, ?_⟩
    intro a _ b new id start _
    rw [List.mem_singleton.1 new]
    exact own id start
  known := inv.known
  sending := by
    intro r member phase
    obtain ⟨starts, asked, unstopped⟩ := inv.sending r member phase
    refine ⟨starts, asked, ?_⟩
    intro queued
    rcases List.mem_append.1 queued with old | new
    · exact unstopped old
    · exact free r member phase (List.mem_singleton.1 new).symm

/-- The part of the plane that a recheck's own sections read and write. -/
theorem inv_setRecheck (s : Plane) (k : Nat) (r r' : Recheck) (inv : Inv s)
    (found : s.rechecks[k]? = some r) (same : r'.id = r.id)
    (sends : r'.phase = .sending →
      r'.start = true ∧ s.intent r.id = some true ∧ MutationJob.stop r.id ∉ s.queue) :
    Inv (s.setRecheck k r') where
  settled := inv.settled
  checked := inv.checked
  wanted := inv.wanted
  refused := inv.refused
  stops := inv.stops
  resumed := inv.resumed
  queued := inv.queued
  ordered := inv.ordered
  known := by
    apply forall_mem_set s.rechecks k r' _ inv.known
    rw [same]
    exact inv.known r (mem_of_getElem? _ _ _ found)
  sending := by
    apply forall_mem_set s.rechecks k r' _ inv.sending
    intro phase
    rw [same]
    exact sends phase

theorem inv_inflight (s : Plane) (inflight : Finset Nat) (inv : Inv s) :
    Inv { s with recheckInflight := inflight } where
  settled := inv.settled
  checked := inv.checked
  wanted := inv.wanted
  refused := inv.refused
  stops := inv.stops
  resumed := inv.resumed
  queued := inv.queued
  ordered := inv.ordered
  known := inv.known
  sending := inv.sending

theorem inv_readWant (s s' : Plane) (k : Nat) (reached : Bool) (r : Recheck) (inv : Inv s)
    (found : s.rechecks[k]? = some r) (guarded : unopposed s (.readWant k reached) = true)
    (taken : s.advance k r (.readWant k reached) = some s') : Inv s' := by
  have decided : s' = s.setRecheck k { r with
      start := posts s r reached
      phase := if posts s r reached then .sending else .returned } := by
    simp only [Plane.advance] at taken
    by_cases reading : r.phase = .reading
    · rw [if_pos reading] at taken
      exact (Option.some.inj taken).symm
    · rw [if_neg reading] at taken
      cases taken
  rw [decided]
  apply inv_setRecheck s k r { r with
      start := posts s r reached
      phase := if posts s r reached then .sending else .returned } inv found rfl
  intro phase
  have sends : posts s r reached = true := by
    by_contra silent
    have final : (if posts s r reached then Phase.sending else .returned) = .sending := phase
    rw [if_neg silent] at final
    cases final
  simp only [unopposed, found, sends, Bool.not_true, Bool.false_or, Bool.and_eq_true, Bool.or_eq_true,
    decide_eq_true_eq] at guarded
  obtain ⟨⟨stands, unqueued⟩, unstopped⟩ := guarded
  refine ⟨sends, ?_, unqueued⟩
  cases asked : s.intent r.id with
  | none => exact absurd asked (inv.known r (mem_of_getElem? _ _ _ found))
  | some want =>
    cases want with
    | true => rfl
    | false =>
      have resting : s.resume ≠ some (r.id, true) := by
        intro resuming
        have want := (inv.resumed r.id true resuming).2.1
        rw [asked] at want
        cases want
      rcases inv.refused r.id asked with stopped | ⟨running, own⟩
      · have unwanted := (inv.settled.unwanted r.id stopped).1
        rw [unwanted] at stands
        rcases stands with clash | resuming
        · cases clash
        · exact absurd resuming resting
      · rcases unstopped with other | resuming
        · exact absurd running other
        · rw [own] at resuming
          cases resuming

theorem inv_send (s s' : Plane) (k : Nat) (r : Recheck) (inv : Inv s)
    (found : s.rechecks[k]? = some r) (taken : s.advance k r (.send k) = some s') : Inv s' := by
  simp only [Plane.advance] at taken
  split_ifs at taken with phase
  cases taken
  obtain ⟨starts, asked, unstopped⟩ := inv.sending r (mem_of_getElem? _ _ _ found) phase
  have moved : Inv (s.setRecheck k { r with phase := .returned }) :=
    inv_setRecheck s k r _ inv found rfl (fun clash => by cases clash)
  exact {
    settled := moved.settled
    checked := moved.checked
    wanted := moved.wanted
    refused := moved.refused
    stops := moved.stops
    resumed := moved.resumed
    queued := by
      intro id start member
      rcases List.mem_append.1 member with old | new
      · exact moved.queued id start old
      · cases List.mem_singleton.1 new
        exact ⟨starts, asked⟩
    ordered := by
      refine List.pairwise_append.2 ⟨moved.ordered, List.pairwise_singleton _ _, ?_⟩
      intro a earlier b new id start stop sync
      rw [List.mem_singleton.1 new] at sync
      cases sync
      rw [stop] at earlier
      exact unstopped earlier
    known := moved.known
    sending := by
      intro other member otherPhase
      obtain ⟨otherStarts, otherAsked, otherUnstopped⟩ := moved.sending other member otherPhase
      refine ⟨otherStarts, otherAsked, ?_⟩
      intro queued
      rcases List.mem_append.1 queued with old | new
      · exact otherUnstopped old
      · cases List.mem_singleton.1 new }

/-! ### The next action of the worker -/

/-- Between jobs a wanted torrent is hot, unless its restart is the next thing to do. -/
theorem hot_of_wanted (s : Plane) (id : Nat) (inv : Inv s) (idle : s.session.worker = .idle)
    (asked : s.intent id = some true) : hot s.session id = true ∨ s.resume = some (id, true) := by
  rcases inv.wanted id asked with already | running | resuming
  · exact Or.inl already
  · rw [idle] at running
    cases running
  · exact Or.inr resuming

theorem stopped_of_refused (s : Plane) (id : Nat) (inv : Inv s) (idle : s.session.worker = .idle)
    (asked : s.intent id = some false) : id ∈ s.session.stopped := by
  rcases inv.refused id asked with stopped | ⟨running, _⟩
  · exact stopped
  · rw [idle] at running
    cases running

/-- The worker begins to start a torrent, as the user or an unopposed recheck wants. -/
theorem inv_started (s : Plane) (id : Nat) (front rest : List MutationJob) (inv : Inv s)
    (idle : s.session.worker = .idle) (queue : s.queue = front ++ rest)
    (resting : s.resume = none ∨ s.resume = some (id, true)) :
    Inv { s with
      session := s.session.beginStart id
      queue := rest
      resume := none
      intent := Function.update s.intent id (some true) } := by
  have elsewhere : ∀ i, i ≠ id → Function.update s.intent id (some true) i = s.intent i :=
    fun i other => Function.update_of_ne other ..
  have here : Function.update s.intent id (some true) id = some true := Function.update_self ..
  have asks : ∀ i, s.intent i = some true → Function.update s.intent id (some true) i = some true := by
    intro i asked
    by_cases mine : i = id
    · rw [mine, here]
    · rw [elsewhere i mine, asked]
  exact {
    settled := settled_step s.session (.start id) _ inv.settled rfl (by
      simp only [Session.Lifecycle.step, idle, if_true])
    checked := fun i clash => by cases clash
    wanted := by
      intro i asked
      by_cases mine : i = id
      · rw [mine]
        exact Or.inr (Or.inl rfl)
      · have before := (elsewhere i mine).symm.trans asked
        rcases hot_of_wanted s i inv idle before with already | resuming
        · exact Or.inl already
        · rcases resting with none | same
          · rw [none] at resuming
            cases resuming
          · rw [same] at resuming
            cases resuming
            exact absurd rfl mine
    refused := by
      intro i asked
      have other : i ≠ id := by
        rintro rfl
        cases here.symm.trans asked
      have before := (elsewhere i other).symm.trans asked
      exact Or.inl (Finset.mem_erase.2 ⟨other, stopped_of_refused s i inv idle before⟩)
    stops := fun i clash => by cases clash
    resumed := fun i start clash => by cases clash
    queued := by
      intro i start member
      obtain ⟨starts, asked⟩ := inv.queued i start (by
        rw [queue]
        exact List.mem_append_right _ member)
      exact ⟨starts, asks i asked⟩
    ordered := by
      have before := inv.ordered
      rw [queue] at before
      exact (List.pairwise_append.1 before).2.1
    known := by
      intro r member
      by_cases mine : r.id = id
      · show Function.update s.intent id (some true) r.id ≠ none
        rw [mine, here]
        exact Option.some_ne_none true
      · show Function.update s.intent id (some true) r.id ≠ none
        rw [elsewhere r.id mine]
        exact inv.known r member
    sending := by
      intro r member phase
      obtain ⟨starts, asked, unstopped⟩ := inv.sending r member phase
      refine ⟨starts, asks r.id asked, ?_⟩
      intro queued
      exact unstopped (by
        rw [queue]
        exact List.mem_append_right _ queued) }

/-- The worker begins to stop a torrent at the user's request. -/
theorem inv_stopped (s : Plane) (id : Nat) (rest : List MutationJob) (inv : Inv s)
    (idle : s.session.worker = .idle) (queue : s.queue = .stop id :: rest) (resting : s.resume = none) :
    Inv { s with
      session := { s.session with worker := .stopFlag id }
      queue := rest
      intent := Function.update s.intent id (some false) } := by
  have elsewhere : ∀ i, i ≠ id → Function.update s.intent id (some false) i = s.intent i :=
    fun i other => Function.update_of_ne other ..
  have here : Function.update s.intent id (some false) id = some false := Function.update_self ..
  have ordered := inv.ordered
  rw [queue] at ordered
  obtain ⟨first, later⟩ := List.pairwise_cons.1 ordered
  exact {
    settled := settled_step s.session (.stop id) _ inv.settled rfl (by
      simp only [Session.Lifecycle.step, idle, if_true])
    checked := fun i clash => by cases clash
    wanted := by
      intro i asked
      have other : i ≠ id := by
        rintro rfl
        cases here.symm.trans asked
      have before := (elsewhere i other).symm.trans asked
      rcases hot_of_wanted s i inv idle before with already | resuming
      · exact Or.inl already
      · rw [resting] at resuming
        cases resuming
    refused := by
      intro i asked
      by_cases mine : i = id
      · rw [mine]
        exact Or.inr ⟨rfl, resting⟩
      · have before := (elsewhere i mine).symm.trans asked
        exact Or.inl (stopped_of_refused s i inv idle before)
    stops := by
      intro i running
      cases running
      exact Or.inl ⟨resting, here⟩
    resumed := by
      intro i start resuming
      rw [show s.resume = none from resting] at resuming
      cases resuming
    queued := by
      intro i start member
      have other : i ≠ id := by
        rintro rfl
        exact first _ member i start rfl rfl
      obtain ⟨starts, asked⟩ := inv.queued i start (by
        rw [queue]
        exact List.mem_cons_of_mem _ member)
      exact ⟨starts, (elsewhere i other).trans asked⟩
    ordered := later
    known := by
      intro r member
      by_cases mine : r.id = id
      · show Function.update s.intent id (some false) r.id ≠ none
        rw [mine, here]
        exact Option.some_ne_none false
      · show Function.update s.intent id (some false) r.id ≠ none
        rw [elsewhere r.id mine]
        exact inv.known r member
    sending := by
      intro r member phase
      obtain ⟨starts, asked, unstopped⟩ := inv.sending r member phase
      rw [queue] at unstopped
      have other : r.id ≠ id := by
        rintro rfl
        exact unstopped List.mem_cons_self
      exact ⟨starts, (elsewhere r.id other).trans asked,
        fun queued => unstopped (List.mem_cons_of_mem _ queued)⟩ }

/-- A restart begins with the stop of the hot torrent. -/
theorem inv_restarting (s : Plane) (id : Nat) (start : Bool) (rest : List MutationJob) (inv : Inv s)
    (idle : s.session.worker = .idle) (queue : s.queue = .syncAfterRecheck id start :: rest)
    (resting : s.resume = none) :
    Inv { s with
      session := { s.session with worker := .stopFlag id }
      queue := rest
      resume := some (id, start) } := by
  obtain ⟨starts, asked⟩ := inv.queued id start (by
    rw [queue]
    exact List.mem_cons_self)
  have ordered := inv.ordered
  rw [queue] at ordered
  exact {
    settled := settled_step s.session (.stop id) _ inv.settled rfl (by
      simp only [Session.Lifecycle.step, idle, if_true])
    checked := fun i clash => by cases clash
    wanted := by
      intro i wanted
      rcases hot_of_wanted s i inv idle wanted with already | resuming
      · exact Or.inl already
      · rw [resting] at resuming
        cases resuming
    refused := fun i refused => Or.inl (stopped_of_refused s i inv idle refused)
    stops := by
      intro i running
      cases running
      exact Or.inr (by rw [starts])
    resumed := by
      intro i again resuming
      cases resuming
      exact ⟨starts, asked, Or.inr rfl⟩
    queued := by
      intro i again member
      exact inv.queued i again (by
        rw [queue]
        exact List.mem_cons_of_mem _ member)
    ordered := (List.pairwise_cons.1 ordered).2
    known := inv.known
    sending := by
      intro r member phase
      obtain ⟨goes, wanted, unstopped⟩ := inv.sending r member phase
      refine ⟨goes, wanted, ?_⟩
      intro queued
      exact unstopped (by
        rw [queue]
        exact List.mem_cons_of_mem _ queued) }

/-- A job that is dropped leaves the rest of the queue. -/
theorem inv_dropped (s : Plane) (job : MutationJob) (rest : List MutationJob) (inv : Inv s)
    (queue : s.queue = job :: rest) : Inv { s with queue := rest } := by
  have inside : ∀ other ∈ rest, other ∈ s.queue := by
    intro other member
    rw [queue]
    exact List.mem_cons_of_mem _ member
  have ordered := inv.ordered
  rw [queue] at ordered
  exact {
    settled := inv.settled
    checked := inv.checked
    wanted := inv.wanted
    refused := inv.refused
    stops := inv.stops
    resumed := inv.resumed
    queued := fun id start member => inv.queued id start (inside _ member)
    ordered := (List.pairwise_cons.1 ordered).2
    known := inv.known
    sending := by
      intro r member phase
      obtain ⟨starts, asked, unstopped⟩ := inv.sending r member phase
      exact ⟨starts, asked, fun queued => unstopped (inside _ queued)⟩ }

theorem inv_beginRecheck (s : Plane) (id : Nat) (spawned : Bool) (inv : Inv s)
    (started : s.isHot id = true ∨ (s.intent id).isSome = true) : Inv (s.beginRecheck id spawned) := by
  rw [Plane.beginRecheck]
  split_ifs with busy fresh
  · exact inv
  · obtain ⟨unasked, present⟩ := Bool.and_eq_true_iff.1 fresh
    have none : s.intent id = none := Option.isNone_iff_eq_none.1 unasked
    have elsewhere : ∀ i, s.intent i ≠ Option.none →
        Function.update s.intent id (some true) i = s.intent i := by
      intro i asked
      apply Function.update_of_ne
      rintro rfl
      exact asked none
    have here : Function.update s.intent id (some true) id = some true := Function.update_self ..
    have asks : ∀ i want, s.intent i = some want →
        Function.update s.intent id (some true) i = some want := by
      intro i want asked
      rw [elsewhere i (by rw [asked]; exact Option.some_ne_none want), asked]
    exact {
      settled := inv.settled
      checked := inv.checked
      wanted := by
        intro i asked
        by_cases mine : i = id
        · rw [mine]
          exact Or.inl present
        · have before := (Function.update_of_ne mine ..).symm.trans asked
          exact inv.wanted i before
      refused := by
        intro i asked
        have other : i ≠ id := by
          rintro rfl
          cases here.symm.trans asked
        have before := (Function.update_of_ne other ..).symm.trans asked
        exact inv.refused i before
      stops := by
        intro i running
        rcases inv.stops i running with ⟨own, asked⟩ | resuming
        · exact Or.inl ⟨own, asks i false asked⟩
        · exact Or.inr resuming
      resumed := by
        intro i start resuming
        obtain ⟨starts, asked, phase⟩ := inv.resumed i start resuming
        exact ⟨starts, asks i true asked, phase⟩
      queued := by
        intro i start member
        obtain ⟨starts, asked⟩ := inv.queued i start member
        exact ⟨starts, asks i true asked⟩
      ordered := inv.ordered
      known := by
        apply forall_mem_append
        · intro r member
          show Function.update s.intent id (some true) r.id ≠ Option.none
          rw [elsewhere r.id (inv.known r member)]
          exact inv.known r member
        · show Function.update s.intent id (some true) id ≠ Option.none
          rw [here]
          exact Option.some_ne_none true
      sending := by
        apply forall_mem_append
        · intro r member phase
          obtain ⟨starts, asked, unstopped⟩ := inv.sending r member phase
          exact ⟨starts, asks r.id true asked, unstopped⟩
        · intro clash
          cases clash }
  · have asked : s.intent id ≠ none := by
      intro none
      rw [none] at fresh started
      rcases started with present | clash
      · exact fresh (by rw [present]; rfl)
      · cases clash
    exact {
      settled := inv.settled
      checked := inv.checked
      wanted := inv.wanted
      refused := inv.refused
      stops := inv.stops
      resumed := inv.resumed
      queued := inv.queued
      ordered := inv.ordered
      known := forall_mem_append s.rechecks _ _ inv.known asked
      sending := by
        apply forall_mem_append s.rechecks _ _ inv.sending
        intro clash
        cases clash }

theorem inv_receive (s s' : Plane) (spawned : Bool) (inv : Inv s)
    (guarded : unopposed s (.receive spawned) = true) (taken : s.receive spawned = some s') : Inv s' := by
  rw [Plane.receive] at taken
  split_ifs at taken with idle
  split at taken
  · rename_i id start resume
    obtain ⟨starts, asked, _⟩ := inv.resumed id start resume
    dsimp only at taken
    rw [if_pos starts] at taken
    cases taken
    have begun := inv_started s id [] s.queue inv idle rfl (Or.inr (by rw [resume, starts]))
    rwa [Function.update_eq_self_iff.2 asked.symm] at begun
  · rename_i job rest resume queue
    cases taken
    cases job with
    | start id =>
      have begun := inv_started s id [.start id] rest inv idle queue (Or.inl resume)
      rwa [← resume] at begun
    | stop id => exact inv_stopped s id rest inv idle queue resume
    | recheck id =>
      simp only [unopposed, resume, queue, Bool.or_eq_true] at guarded
      exact inv_beginRecheck _ id spawned (inv_dropped s _ rest inv queue) guarded
    | syncAfterRecheck id start =>
      obtain ⟨starts, asked⟩ := inv.queued id start (by
        rw [queue]
        exact List.mem_cons_self)
      rw [Plane.carryOut]
      by_cases present : s.isHot id = true
      · rw [if_pos (show Plane.isHot { s with queue := rest } id = true from present)]
        exact inv_restarting s id start rest inv idle queue resume
      · rw [if_neg (show ¬ Plane.isHot { s with queue := rest } id = true from present), if_pos starts]
        have begun := inv_started s id [.syncAfterRecheck id start] rest inv idle queue (Or.inl resume)
        rw [Function.update_eq_self_iff.2 asked.symm, ← resume] at begun
        exact begun
  · cases taken

theorem inv_step (s : Plane) (event : Event) (s' : Plane) (inv : Inv s)
    (guarded : unopposed s event = true) (taken : step s event = some s') : Inv s' := by
  cases event with
  | requestStart id =>
    cases taken
    exact inv_enqueue s (.start id) inv (fun _ _ clash => by cases clash) (fun _ _ _ clash => by cases clash)
  | requestStop id =>
    cases taken
    apply inv_enqueue s (.stop id) inv (fun _ _ clash => by cases clash)
    intro r member phase same
    cases same
    have free := List.all_eq_true.1 guarded r member
    simp [phase] at free
  | requestRecheck id =>
    cases taken
    exact inv_enqueue s (.recheck id) inv (fun _ _ clash => by cases clash)
      (fun _ _ _ clash => by cases clash)
  | receive spawned => exact inv_receive s s' spawned inv guarded taken
  | worker reached loads =>
    obtain ⟨session, moved, rfl⟩ := Option.map_eq_some_iff.1 taken
    exact inv_worker s session reached loads inv guarded moved
  | tick t reached loads =>
    cases taken
    exact inv_tick s t reached loads inv guarded
  | hashed k ok =>
    obtain ⟨r, found, moved⟩ := Option.bind_eq_some_iff.1 taken
    simp only [Plane.advance] at moved
    split_ifs at moved
    · cases moved
      apply inv_inflight
      exact inv_setRecheck s k r { r with phase := .reading } inv found rfl (fun clash => by cases clash)
    · cases moved
      apply inv_inflight
      exact inv_setRecheck s k r { r with phase := .returned } inv found rfl (fun clash => by cases clash)
  | readWant k reached =>
    obtain ⟨r, found, moved⟩ := Option.bind_eq_some_iff.1 taken
    exact inv_readWant s s' k reached r inv found guarded moved
  | send k =>
    obtain ⟨r, found, moved⟩ := Option.bind_eq_some_iff.1 taken
    exact inv_send s s' k r inv found moved

theorem wants_of_unwantedIds (c : Catalog) (id : Nat) (member : id ∈ unwantedIds c) :
    c.wants id = false := by
  rw [← Bool.not_eq_true]
  intro wanted
  obtain ⟨r, listed, named, wants⟩ := (Catalog.wants_iff c id).1 wanted
  obtain ⟨other, kept, same⟩ := List.mem_map.1 (List.mem_toFinset.1 member)
  obtain ⟨present, refused⟩ := List.mem_filter.1 kept
  have one : other = r := List.inj_on_of_nodup_map c.ids present listed (same.trans named.symm)
  rw [one, wants] at refused
  cases refused

theorem inv_initial (catalog : Catalog) (maxPeers maxConnections stagingMemLimit : Nat) :
    Inv (initial catalog maxPeers maxConnections stagingMemLimit) where
  settled :=
    { placed := placed_initial catalog maxPeers maxConnections stagingMemLimit
      unwanted := fun id member => ⟨wants_of_unwantedIds catalog id member, fun clash => by cases clash⟩
      cold := ⟨fun _ _ => rfl, fun _ clash => by cases clash⟩ }
  checked := fun id clash => by cases clash
  wanted := by
    intro id asked
    have given : (if id ∈ unwantedIds catalog then some false else none) = some true := asked
    split_ifs at given
    cases given
  refused := by
    intro id asked
    have given : (if id ∈ unwantedIds catalog then some false else none) = some false := asked
    split_ifs at given with member
    exact Or.inl member
  stops := fun id clash => by cases clash
  resumed := fun id start clash => by cases clash
  queued := fun id start member => absurd member List.not_mem_nil
  ordered := List.Pairwise.nil
  known := fun r member => absurd member List.not_mem_nil
  sending := fun r member => absurd member List.not_mem_nil

/-- In an unopposed run, whenever the worker is between jobs, and so after every recheck, a torrent is
hot just when the last user request for it wanted it started, or without one when a recheck of it
found it hot; and every torrent with a recheck is spoken for. -/
theorem recheck_respects_intent (catalog : Catalog) (maxPeers maxConnections stagingMemLimit : Nat)
    (events : List Event) (s : Plane)
    (free : Guarded step (fun s event => unopposed s event = true)
      (initial catalog maxPeers maxConnections stagingMemLimit) events)
    (ran : exec step (initial catalog maxPeers maxConnections stagingMemLimit) events = some s)
    (idle : s.session.worker = .idle) (resting : s.resume = none) :
    (∀ id want, s.intent id = some want → s.isHot id = want) ∧
      ∀ r ∈ s.rechecks, (s.intent r.id).isSome = true := by
  have inv : Inv s := exec_invariant step _ Inv inv_step _ s events
    (inv_initial catalog maxPeers maxConnections stagingMemLimit) free ran
  constructor
  · intro id want asked
    cases want with
    | true =>
      rcases hot_of_wanted s id inv idle asked with present | resuming
      · exact present
      · rw [resting] at resuming
        cases resuming
    | false =>
      have gone := inv.settled.cold.stopped id (stopped_of_refused s id inv idle asked)
      rw [Plane.isHot, gone]
      rfl
  · exact fun r member => Option.isSome_iff_ne_none.2 (inv.known r member)

def sections (count : Nat) : List Event := List.replicate count (.worker true true)

/-- Torrent 1 is started and rechecked; the recheck finishes and restarts it. -/
def startThenRecheck : List Event :=
  [.requestStart 1, .receive true] ++ sections 4 ++
    [.requestRecheck 1, .receive true, .hashed 0 true, .readWant 0 true, .send 0, .receive true] ++
    sections 5 ++ [.receive true] ++ sections 4

theorem recheck_respects_intent_startThenRecheck :
    (∀ id want, ((exec step (initial oneTorrent 50 200 0) startThenRecheck).getD
        (initial oneTorrent 50 200 0)).intent id = some want →
      ((exec step (initial oneTorrent 50 200 0) startThenRecheck).getD
        (initial oneTorrent 50 200 0)).isHot id = want) ∧
      ∀ r ∈ ((exec step (initial oneTorrent 50 200 0) startThenRecheck).getD
          (initial oneTorrent 50 200 0)).rechecks,
        (((exec step (initial oneTorrent 50 200 0) startThenRecheck).getD
          (initial oneTorrent 50 200 0)).intent r.id).isSome = true :=
  recheck_respects_intent oneTorrent 50 200 0 startThenRecheck _
    (guarded_of_guardedB step unopposed (initial oneTorrent 50 200 0) startThenRecheck (by decide +kernel))
    (Option.some_get (by decide +kernel)).symm (by decide +kernel) (by decide +kernel)

/-- The user stops torrent 1 while its recheck is hashing. -/
def stoppedMeanwhile : List Event :=
  [.requestStart 1, .receive true] ++ sections 4 ++ [.requestRecheck 1, .receive true, .requestStop 1,
    .receive true] ++ sections 5 ++ [.hashed 0 true, .readWant 0 true, .send 0, .receive true] ++ sections 4

theorem recheck_restarts_stopped :
    ¬ ∀ catalog maxPeers maxConnections stagingMemLimit events s id want,
      exec step (initial catalog maxPeers maxConnections stagingMemLimit) events = some s →
      s.session.worker = .idle → s.resume = none → s.queue = [] → s.intent id = some want →
      s.isHot id = want := by
  intro always
  have restarted := always oneTorrent 50 200 0 stoppedMeanwhile _ 1 false
    (Option.some_get (by decide +kernel)).symm (by decide +kernel) (by decide +kernel) (by decide +kernel)
    (by decide +kernel)
  revert restarted
  decide +kernel

end Seedchamp.Control.RecheckIntent
