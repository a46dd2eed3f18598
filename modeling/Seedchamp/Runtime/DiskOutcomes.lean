import Seedchamp.Runtime.DiskBooks
import Seedchamp.Runtime.DiskProgress

/-!
Every job that a hash worker has handed over gets one outcome, or is still with a disk thread that
will give it one.
-/

namespace Seedchamp.Runtime.DiskOutcomes
open Runtime.DiskJobs
open Runtime.DiskThreads hiding Config
open Runtime.DiskWorker Disk.Spans Runtime.DiskSafety Runtime.DiskProgress Runtime.DiskBooks
open Foundation.Custody Foundation.TransitionSystem Foundation.Tasks

/-- The condition under which a step loses no job. -/
def careful (s : World) : Event → Bool
  | .thread w event =>
    (s.workers[w]?).all (fun worker => lossless worker.channel worker.thread event)
  | _ => true

theorem held_of_busy (task : Task) (busy : ∀ accepted, task.phase ≠ .returned accepted) :
    task.held = [task.job] := by
  rw [Task.held]
  split
  · rename_i accepted here
    exact absurd here (busy accepted)
  · rfl

/-! ### The books after every step -/

theorem books_send (cfg : Config) (s s' : World) (books : Books s) (t w : Nat) (task : Task)
    (dead : Submit) (running : s.tasks[t]? = some task) (busy : task.held = [task.job])
    (still : Task.held { task with phase := dead } = [task.job])
    (taken : s.send cfg t task w dead = some s') : Books s' := by
  rw [World.send] at taken
  split at taken
  · cases taken
  · rename_i worker found
    split at taken
    · cases taken
      exact books_moved s _ books t task dead running (still.trans busy.symm) rfl rfl rfl rfl
    · split at taken
      · cases taken
        exact books_sent s _ books t w task worker running busy found rfl rfl rfl rfl
      · cases taken

theorem books_submit (cfg : Config) (s s' : World) (books : Books s) (t : Nat) (task : Task)
    (native thread : Bool) (running : s.tasks[t]? = some task)
    (taken : s.submit cfg t task native thread = some s') : Books s' := by
  have on : ∀ (after : World) (phase : Submit), (∀ accepted, phase ≠ .returned accepted) →
      task.held = [task.job] → after.tasks = s.tasks.set t { task with phase := phase } →
      after.workers = s.workers → after.delivered = s.delivered → after.lost = s.lost →
      Books after := by
    intro after phase open_ busy tasks workers told lost
    have still := held_of_busy { task with phase := phase } open_
    exact books_moved s after books t task phase running (still.trans busy.symm) tasks workers told lost
  rw [World.submit] at taken
  cases here : task.phase with
  | permanentCheck =>
    have busy := held_of_busy task (by rw [here]; exact nofun)
    simp only [here, Option.some_inj] at taken
    rw [← taken]
    split_ifs
    · exact on _ (.refused .diskWorkerPermanent) nofun busy rfl rfl rfl rfl
    · exact on _ .cloneBackend nofun busy rfl rfl rfl rfl
  | cloneBackend =>
    have busy := held_of_busy task (by rw [here]; exact nofun)
    simp only [here, Option.some_inj] at taken
    rw [← taken]
    exact on _ (.send s.backend) nofun busy rfl rfl rfl rfl
  | send backend =>
    have busy := held_of_busy task (by rw [here]; exact nofun)
    simp only [here] at taken
    exact books_send cfg s s' books t backend task _ running busy rfl taken
  | tryRestart backend now =>
    have busy := held_of_busy task (by rw [here]; exact nofun)
    simp only [here, Option.some_inj, World.tryRestart] at taken
    rw [← taken]
    split_ifs
    · exact on _ (.permanentQuery backend) nofun busy rfl rfl rfl rfl
    · exact on _ (.permanentQuery backend) nofun busy rfl rfl rfl rfl
    · exact on _ (.permanentQuery backend) nofun busy rfl rfl rfl rfl
    · exact on _ (.spawn backend) nofun busy rfl rfl rfl rfl
  | spawn backend =>
    have busy := held_of_busy task (by rw [here]; exact nofun)
    simp only [here, Option.some_inj, World.spawn] at taken
    rw [← taken]
    split
    · rename_i kind _
      exact books_spawned s _ books t task (.install backend s.workers.length) kind running
        busy.symm rfl rfl rfl rfl
    · exact on _ (.permanentQuery backend) nofun busy rfl rfl rfl rfl
  | install backend fresh =>
    have busy := held_of_busy task (by rw [here]; exact nofun)
    simp only [here, Option.some_inj, World.install] at taken
    rw [← taken]
    split_ifs
    · exact on _ (.permanentQuery backend) nofun busy rfl rfl rfl rfl
    · exact on _ (.cloneAgain backend) nofun busy rfl rfl rfl rfl
  | cloneAgain backend =>
    have busy := held_of_busy task (by rw [here]; exact nofun)
    simp only [here, Option.some_inj] at taken
    rw [← taken]
    exact on _ (.sendAgain backend s.backend) nofun busy rfl rfl rfl rfl
  | sendAgain backend again =>
    have busy := held_of_busy task (by rw [here]; exact nofun)
    simp only [here] at taken
    exact books_send cfg s s' books t again task _ running busy rfl taken
  | permanentQuery backend =>
    have busy := held_of_busy task (by rw [here]; exact nofun)
    simp only [here, Option.some_inj] at taken
    rw [← taken]
    exact on _ (.refused _) nofun busy rfl rfl rfl rfl
  | refused error =>
    have busy := held_of_busy task (by rw [here]; exact nofun)
    simp only [here, Option.some_inj] at taken
    rw [← taken]
    exact books_refused s _ books t task _ running busy rfl rfl rfl rfl rfl
  | returned accepted =>
    simp only [here] at taken
    cases taken

theorem books_step (cfg : Config) (s : World) (event : Event) (s' : World) (books : Books s)
    (taken : step cfg s event = some s') : Books s' := by
  cases event with
  | verify index plen data layout same =>
    simp only [step] at taken
    split_ifs at taken
    cases taken
    rw [World.verify]
    split_ifs
    · exact books_verify s _ books ⟨⟨index, plen, data, layout, s.tasks.length⟩, .returned false⟩ _
        rfl (fun item => by simp [Task.held, Delivery.hashFail]) rfl rfl rfl rfl
    · exact books_verify s _ books ⟨⟨index, plen, data, layout, s.tasks.length⟩, .returned false⟩ _
        rfl (fun item => by simp [Task.held, Delivery.ok]) rfl rfl rfl rfl
    · exact books_verify s _ books ⟨⟨index, plen, data, layout, s.tasks.length⟩, .permanentCheck⟩ []
        rfl (fun item => by simp [Task.held]) rfl rfl (List.append_nil _).symm rfl
  | submit t native thread =>
    obtain ⟨task, running, stepped⟩ := Option.bind_eq_some_iff.1 taken
    exact books_submit cfg s s' books t task native thread running stepped
  | thread w event =>
    obtain ⟨worker, found, stepped⟩ := Option.bind_eq_some_iff.1 taken
    exact books_turn cfg s s' books w worker event found stepped
  | tick millis =>
    cases taken
    exact ⟨books.balance, books.numbered, books.exclusive⟩
  | shutdown =>
    simp only [step] at taken
    split_ifs at taken
    cases taken
    exact ⟨books.balance, books.numbered, books.exclusive⟩

theorem books_initial (kind : DiskBackendKind) : Books (initial kind) where
  balance := by
    intro item
    simp [initial, World.held, answered, jobs, spawn_held]
  numbered := rfl
  exclusive := by
    intro worker member
    rw [List.mem_singleton.1 member]
    exact spawn_exclusive kind

/-! ### What an outcome is about -/

theorem job_of_reply (s : World) (books : Books s) (t : Nat) (task : Task)
    (running : s.tasks[t]? = some task) : task.job.reply = t := by
  have inside := (List.getElem?_eq_some_iff.1 running).1
  have numbered := congrArg (fun replies => replies[t]?) books.numbered
  simp only [jobs, List.getElem?_map, running, Option.map_some, List.getElem?_range inside,
    Option.some_inj] at numbered
  exact numbered

/-- The replies tell the jobs apart. -/
theorem job_unique (s : World) (books : Books s) (first second : DiskWriteJob) (one : first ∈ jobs s)
    (two : second ∈ jobs s) (same : first.reply = second.reply) : first = second := by
  have separate : ((jobs s).map DiskWriteJob.reply).Nodup := by
    rw [books.numbered]
    exact List.nodup_range
  exact List.inj_on_of_nodup_map separate one two same

theorem count_job (s : World) (books : Books s) (t : Nat) (task : Task)
    (running : s.tasks[t]? = some task) : (jobs s).count task.job = 1 := by
  have separate : ((jobs s).map DiskWriteJob.reply).Nodup := by
    rw [books.numbered]
    exact List.nodup_range
  exact List.count_eq_one_of_mem separate.of_map
    (List.mem_map_of_mem (mem_of_getElem? s.tasks t task running))

/-- The outcomes of a hand-over are the deliveries of its job. -/
theorem outcomes_length (s : World) (books : Books s) (t : Nat) (task : Task)
    (running : s.tasks[t]? = some task) : (outcomes s t).length = (answered s).count task.job := by
  have number := job_of_reply s books t task running
  have member : task.job ∈ jobs s := List.mem_map_of_mem (mem_of_getElem? s.tasks t task running)
  rw [outcomes, List.length_map, ← List.countP_eq_length_filter, answered, List.count, List.countP_map]
  apply List.countP_congr
  intro d told
  have known := books.balance.answered_mem _ _ _ _ d.job (List.mem_map_of_mem told)
  rw [decide_eq_true_eq, Function.comp, beq_iff_eq]
  constructor
  · intro same
    exact job_unique s books d.job task.job known member (same.trans number.symm)
  · intro same
    rw [same, number]

theorem outcome_about (s : World) (books : Books s) (t : Nat) (task : Task)
    (running : s.tasks[t]? = some task) (outcome : HashOutcome) (told : outcome ∈ outcomes s t) :
    outcome.piece = (task.job.index, task.job.plen, task.job.data) := by
  obtain ⟨d, listed, same⟩ := List.mem_map.1 told
  obtain ⟨member, number⟩ := List.mem_filter.1 listed
  rw [decide_eq_true_eq] at number
  have known := books.balance.answered_mem _ _ _ _ d.job (List.mem_map_of_mem member)
  have here : task.job ∈ jobs s := List.mem_map_of_mem (mem_of_getElem? s.tasks t task running)
  have job := job_unique s books d.job task.job known here
    (number.trans (job_of_reply s books t task running).symm)
  rw [← same, d.about, job]

/-! ### Order among the threads -/

structure Order (s : World) : Prop where
  sound : ∀ w worker, s.workers[w]? = some worker →
    ThreadSound (s.connected w) worker.channel worker.thread
  closing : s.alive = false → ∀ task ∈ s.tasks, task.held = []
  kept : s.lost = []

theorem connected_of_holds (s : World) (t w : Nat) (task : Task) (running : s.tasks[t]? = some task)
    (holds : w ∈ task.phase.holds) : s.connected w = true := by
  rw [World.connected, Bool.or_eq_true]
  refine Or.inr (List.any_eq_true.2 ⟨task, mem_of_getElem? s.tasks t task running, ?_⟩)
  exact decide_eq_true holds

theorem connected_backend (s : World) (alive : s.alive = true) : s.connected s.backend = true := by
  rw [World.connected, alive, decide_eq_true rfl]
  rfl

/-- A handle that a world has after one task has moved was there before, or is the new one. -/
theorem connected_moved (s s' : World) (t w : Nat) (task : Task) (phase : Submit)
    (tasks : s'.tasks = s.tasks.set t { task with phase := phase }) (alive : s'.alive = s.alive)
    (backend : s'.backend = s.backend ∨ s.connected s'.backend = true)
    (holds : w ∈ phase.holds → s.connected w = true) (connected : s'.connected w = true) :
    s.connected w = true := by
  rw [World.connected, Bool.or_eq_true, Bool.and_eq_true, decide_eq_true_eq] at connected
  rcases connected with ⟨living, here⟩ | held
  · rcases backend with same | known
    · rw [← here, same]
      exact connected_backend s (alive.symm.trans living)
    · rw [← here]
      exact known
  · rw [tasks] at held
    obtain ⟨other, member, holding⟩ := List.any_eq_true.1 held
    rw [decide_eq_true_eq] at holding
    rcases mem_set_cases s.tasks t _ other member with moved | ⟨j, _, at_⟩
    · rw [moved] at holding
      exact holds holding
    · exact connected_of_holds s j w other at_ holding

theorem alive_of_busy (s : World) (order : Order s) (t : Nat) (task : Task)
    (running : s.tasks[t]? = some task) (busy : task.held = [task.job]) : s.alive = true := by
  cases living : s.alive with
  | true => rfl
  | false =>
    have idle := order.closing living task (mem_of_getElem? s.tasks t task running)
    rw [busy] at idle
    cases idle

theorem order_moved (s s' : World) (order : Order s) (t : Nat) (task : Task) (phase : Submit)
    (running : s.tasks[t]? = some task) (busy : task.held = [task.job])
    (tasks : s'.tasks = s.tasks.set t { task with phase := phase }) (workers : s'.workers = s.workers)
    (alive : s'.alive = s.alive) (lost : s'.lost = s.lost)
    (backend : s'.backend = s.backend ∨ s.connected s'.backend = true)
    (holds : ∀ w ∈ phase.holds, s.connected w = true) : Order s' where
  sound := by
    intro w worker found
    rw [workers] at found
    exact thread_disconnect _ _ worker.thread worker.channel (order.sound w worker found)
      (connected_moved s s' t w task phase tasks alive backend (holds w))
  closing := by
    intro shut
    have living := alive_of_busy s order t task running busy
    rw [alive, living] at shut
    cases shut
  kept := lost.trans order.kept

theorem order_sent (s s' : World) (order : Order s) (t w : Nat) (task : Task) (worker : Worker)
    (running : s.tasks[t]? = some task) (busy : task.held = [task.job])
    (holds : w ∈ task.phase.holds) (found : s.workers[w]? = some worker)
    (receiver : worker.channel.receiver = true)
    (tasks : s'.tasks = s.tasks.set t { task with phase := .returned true })
    (workers : s'.workers = s.workers.set w (Worker.push worker task.job))
    (alive : s'.alive = s.alive) (backend : s'.backend = s.backend) (lost : s'.lost = s.lost) :
    Order s' where
  sound := by
    intro v other at_
    rw [workers, List.getElem?_set] at at_
    split_ifs at at_ with here
    · cases at_
      have before := order.sound w worker found
      rw [connected_of_holds s t w task running holds] at before
      exact thread_disconnect true _ worker.thread _
        (thread_push worker.thread worker.channel task.job before receiver) (fun _ => rfl)
    · exact thread_disconnect _ _ other.thread other.channel (order.sound v other at_)
        (connected_moved s s' t v task (.returned true) tasks alive (Or.inl backend) nofun)
  closing := by
    intro shut
    have living := alive_of_busy s order t task running busy
    rw [alive, living] at shut
    cases shut
  kept := lost.trans order.kept

theorem spawn_sound (connected : Bool) (kind : DiskBackendKind) :
    ThreadSound connected (Worker.spawn kind).channel (Worker.spawn kind).thread := by
  cases kind with
  | thread => exact .receiving rfl rfl rfl
  | uring =>
    refine ⟨?_, ?_⟩
    · exact ⟨fun _ => rfl, fun _ => rfl, nofun, nofun, ⟨nofun, nofun⟩, nofun, nofun⟩
    · exact ⟨nofun, nofun, nofun, by decide⟩
  | aio =>
    refine ⟨?_, nofun, nofun⟩
    exact ⟨fun _ => rfl, fun _ => rfl, nofun, nofun, ⟨nofun, nofun⟩, nofun, nofun⟩

/-- A backend is spawned; only the hash worker that spawned it has a handle. -/
theorem order_spawned (s s' : World) (order : Order s) (t backend : Nat) (task : Task)
    (kind : DiskBackendKind) (running : s.tasks[t]? = some task) (busy : task.held = [task.job])
    (holds : backend ∈ task.phase.holds)
    (tasks : s'.tasks = s.tasks.set t { task with phase := .install backend s.workers.length })
    (workers : s'.workers = s.workers ++ [Worker.spawn kind]) (alive : s'.alive = s.alive)
    (same : s'.backend = s.backend) (lost : s'.lost = s.lost) : Order s' where
  sound := by
    intro v other at_
    rw [workers, List.getElem?_append] at at_
    split_ifs at at_ with old
    · refine thread_disconnect _ _ other.thread other.channel (order.sound v other at_) ?_
      refine connected_moved s s' t v task _ tasks alive (Or.inl same) ?_
      intro holding
      rcases List.mem_cons.1 holding with here | fresh
      · rw [here]
        exact connected_of_holds s t backend task running holds
      · rw [List.mem_singleton.1 fresh] at old
        exact absurd old (lt_irrefl _)
    · rw [List.mem_singleton.1 (List.mem_of_getElem? at_)]
      exact spawn_sound _ kind
  closing := by
    intro shut
    have living := alive_of_busy s order t task running busy
    rw [alive, living] at shut
    cases shut
  kept := lost.trans order.kept

theorem order_send (cfg : Config) (s s' : World) (order : Order s) (t w : Nat) (task : Task)
    (dead : Submit) (running : s.tasks[t]? = some task) (busy : task.held = [task.job])
    (holds : w ∈ task.phase.holds) (known : ∀ v ∈ dead.holds, v ∈ task.phase.holds)
    (taken : s.send cfg t task w dead = some s') : Order s' := by
  rw [World.send] at taken
  split at taken
  · cases taken
  · rename_i worker found
    split at taken
    · cases taken
      exact order_moved s _ order t task dead running busy rfl rfl rfl rfl (Or.inl rfl)
        (fun v holding => connected_of_holds s t v task running (known v holding))
    · rename_i receiving
      rw [Bool.not_eq_true', Bool.not_eq_false] at receiving
      split at taken
      · cases taken
        exact order_sent s _ order t w task worker running busy holds found receiving rfl rfl rfl rfl rfl
      · cases taken

theorem order_submit (cfg : Config) (s s' : World) (order : Order s) (t : Nat) (task : Task)
    (native thread : Bool) (running : s.tasks[t]? = some task)
    (taken : s.submit cfg t task native thread = some s') : Order s' := by
  have on : ∀ (after : World) (phase : Submit), task.held = [task.job] →
      after.tasks = s.tasks.set t { task with phase := phase } → after.workers = s.workers →
      after.alive = s.alive → after.lost = s.lost → after.backend = s.backend →
      (∀ w ∈ phase.holds, w ∈ task.phase.holds) → Order after := by
    intro after phase busy tasks workers alive lost backend known
    exact order_moved s after order t task phase running busy tasks workers alive lost
      (Or.inl backend) (fun v holding => connected_of_holds s t v task running (known v holding))
  rw [World.submit] at taken
  cases here : task.phase with
  | permanentCheck =>
    have busy := held_of_busy task (by rw [here]; exact nofun)
    simp only [here, Option.some_inj] at taken
    rw [← taken]
    split_ifs
    · exact on _ (.refused .diskWorkerPermanent) busy rfl rfl rfl rfl rfl nofun
    · exact on _ .cloneBackend busy rfl rfl rfl rfl rfl nofun
  | cloneBackend =>
    have busy := held_of_busy task (by rw [here]; exact nofun)
    have living := alive_of_busy s order t task running busy
    simp only [here, Option.some_inj] at taken
    rw [← taken]
    refine order_moved s _ order t task (.send s.backend) running busy rfl rfl rfl rfl (Or.inl rfl) ?_
    intro w holding
    rw [List.mem_singleton.1 holding]
    exact connected_backend s living
  | send backend =>
    have busy := held_of_busy task (by rw [here]; exact nofun)
    simp only [here] at taken
    exact order_send cfg s s' order t backend task _ running busy
      (by rw [here]; exact List.mem_singleton.2 rfl) (by rw [here]; exact fun v holding => holding) taken
  | tryRestart backend now =>
    have busy := held_of_busy task (by rw [here]; exact nofun)
    simp only [here, Option.some_inj, World.tryRestart] at taken
    rw [← taken]
    have known : ∀ v ∈ [backend], v ∈ task.phase.holds := by
      rw [here]
      exact fun v holding => holding
    split_ifs
    · exact on _ (.permanentQuery backend) busy rfl rfl rfl rfl rfl known
    · exact on _ (.permanentQuery backend) busy rfl rfl rfl rfl rfl known
    · exact on _ (.permanentQuery backend) busy rfl rfl rfl rfl rfl known
    · exact on _ (.spawn backend) busy rfl rfl rfl rfl rfl known
  | spawn backend =>
    have busy := held_of_busy task (by rw [here]; exact nofun)
    have known : ∀ v ∈ [backend], v ∈ task.phase.holds := by
      rw [here]
      exact fun v holding => holding
    simp only [here, Option.some_inj, World.spawn] at taken
    rw [← taken]
    split
    · rename_i kind _
      exact order_spawned s _ order t backend task kind running busy
        (known backend (List.mem_singleton.2 rfl)) rfl rfl rfl rfl rfl
    · exact on _ (.permanentQuery backend) busy rfl rfl rfl rfl rfl known
  | install backend fresh =>
    have busy := held_of_busy task (by rw [here]; exact nofun)
    have known : ∀ v ∈ [backend], v ∈ task.phase.holds := by
      rw [here]
      exact fun v holding => List.mem_cons.2 (Or.inl (List.mem_singleton.1 holding))
    simp only [here, Option.some_inj, World.install] at taken
    rw [← taken]
    split_ifs
    · exact on _ (.permanentQuery backend) busy rfl rfl rfl rfl rfl known
    · have new : s.connected fresh = true := connected_of_holds s t fresh task running
        (by rw [here]; exact List.mem_cons_of_mem _ (List.mem_singleton.2 rfl))
      exact order_moved s _ order t task (.cloneAgain backend) running busy rfl rfl rfl rfl
        (Or.inr new) (fun v holding => connected_of_holds s t v task running (known v holding))
  | cloneAgain backend =>
    have busy := held_of_busy task (by rw [here]; exact nofun)
    have living := alive_of_busy s order t task running busy
    simp only [here, Option.some_inj] at taken
    rw [← taken]
    refine order_moved s _ order t task (.sendAgain backend s.backend) running busy rfl rfl rfl rfl
      (Or.inl rfl) ?_
    intro w holding
    rcases List.mem_cons.1 holding with first | second
    · exact connected_of_holds s t w task running (by rw [here, first]; exact List.mem_singleton.2 rfl)
    · rw [List.mem_singleton.1 second]
      exact connected_backend s living
  | sendAgain backend again =>
    have busy := held_of_busy task (by rw [here]; exact nofun)
    simp only [here] at taken
    exact order_send cfg s s' order t again task (.refused .diskWorkerStopped) running busy
      (by rw [here]; exact List.mem_cons_of_mem _ (List.mem_singleton.2 rfl)) nofun taken
  | permanentQuery backend =>
    have busy := held_of_busy task (by rw [here]; exact nofun)
    simp only [here, Option.some_inj] at taken
    rw [← taken]
    exact on _ (.refused _) busy rfl rfl rfl rfl rfl nofun
  | refused error =>
    have busy := held_of_busy task (by rw [here]; exact nofun)
    simp only [here, Option.some_inj] at taken
    rw [← taken]
    exact on _ (.returned false) busy rfl rfl rfl rfl rfl nofun
  | returned accepted =>
    simp only [here] at taken
    cases taken

theorem order_turn (cfg : Config) (s s' : World) (order : Order s) (w : Nat) (worker : Worker)
    (event : ThreadEvent) (found : s.workers[w]? = some worker)
    (lossless : DiskSafety.lossless worker.channel worker.thread event = true)
    (taken : s.turn cfg w worker event = some s') : Order s' := by
  obtain ⟨turn, stepped, same⟩ := Option.map_eq_some_iff.1 taken
  have after := thread_sound cfg.disk (s.connected w) worker.thread worker.channel event turn
    (order.sound w worker found) lossless stepped
  rw [← same]
  exact
    { sound := by
        intro v other at_
        dsimp only at at_
        rw [List.getElem?_set] at at_
        split_ifs at at_ with here
        · cases at_
          rw [← here]
          exact after.1
        · exact order.sound v other at_
      closing := order.closing
      kept := by
        dsimp only
        rw [order.kept, after.2]
        rfl }

theorem order_step (cfg : Config) (s : World) (event : Event) (s' : World) (order : Order s)
    (careful : DiskOutcomes.careful s event = true) (taken : step cfg s event = some s') : Order s' := by
  cases event with
  | verify index plen data layout same =>
    simp only [step] at taken
    split_ifs at taken with living
    cases taken
    have joined : ∀ (fresh : Task) (replies : List Delivery), fresh.phase.holds = [] →
        Order { s with tasks := s.tasks ++ [fresh], delivered := s.delivered ++ replies } := by
      intro fresh replies free
      refine ⟨?_, fun shut => absurd (living.symm.trans shut) (by decide), order.kept⟩
      intro w worker found
      refine thread_disconnect _ _ worker.thread worker.channel (order.sound w worker found) ?_
      intro connected
      rw [World.connected, List.any_append, List.any_cons, List.any_nil, free] at connected
      simpa [World.connected] using connected
    rw [World.verify]
    split_ifs
    · exact joined _ _ rfl
    · exact joined _ _ rfl
    · have quiet := joined ⟨⟨index, plen, data, layout, s.tasks.length⟩, .permanentCheck⟩ [] rfl
      rw [List.append_nil] at quiet
      exact quiet
  | submit t native thread =>
    obtain ⟨task, running, stepped⟩ := Option.bind_eq_some_iff.1 taken
    exact order_submit cfg s s' order t task native thread running stepped
  | thread w event =>
    obtain ⟨worker, found, stepped⟩ := Option.bind_eq_some_iff.1 taken
    rw [DiskOutcomes.careful, found] at careful
    exact order_turn cfg s s' order w worker event found careful stepped
  | tick millis =>
    cases taken
    exact ⟨order.sound, order.closing, order.kept⟩
  | shutdown =>
    simp only [step] at taken
    split_ifs at taken with idle
    cases taken
    refine ⟨?_, ?_, order.kept⟩
    · intro w worker found
      refine thread_disconnect _ _ worker.thread worker.channel (order.sound w worker found) ?_
      intro connected
      rw [World.connected, Bool.or_eq_true] at connected ⊢
      rcases connected with closed | holding
      · cases closed
      · exact Or.inr holding
    · intro _ task member
      exact List.isEmpty_iff.1 (List.all_eq_true.1 idle task member)

theorem order_initial (kind : DiskBackendKind) : Order (initial kind) where
  sound := by
    intro w worker found
    rw [List.mem_singleton.1 (List.mem_of_getElem? found)]
    exact spawn_sound _ kind
  closing := nofun
  kept := rfl

/-! ### Rest -/

/-- What disk threads and kernels do on their own, an interrupted wait apart. -/
def background : Event → Bool
  | .thread _ event => progresses event
  | _ => false

def work (s : World) : Nat :=
  (s.workers.map (fun worker => threadWork worker.channel worker.thread)).sum

/-- Nothing is to be expected of any disk thread before another job comes. -/
def Quiet (cfg : Config) (s : World) : Prop :=
  ∀ w worker, s.workers[w]? = some worker →
    AtRest cfg.disk (s.connected w) worker.channel worker.thread

theorem background_work (cfg : Config) (s : World) (event : Event) (s' : World) (order : Order s)
    (going : background event = true) (taken : step cfg s event = some s') : work s' < work s := by
  cases event with
  | thread w event =>
    obtain ⟨worker, found, stepped⟩ := Option.bind_eq_some_iff.1 taken
    obtain ⟨turn, turned, same⟩ := Option.map_eq_some_iff.1 stepped
    have less := thread_work cfg.disk (s.connected w) worker.thread worker.channel event turn
      (order.sound w worker found) going turned
    have moved := sum_map_set s.workers (fun worker => threadWork worker.channel worker.thread) w
      worker ⟨turn.channel, turn.state⟩ found
    dsimp only at moved
    rw [← same]
    simp only [work]
    omega
  | _ => cases going

/-- Left to themselves, the disk threads come to rest. -/
theorem background_bounded (cfg : Config) (s s' : World) (events : List Event) (order : Order s)
    (guarded : Guarded (step cfg) (fun s event => careful s event = true) s events)
    (going : ∀ event ∈ events, background event = true) (ran : exec (step cfg) s events = some s') :
    events.length + work s' ≤ work s := by
  induction events generalizing s with
  | nil =>
    cases ran
    exact Nat.le_of_eq (Nat.zero_add _)
  | cons event rest ih =>
    obtain ⟨next, taken, later⟩ := (exec_cons (step cfg) s s' event rest).1 ran
    have less := background_work cfg s event next order (going event List.mem_cons_self) taken
    have bound := ih next (order_step cfg s event next order guarded.1 taken) (guarded.2 next taken)
      (fun other member => going other (List.mem_cons_of_mem _ member)) later
    rw [List.length_cons]
    omega

theorem quiet_held (cfg : Config) (s : World) (order : Order s) (quiet : Quiet cfg s) :
    ∀ worker ∈ s.workers, worker.held = [] := by
  intro worker member
  obtain ⟨w, found⟩ := List.mem_iff_getElem?.1 member
  have empty := thread_rest cfg.disk (s.connected w) worker.channel worker.thread
    (order.sound w worker found) (quiet w worker found)
  rw [Worker.held, empty.1, empty.2]
  rfl

/-! ### One outcome for every accepted job -/

/-- Every accepted job has its one outcome, or has none yet and is with a disk thread. -/
def Answered (s : World) : Prop :=
  ∀ t task, s.tasks[t]? = some task → task.phase = .returned true →
    (∃ outcome, outcomes s t = [outcome] ∧
      outcome.piece = (task.job.index, task.job.plen, task.job.data)) ∨
    (outcomes s t = [] ∧ ∃ worker ∈ s.workers, task.job ∈ worker.held)

/-- A hash worker that has passed its job on does not hold it, and no other one does. -/
theorem not_held_by_task (s : World) (books : Books s) (t : Nat) (task : Task)
    (running : s.tasks[t]? = some task) (returned : task.phase = .returned true) :
    task.job ∉ s.tasks.flatMap Task.held := by
  intro listed
  obtain ⟨other, member, holding⟩ := List.mem_flatMap.1 listed
  obtain ⟨j, at_⟩ := List.mem_iff_getElem?.1 member
  have own : other.held ≠ [] := List.ne_nil_of_mem holding
  have same : task.job = other.job := by
    rw [Task.held] at holding
    split at holding
    · cases holding
    · exact List.mem_singleton.1 holding
  have here : t = j := by
    rw [← job_of_reply s books t task running, same, job_of_reply s books j other at_]
  rw [here, at_] at running
  cases running
  rw [Task.held, returned] at own
  exact own rfl

theorem answered_of_inv (s : World) (books : Books s) (order : Order s) : Answered s := by
  intro t task running returned
  have account := books.balance task.job
  rw [count_job s books t task running, order.kept, List.count_nil, World.held, List.count_append,
    List.count_eq_zero_of_not_mem (not_held_by_task s books t task running returned)] at account
  have length := outcomes_length s books t task running
  by_cases told : (answered s).count task.job = 1
  · rw [told] at length
    obtain ⟨outcome, single⟩ := List.length_eq_one_iff.1 length
    refine Or.inl ⟨outcome, single, outcome_about s books t task running outcome ?_⟩
    rw [single]
    exact List.mem_singleton.2 rfl
  · have held : 0 < (s.workers.flatMap Worker.held).count task.job := by omega
    obtain ⟨worker, member, holding⟩ := List.mem_flatMap.1 (List.count_pos_iff.1 held)
    exact Or.inr ⟨List.eq_nil_of_length_eq_zero (by omega), worker, member, holding⟩

/-- In every run that loses no job, an accepted job has exactly one outcome, about its piece, as soon
as the disk threads are at rest; and they come to rest, whatever they and the kernel do. -/
theorem accepted_jobs_answered (cfg : Config) (kind : DiskBackendKind) (events : List Event) (s : World)
    (guarded : Guarded (step cfg) (fun s event => careful s event = true) (initial kind) events)
    (ran : exec (step cfg) (initial kind) events = some s) :
    Answered s ∧ (Quiet cfg s → ∀ worker ∈ s.workers, worker.held = []) ∧
      ∀ (later : List Event) (s' : World),
        Guarded (step cfg) (fun s event => careful s event = true) s later →
        (∀ event ∈ later, background event = true) → exec (step cfg) s later = some s' →
        later.length ≤ work s := by
  have books := exec_invariant_free (step cfg) Books (fun s event s' => books_step cfg s event s')
    (initial kind) s events (books_initial kind) ran
  have order := exec_invariant (step cfg) (fun s event => careful s event = true) Order
    (fun s event s' => order_step cfg s event s') (initial kind) s events (order_initial kind) guarded ran
  refine ⟨answered_of_inv s books order, quiet_held cfg s order, ?_⟩
  intro later s' cautious going moved
  have bound := background_bounded cfg s s' later order cautious going moved
  omega

/-! ### Two runs of the io_uring backend -/

def smallest : Config := ⟨.auto, .linux, ⟨1, false⟩⟩

def willing : StartEnv := ⟨true, fun _ _ => .pushed, true, true⟩

/-- A hash worker finds a piece right and hands it to the backend. -/
def handOver (t : Nat) (byte : UInt8) : List Event :=
  [.verify t 1 [byte] (bytePieces 2) true, .submit t true true, .submit t true true, .submit t true true]

/-- The disk thread takes a job, starts the piece and waits. -/
def startOne : List Event :=
  [.thread 0 .tryRecv, .thread 0 .tryRecv, .thread 0 (.startNext willing),
    .thread 0 (.startNext willing)]

def written : List Event :=
  [.thread 0 (.setUp true)] ++ handOver 0 7 ++ startOne ++
    [.thread 0 (.uringDone 0 1), .thread 0 (.wait .completed)]

theorem accepted_jobs_answered_written :
    (outcomes ((exec (step smallest) (initial .uring) written).getD (initial .uring)) 0 =
        [.ok 0 1 [7]]) ∧
      Answered ((exec (step smallest) (initial .uring) written).getD (initial .uring)) :=
  ⟨by decide +kernel,
    (accepted_jobs_answered smallest .uring written _
      (guarded_of_guardedB (step smallest) careful (initial .uring) written (by decide +kernel))
      (Option.some_get (by decide +kernel)).symm).1⟩

/-- The fatal path finds the channel empty, a second job is accepted, and the receiver is dropped. -/
def droppedAfterDrain : List Event :=
  [.thread 0 (.setUp true)] ++ handOver 0 7 ++ startOne ++
    [.thread 0 (.wait .failed), .thread 0 (.uringDone 0 1), .thread 0 (.wait .completed),
      .thread 0 .leaveDrain, .thread 0 .failWaiting, .thread 0 .tryRecv] ++
    handOver 1 8 ++ [.thread 0 .dropReceiver]

theorem accepted_job_unanswered :
    ¬∀ (cfg : Config) (kind : DiskBackendKind) (events : List Event) (s : World),
      exec (step cfg) (initial kind) events = some s → Answered s := by
  intro always
  have claim := always smallest .uring droppedAfterDrain _ (Option.some_get (by decide +kernel)).symm
    1 ⟨⟨1, 1, [8], bytePieces 2, 1⟩, .returned true⟩ (by decide +kernel) rfl
  rcases claim with ⟨outcome, single, _⟩ | ⟨_, worker, member, holding⟩
  · have none : outcomes ((exec (step smallest) (initial .uring) droppedAfterDrain).get
        (by decide +kernel)) 1 = [] := by decide +kernel
    rw [none] at single
    cases single
  · have empty : ((exec (step smallest) (initial .uring) droppedAfterDrain).get
        (by decide +kernel)).workers.all (fun worker => worker.held.isEmpty) = true := by
      decide +kernel
    have free := List.all_eq_true.1 empty worker member
    rw [List.isEmpty_iff.1 free] at holding
    cases holding

end Seedchamp.Runtime.DiskOutcomes
