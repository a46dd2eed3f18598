import Seedchamp.Runtime.DiskWorker
import Seedchamp.Runtime.DiskCustody
import Seedchamp.Foundation.Tasks

/-!
The books of the disk worker: every job of a hash worker is held somewhere, has been answered, or was
lost, and it is only one of these, once.
-/

namespace Seedchamp.Runtime.DiskBooks
open Runtime.DiskJobs
open Runtime.DiskThreads hiding Config
open Runtime.DiskWorker Runtime.DiskCustody Foundation.Custody Foundation.Tasks

/-- The jobs of all hand-overs. -/
def jobs (s : World) : List DiskWriteJob := s.tasks.map Task.job

def answered (s : World) : List DiskWriteJob := s.delivered.map Delivery.job

def outcomes (s : World) (t : Nat) : List HashOutcome :=
  (s.delivered.filter (fun d => decide (d.job.reply = t))).map Delivery.outcome

structure Books (s : World) : Prop where
  balance : Balanced (jobs s) s.held (answered s) s.lost
  numbered : (jobs s).map DiskWriteJob.reply = List.range s.tasks.length
  exclusive : ∀ worker ∈ s.workers, Exclusive worker.thread

theorem jobs_set (s : World) (t : Nat) (task : Task) (phase : Submit)
    (running : s.tasks[t]? = some task) :
    (s.tasks.set t { task with phase := phase }).map Task.job = jobs s := by
  rw [jobs, List.map_set]
  apply List.ext_getElem?
  intro j
  by_cases here : t = j
  · obtain ⟨inside, value⟩ := List.getElem?_eq_some_iff.1 running
    rw [← here, List.getElem?_set_self (by rwa [List.length_map]), List.getElem?_map, running]
    rfl
  · rw [List.getElem?_set_ne here]

theorem count_moved (s : World) (t : Nat) (task : Task) (phase : Submit)
    (running : s.tasks[t]? = some task) (item : DiskWriteJob) :
    ((s.tasks.set t { task with phase := phase }).flatMap Task.held).count item +
        task.held.count item =
      (s.tasks.flatMap Task.held).count item +
        (Task.held { task with phase := phase }).count item :=
  count_flatMap_set s.tasks Task.held t task { task with phase := phase } running item

/-- A hash worker that goes on without passing its job on. -/
theorem books_moved (s s' : World) (books : Books s) (t : Nat) (task : Task) (phase : Submit)
    (running : s.tasks[t]? = some task)
    (still : Task.held { task with phase := phase } = task.held)
    (tasks : s'.tasks = s.tasks.set t { task with phase := phase }) (workers : s'.workers = s.workers)
    (told : s'.delivered = s.delivered) (lost : s'.lost = s.lost) : Books s' where
  balance := by
    intro item
    have account := books.balance item
    have moved := count_moved s t task phase running item
    rw [still] at moved
    rw [World.held, answered, jobs, tasks, workers, told, lost, jobs_set s t task phase running,
      List.count_append]
    rw [World.held, answered, List.count_append] at account
    omega
  numbered := by
    rw [jobs, tasks, jobs_set s t task phase running, List.length_set]
    exact books.numbered
  exclusive := by
    rw [workers]
    exact books.exclusive

/-- A worker's channel after a job has come. -/
def Worker.push (worker : Worker) (job : DiskWriteJob) : Worker :=
  { worker with channel := { worker.channel with queue := worker.channel.queue ++ [job] } }

theorem held_push (worker : Worker) (job : DiskWriteJob) (item : DiskWriteJob) :
    (Worker.push worker job).held.count item = worker.held.count item + [job].count item := by
  rw [Worker.held, Worker.held, Worker.push]
  dsimp only
  rw [List.count_append, List.count_append, List.count_append]
  omega

/-- The job goes from the hash worker into the channel of a disk thread. -/
theorem books_sent (s s' : World) (books : Books s) (t w : Nat) (task : Task) (worker : Worker)
    (running : s.tasks[t]? = some task) (busy : task.held = [task.job])
    (found : s.workers[w]? = some worker)
    (tasks : s'.tasks = s.tasks.set t { task with phase := .returned true })
    (workers : s'.workers = s.workers.set w (Worker.push worker task.job))
    (told : s'.delivered = s.delivered) (lost : s'.lost = s.lost) : Books s' where
  balance := by
    intro item
    have account := books.balance item
    have moved := count_moved s t task (.returned true) running item
    have pushed := count_flatMap_set s.workers Worker.held w worker (Worker.push worker task.job) found item
    rw [busy, show Task.held { task with phase := .returned true } = [] from rfl,
      List.count_nil] at moved
    rw [held_push] at pushed
    rw [World.held, answered, jobs, tasks, workers, told, lost, jobs_set s t task _ running,
      List.count_append]
    rw [World.held, answered, List.count_append] at account
    omega
  numbered := by
    rw [jobs, tasks, jobs_set s t task _ running, List.length_set]
    exact books.numbered
  exclusive := by
    rw [workers]
    exact forall_mem_set s.workers w _ (fun worker => Exclusive worker.thread) books.exclusive
      (books.exclusive worker (mem_of_getElem? s.workers w worker found))

theorem spawn_held (kind : DiskBackendKind) : (Worker.spawn kind).held = [] := by
  cases kind <;> rfl

theorem spawn_exclusive (kind : DiskBackendKind) : Exclusive (Worker.spawn kind).thread := by
  cases kind with
  | thread => exact fun _ => rfl
  | _ => trivial

theorem books_spawned (s s' : World) (books : Books s) (t : Nat) (task : Task) (phase : Submit)
    (kind : DiskBackendKind) (running : s.tasks[t]? = some task)
    (still : Task.held { task with phase := phase } = task.held)
    (tasks : s'.tasks = s.tasks.set t { task with phase := phase })
    (workers : s'.workers = s.workers ++ [Worker.spawn kind])
    (told : s'.delivered = s.delivered) (lost : s'.lost = s.lost) : Books s' where
  balance := by
    intro item
    have account := books.balance item
    have moved := count_moved s t task phase running item
    rw [still] at moved
    rw [World.held, answered, jobs, tasks, workers, told, lost, jobs_set s t task _ running,
      List.count_append, List.flatMap_append, List.flatMap_singleton, spawn_held, List.append_nil]
    rw [World.held, answered, List.count_append] at account
    omega
  numbered := by
    rw [jobs, tasks, jobs_set s t task _ running, List.length_set]
    exact books.numbered
  exclusive := by
    rw [workers]
    exact forall_mem_append s.workers _ (fun worker => Exclusive worker.thread) books.exclusive
      (spawn_exclusive kind)

/-- The reply of a hash worker whose submit has failed. -/
theorem books_refused (s s' : World) (books : Books s) (t : Nat) (task : Task) (delivery : Delivery)
    (running : s.tasks[t]? = some task) (busy : task.held = [task.job])
    (same : delivery.job = task.job)
    (tasks : s'.tasks = s.tasks.set t { task with phase := .returned false })
    (workers : s'.workers = s.workers) (told : s'.delivered = s.delivered ++ [delivery])
    (lost : s'.lost = s.lost) : Books s' where
  balance := by
    intro item
    have account := books.balance item
    have moved := count_moved s t task (.returned false) running item
    rw [busy, show Task.held { task with phase := .returned false } = [] from rfl,
      List.count_nil] at moved
    rw [World.held, answered, jobs, tasks, workers, told, lost, jobs_set s t task _ running,
      List.count_append, List.map_append, List.count_append, List.map_singleton, same]
    rw [World.held, answered, List.count_append] at account
    omega
  numbered := by
    rw [jobs, tasks, jobs_set s t task _ running, List.length_set]
    exact books.numbered
  exclusive := by
    rw [workers]
    exact books.exclusive

/-- A new job: a hash worker keeps it, or answers it at once. -/
theorem books_verify (s s' : World) (books : Books s) (fresh : Task) (replies : List Delivery)
    (number : fresh.job.reply = s.tasks.length)
    (once : ∀ item, fresh.held.count item + (replies.map Delivery.job).count item =
      [fresh.job].count item)
    (tasks : s'.tasks = s.tasks ++ [fresh]) (workers : s'.workers = s.workers)
    (told : s'.delivered = s.delivered ++ replies) (lost : s'.lost = s.lost) : Books s' where
  balance := by
    intro item
    have account := books.balance item
    have one := once item
    rw [World.held, answered, jobs, tasks, workers, told, lost, List.flatMap_append,
      List.flatMap_singleton, List.map_append, List.map_append, List.map_singleton, List.count_append,
      List.count_append, List.count_append, List.count_append]
    rw [World.held, answered, jobs, List.count_append] at account
    omega
  numbered := by
    rw [jobs, tasks, List.map_append, List.map_append, List.map_singleton, List.map_singleton, number,
      List.length_append, List.length_singleton, List.range_succ]
    exact congrArg (· ++ [s.tasks.length]) books.numbered
  exclusive := by
    rw [workers]
    exact books.exclusive

/-- A turn of a disk thread. -/
theorem books_turn (cfg : Config) (s s' : World) (books : Books s) (w : Nat) (worker : Worker)
    (event : ThreadEvent) (found : s.workers[w]? = some worker)
    (taken : s.turn cfg w worker event = some s') : Books s' := by
  obtain ⟨turn, stepped, same⟩ := Option.map_eq_some_iff.1 taken
  have member := mem_of_getElem? s.workers w worker found
  have exclusive := books.exclusive worker member
  have accounts := thread_accounts cfg.disk (s.connected w) worker.thread worker.channel event turn
    exclusive stepped
  rw [← same]
  exact
    { balance := by
        intro item
        have account := books.balance item
        have one := accounts item
        have moved := count_flatMap_set s.workers Worker.held w worker
          ⟨turn.channel, turn.state⟩ found item
        have before : worker.held = worker.channel.queue ++ worker.thread.held := rfl
        have after : Worker.held ⟨turn.channel, turn.state⟩ = turn.channel.queue ++ turn.state.held := rfl
        rw [before, after] at moved
        rw [World.held, answered, List.count_append] at account
        simp only [World.held, answered, List.map_append, List.count_append]
        rw [show jobs { s with
          workers := s.workers.set w ⟨turn.channel, turn.state⟩
          delivered := s.delivered ++ turn.delivered
          lost := s.lost ++ turn.lost } = jobs s from rfl]
        omega
      numbered := books.numbered
      exclusive := forall_mem_set s.workers w _ (fun worker => Exclusive worker.thread)
        books.exclusive (thread_exclusive cfg.disk (s.connected w) worker.thread worker.channel event
          turn exclusive stepped) }

end Seedchamp.Runtime.DiskBooks
