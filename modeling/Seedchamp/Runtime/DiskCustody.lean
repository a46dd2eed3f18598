import Seedchamp.Runtime.DiskThreads

/-!
No turn of a disk thread makes or duplicates a job: what the thread and its channel had before is,
after it, still there, delivered, or lost.
-/

namespace Seedchamp.Runtime.DiskCustody
open Runtime.DiskJobs Runtime.DiskThreads Foundation.KeyedRows Foundation.KeyedMap
open Foundation.Custody

/-- The turn accounts for every job of the thread and of its channel. -/
def Accounts {S : Type} (held : S → List DiskWriteJob) (state : S) (channel : Channel)
    (turn : Turn S) : Prop :=
  Balanced (channel.queue ++ held state) (turn.channel.queue ++ held turn.state)
    (turn.delivered.map Delivery.job) turn.lost

section Batches
variable {P : Type} [InFlight P]

theorem jobs_empty : Batch.jobs (Rows.empty : Map P) = [] := rfl

theorem count_jobs_erase (m : Map P) (k : Nat) (piece : P) (found : get? m k = some piece)
    (item : DiskWriteJob) :
    (Batch.jobs (erase m k)).count item + [InFlight.job piece].count item =
      (Batch.jobs m).count item := by
  have moved := (list_perm_erase m k piece found).map (fun e => InFlight.job e.2)
  rw [Batch.jobs, Batch.jobs, moved.count_eq, List.map_cons]
  simp only [List.count_cons, List.count_nil, Nat.zero_add]

theorem count_jobs_insert (m : Map P) (k : Nat) (piece : P) (item : DiskWriteJob) :
    (Batch.jobs (insert m k piece)).count item +
        ((get? m k).toList.map InFlight.job).count item =
      (Batch.jobs m).count item + [InFlight.job piece].count item := by
  have moved := (list_perm_insert m k piece).map (fun e => InFlight.job e.2)
  have inserted : (Batch.jobs (insert m k piece)).count item =
      (Batch.jobs (erase m k)).count item + [InFlight.job piece].count item := by
    rw [Batch.jobs, Batch.jobs, moved.count_eq, List.map_cons]
    simp only [List.count_cons, List.count_nil, Nat.zero_add]
  cases found : get? m k with
  | none =>
    rw [inserted, Batch.jobs, erase_list_of_absent m k found]
    simp [Batch.jobs]
  | some old =>
    have removed := count_jobs_erase m k old found item
    rw [Option.toList_some, List.map_singleton]
    omega

/-- A piece replaced by one of the same job leaves the jobs in flight as they were. -/
theorem count_jobs_replace (m : Map P) (k : Nat) (old new : P) (found : get? m k = some old)
    (same : InFlight.job new = InFlight.job old) (item : DiskWriteJob) :
    (Batch.jobs (insert m k new)).count item = (Batch.jobs m).count item := by
  have inserted := count_jobs_insert m k new item
  rw [found, Option.toList_some, List.map_singleton, same] at inserted
  omega

theorem finish_job (piece : P) : (finish piece).job = InFlight.job piece := by
  rw [finish, completeWriteJob_job]

/-- A harvest completes what it takes out of the pieces in flight, and nothing else. -/
theorem harvest_balanced {ι : Type} (keyOf : ι → Nat) (account : ι → P → P)
    (same : ∀ done piece, InFlight.job (account done piece) = InFlight.job piece)
    (dones : List ι) (m : Map P) :
    Balanced (Batch.jobs m) (Batch.jobs (harvest keyOf account dones m).1)
      ((harvest keyOf account dones m).2.map Delivery.job) [] := by
  induction dones generalizing m with
  | nil => exact Balanced.still _
  | cons done rest ih =>
    intro item
    rw [harvest]
    cases found : get? m (keyOf done) with
    | none => exact ih m item
    | some piece =>
      simp only
      by_cases last : InFlight.remaining (account done piece) = 0
      · rw [if_pos last]
        have later := ih (erase m (keyOf done)) item
        have removed := count_jobs_erase m (keyOf done) piece found item
        rw [List.count_singleton] at removed
        simp only [List.map_cons, finish_job, same, List.count_cons]
        omega
      · rw [if_neg last]
        have later := ih (insert m (keyOf done) (account done piece)) item
        have replaced := count_jobs_replace m _ piece _ found (same done piece) item
        omega

theorem exit_accounts (b : Batch P) (channel : Channel) :
    Accounts Batch.held b channel (b.exit channel) := by
  intro item
  simp [Batch.exit, Batch.held, jobs_empty]

theorem go_accounts (b : Batch P) (channel : Channel) (phase : Phase) :
    Accounts Batch.held b channel (b.go channel phase) := Balanced.still _

theorem tryRecv_accounts (depth : Nat) (connected : Bool) (b : Batch P) (channel : Channel) :
    Accounts Batch.held b channel (b.tryRecv depth connected channel) := by
  rw [Batch.tryRecv]
  split_ifs
  · exact exit_accounts b channel
  · cases queued : channel.queue with
    | nil =>
      intro item
      simp [Batch.go, Batch.held, queued]
    | cons job rest =>
      intro item
      simp only [Batch.held, queued, List.count_append, List.count_cons, List.map_nil,
        List.count_nil]
      omega
  · exact go_accounts b channel .start

theorem leaveStart_accounts (b : Batch P) (channel : Channel) :
    Accounts Batch.held b channel (b.leaveStart channel) := by
  rw [Batch.leaveStart]
  split_ifs
  · exact go_accounts b channel .receive
  · exact exit_accounts b channel
  · exact go_accounts b channel .suspend

omit [InFlight P] in
theorem nextJob_waiting (depth : Nat) (b : Batch P) (job : DiskWriteJob)
    (next : b.nextJob depth = some job) : b.waiting = job :: b.waiting.tail := by
  rw [Batch.nextJob] at next
  split_ifs at next
  exact (List.head?_eq_some_iff.1 next).elim (fun rest split => by rw [split]; rfl)

theorem startNext_accounts (depth : Nat) (discardWrites : Bool)
    (startPiece : Nat → DiskWriteJob → Nat × Start P)
    (same : ∀ token job piece, (startPiece token job).2 = .started piece → InFlight.job piece = job)
    (b : Batch P) (channel : Channel) :
    Accounts Batch.held b channel (b.startNext depth discardWrites startPiece channel) := by
  rw [Batch.startNext]
  cases next : b.nextJob depth with
  | none => exact leaveStart_accounts b channel
  | some job =>
    have waiting := nextJob_waiting depth b job next
    intro item
    have counted : b.waiting.count item = b.waiting.tail.count item + [job].count item := by
      conv_lhs => rw [waiting]
      rw [List.count_cons, List.count_singleton]
    simp only
    split_ifs
    · simp only [Batch.held, List.count_append, List.map_cons, completeDiscardJob_job, List.map_nil,
        List.count_nil]
      omega
    · cases answer : (startPiece b.nextToken job).2 with
      | refused problem =>
        simp only [Batch.held, List.count_append, List.map_cons, completeWriteJob_job, List.map_nil,
          List.count_nil]
        omega
      | completed =>
        simp only [Batch.held, List.count_append, List.map_cons, completeWriteJob_job, List.map_nil,
          List.count_nil]
        omega
      | started piece =>
        have inserted := count_jobs_insert b.inflight b.nextToken piece item
        rw [same _ _ piece answer] at inserted
        simp only [Batch.held, List.count_append, List.map_nil, List.count_nil]
        omega

theorem recv_accounts (connected : Bool) (b : Batch P) (channel : Channel) (turn : Turn (Batch P))
    (taken : b.recv connected channel = some turn) : Accounts Batch.held b channel turn := by
  rw [Batch.recv] at taken
  intro item
  cases queued : channel.queue with
  | nil =>
    simp only [queued] at taken
    split_ifs at taken
    cases taken
    simp [Batch.go, Batch.held, queued]
  | cons job rest =>
    simp only [queued, Option.some_inj] at taken
    rw [← taken]
    simp only [Batch.held, List.count_append, List.count_cons, List.map_nil, List.count_nil]
    omega

theorem failWaiting_accounts (problem : WriteError) (b : Batch P) (channel : Channel) :
    Accounts Batch.held b channel (b.failWaiting problem channel) := by
  intro item
  simp only [Batch.failWaiting, Batch.held, List.map_map, List.count_append, List.count_nil]
  have all : b.waiting.map (Delivery.job ∘ fun job => completeWriteJob job (.error problem)) =
      b.waiting := List.map_id b.waiting
  rw [all]
  omega

theorem drainChannel_accounts (problem : WriteError) (b : Batch P) (channel : Channel) :
    Accounts Batch.held b channel (b.drainChannel problem channel) := by
  rw [Batch.drainChannel]
  intro item
  cases queued : channel.queue with
  | nil => simp [Batch.go, Batch.held, queued]
  | cons job rest =>
    simp only [Batch.held, List.count_append, List.count_cons, List.map_cons, completeWriteJob_job,
      List.map_nil, List.count_nil]
    omega

end Batches

/-! ### io_uring -/

theorem submitSpans_job (env : StartEnv) (job : DiskWriteJob) (expected : List Nat) (piece : UringPiece)
    (started : Uring.submitSpans env job expected = .started piece) : piece.job = job := by
  rw [Uring.submitSpans] at started
  split at started
  · split_ifs at started
    cases started
    rfl
  · cases started
    rfl

theorem uring_startPiece_job (entries : Nat) (env : StartEnv) (token : Nat) (job : DiskWriteJob)
    (piece : UringPiece) (started : (Uring.startPiece entries env token job).2 = .started piece) :
    piece.job = job := by
  rw [Uring.startPiece] at started
  split at started
  · cases started
  · split at started
    · cases started
    · split at started
      · cases started
      · split at started
        · cases started
        · dsimp only at started
          split at started
          · cases started
          · split at started
            · cases started
            · exact submitSpans_job env job _ piece started

theorem harvestTo_accounts (u : Uring) (channel : Channel) (phase : Phase) :
    Accounts (fun u => u.batch.held) u channel (u.harvestTo channel phase) := by
  intro item
  have taken := harvest_balanced (fun cqe => (unpackUserData cqe.1).1)
    (fun cqe piece => UringPiece.account piece cqe) (fun _ _ => rfl) u.ring.cq u.batch.inflight item
  simp only [Uring.harvestTo, harvestCqes, Batch.held, List.count_append, List.count_nil] at taken ⊢
  omega

theorem jobs_markFailed (u : Uring) : Batch.jobs u.markFailed.batch.inflight =
    Batch.jobs u.batch.inflight := by
  rw [Batch.jobs, Batch.jobs, Uring.markFailed, List.map_map]
  rfl

theorem forget_accounts (u : Uring) (channel : Channel) :
    Accounts (fun u => u.batch.held) u channel (u.forget channel) := by
  intro item
  simp only [Uring.forget, Batch.held, List.count_append, jobs_empty, List.map_nil, List.count_nil]
  omega

theorem withBatch_accounts (u : Uring) (channel : Channel) (turn : Turn (Batch UringPiece))
    (balance : Accounts Batch.held u.batch channel turn) :
    Accounts (fun u => u.batch.held) u channel (u.withBatch turn) := balance

theorem uring_accounts (cfg : Config) (connected : Bool) (u : Uring) (channel : Channel)
    (event : ThreadEvent) (turn : Turn Uring) (taken : u.step cfg connected channel event = some turn) :
    Accounts (fun u => u.batch.held) u channel turn := by
  cases event with
  | setUp ok =>
    simp only [Uring.step] at taken
    split_ifs at taken with here worked
    · cases taken
      exact withBatch_accounts u channel _ (go_accounts u.batch channel .fill)
    · cases taken
      exact withBatch_accounts u channel _ (exit_accounts u.batch channel)
  | tryRecv =>
    simp only [Uring.step] at taken
    split at taken
    · cases taken
      exact withBatch_accounts u channel _ (tryRecv_accounts _ connected u.batch channel)
    · cases taken
      exact withBatch_accounts u channel _ (drainChannel_accounts .submit u.batch channel)
    · cases taken
  | startNext env =>
    simp only [Uring.step] at taken
    split at taken
    · cases taken
      exact startNext_accounts cfg.slots cfg.discardWrites _
        (uring_startPiece_job (ringEntries cfg.depth) env) u.batch channel
    · cases taken
  | recv =>
    simp only [Uring.step] at taken
    split_ifs at taken
    obtain ⟨inner, received, same⟩ := Option.map_eq_some_iff.1 taken
    rw [← same]
    exact withBatch_accounts u channel inner (recv_accounts connected u.batch channel inner received)
  | wait answer =>
    simp only [Uring.step] at taken
    split at taken
    · split_ifs at taken
      cases taken
      exact harvestTo_accounts u channel .fill
    · cases taken
      intro item
      simp only [Batch.held, jobs_markFailed, List.count_append, List.map_nil, List.count_nil]
      rfl
    · split_ifs at taken
      cases taken
      exact harvestTo_accounts u channel _
    · split_ifs at taken
      cases taken
      exact harvestTo_accounts u channel _
    · cases taken
  | leaveDrain =>
    simp only [Uring.step] at taken
    split at taken
    · split_ifs at taken
      cases taken
      exact forget_accounts u channel
    · cases taken
  | deadline =>
    simp only [Uring.step] at taken
    split at taken
    · cases taken
      exact forget_accounts u channel
    · cases taken
  | failWaiting =>
    simp only [Uring.step] at taken
    split_ifs at taken
    cases taken
    exact withBatch_accounts u channel _ (failWaiting_accounts .submit u.batch channel)
  | dropReceiver =>
    simp only [Uring.step] at taken
    split_ifs at taken
    cases taken
    exact withBatch_accounts u channel _ (exit_accounts u.batch channel)
  | uringDone i res =>
    simp only [Uring.step] at taken
    split at taken
    · cases taken
      exact Balanced.still _
    · cases taken
  | _ => cases taken

/-! ### POSIX AIO -/

theorem aio_startPiece_job (env : StartEnv) (token : Nat) (job : DiskWriteJob) (piece : AioPiece)
    (started : (Aio.startPiece env token job).2 = .started piece) : piece.job = job := by
  rw [Aio.startPiece] at started
  split at started
  · cases started
  · split at started
    · cases started
    · dsimp only at started
      split at started
      · cases started
      · split at started
        · cases started
        · split at started
          · cases started
          · split at started
            · cases started
            · cases started
              rfl

theorem takeResult_job (piece : AioPiece) (i : Nat) : (piece.takeResult i).job = piece.job := by
  rw [AioPiece.takeResult]
  split
  · rfl
  · rfl

theorem harvest_job (piece : AioPiece) : piece.harvest.job = piece.job := by
  have all : ∀ (range : List Nat) (piece : AioPiece),
      (range.foldl AioPiece.takeResult piece).job = piece.job := by
    intro range
    induction range with
    | nil => exact fun _ => rfl
    | cons i rest ih => exact fun piece => (ih _).trans (takeResult_job piece i)
  exact all _ piece

theorem aio_harvestTo_accounts (b : Batch AioPiece) (channel : Channel) (phase : Phase) :
    Accounts Batch.held b channel (Aio.harvestTo b channel phase) := by
  intro item
  have taken := harvest_balanced (fun key => key) (fun (_ : Nat) piece => AioPiece.harvest piece)
    (fun _ piece => harvest_job piece) (keys b.inflight) b.inflight item
  simp only [Aio.harvestTo, harvestCompletions, Batch.held, List.count_append, List.count_nil] at taken ⊢
  omega

theorem aio_accounts (cfg : Config) (connected : Bool) (b : Batch AioPiece) (channel : Channel)
    (event : ThreadEvent) (turn : Turn (Batch AioPiece))
    (taken : Aio.step cfg connected b channel event = some turn) :
    Accounts Batch.held b channel turn := by
  cases event with
  | tryRecv =>
    simp only [Aio.step] at taken
    split at taken
    · cases taken
      exact tryRecv_accounts _ connected b channel
    · cases taken
      exact drainChannel_accounts .submit b channel
    · cases taken
  | startNext env =>
    simp only [Aio.step] at taken
    split_ifs at taken
    cases taken
    exact startNext_accounts cfg.slots cfg.discardWrites _ (aio_startPiece_job env) b channel
  | recv =>
    simp only [Aio.step] at taken
    split_ifs at taken
    exact recv_accounts connected b channel turn taken
  | wait answer =>
    simp only [Aio.step] at taken
    split at taken
    · split at taken
      · split at taken
        · split at taken
          · cases taken
            exact aio_harvestTo_accounts b channel .fill
          · cases taken
        · cases taken
          exact aio_harvestTo_accounts b channel .fill
        · cases taken
          exact go_accounts b channel (.draining 0)
      · cases taken
        exact aio_harvestTo_accounts b channel .fill
    · cases taken
  | drainPiece key =>
    simp only [Aio.step] at taken
    split at taken
    · rename_i n piece _ found
      split_ifs at taken
      cases taken
      intro item
      have removed := count_jobs_erase b.inflight key piece found item
      rw [show InFlight.job piece = piece.job from rfl] at removed
      simp only [Batch.held, List.count_append, List.map_cons, completeWriteJob_job, List.map_nil,
        List.count_nil]
      omega
    · cases taken
  | leaveDrain =>
    simp only [Aio.step] at taken
    split at taken
    · split_ifs at taken
      cases taken
      exact go_accounts b channel .failWaiting
    · cases taken
  | failWaiting =>
    simp only [Aio.step] at taken
    split_ifs at taken
    cases taken
    exact failWaiting_accounts .submit b channel
  | dropReceiver =>
    simp only [Aio.step] at taken
    split_ifs at taken
    cases taken
    exact exit_accounts b channel
  | aioDone key i error returned =>
    simp only [Aio.step] at taken
    split at taken
    · rename_i piece found
      split at taken
      · cases taken
        intro item
        have replaced := count_jobs_replace b.inflight key piece
          (Aio.finishSpan piece i error returned) found rfl item
        simp only [Batch.held, List.count_append, List.map_nil, List.count_nil]
        omega
      · cases taken
    · cases taken
  | _ => cases taken

/-! ### The plain thread -/

theorem sync_accounts (cfg : Config) (connected : Bool) (s : Sync) (channel : Channel)
    (event : ThreadEvent) (turn : Turn Sync) (exclusive : s.phase = .receive → s.current = none)
    (taken : s.step cfg connected channel event = some turn) :
    Accounts Sync.held s channel turn := by
  cases event with
  | recv =>
    simp only [Sync.step] at taken
    split at taken
    · rename_i here
      have nothing := exclusive here
      split at taken
      · rename_i job rest queued
        split at taken
        · cases taken
          intro item
          simp [Sync.held, nothing, queued, List.count_cons]
        · cases taken
          intro item
          simp [Sync.held, nothing, queued, List.count_cons]
      · rename_i queued
        split at taken
        · cases taken
        · cases taken
          intro item
          simp [Sync.held, nothing, queued]
    · cases taken
  | write ok =>
    simp only [Sync.step] at taken
    split at taken
    · cases taken
    · rename_i job writing
      cases taken
      intro item
      simp [Sync.held, writing, List.count_append]
  | _ => cases taken

/-! ### Any thread -/

/-- A plain thread that waits for a job has none. -/
def Exclusive : Thread → Prop
  | .sync s => s.phase = .receive → s.current = none
  | _ => True

theorem thread_accounts (cfg : Config) (connected : Bool) (thread : Thread) (channel : Channel)
    (event : ThreadEvent) (turn : Turn Thread) (exclusive : Exclusive thread)
    (taken : thread.step cfg connected channel event = some turn) :
    Accounts Thread.held thread channel turn := by
  cases thread with
  | sync s =>
    obtain ⟨inner, stepped, same⟩ := Option.map_eq_some_iff.1 taken
    rw [← same]
    exact sync_accounts cfg connected s channel event inner exclusive stepped
  | uring u =>
    obtain ⟨inner, stepped, same⟩ := Option.map_eq_some_iff.1 taken
    rw [← same]
    exact uring_accounts cfg connected u channel event inner stepped
  | aio b =>
    obtain ⟨inner, stepped, same⟩ := Option.map_eq_some_iff.1 taken
    rw [← same]
    exact aio_accounts cfg connected b channel event inner stepped

theorem thread_exclusive (cfg : Config) (connected : Bool) (thread : Thread) (channel : Channel)
    (event : ThreadEvent) (turn : Turn Thread) (exclusive : Exclusive thread)
    (taken : thread.step cfg connected channel event = some turn) : Exclusive turn.state := by
  cases thread with
  | sync s =>
    obtain ⟨inner, stepped, same⟩ := Option.map_eq_some_iff.1 taken
    rw [← same]
    cases event with
    | recv =>
      simp only [Sync.step] at stepped
      split at stepped
      · split at stepped
        · split at stepped
          · cases stepped
            exact exclusive
          · cases stepped
            exact nofun
        · split at stepped
          · cases stepped
          · cases stepped
            exact fun _ => rfl
      · cases stepped
    | write ok =>
      simp only [Sync.step] at stepped
      split at stepped
      · cases stepped
      · cases stepped
        exact fun _ => rfl
    | _ => cases stepped
  | uring u =>
    obtain ⟨inner, stepped, same⟩ := Option.map_eq_some_iff.1 taken
    rw [← same]
    trivial
  | aio b =>
    obtain ⟨inner, stepped, same⟩ := Option.map_eq_some_iff.1 taken
    rw [← same]
    trivial

end Seedchamp.Runtime.DiskCustody
