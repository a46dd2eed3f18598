import Seedchamp.Runtime.DiskSafety
import Mathlib.Algebra.Order.BigOperators.Group.List
import Mathlib.Algebra.Order.Ring.Nat

/-!
Disk threads come to rest, and a thread at rest is answerable for nothing. The work left to a thread
weighs every job by where it stands: each stage of its way costs less than the one before.
-/

namespace Seedchamp.Runtime.DiskProgress
open Runtime.DiskJobs Runtime.DiskThreads Runtime.DiskCustody Runtime.DiskPhases Runtime.DiskRings
open Runtime.DiskControlBlocks Runtime.DiskSafety Foundation.KeyedMap Foundation.Custody

def rank : Phase → Nat
  | .setUp => 41
  | .fill => 40
  | .start => 39
  | .receive | .suspend => 38
  | .draining n => 20 - min n 8
  | .failWaiting => 4
  | .drainChannel => 3
  | .dropReceiver => 2
  | .exited => 0

def jobWork (job : DiskWriteJob) : Nat := 1 + 11 * spanCount job

def queueWork (queue : List DiskWriteJob) : Nat := (queue.map (fun job => jobWork job + 4)).sum

def waitingWork (waiting : List DiskWriteJob) : Nat := (waiting.map jobWork).sum

/-- An open channel is still to be seen closed. -/
def openWork (channelOpen : Bool) : Nat := if channelOpen then 3 else 0

theorem openWork_le (channelOpen : Bool) : openWork channelOpen ≤ 3 := by
  cases channelOpen <;> decide

section Batches
variable {P : Type}

def batchWork (b : Batch P) (channel : Channel) : Nat :=
  queueWork channel.queue + waitingWork b.waiting + openWork b.channelOpen + rank b.phase

/-- The weights of the pieces in flight together. -/
def weight (w : P → Nat) (m : Map P) : Nat := (m.list.map (fun e => w e.2)).sum

theorem weight_erase (w : P → Nat) (m : Map P) (k : Nat) (piece : P) (found : get? m k = some piece) :
    weight w (erase m k) + w piece = weight w m := by
  have moved := (list_perm_erase m k piece found).map (fun e => w e.2)
  rw [weight, weight, moved.sum_eq, List.map_cons, List.sum_cons, Nat.add_comm]

theorem weight_insert (w : P → Nat) (m : Map P) (k : Nat) (piece : P) :
    weight w (insert m k piece) = w piece + weight w (erase m k) := by
  have moved := (list_perm_insert m k piece).map (fun e => w e.2)
  rw [weight, weight, moved.sum_eq, List.map_cons, List.sum_cons]

theorem weight_insert_le (w : P → Nat) (m : Map P) (k : Nat) (piece : P) :
    weight w (insert m k piece) ≤ weight w m + w piece := by
  have inserted := weight_insert w m k piece
  cases found : get? m k with
  | none =>
    have same : weight w (erase m k) = weight w m := by
      rw [weight, erase_list_of_absent m k found, weight]
    omega
  | some old =>
    have removed := weight_erase w m k old found
    omega

theorem weight_replace (w : P → Nat) (m : Map P) (k : Nat) (old new : P)
    (found : get? m k = some old) :
    weight w (insert m k new) + w old = weight w m + w new := by
  have inserted := weight_insert w m k new
  have removed := weight_erase w m k old found
  omega

variable [InFlight P]

/-- A harvest of distinct pieces that lighten when accounted, one of them by `c` at least. -/
theorem harvest_lighter (account : P → P) (w : P → Nat) (lighter : ∀ piece, w (account piece) ≤ w piece)
    (c : Nat) (dones : List Nat) (m : Map P) :
    weight w (harvest (fun key => key) (fun (_ : Nat) piece => account piece) dones m).1 ≤ weight w m ∧
      (dones.Nodup → (∃ key ∈ dones, ∃ piece, get? m key = some piece ∧
          w (account piece) + c ≤ w piece) →
        weight w (harvest (fun key => key) (fun (_ : Nat) piece => account piece) dones m).1 + c ≤
          weight w m) := by
  induction dones generalizing m with
  | nil => exact ⟨Nat.le_refl _, fun _ some_ => by obtain ⟨key, member, _⟩ := some_; cases member⟩
  | cons done rest ih =>
    rw [harvest]
    cases at_ : get? m done with
    | none =>
      simp only
      have later := ih m
      refine ⟨later.1, ?_⟩
      intro separate some_
      obtain ⟨key, member, piece, found, less⟩ := some_
      rcases List.mem_cons.1 member with head | tail
      · rw [head, at_] at found
        cases found
      · exact later.2 (List.nodup_cons.1 separate).2 ⟨key, tail, piece, found, less⟩
    | some current =>
      simp only
      have here := lighter current
      split_ifs with last
      · dsimp only
        have later := ih (erase m done)
        have removed := weight_erase w m done current at_
        refine ⟨by omega, ?_⟩
        intro separate some_
        obtain ⟨key, member, piece, found, less⟩ := some_
        have apart := List.nodup_cons.1 separate
        rcases List.mem_cons.1 member with head | tail
        · rw [head, at_] at found
          cases found
          have bound := later.1
          omega
        · have other : key ≠ done := fun same => apart.1 (same ▸ tail)
          have strict := later.2 apart.2
            ⟨key, tail, piece, by rw [get?_erase, if_neg other]; exact found, less⟩
          omega
      · have later := ih (insert m done (account current))
        have replaced := weight_replace w m done current (account current) at_
        refine ⟨by omega, ?_⟩
        intro separate some_
        obtain ⟨key, member, piece, found, less⟩ := some_
        have apart := List.nodup_cons.1 separate
        rcases List.mem_cons.1 member with head | tail
        · rw [head, at_] at found
          cases found
          have bound := later.1
          omega
        · have other : key ≠ done := fun same => apart.1 (same ▸ tail)
          have strict := later.2 apart.2
            ⟨key, tail, piece, by rw [get?_insert, if_neg other]; exact found, less⟩
          omega

/-! ### The work of a turn -/

theorem exit_work (b : Batch P) (channel : Channel) (live : 1 ≤ rank b.phase) :
    batchWork (b.exit channel).state (b.exit channel).channel < batchWork b channel := by
  have ended : rank .exited = 0 := rfl
  simp only [batchWork, Batch.exit, queueWork, waitingWork, ended, List.map_nil, List.sum_nil]
  omega

theorem tryRecv_work (depth : Nat) (connected : Bool) (b : Batch P) (channel : Channel)
    (here : b.phase = .fill) :
    batchWork (b.tryRecv depth connected channel).state (b.tryRecv depth connected channel).channel <
      batchWork b channel := by
  rw [Batch.tryRecv]
  split_ifs with ended room
  · exact exit_work b channel (by rw [here]; decide)
  · rw [Bool.and_eq_true] at room
    cases queued : channel.queue with
    | nil =>
      have shut := openWork_le connected
      have opened : openWork true = 3 := rfl
      simp only [batchWork, Batch.go, queued, here, rank, room.1, opened]
      omega
    | cons job rest =>
      simp only [batchWork, queueWork, waitingWork, queued, List.map_append, List.map_cons,
        List.map_nil, List.sum_append, List.sum_cons, List.sum_nil]
      omega
  · simp only [batchWork, Batch.go, here, rank]
    omega

theorem leaveStart_work (b : Batch P) (channel : Channel) (here : b.phase = .start) :
    batchWork (b.leaveStart channel).state (b.leaveStart channel).channel < batchWork b channel := by
  rw [Batch.leaveStart]
  split_ifs
  · simp only [batchWork, Batch.go, here, rank]
    omega
  · exact exit_work b channel (by rw [here]; decide)
  · simp only [batchWork, Batch.go, here, rank]
    omega

/-- A job taken from `waiting` leaves the batch with its work, which its spans then carry. -/
theorem startNext_work (depth : Nat) (discardWrites : Bool)
    (startPiece : Nat → DiskWriteJob → Nat × Start P) (b : Batch P) (channel : Channel)
    (job : DiskWriteJob) (next : b.nextJob depth = some job) :
    batchWork (b.startNext depth discardWrites startPiece channel).state
        (b.startNext depth discardWrites startPiece channel).channel + jobWork job =
      batchWork b channel := by
  have waiting := nextJob_waiting depth b job next
  have popped : waitingWork b.waiting = jobWork job + waitingWork b.waiting.tail := by
    conv_lhs => rw [waiting]
    rw [waitingWork, List.map_cons, List.sum_cons, waitingWork]
  simp only [Batch.startNext, next]
  split_ifs
  · simp only [batchWork]
    omega
  · cases (startPiece b.nextToken job).2 with
    | refused problem =>
      simp only [batchWork]
      omega
    | completed =>
      simp only [batchWork]
      omega
    | started piece =>
      simp only [batchWork]
      omega

omit [InFlight P] in
theorem recv_work (connected : Bool) (b : Batch P) (channel : Channel) (turn : Turn (Batch P))
    (here : b.phase = .receive) (listening : b.channelOpen = true)
    (taken : b.recv connected channel = some turn) :
    batchWork turn.state turn.channel < batchWork b channel := by
  rw [Batch.recv] at taken
  split at taken
  · rename_i job rest queued
    cases taken
    simp only [batchWork, queueWork, waitingWork, queued, here, rank, List.map_append, List.map_cons,
      List.map_nil, List.sum_append, List.sum_cons, List.sum_nil]
    omega
  · split at taken
    · cases taken
    · rename_i queued _
      cases taken
      have opened : openWork true = 3 := rfl
      have shut : openWork false = 0 := rfl
      simp only [batchWork, Batch.go, here, listening, rank, opened, shut]
      omega

omit [InFlight P] in
theorem failWaiting_work (problem : WriteError) (b : Batch P) (channel : Channel)
    (here : b.phase = .failWaiting) :
    batchWork (b.failWaiting problem channel).state (b.failWaiting problem channel).channel <
      batchWork b channel := by
  simp only [batchWork, Batch.failWaiting, waitingWork, here, rank, List.map_nil, List.sum_nil]
  omega

omit [InFlight P] in
theorem drainChannel_work (problem : WriteError) (b : Batch P) (channel : Channel)
    (here : b.phase = .drainChannel) :
    batchWork (b.drainChannel problem channel).state (b.drainChannel problem channel).channel <
      batchWork b channel := by
  rw [Batch.drainChannel]
  cases queued : channel.queue with
  | nil =>
    simp only [batchWork, Batch.go, queued, here, rank]
    omega
  | cons job rest =>
    simp only [batchWork, queueWork, queued, List.map_cons, List.sum_cons]
    omega

end Batches

/-! ### The three threads -/

def flightWork (m : Map AioPiece) : Nat := weight pieceWork m

def threadWork (channel : Channel) : Thread → Nat
  | .sync s => queueWork channel.queue + (if s.current.isSome then 2 else 0) +
      (if s.phase = .exited then 0 else 1)
  | .uring u => batchWork u.batch channel + 11 * u.ring.pending.length + 10 * u.ring.cq.length
  | .aio b => batchWork b channel + flightWork b.inflight

/-- Events that bring a thread on; an interrupted wait does not. -/
def progresses : ThreadEvent → Bool
  | .wait .interrupted => false
  | _ => true

theorem pushedTags_length (entries : Nat) (env : StartEnv) (token : Nat) (job : DiskWriteJob) :
    (pushedTags token (Uring.startPiece entries env token job).2).length ≤ spanCount job := by
  cases answer : (Uring.startPiece entries env token job).2 with
  | refused _ | completed => exact Nat.zero_le _
  | started piece =>
    have bound := (uring_startPiece_started entries env token job piece answer).2.2
    rw [pushedTags, List.length_map, List.length_range]
    exact bound

theorem harvestTo_work (u : Uring) (channel : Channel) (phase : Phase)
    (lighter : rank phase < rank u.batch.phase + 10 * u.ring.cq.length) :
    threadWork (u.harvestTo channel phase).channel (.uring (u.harvestTo channel phase).state) <
      threadWork channel (.uring u) := by
  simp only [threadWork, Uring.harvestTo, batchWork, List.length_nil]
  omega

theorem forget_work (u : Uring) (channel : Channel) (n : Nat) (here : u.batch.phase = .draining n) :
    threadWork (u.forget channel).channel (.uring (u.forget channel).state) <
      threadWork channel (.uring u) := by
  simp only [threadWork, Uring.forget, batchWork, here, rank]
  omega

theorem uring_work (cfg : Config) (connected : Bool) (u : Uring) (channel : Channel)
    (event : ThreadEvent) (turn : Turn Uring) (sound : Sound connected u.batch channel)
    (taken : u.step cfg connected channel event = some turn) :
    threadWork turn.channel (.uring turn.state) < threadWork channel (.uring u) := by
  cases event with
  | setUp ok =>
    simp only [Uring.step] at taken
    split at taken
    · rename_i here
      cases ok with
      | true =>
        cases taken
        simp only [threadWork, Uring.withBatch, Turn.map, Batch.go, batchWork, here, rank, if_true]
        omega
      | false =>
        cases taken
        exact Nat.add_lt_add_right (Nat.add_lt_add_right
          (exit_work u.batch channel (by rw [here]; decide)) _) _
    · cases taken
  | tryRecv =>
    simp only [Uring.step] at taken
    split at taken
    · rename_i here
      cases taken
      exact Nat.add_lt_add_right (Nat.add_lt_add_right
        (tryRecv_work _ connected u.batch channel here) _) _
    · rename_i here
      cases taken
      exact Nat.add_lt_add_right (Nat.add_lt_add_right
        (drainChannel_work .submit u.batch channel here) _) _
    · cases taken
  | startNext env =>
    simp only [Uring.step] at taken
    split at taken
    · rename_i here
      cases next : u.batch.nextJob cfg.slots with
      | none =>
        simp only [next, Batch.startNext, List.append_nil, Option.some_inj] at taken
        rw [← taken]
        exact Nat.add_lt_add_right (Nat.add_lt_add_right
          (leaveStart_work u.batch channel here) _) _
      | some job =>
        have moved := startNext_work cfg.slots cfg.discardWrites
          (Uring.startPiece (ringEntries cfg.depth) env) u.batch channel job next
        have tags := pushedTags_length (ringEntries cfg.depth) env u.batch.nextToken job
        simp only [next, Option.some_inj] at taken
        rw [← taken]
        simp only [threadWork, Turn.map, List.length_append]
        rw [jobWork] at moved
        split_ifs
        · rw [List.length_nil]
          omega
        · omega
    · cases taken
  | recv =>
    simp only [Uring.step] at taken
    split at taken
    · rename_i here
      obtain ⟨inner, received, same⟩ := Option.map_eq_some_iff.1 taken
      rw [← same]
      exact Nat.add_lt_add_right (Nat.add_lt_add_right
        (recv_work connected u.batch channel inner here (sound.listening here) received) _) _
    · cases taken
  | wait answer =>
    simp only [Uring.step] at taken
    split at taken
    · rename_i here
      split at taken
      · cases taken
      · rename_i some_
        cases taken
        have positive := List.length_pos_of_ne_nil some_
        exact harvestTo_work u channel .fill (by rw [here, rank, rank]; omega)
    · rename_i here
      cases taken
      simp only [threadWork, Uring.markFailed, batchWork, here, rank]
      omega
    · rename_i n here
      split at taken
      · cases taken
      · rename_i going
        cases taken
        rw [Bool.or_eq_true, Bool.or_eq_true, decide_eq_true_eq, not_or, not_or] at going
        have positive := List.length_pos_of_ne_nil (fun none => going.2 (List.isEmpty_iff.2 none))
        exact harvestTo_work u channel (.draining 0) (by rw [here, rank, rank]; omega)
    · rename_i n here
      split at taken
      · cases taken
      · rename_i going
        cases taken
        rw [Bool.or_eq_true, decide_eq_true_eq, not_or] at going
        exact harvestTo_work u channel (.draining (n + 1)) (by rw [here, rank, rank]; omega)
    · cases taken
  | leaveDrain =>
    simp only [Uring.step] at taken
    split at taken
    · rename_i n here
      split at taken
      · cases taken
        exact forget_work u channel n here
      · cases taken
    · cases taken
  | deadline =>
    simp only [Uring.step] at taken
    split at taken
    · rename_i n here
      cases taken
      exact forget_work u channel n here
    · cases taken
  | failWaiting =>
    simp only [Uring.step] at taken
    split at taken
    · rename_i here
      cases taken
      exact Nat.add_lt_add_right (Nat.add_lt_add_right
        (failWaiting_work .submit u.batch channel here) _) _
    · cases taken
  | dropReceiver =>
    simp only [Uring.step] at taken
    split at taken
    · rename_i here
      cases taken
      exact Nat.add_lt_add_right (Nat.add_lt_add_right
        (exit_work u.batch channel (by rw [here]; decide)) _) _
    · cases taken
  | uringDone i res =>
    simp only [Uring.step] at taken
    split at taken
    · rename_i tag pending
      cases taken
      have inside := (List.getElem?_eq_some_iff.1 pending).1
      have shorter := List.length_eraseIdx_of_lt inside
      simp only [threadWork, List.length_append, List.length_singleton, shorter]
      omega
    · cases taken
  | _ => cases taken

theorem undone_work (span : AioSpan) (open_ : undone span = true) : 10 ≤ spanWork span := by
  rw [undone, Bool.not_eq_true'] at open_
  rw [spanWork, open_, if_neg (by decide)]
  split_ifs
  · omega
  · omega

/-- A piece in flight has a span whose result has not been taken. -/
theorem exists_undone (piece : AioPiece) (positive : 0 < piece.remaining) (counted : Counted piece) :
    ∃ span ∈ piece.spans, undone span = true := by
  rw [counted] at positive
  exact List.countP_pos_iff.1 positive

theorem pieceWork_positive (piece : AioPiece) (positive : 0 < piece.remaining)
    (counted : Counted piece) : 0 < pieceWork piece := by
  obtain ⟨span, listed, open_⟩ := exists_undone piece positive counted
  have part : spanWork span ≤ pieceWork piece := 
    List.single_le_sum (fun work _ => Nat.zero_le work) _ (List.mem_map_of_mem listed)
  have work := undone_work span open_
  omega

theorem aio_harvestTo_work (b : Batch AioPiece) (channel : Channel) (here : b.phase = .suspend)
    (ready : Aio.ready b.inflight = true) :
    threadWork (Aio.harvestTo b channel .fill).channel (.aio (Aio.harvestTo b channel .fill).state) <
      threadWork channel (.aio b) := by
  obtain ⟨e, listed, finished⟩ := List.any_eq_true.1 ready
  have found := (mem_list b.inflight e.1 e.2).1 listed
  have lighter := (harvest_lighter AioPiece.harvest pieceWork (fun piece => (harvest_work piece).1) 10
    (keys b.inflight) b.inflight).2 (nodup_keys b.inflight)
    ⟨e.1, List.mem_map_of_mem listed, e.2, found, (harvest_work e.2).2 finished⟩
  simp only [threadWork, Aio.harvestTo, batchWork, here, rank, flightWork, harvestCompletions]
  omega

theorem finishSpan_work (piece : AioPiece) (i error : Nat) (returned : Int) (span : AioSpan)
    (here : piece.spans[i]? = some span) (busy : span.status = .inProgress) (open_ : span.done = false) :
    pieceWork (Aio.finishSpan piece i error returned) < pieceWork piece := by
  have changed : (Aio.finishSpan piece i error returned).spans =
      piece.spans.set i { span with status := .finished error returned } := by
    rw [Aio.finishSpan, List.modify_eq_set_getElem?, here]
    rfl
  have moved := sum_map_set piece.spans spanWork i span { span with status := .finished error returned } here
  have before : spanWork span = 11 := by
    rw [spanWork, open_, if_neg (by decide), if_pos busy]
  have after : spanWork { span with status := .finished error returned } = 10 := by
    rw [spanWork, open_]
    rfl
  rw [pieceWork, pieceWork, changed]
  omega

/-- While a piece is in flight there is something to wait for. -/
theorem anyPending_of_mem (b : Batch AioPiece) (blocks : AioSound b) (e : Nat × AioPiece)
    (listed : e ∈ b.inflight.list) : Aio.anyPending b.inflight = true := by
  have counted := blocks e.1 e.2 ((mem_list b.inflight e.1 e.2).1 listed)
  obtain ⟨span, inside, open_⟩ := exists_undone e.2 counted.1 counted.2
  exact List.any_eq_true.2 ⟨e, listed, List.any_eq_true.2 ⟨span, inside, open_⟩⟩

theorem aio_work (cfg : Config) (connected : Bool) (b : Batch AioPiece) (channel : Channel)
    (event : ThreadEvent) (turn : Turn (Batch AioPiece)) (sound : Sound connected b channel)
    (blocks : AioSound b) (going : progresses event = true)
    (taken : Aio.step cfg connected b channel event = some turn) :
    threadWork turn.channel (.aio turn.state) < threadWork channel (.aio b) := by
  have keep : ∀ (after : Batch AioPiece) (channel' : Channel), Keeps b after →
      batchWork after channel' < batchWork b channel →
      threadWork channel' (.aio after) < threadWork channel (.aio b) := by
    intro after channel' keeps less
    have flight : flightWork after.inflight ≤ flightWork b.inflight := by
      rcases keeps.inflight with same | empty
      · rw [same]
      · rw [empty]
        exact Nat.zero_le _
    exact Nat.add_lt_add_of_lt_of_le less flight
  cases event with
  | tryRecv =>
    simp only [Aio.step] at taken
    split at taken
    · rename_i here
      cases taken
      exact keep _ _ (tryRecv_keeps _ connected b channel) (tryRecv_work _ connected b channel here)
    · rename_i here
      cases taken
      exact keep _ _ (drainChannel_keeps .submit b channel) (drainChannel_work .submit b channel here)
    · cases taken
  | startNext env =>
    simp only [Aio.step] at taken
    split at taken
    · rename_i here
      cases taken
      cases next : b.nextJob cfg.slots with
      | none =>
        simp only [Batch.startNext, next]
        exact keep _ _ (leaveStart_keeps b channel) (leaveStart_work b channel here)
      | some job =>
        have moved := startNext_work cfg.slots cfg.discardWrites (Aio.startPiece env) b channel job next
        have flight := startNext_flight cfg env b channel job next
        rw [jobWork] at moved
        simp only [threadWork]
        omega
    · cases taken
  | recv =>
    simp only [Aio.step] at taken
    split at taken
    · rename_i here
      exact keep _ _ (recv_keeps connected b channel turn taken)
        (recv_work connected b channel turn here (sound.listening here) taken)
    · cases taken
  | wait answer =>
    simp only [Aio.step] at taken
    split at taken
    · rename_i here
      obtain ⟨e, listed⟩ := List.exists_mem_of_ne_nil _ (sound.busy here)
      rw [if_pos (anyPending_of_mem b blocks e listed)] at taken
      split at taken
      · split at taken
        · rename_i ready
          cases taken
          exact aio_harvestTo_work b channel here ready
        · cases taken
      · cases going
      · cases taken
        simp only [threadWork, Batch.go, batchWork, here, rank]
        omega
    · cases taken
  | drainPiece key =>
    simp only [Aio.step] at taken
    split at taken
    · rename_i n piece here found
      split at taken
      · cases taken
        have counted := blocks key piece found
        have positive := pieceWork_positive piece counted.1 counted.2
        have removed := weight_erase pieceWork b.inflight key piece found
        simp only [threadWork, batchWork, flightWork]
        omega
      · cases taken
    · cases taken
  | leaveDrain =>
    simp only [Aio.step] at taken
    split at taken
    · rename_i n here
      split at taken
      · cases taken
        simp only [threadWork, Batch.go, batchWork, here, rank]
        omega
      · cases taken
    · cases taken
  | failWaiting =>
    simp only [Aio.step] at taken
    split at taken
    · rename_i here
      cases taken
      exact keep _ _ ⟨rfl, Or.inl rfl⟩ (failWaiting_work .submit b channel here)
    · cases taken
  | dropReceiver =>
    simp only [Aio.step] at taken
    split at taken
    · rename_i here
      cases taken
      exact keep _ _ (exit_keeps b channel) (exit_work b channel (by rw [here]; decide))
    · cases taken
  | aioDone key i error returned =>
    simp only [Aio.step] at taken
    split at taken
    · rename_i piece found
      split at taken
      · rename_i expected at_
        cases taken
        have less := finishSpan_work piece i error returned _ at_ rfl rfl
        have replaced := weight_replace pieceWork b.inflight key piece
          (Aio.finishSpan piece i error returned) found
        simp only [threadWork, batchWork, flightWork]
        omega
      · cases taken
    · cases taken
  | _ => cases taken
where
  startNext_flight (cfg : Config) (env : StartEnv) (b : Batch AioPiece) (channel : Channel)
      (job : DiskWriteJob) (next : b.nextJob cfg.slots = some job) :
      flightWork (b.startNext cfg.slots cfg.discardWrites (Aio.startPiece env) channel).state.inflight ≤
        flightWork b.inflight + 11 * spanCount job := by
    simp only [Batch.startNext, next]
    split_ifs
    · exact Nat.le_add_right _ _
    · cases answer : (Aio.startPiece env b.nextToken job).2 with
      | refused _ | completed => exact Nat.le_add_right _ _
      | started piece =>
        have started := (aio_startPiece_started env b.nextToken job piece answer).2.2
        have inserted := weight_insert_le pieceWork b.inflight b.nextToken piece
        rw [started] at inserted
        exact inserted

theorem sync_work (cfg : Config) (connected : Bool) (s : Sync) (channel : Channel)
    (event : ThreadEvent) (turn : Turn Sync) (sound : SyncSound s channel)
    (taken : s.step cfg connected channel event = some turn) :
    threadWork turn.channel (.sync turn.state) < threadWork channel (.sync s) := by
  cases event with
  | recv =>
    simp only [Sync.step] at taken
    split at taken
    · rename_i here
      split at taken
      · rename_i job rest queued
        have more : queueWork channel.queue = jobWork job + 4 + queueWork rest := by
          rw [queued, queueWork, List.map_cons, List.sum_cons, queueWork]
        split at taken
        · cases taken
          simp only [threadWork]
          omega
        · cases taken
          simp only [threadWork, more, here, Option.isSome_some, if_true]
          split_ifs <;> omega
      · split at taken
        · cases taken
        · cases taken
          simp only [threadWork, here, queueWork, List.map_nil, List.sum_nil, Option.isSome_none,
            if_true, reduceCtorEq, if_false, Bool.false_eq_true]
          omega
    · cases taken
  | write ok =>
    simp only [Sync.step] at taken
    split at taken
    · cases taken
    · rename_i job writing
      cases taken
      have live : s.phase ≠ .exited := by
        intro ended
        cases sound with
        | receiving here _ _ => exact absurd (here.symm.trans ended) (fun clash => by cases clash)
        | writing here _ _ => exact absurd (here.symm.trans ended) (fun clash => by cases clash)
        | exited _ free _ _ => exact absurd (writing.symm.trans free) (fun clash => by cases clash)
      simp only [threadWork, writing, if_neg live, Option.isSome_none, Option.isSome_some, if_true,
        Bool.false_eq_true, if_false, reduceCtorEq]
      omega
  | _ => cases taken

/-- Every turn, an interrupted wait apart, leaves a thread with less work. -/
theorem thread_work (cfg : Config) (connected : Bool) (thread : Thread) (channel : Channel)
    (event : ThreadEvent) (turn : Turn Thread) (sound : ThreadSound connected channel thread)
    (going : progresses event = true)
    (taken : thread.step cfg connected channel event = some turn) :
    threadWork turn.channel turn.state < threadWork channel thread := by
  cases thread with
  | sync s =>
    obtain ⟨inner, stepped, same⟩ := Option.map_eq_some_iff.1 taken
    rw [← same]
    exact sync_work cfg connected s channel event inner sound stepped
  | uring u =>
    obtain ⟨inner, stepped, same⟩ := Option.map_eq_some_iff.1 taken
    rw [← same]
    exact uring_work cfg connected u channel event inner sound.1 stepped
  | aio b =>
    obtain ⟨inner, stepped, same⟩ := Option.map_eq_some_iff.1 taken
    rw [← same]
    exact aio_work cfg connected b channel event inner sound.1 sound.2.1 going stepped

/-! ### Rest -/

/-- What a thread and the kernel do unless something fails. -/
def expected : ThreadEvent → Bool
  | .setUp ok => ok
  | .wait .completed => true
  | .wait _ => false
  | .deadline => false
  | _ => true

/-- Nothing is to be expected of the thread or of the kernel before another job comes. -/
def AtRest (cfg : Config) (connected : Bool) (channel : Channel) (thread : Thread) : Prop :=
  ∀ event, expected event = true → thread.step cfg connected channel event = none

theorem recv_rest {P : Type} (connected : Bool) (b : Batch P) (channel : Channel)
    (rest : b.recv connected channel = none) : channel.queue = [] := by
  rw [Batch.recv] at rest
  split at rest
  · cases rest
  · assumption

/-- With a piece in flight, an operation is pending or completed. -/
theorem ring_busy (u : Uring) (ring : RingSound u) (busy : u.batch.inflight.list ≠ []) :
    (∃ tag, u.ring.pending[0]? = some tag) ∨ u.ring.cq ≠ [] := by
  obtain ⟨e, listed⟩ := List.exists_mem_of_ne_nil _ busy
  have counted := ring.counted e.1 e.2 ((mem_list u.batch.inflight e.1 e.2).1 listed)
  rw [counted.2] at counted
  obtain ⟨tag, member, _⟩ := List.countP_pos_iff.1 counted.1
  rcases List.mem_append.1 member with pending | completed
  · have inside : 0 < u.ring.pending.length := List.length_pos_of_mem pending
    exact Or.inl ⟨_, List.getElem?_eq_getElem inside⟩
  · refine Or.inr ?_
    intro none
    rw [none] at completed
    cases completed

theorem uring_rest (cfg : Config) (connected : Bool) (channel : Channel) (u : Uring)
    (sound : Sound connected u.batch channel) (ring : RingSound u)
    (rest : AtRest cfg connected channel (.uring u)) : channel.queue = [] ∧ u.batch.held = [] := by
  have still : ∀ event, expected event = true → u.step cfg connected channel event = none := by
    intro event normal
    exact Option.map_eq_none_iff.1 (rest event normal)
  have kernel : u.ring.pending[0]? = none := by
    have none := still (.uringDone 0 0) rfl
    simp only [Uring.step] at none
    split at none
    · cases none
    · assumption
  have flight : u.batch.inflight.list ≠ [] → u.ring.cq ≠ [] := by
    intro busy
    rcases ring_busy u ring busy with ⟨tag, pending⟩ | completed
    · rw [kernel] at pending
      cases pending
    · exact completed
  cases here : u.batch.phase with
  | setUp =>
    have none := still (.setUp true) rfl
    simp [Uring.step, here] at none
  | fill =>
    have none := still .tryRecv rfl
    simp [Uring.step, here] at none
  | start =>
    have none := still (.startNext ⟨true, fun _ _ => .pushed, true, true⟩) rfl
    simp [Uring.step, here] at none
  | receive =>
    have none := still .recv rfl
    rw [Uring.step, if_pos here, Option.map_eq_none_iff] at none
    exact ⟨recv_rest connected u.batch channel none,
      held_nil connected u.batch channel sound (by rw [here]; rfl) (by rw [here]; rfl)⟩
  | suspend =>
    have completed := flight (sound.busy here)
    have none := still (.wait .completed) rfl
    simp [Uring.step, here, completed] at none
  | draining n =>
    have leave := still .leaveDrain rfl
    have none := still (.wait .completed) rfl
    simp only [Uring.step, here] at leave none
    split at leave
    · cases leave
    · rename_i going
      rw [Bool.or_eq_true, not_or] at going
      have completed := flight (fun nothing => going.1 ((Batch.idle_iff u.batch).2 nothing))
      simp [going.1, going.2, completed] at none
  | failWaiting =>
    have none := still .failWaiting rfl
    simp [Uring.step, here] at none
  | drainChannel =>
    have none := still .tryRecv rfl
    simp [Uring.step, here] at none
  | dropReceiver =>
    have none := still .dropReceiver rfl
    simp [Uring.step, here] at none
  | exited =>
    exact ⟨sound.drained here,
      held_nil connected u.batch channel sound (by rw [here]; rfl) (by rw [here]; rfl)⟩

/-- A piece in flight whose kernel has nothing to do has a result to take. -/
theorem finished_of_settled (piece : AioPiece) (positive : 0 < piece.remaining)
    (counted : Counted piece)
    (settled : ∀ span ∈ piece.spans, undone span = true → span.status ≠ .inProgress) :
    piece.spans.any AioSpan.finished = true ∧ Aio.drained piece = true := by
  obtain ⟨span, inside, open_⟩ := exists_undone piece positive counted
  constructor
  · refine List.any_eq_true.2 ⟨span, inside, ?_⟩
    rw [AioSpan.finished, Bool.and_eq_true, decide_eq_true_eq]
    exact ⟨open_, settled span inside open_⟩
  · refine List.all_eq_true.2 ?_
    intro other listed
    cases taken : other.done with
    | true => rfl
    | false =>
      rw [Bool.false_or, decide_eq_true_eq]
      exact settled other listed (by rw [undone, taken]; rfl)

theorem aio_rest (cfg : Config) (connected : Bool) (channel : Channel) (b : Batch AioPiece)
    (sound : Sound connected b channel) (blocks : AioSound b) (begun : b.phase ≠ .setUp)
    (rest : AtRest cfg connected channel (.aio b)) : channel.queue = [] ∧ b.held = [] := by
  have still : ∀ event, expected event = true → Aio.step cfg connected b channel event = none := by
    intro event normal
    exact Option.map_eq_none_iff.1 (rest event normal)
  have settled : ∀ key piece, get? b.inflight key = some piece →
      ∀ span ∈ piece.spans, undone span = true → span.status ≠ .inProgress := by
    intro key piece found span inside open_ busy
    obtain ⟨i, at_⟩ := List.mem_iff_getElem?.1 inside
    have none := still (.aioDone key i 0 0) rfl
    obtain ⟨expected, status, done⟩ := span
    rw [undone, Bool.not_eq_true'] at open_
    rw [show done = false from open_, show status = .inProgress from busy] at at_
    simp [Aio.step, found, at_] at none
  have flight : ∀ e ∈ b.inflight.list,
      e.2.spans.any AioSpan.finished = true ∧ Aio.drained e.2 = true := by
    intro e listed
    have found := (mem_list b.inflight e.1 e.2).1 listed
    have counted := blocks e.1 e.2 found
    exact finished_of_settled e.2 counted.1 counted.2 (settled e.1 e.2 found)
  cases here : b.phase with
  | setUp => exact absurd here begun
  | fill =>
    have none := still .tryRecv rfl
    simp [Aio.step, here] at none
  | start =>
    have none := still (.startNext ⟨true, fun _ _ => .pushed, true, true⟩) rfl
    simp [Aio.step, here] at none
  | receive =>
    have none := still .recv rfl
    rw [Aio.step, if_pos here] at none
    exact ⟨recv_rest connected b channel none,
      held_nil connected b channel sound (by rw [here]; rfl) (by rw [here]; rfl)⟩
  | suspend =>
    obtain ⟨e, listed⟩ := List.exists_mem_of_ne_nil _ (sound.busy here)
    have ready : Aio.ready b.inflight = true :=
      List.any_eq_true.2 ⟨e, listed, (flight e listed).1⟩
    have none := still (.wait .completed) rfl
    simp [Aio.step, here, ready, anyPending_of_mem b blocks e listed] at none
  | draining n =>
    have leave := still .leaveDrain rfl
    simp only [Aio.step, here] at leave
    split at leave
    · cases leave
    · rename_i busy
      have something : b.inflight.list ≠ [] := fun nothing => busy ((Batch.idle_iff b).2 nothing)
      obtain ⟨e, listed⟩ := List.exists_mem_of_ne_nil _ something
      have none := still (.drainPiece e.1) rfl
      simp [Aio.step, here, (mem_list b.inflight e.1 e.2).1 listed, (flight e listed).2] at none
  | failWaiting =>
    have none := still .failWaiting rfl
    simp [Aio.step, here] at none
  | drainChannel =>
    have none := still .tryRecv rfl
    simp [Aio.step, here] at none
  | dropReceiver =>
    have none := still .dropReceiver rfl
    simp [Aio.step, here] at none
  | exited =>
    exact ⟨sound.drained here,
      held_nil connected b channel sound (by rw [here]; rfl) (by rw [here]; rfl)⟩

theorem sync_rest (cfg : Config) (connected : Bool) (channel : Channel) (s : Sync)
    (sound : SyncSound s channel) (rest : AtRest cfg connected channel (.sync s)) :
    channel.queue = [] ∧ s.held = [] := by
  have still : ∀ event, expected event = true → s.step cfg connected channel event = none := by
    intro event normal
    exact Option.map_eq_none_iff.1 (rest event normal)
  cases sound with
  | receiving here free _ =>
    have none := still .recv rfl
    rw [Sync.step, if_pos here] at none
    split at none
    · split at none
      · cases none
      · cases none
    · rename_i queued
      exact ⟨queued, by rw [Sync.held, free]; rfl⟩
  | writing _ busy _ =>
    have none := still (.write true) rfl
    rw [Sync.step] at none
    split at none
    · exact absurd (by assumption) busy
    · cases none
  | exited _ free _ drained => exact ⟨drained, by rw [Sync.held, free]; rfl⟩

/-- A sound thread at rest is answerable for no job, and none is in its channel. -/
theorem thread_rest (cfg : Config) (connected : Bool) (channel : Channel) (thread : Thread)
    (sound : ThreadSound connected channel thread) (rest : AtRest cfg connected channel thread) :
    channel.queue = [] ∧ thread.held = [] := by
  cases thread with
  | sync s => exact sync_rest cfg connected channel s sound rest
  | uring u => exact uring_rest cfg connected channel u sound.1 sound.2 rest
  | aio b => exact aio_rest cfg connected channel b sound.1 sound.2.1 sound.2.2 rest

end Seedchamp.Runtime.DiskProgress
