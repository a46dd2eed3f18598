import Seedchamp.Runtime.DiskJobs
import Seedchamp.Foundation.Machine

/-!
The three disk threads: io_uring with its ring of submissions and completions, POSIX AIO with the
control blocks in the pieces, and the plain thread that writes one job at a time.
-/

namespace Seedchamp.Runtime.DiskThreads
open Runtime.DiskJobs Disk.Spans Foundation.Machine Foundation.KeyedRows Foundation.KeyedMap

/-! ### io_uring -/

def packUserData (pieceKey spanIdx : Nat) : Nat := pieceKey * 2 ^ 16 % 2 ^ 64 + spanIdx % 2 ^ 16

def unpackUserData (userData : Nat) : Nat × Nat := (userData / 2 ^ 16, userData % 2 ^ 16)

structure UringPiece where
  job : DiskWriteJob
  expected : List Nat
  remaining : Nat
  failed : Option WriteError
  deriving DecidableEq, Repr

instance : InFlight UringPiece := ⟨UringPiece.job, UringPiece.remaining, UringPiece.failed⟩

/-- `pending` holds the user data of the operations pushed and not completed, `cq` the completions
that nobody has taken. -/
structure Ring where
  pending : List Nat
  cq : List (Nat × Int)
  deriving DecidableEq, Repr

structure Uring where
  batch : Batch UringPiece
  ring : Ring

/-- One completion, accounted to its piece. -/
def UringPiece.account (piece : UringPiece) (cqe : Nat × Int) : UringPiece :=
  let spanIdx := (unpackUserData cqe.1).2
  let expected := piece.expected[spanIdx]?.getD 0
  { piece with
    failed :=
      if cqe.2 < 0 then some (.errno (-cqe.2))
      else if asU32 cqe.2.toNat = expected then piece.failed
      else some (.shortWrite cqe.2 expected spanIdx)
    remaining := piece.remaining - 1 }

def harvestCqes (cq : List (Nat × Int)) (inflight : Map UringPiece) :
    Map UringPiece × List Delivery :=
  harvest (fun cqe => (unpackUserData cqe.1).1) (fun cqe piece => piece.account cqe) cq inflight

/-- One attempt to push an entry: the queue takes it, or it is full and a submit runs. -/
inductive PushAttempt where
  | pushed
  | fullSubmitted
  | fullSubmitFailed
  deriving DecidableEq, Repr

/-- What the system answers while a piece is started. -/
structure StartEnv where
  opens : Bool
  attempts : Nat → Nat → PushAttempt
  submits : Bool
  aioWrites : Bool

/-- At most 64 attempts to push one entry; `none` when it is in. -/
def pushSpan (attempt : Nat → PushAttempt) : Nat → Nat → Option WriteError
  | 0, _ => some .queueFull
  | turns + 1, i =>
    match attempt i with
    | .pushed => none
    | .fullSubmitted => pushSpan attempt turns (i + 1)
    | .fullSubmitFailed => some .submit

/-- Push the entries of the spans from number `submitted` on: how many are in at the end, and what
stopped the loop. -/
def pushSpans (attempts : Nat → Nat → PushAttempt) : Nat → Nat → Nat × Option WriteError
  | 0, submitted => (submitted, none)
  | spans + 1, submitted =>
    match pushSpan (attempts submitted) 64 0 with
    | none => pushSpans attempts spans (submitted + 1)
    | some problem => (submitted, some problem)

/-- Submit the spans of a piece. A piece of which anything was pushed stays in flight. -/
def Uring.submitSpans (env : StartEnv) (job : DiskWriteJob) (expected : List Nat) :
    Start UringPiece :=
  let pushed := pushSpans env.attempts expected.length 0
  let problem := if pushed.2.isNone && !env.submits then some .submit else pushed.2
  match problem with
  | some problem =>
    if pushed.1 = 0 then .refused problem else .started ⟨job, expected, pushed.1, some problem⟩
  | none => .started ⟨job, expected, pushed.1, none⟩

def Uring.startPiece (entries : Nat) (env : StartEnv) (token : Nat) (job : DiskWriteJob) :
    Nat × Start UringPiece :=
  if job.data.length < job.plen then
    (token, .refused (.shortBuffer job.index job.data.length job.plen))
  else
    match job.layout.spansForPiece job.index with
    | .error problem => (token, .refused (.layout problem))
    | .ok spans =>
      if spans.isEmpty then (token, .completed)
      else if entries < spans.length then
        (token, .refused (.tooManySpans job.index spans.length entries))
      else
        let sum := (spans.map IoSpan.length).sum
        (advanceToken token,
          if !env.opens then .refused .openFailed
          else if sum ≠ job.plen then .refused (.spanSum job.index sum job.plen)
          else Uring.submitSpans env job (spans.map (fun span => asU32 span.length)))

/-- The user data of the entries that starting a piece has pushed. -/
def pushedTags (token : Nat) : Start UringPiece → List Nat
  | .started piece => (List.range piece.remaining).map (packUserData token)
  | _ => []

/-! ### POSIX AIO -/

inductive AioStatus where
  | inProgress
  | finished (error : Nat) (returned : Int)
  deriving DecidableEq, Repr

/-- A span of a piece in flight: its control block, and whether its result has been taken. -/
structure AioSpan where
  expected : Nat
  status : AioStatus
  done : Bool
  deriving DecidableEq, Repr

structure AioPiece where
  job : DiskWriteJob
  spans : List AioSpan
  remaining : Nat
  failed : Option WriteError
  deriving DecidableEq, Repr

instance : InFlight AioPiece := ⟨AioPiece.job, AioPiece.remaining, AioPiece.failed⟩

def AioSpan.finished (span : AioSpan) : Bool := !span.done && decide (span.status ≠ .inProgress)

/-- Take the result of one span if it has one. -/
def AioPiece.takeResult (piece : AioPiece) (i : Nat) : AioPiece :=
  match piece.spans[i]? with
  | some ⟨expected, .finished error returned, false⟩ =>
    { piece with
      spans := piece.spans.set i ⟨expected, .finished error returned, true⟩
      remaining := piece.remaining - 1
      failed :=
        if error ≠ 0 then some (.errno error)
        else if returned < 0 then some (.errno returned)
        else if returned = expected then piece.failed
        else some (.shortWrite returned expected i) }
  | _ => piece

def AioPiece.harvest (piece : AioPiece) : AioPiece :=
  (List.range piece.spans.length).foldl AioPiece.takeResult piece

def harvestCompletions (inflight : Map AioPiece) : Map AioPiece × List Delivery :=
  harvest (fun key => key) (fun _ piece => piece.harvest) (keys inflight) inflight

def Aio.startPiece (env : StartEnv) (token : Nat) (job : DiskWriteJob) : Nat × Start AioPiece :=
  if job.data.length < job.plen then
    (token, .refused (.shortBuffer job.index job.data.length job.plen))
  else
    match job.layout.spansForPiece job.index with
    | .error problem => (token, .refused (.layout problem))
    | .ok spans =>
      let sum := (spans.map IoSpan.length).sum
      if spans.isEmpty then (token, .completed)
      else if !env.opens then (token, .refused .openFailed)
      else if sum ≠ job.plen then (token, .refused (.spanSum job.index sum job.plen))
      else if !env.aioWrites then (token, .refused .submit)
      else
        (advanceToken token,
          .started ⟨job, spans.map (fun span => ⟨span.length, .inProgress, false⟩), spans.length, none⟩)

/-! ### The threads -/

/-- The plain thread: the job it is writing. -/
structure Sync where
  current : Option DiskWriteJob
  phase : Phase
  deriving DecidableEq, Repr

inductive Thread where
  | sync (thread : Sync)
  | uring (thread : Uring)
  | aio (batch : Batch AioPiece)

/-- What `submit_and_wait` and `aio_suspend` answer. -/
inductive Wait where
  | completed
  | interrupted
  | failed
  deriving DecidableEq, Repr

inductive ThreadEvent where
  | setUp (ok : Bool)
  | tryRecv
  | startNext (env : StartEnv)
  | recv
  | wait (answer : Wait)
  | drainPiece (key : Nat)
  | leaveDrain
  | deadline
  | failWaiting
  | dropReceiver
  | write (ok : Bool)
  /-- The kernel completes the `i`-th pending operation of a ring. -/
  | uringDone (i : Nat) (res : Int)
  /-- The kernel finishes the control block of a span. -/
  | aioDone (key i error : Nat) (returned : Int)

structure Config where
  depth : Nat
  discardWrites : Bool
  deriving DecidableEq, Repr

/-- `depth.max(1)`. -/
def Config.slots (cfg : Config) : Nat := max cfg.depth 1

def ringEntries (depth : Nat) : Nat := min (max (depth * 4) 16) 4096

namespace Sync

def step (cfg : Config) (connected : Bool) (s : Sync) (channel : Channel) :
    ThreadEvent → Option (Turn Sync)
  | .recv =>
    if s.phase = .receive then
      match channel.queue with
      | job :: rest =>
        if cfg.discardWrites then
          some ⟨{ channel with queue := rest }, s, [completeDiscardJob job], []⟩
        else some ⟨{ channel with queue := rest }, ⟨some job, .suspend⟩, [], []⟩
      | [] => if connected then none else some ⟨⟨[], false⟩, ⟨none, .exited⟩, [], []⟩
    else none
  | .write ok =>
    match s.current with
    | none => none
    | some job =>
      let result :=
        if job.data.length < job.plen then
          .error (.shortBuffer job.index job.data.length job.plen)
        else if ok then .ok () else .error .pwrite
      some ⟨channel, ⟨none, .receive⟩, [completeWriteJob job result], []⟩
  | _ => none

def held (s : Sync) : List DiskWriteJob := s.current.toList

end Sync

namespace Uring

def withBatch (u : Uring) (turn : Turn (Batch UringPiece)) : Turn Uring :=
  turn.map (fun batch => { u with batch := batch })

/-- Completions are taken and accounted, and the thread goes on in `phase`. -/
def harvestTo (u : Uring) (channel : Channel) (phase : Phase) : Turn Uring :=
  let taken := harvestCqes u.ring.cq u.batch.inflight
  ⟨channel, ⟨{ u.batch with inflight := taken.1, phase := phase }, { u.ring with cq := [] }⟩, taken.2, []⟩

/-- The fatal path begins: every piece in flight counts as failed. -/
def markFailed (u : Uring) : Uring :=
  { u with batch := { u.batch with
      inflight :=
        { list := u.batch.inflight.list.map (fun e =>
            (e.1, { e.2 with failed := e.2.failed.or (some .submit) }))
          unique := by
            rw [List.map_map]
            exact u.batch.inflight.unique }
      phase := .draining 0 } }

/-- `mem::forget(inflight)`: what is still in flight never gets an outcome. -/
def forget (u : Uring) (channel : Channel) : Turn Uring :=
  ⟨channel, { u with batch := { u.batch with inflight := Rows.empty, phase := .failWaiting } }, [],
    Batch.jobs u.batch.inflight⟩

def step (cfg : Config) (connected : Bool) (u : Uring) (channel : Channel) :
    ThreadEvent → Option (Turn Uring)
  | .setUp ok =>
    if u.batch.phase = .setUp then
      some (u.withBatch (if ok then u.batch.go channel .fill else u.batch.exit channel))
    else none
  | .tryRecv =>
    match u.batch.phase with
    | .fill => some (u.withBatch (u.batch.tryRecv cfg.slots connected channel))
    | .drainChannel => some (u.withBatch (u.batch.drainChannel .submit channel))
    | _ => none
  | .startNext env =>
    if u.batch.phase = .start then
      let start := Uring.startPiece (ringEntries cfg.depth) env
      let turn := u.batch.startNext cfg.slots cfg.discardWrites start channel
      let tags :=
        match u.batch.nextJob cfg.slots with
        | some job => if cfg.discardWrites then [] else pushedTags u.batch.nextToken
            (start u.batch.nextToken job).2
        | none => []
      some (turn.map (fun batch => ⟨batch, { u.ring with pending := u.ring.pending ++ tags }⟩))
    else none
  | .recv =>
    if u.batch.phase = .receive then (u.batch.recv connected channel).map u.withBatch else none
  | .wait answer =>
    match u.batch.phase, answer with
    | .suspend, .completed =>
      if u.ring.cq = [] then none else some (u.harvestTo channel .fill)
    | .suspend, .failed => some ⟨channel, u.markFailed, [], []⟩
    | .draining n, .completed =>
      if u.batch.idle || decide (8 ≤ n) || u.ring.cq.isEmpty then none
      else some (u.harvestTo channel (.draining 0))
    | .draining n, .failed =>
      if u.batch.idle || decide (8 ≤ n) then none
      else some (u.harvestTo channel (.draining (n + 1)))
    | _, _ => none
  | .leaveDrain =>
    match u.batch.phase with
    | .draining n => if u.batch.idle || decide (8 ≤ n) then some (u.forget channel) else none
    | _ => none
  | .deadline =>
    match u.batch.phase with
    | .draining _ => some (u.forget channel)
    | _ => none
  | .failWaiting =>
    if u.batch.phase = .failWaiting then some (u.withBatch (u.batch.failWaiting .submit channel))
    else none
  | .dropReceiver =>
    if u.batch.phase = .dropReceiver then some (u.withBatch (u.batch.exit channel)) else none
  | .uringDone i res =>
    match u.ring.pending[i]? with
    | some tag =>
      some ⟨channel, { u with ring := ⟨u.ring.pending.eraseIdx i, u.ring.cq ++ [(tag, res)]⟩ }, [], []⟩
    | none => none
  | _ => none

end Uring

namespace Aio

/-- Some control block has finished and its result has not been taken. -/
def ready (inflight : Map AioPiece) : Bool :=
  inflight.list.any (fun e => e.2.spans.any AioSpan.finished)

/-- `collect_pending_ptrs` is not empty. -/
def anyPending (inflight : Map AioPiece) : Bool :=
  inflight.list.any (fun e => e.2.spans.any (fun span => !span.done))

def harvestTo (b : Batch AioPiece) (channel : Channel) (phase : Phase) : Turn (Batch AioPiece) :=
  let taken := harvestCompletions b.inflight
  ⟨channel, { b with inflight := taken.1, phase := phase }, taken.2, []⟩

/-- `cancel_and_drain_piece` has nothing left to wait for. -/
def drained (piece : AioPiece) : Bool :=
  piece.spans.all (fun span => span.done || decide (span.status ≠ .inProgress))

/-- The kernel finishes the control block of span `i`. -/
def finishSpan (piece : AioPiece) (i error : Nat) (returned : Int) : AioPiece :=
  { piece with
    spans := piece.spans.modify i (fun span => { span with status := .finished error returned }) }

def step (cfg : Config) (connected : Bool) (b : Batch AioPiece) (channel : Channel) :
    ThreadEvent → Option (Turn (Batch AioPiece))
  | .tryRecv =>
    match b.phase with
    | .fill => some (b.tryRecv cfg.slots connected channel)
    | .drainChannel => some (b.drainChannel .submit channel)
    | _ => none
  | .startNext env =>
    if b.phase = .start then
      some (b.startNext cfg.slots cfg.discardWrites (Aio.startPiece env) channel)
    else none
  | .recv => if b.phase = .receive then b.recv connected channel else none
  | .wait answer =>
    if b.phase = .suspend then
      if anyPending b.inflight then
        match answer with
        | .completed => if ready b.inflight then some (harvestTo b channel .fill) else none
        | .interrupted => some (harvestTo b channel .fill)
        | .failed => some (b.go channel (.draining 0))
      else some (harvestTo b channel .fill)
    else none
  | .drainPiece key =>
    match b.phase, get? b.inflight key with
    | .draining _, some piece =>
      if drained piece then
        some ⟨channel, { b with inflight := erase b.inflight key },
          [completeWriteJob piece.job (.error .submit)], []⟩
      else none
    | _, _ => none
  | .leaveDrain =>
    match b.phase with
    | .draining _ => if b.idle then some (b.go channel .failWaiting) else none
    | _ => none
  | .failWaiting =>
    if b.phase = .failWaiting then some (b.failWaiting .submit channel) else none
  | .dropReceiver => if b.phase = .dropReceiver then some (b.exit channel) else none
  | .aioDone key i error returned =>
    match get? b.inflight key with
    | some piece =>
      match piece.spans[i]? with
      | some ⟨_, .inProgress, false⟩ =>
        some ⟨channel,
          { b with inflight := insert b.inflight key (finishSpan piece i error returned) }, [], []⟩
      | _ => none
    | none => none
  | _ => none

end Aio

namespace Thread

def step (cfg : Config) (connected : Bool) (thread : Thread) (channel : Channel)
    (event : ThreadEvent) : Option (Turn Thread) :=
  match thread with
  | .sync s => (s.step cfg connected channel event).map (Turn.map .sync)
  | .uring u => (u.step cfg connected channel event).map (Turn.map .uring)
  | .aio b => (Aio.step cfg connected b channel event).map (Turn.map .aio)

def held : Thread → List DiskWriteJob
  | .sync s => s.held
  | .uring u => u.batch.held
  | .aio b => b.held

end Thread

end Seedchamp.Runtime.DiskThreads
