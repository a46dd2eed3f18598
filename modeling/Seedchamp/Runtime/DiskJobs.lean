import Seedchamp.Disk.Spans
import Seedchamp.Foundation.Custody
import Seedchamp.Foundation.KeyedMap

/-!
Piece-write jobs and the loop that the io_uring and the POSIX AIO disk threads share: fill from the
channel, start pieces, block on the channel when nothing is in flight, and the fatal exit.
-/

namespace Seedchamp.Runtime.DiskJobs
open Disk.Spans Foundation.KeyedRows Foundation.KeyedMap

/-- `reply` names the hand-off: one number for every job, so that outcomes can be told apart. -/
structure DiskWriteJob where
  index : Nat
  plen : Nat
  data : List UInt8
  layout : StorageLayout
  reply : Nat
  deriving DecidableEq, Repr

inductive WriteError where
  | shortBuffer (index got plen : Nat)
  | layout (problem : Error)
  | tooManySpans (index spans entries : Nat)
  | openFailed
  | spanSum (index sum plen : Nat)
  | submit
  | queueFull
  | errno (code : Int)
  | shortWrite (got : Int) (expected span : Nat)
  | pwrite
  deriving DecidableEq, Repr

inductive HashOutcome where
  | ok (index plen : Nat) (data : List UInt8)
  | hashFail (index plen : Nat) (data : List UInt8)
  | writeFail (index plen : Nat) (data : List UInt8)
  deriving DecidableEq, Repr

/-- The piece an outcome speaks of, with the buffer that goes back. -/
def HashOutcome.piece : HashOutcome → Nat × Nat × List UInt8
  | .ok index plen data => (index, plen, data)
  | .hashFail index plen data => (index, plen, data)
  | .writeFail index plen data => (index, plen, data)

/-- An outcome sent on the reply channel of a job, about the piece of that job. -/
structure Delivery where
  job : DiskWriteJob
  outcome : HashOutcome
  about : outcome.piece = (job.index, job.plen, job.data)
  deriving DecidableEq, Repr

namespace Delivery

def ok (job : DiskWriteJob) : Delivery := ⟨job, .ok job.index job.plen job.data, rfl⟩

def hashFail (job : DiskWriteJob) : Delivery := ⟨job, .hashFail job.index job.plen job.data, rfl⟩

def writeFail (job : DiskWriteJob) : Delivery := ⟨job, .writeFail job.index job.plen job.data, rfl⟩

end Delivery

def completeWriteJob (job : DiskWriteJob) (result : Except WriteError Unit) : Delivery :=
  match result with
  | .ok () => .ok job
  | .error _ => .writeFail job

/-- Discard path: no I/O, always ok. -/
def completeDiscardJob (job : DiskWriteJob) : Delivery := .ok job

@[simp] theorem completeWriteJob_job (job : DiskWriteJob) (result : Except WriteError Unit) :
    (completeWriteJob job result).job = job := by
  cases result <;> rfl

@[simp] theorem completeDiscardJob_job (job : DiskWriteJob) : (completeDiscardJob job).job = job := rfl

/-- The bounded channel of one disk thread. -/
structure Channel where
  queue : List DiskWriteJob
  receiver : Bool
  deriving DecidableEq, Repr

/-- Where a disk thread stands in its main function. -/
inductive Phase where
  | setUp
  | fill
  | start
  | receive
  | suspend
  | draining (consecutiveFatal : Nat)
  | failWaiting
  | drainChannel
  | dropReceiver
  | exited
  deriving DecidableEq, Repr

/-- What both kinds of piece in flight carry. -/
class InFlight (P : Type) where
  job : P → DiskWriteJob
  remaining : P → Nat
  failed : P → Option WriteError

/-- The local variables that both main functions keep. -/
structure Batch (P : Type) where
  waiting : List DiskWriteJob
  inflight : Map P
  nextToken : Nat
  channelOpen : Bool
  phase : Phase

/-- One turn of a thread: its channel and state after it, the outcomes it sent, and the jobs it
dropped without an outcome. -/
structure Turn (S : Type) where
  channel : Channel
  state : S
  delivered : List Delivery
  lost : List DiskWriteJob

def Turn.map {S T : Type} (change : S → T) (turn : Turn S) : Turn T :=
  ⟨turn.channel, change turn.state, turn.delivered, turn.lost⟩

/-- What `start_piece` answers. -/
inductive Start (P : Type) where
  | refused (problem : WriteError)
  | completed
  | started (piece : P)

/-- `next_token.wrapping_add(1).max(1)`. -/
def advanceToken (token : Nat) : Nat := max ((token + 1) % 2 ^ 64) 1

variable {P : Type} [InFlight P]

def finish (piece : P) : Delivery :=
  completeWriteJob (InFlight.job piece)
    (match InFlight.failed piece with
    | some problem => .error problem
    | none => .ok ())

/-- Account completions one after another; a piece that has none left to come is completed. -/
def harvest {ι : Type} (keyOf : ι → Nat) (account : ι → P → P) :
    List ι → Map P → Map P × List Delivery
  | [], inflight => (inflight, [])
  | done :: rest, inflight =>
    match get? inflight (keyOf done) with
    | none => harvest keyOf account rest inflight
    | some piece =>
      let after := account done piece
      if InFlight.remaining after = 0 then
        let later := harvest keyOf account rest (erase inflight (keyOf done))
        (later.1, finish after :: later.2)
      else harvest keyOf account rest (insert inflight (keyOf done) after)

namespace Batch

def jobs (inflight : Map P) : List DiskWriteJob := inflight.list.map (fun e => InFlight.job e.2)

/-- The jobs a thread is answerable for. -/
def held (b : Batch P) : List DiskWriteJob := b.waiting ++ jobs b.inflight

def idle (b : Batch P) : Bool := b.inflight.list.isEmpty

omit [InFlight P] in
theorem idle_iff (b : Batch P) : b.idle = true ↔ b.inflight.list = [] := List.isEmpty_iff

/-- The main function returns: all that it owns is dropped, the receiver with it. -/
def exit (b : Batch P) (channel : Channel) : Turn (Batch P) where
  channel := ⟨[], false⟩
  state := { b with waiting := [], inflight := Rows.empty, phase := .exited }
  delivered := []
  lost := channel.queue ++ b.held

def go (b : Batch P) (channel : Channel) (phase : Phase) : Turn (Batch P) :=
  ⟨channel, { b with phase := phase }, [], []⟩

/-- One turn of the loop that fills `waiting`, with the test of the outer loop before it. -/
def tryRecv (depth : Nat) (connected : Bool) (b : Batch P) (channel : Channel) : Turn (Batch P) :=
  if !b.channelOpen && b.waiting.isEmpty && b.idle then b.exit channel
  else if b.channelOpen && decide (b.inflight.list.length + b.waiting.length < depth) then
    match channel.queue with
    | job :: rest =>
      ⟨{ channel with queue := rest }, { b with waiting := b.waiting ++ [job] }, [], []⟩
    | [] => { b with channelOpen := connected }.go channel .start
  else b.go channel .start

/-- The job that the start loop takes next. -/
def nextJob (depth : Nat) (b : Batch P) : Option DiskWriteJob :=
  if b.inflight.list.length < depth then b.waiting.head? else none

/-- After the start loop: wait for completions, or for the channel when nothing is in flight. -/
def leaveStart (b : Batch P) (channel : Channel) : Turn (Batch P) :=
  if b.idle then (if b.channelOpen then b.go channel .receive else b.exit channel)
  else b.go channel .suspend

/-- One turn of the start loop. -/
def startNext (depth : Nat) (discardWrites : Bool) (startPiece : Nat → DiskWriteJob → Nat × Start P)
    (b : Batch P) (channel : Channel) : Turn (Batch P) :=
  match b.nextJob depth with
  | none => b.leaveStart channel
  | some job =>
    let popped := { b with waiting := b.waiting.tail }
    if discardWrites then ⟨channel, popped, [completeDiscardJob job], []⟩
    else
      let answer := startPiece b.nextToken job
      let next := { popped with nextToken := answer.1 }
      match answer.2 with
      | .refused problem => ⟨channel, next, [completeWriteJob job (.error problem)], []⟩
      | .completed => ⟨channel, next, [completeWriteJob job (.ok ())], []⟩
      | .started piece =>
        ⟨channel, { next with inflight := insert b.inflight b.nextToken piece }, [],
          (get? b.inflight b.nextToken).toList.map InFlight.job⟩

/-- `rx.recv()` with nothing in flight. -/
def recv (connected : Bool) (b : Batch P) (channel : Channel) : Option (Turn (Batch P)) :=
  match channel.queue with
  | job :: rest =>
    some ⟨{ channel with queue := rest }, { b with waiting := b.waiting ++ [job], phase := .fill },
      [], []⟩
  | [] => if connected then none else some ({ b with channelOpen := false }.go channel .fill)

/-- Fatal exit: every waiting job fails. -/
def failWaiting (problem : WriteError) (b : Batch P) (channel : Channel) : Turn (Batch P) :=
  ⟨channel, { b with waiting := [], phase := .drainChannel },
    b.waiting.map (fun job => completeWriteJob job (.error problem)), []⟩

/-- Fatal exit: one turn of the loop that fails what is left in the channel. -/
def drainChannel (problem : WriteError) (b : Batch P) (channel : Channel) : Turn (Batch P) :=
  match channel.queue with
  | job :: rest => ⟨{ channel with queue := rest }, b, [completeWriteJob job (.error problem)], []⟩
  | [] => b.go channel .dropReceiver

end Batch

end Seedchamp.Runtime.DiskJobs
