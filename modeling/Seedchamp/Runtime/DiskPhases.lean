import Seedchamp.Runtime.DiskCustody

/-!
What holds of a disk thread in each part of its main function, and when a turn loses no job.
-/

namespace Seedchamp.Runtime.DiskPhases
open Runtime.DiskJobs Foundation.KeyedMap

/-- Parts of the main function in which nothing waits. -/
def noneWaits : Phase → Bool
  | .setUp | .receive | .drainChannel | .dropReceiver | .exited => true
  | _ => false

/-- Parts of the main function in which nothing is in flight. -/
def noneFlies : Phase → Bool
  | .setUp | .receive | .failWaiting | .drainChannel | .dropReceiver | .exited => true
  | _ => false

/-- Parts of the main function that ask nothing of the jobs and the pieces. -/
def asksNothing : Phase → Bool
  | .fill | .start | .draining _ => true
  | _ => false

section Batches
variable {P : Type} [InFlight P]

structure Sound (connected : Bool) (b : Batch P) (channel : Channel) : Prop where
  waiting : noneWaits b.phase = true → b.waiting = []
  idle : noneFlies b.phase = true → b.inflight.list = []
  busy : b.phase = .suspend → b.inflight.list ≠ []
  listening : b.phase = .receive → b.channelOpen = true
  gone : channel.receiver = false ↔ b.phase = .exited
  drained : b.phase = .exited → channel.queue = []
  closed : b.channelOpen = false → connected = false ∧ channel.queue = []

/-- Nothing is left with a thread in such a part of its main function. -/
theorem held_nil (connected : Bool) (b : Batch P) (channel : Channel) (sound : Sound connected b channel)
    (waits : noneWaits b.phase = true) (flies : noneFlies b.phase = true) : b.held = [] := by
  rw [Batch.held, sound.waiting waits, Batch.jobs, sound.idle flies]
  rfl

omit [InFlight P] in
/-- Disconnection is for ever, so soundness survives the loss of a handle. -/
theorem sound_disconnect (before after : Bool) (b : Batch P) (channel : Channel)
    (sound : Sound before b channel) (fewer : after = true → before = true) :
    Sound after b channel where
  waiting := sound.waiting
  idle := sound.idle
  busy := sound.busy
  listening := sound.listening
  gone := sound.gone
  drained := sound.drained
  closed := by
    intro shut
    have before := sound.closed shut
    refine ⟨?_, before.2⟩
    cases connected : after with
    | false => rfl
    | true => exact absurd (fewer connected) (by rw [before.1]; decide)

omit [InFlight P] in
/-- A job that arrives on a channel with a handle and a receiver. -/
theorem sound_push (b : Batch P) (channel : Channel) (job : DiskWriteJob)
    (sound : Sound true b channel) (receiver : channel.receiver = true) :
    Sound true b { channel with queue := channel.queue ++ [job] } where
  waiting := sound.waiting
  idle := sound.idle
  busy := sound.busy
  listening := sound.listening
  gone := sound.gone
  drained := by
    intro ended
    have gone := sound.gone.2 ended
    rw [receiver] at gone
    cases gone
  closed := fun shut => absurd (sound.closed shut).1 (by decide)

theorem exit_sound (connected : Bool) (b : Batch P) (channel : Channel)
    (sound : Sound connected b channel) :
    Sound connected (b.exit channel).state (b.exit channel).channel where
  waiting := fun _ => rfl
  idle := fun _ => rfl
  busy := nofun
  listening := nofun
  gone := ⟨fun _ => rfl, fun _ => rfl⟩
  drained := fun _ => rfl
  closed := fun shut => ⟨(sound.closed shut).1, rfl⟩

omit [InFlight P] in
/-- A thread that goes on to another part of its main function, with these pieces in flight. -/
theorem refly_sound (connected : Bool) (b : Batch P) (channel : Channel) (inflight : Map P)
    (phase : Phase) (sound : Sound connected b channel) (here : b.phase ≠ .exited)
    (there : phase ≠ .exited) (waiting : noneWaits phase = true → b.waiting = [])
    (idle : noneFlies phase = true → inflight.list = [])
    (busy : phase = .suspend → inflight.list ≠ [])
    (listening : phase = .receive → b.channelOpen = true) :
    Sound connected { b with inflight := inflight, phase := phase } channel where
  waiting := waiting
  idle := idle
  busy := busy
  listening := listening
  gone := by
    constructor
    · intro gone
      exact absurd (sound.gone.1 gone) here
    · intro ended
      exact absurd ended there
  drained := fun ended => absurd ended there
  closed := sound.closed

omit [InFlight P] in
theorem go_sound (connected : Bool) (b : Batch P) (channel : Channel) (phase : Phase)
    (sound : Sound connected b channel) (here : b.phase ≠ .exited) (there : phase ≠ .exited)
    (waiting : noneWaits phase = true → b.waiting = [])
    (idle : noneFlies phase = true → b.inflight.list = [])
    (busy : phase = .suspend → b.inflight.list ≠ [])
    (listening : phase = .receive → b.channelOpen = true) :
    Sound connected { b with phase := phase } channel :=
  refly_sound connected b channel b.inflight phase sound here there waiting idle busy listening

omit [InFlight P] in
theorem refly_freely (connected : Bool) (b : Batch P) (channel : Channel) (inflight : Map P)
    (phase : Phase) (sound : Sound connected b channel) (here : b.phase ≠ .exited)
    (free : asksNothing phase = true) :
    Sound connected { b with inflight := inflight, phase := phase } channel := by
  have apart : phase ≠ .exited ∧ noneWaits phase = false ∧ noneFlies phase = false ∧
      phase ≠ .suspend ∧ phase ≠ .receive := by
    cases phase <;> simp_all [asksNothing, noneWaits, noneFlies]
  obtain ⟨there, waits, flies, suspended, receiving⟩ := apart
  exact refly_sound connected b channel inflight phase sound here there
    (fun asked => absurd asked (ne_true_of_eq_false waits))
    (fun asked => absurd asked (ne_true_of_eq_false flies))
    (fun asked => absurd asked suspended) (fun asked => absurd asked receiving)

omit [InFlight P] in
theorem go_freely (connected : Bool) (b : Batch P) (channel : Channel) (phase : Phase)
    (sound : Sound connected b channel) (here : b.phase ≠ .exited)
    (free : asksNothing phase = true) : Sound connected { b with phase := phase } channel :=
  refly_freely connected b channel b.inflight phase sound here free

theorem tryRecv_sound (depth : Nat) (connected : Bool) (b : Batch P) (channel : Channel)
    (sound : Sound connected b channel) (here : b.phase = .fill) :
    Sound connected (b.tryRecv depth connected channel).state (b.tryRecv depth connected channel).channel := by
  have live : b.phase ≠ .exited := by
    rw [here]
    decide
  have onward : Sound connected { b with phase := .start } channel :=
    go_freely connected b channel .start sound live rfl
  rw [Batch.tryRecv]
  split_ifs with ended room
  · exact exit_sound connected b channel sound
  · rw [Bool.and_eq_true] at room
    cases queued : channel.queue with
    | nil =>
      refine { onward with listening := (fun clash => by cases clash), closed := ?_ }
      intro shut
      exact ⟨shut, queued⟩
    | cons job rest =>
      have onward := go_freely connected b channel .fill sound live rfl
      exact
        { waiting := fun waits => absurd waits (by simp [here, noneWaits])
          idle := fun flies => absurd flies (by simp [here, noneFlies])
          busy := fun suspended => absurd suspended (by simp [here])
          listening := fun receiving => absurd receiving (by simp [here])
          gone := sound.gone
          drained := fun ended => absurd ended live
          closed := fun shut => absurd room.1 (by rw [shut]; decide) }
  · exact onward

theorem leaveStart_sound (connected : Bool) (b : Batch P) (channel : Channel)
    (sound : Sound connected b channel) (here : b.phase = .start)
    (none : b.inflight.list = [] → b.waiting = []) :
    Sound connected (b.leaveStart channel).state (b.leaveStart channel).channel := by
  have live : b.phase ≠ .exited := by
    rw [here]
    decide
  rw [Batch.leaveStart]
  split_ifs with idle open_
  · have nothing := (Batch.idle_iff b).1 idle
    exact go_sound connected b channel .receive sound live (fun clash => by cases clash) (fun _ => none nothing)
      (fun _ => nothing) (fun clash => by cases clash) (fun _ => open_)
  · exact exit_sound connected b channel sound
  · have something : b.inflight.list ≠ [] := fun nothing => idle ((Batch.idle_iff b).2 nothing)
    exact go_sound connected b channel .suspend sound live (fun clash => by cases clash) (fun clash => by cases clash)
      (fun clash => by cases clash) (fun _ => something) (fun clash => by cases clash)

omit [InFlight P] in
/-- With room for a piece, the start loop ends when nothing waits. -/
theorem waiting_of_nextJob_none (depth : Nat) (positive : 0 < depth) (b : Batch P)
    (next : b.nextJob depth = none) (idle : b.inflight.list = []) : b.waiting = [] := by
  rw [Batch.nextJob, idle, List.length_nil, if_pos positive] at next
  exact List.head?_eq_none_iff.1 next

theorem startNext_sound (depth : Nat) (positive : 0 < depth) (discardWrites connected : Bool)
    (startPiece : Nat → DiskWriteJob → Nat × Start P) (b : Batch P) (channel : Channel)
    (sound : Sound connected b channel) (here : b.phase = .start) :
    Sound connected (b.startNext depth discardWrites startPiece channel).state
      (b.startNext depth discardWrites startPiece channel).channel := by
  have stays : ∀ (waiting : List DiskWriteJob) (inflight : Map P) (token : Nat),
      Sound connected
        { b with waiting := waiting, inflight := inflight, nextToken := token } channel :=
    fun waiting inflight token =>
      { waiting := fun waits => absurd waits (by simp [here, noneWaits])
        idle := fun flies => absurd flies (by simp [here, noneFlies])
        busy := fun suspended => absurd suspended (by simp [here])
        listening := fun receiving => absurd receiving (by simp [here])
        gone := sound.gone
        drained := sound.drained
        closed := sound.closed }
  rw [Batch.startNext]
  cases next : b.nextJob depth with
  | none => exact leaveStart_sound connected b channel sound here (waiting_of_nextJob_none depth positive b next)
  | some job =>
    simp only
    split_ifs
    · exact stays _ b.inflight b.nextToken
    · cases answer : (startPiece b.nextToken job).2 with
      | refused _ | completed => exact stays _ b.inflight _
      | started piece => exact stays _ _ _

omit [InFlight P] in
theorem recv_sound (connected : Bool) (b : Batch P) (channel : Channel) (turn : Turn (Batch P))
    (sound : Sound connected b channel) (here : b.phase = .receive)
    (taken : b.recv connected channel = some turn) : Sound connected turn.state turn.channel := by
  have live : b.phase ≠ .exited := by
    rw [here]
    decide
  have onward := go_freely connected b channel .fill sound live rfl
  rw [Batch.recv] at taken
  cases queued : channel.queue with
  | nil =>
    simp only [queued] at taken
    split_ifs at taken with alone
    cases taken
    refine { onward with listening := (fun clash => by cases clash), closed := ?_ }
    intro _
    exact ⟨Bool.eq_false_iff.2 alone, queued⟩
  | cons job rest =>
    simp only [queued, Option.some_inj] at taken
    rw [← taken]
    refine { onward with
      waiting := (fun clash => by cases clash)
      drained := (fun clash => by cases clash)
      closed := ?_ }
    intro shut
    have closed := (sound.closed shut).2
    rw [queued] at closed
    cases closed

omit [InFlight P] in
theorem failWaiting_sound (connected : Bool) (problem : WriteError) (b : Batch P) (channel : Channel)
    (sound : Sound connected b channel) (here : b.phase = .failWaiting) :
    Sound connected (b.failWaiting problem channel).state (b.failWaiting problem channel).channel := by
  have live : b.phase ≠ .exited := by
    rw [here]
    decide
  have idle := sound.idle (by rw [here]; rfl)
  have onward := go_sound connected { b with waiting := [] } channel .drainChannel
    { sound with
      waiting := fun _ => rfl } live nofun (fun _ => rfl) (fun _ => idle) nofun nofun
  exact onward

omit [InFlight P] in
theorem drainChannel_sound (connected : Bool) (problem : WriteError) (b : Batch P) (channel : Channel)
    (sound : Sound connected b channel) (here : b.phase = .drainChannel) :
    Sound connected (b.drainChannel problem channel).state (b.drainChannel problem channel).channel := by
  have live : b.phase ≠ .exited := by
    rw [here]
    decide
  have idle := sound.idle (by rw [here]; rfl)
  have waiting := sound.waiting (by rw [here]; rfl)
  rw [Batch.drainChannel]
  cases queued : channel.queue with
  | nil =>
    exact go_sound connected b channel .dropReceiver sound live (fun clash => by cases clash) (fun _ => waiting)
      (fun _ => idle) (fun clash => by cases clash) (fun clash => by cases clash)
  | cons job rest =>
    refine { sound with drained := fun ended => absurd ended live, closed := ?_ }
    intro shut
    have closed := (sound.closed shut).2
    rw [queued] at closed
    cases closed

/-! ### When nothing is lost -/

theorem exit_lost (b : Batch P) (channel : Channel) (queue : channel.queue = []) (held : b.held = []) :
    (b.exit channel).lost = [] := by
  rw [Batch.exit, queue, held]
  rfl

theorem tryRecv_lost (depth : Nat) (connected : Bool) (b : Batch P) (channel : Channel)
    (sound : Sound connected b channel) : (b.tryRecv depth connected channel).lost = [] := by
  rw [Batch.tryRecv]
  split_ifs with ended room
  · rw [Bool.and_eq_true, Bool.and_eq_true, Bool.not_eq_true'] at ended
    obtain ⟨⟨shut, waiting⟩, idle⟩ := ended
    have held : b.held = [] := by
      rw [Batch.held, List.isEmpty_iff.1 waiting, Batch.jobs, (Batch.idle_iff b).1 idle]
      rfl
    exact exit_lost b channel (sound.closed shut).2 held
  · cases channel.queue with
    | _ => rfl
  · rfl

theorem leaveStart_lost (connected : Bool) (b : Batch P) (channel : Channel)
    (sound : Sound connected b channel) (none : b.inflight.list = [] → b.waiting = []) :
    (b.leaveStart channel).lost = [] := by
  rw [Batch.leaveStart]
  split_ifs with idle open_
  · rfl
  · have nothing := (Batch.idle_iff b).1 idle
    have held : b.held = [] := by
      rw [Batch.held, none nothing, Batch.jobs, nothing]
      rfl
    exact exit_lost b channel (sound.closed (Bool.eq_false_iff.2 open_)).2 held
  · rfl

theorem startNext_lost (depth : Nat) (positive : 0 < depth) (discardWrites connected : Bool)
    (startPiece : Nat → DiskWriteJob → Nat × Start P) (b : Batch P) (channel : Channel)
    (sound : Sound connected b channel) (fresh : get? b.inflight b.nextToken = none) :
    (b.startNext depth discardWrites startPiece channel).lost = [] := by
  rw [Batch.startNext]
  cases next : b.nextJob depth with
  | none =>
    exact leaveStart_lost connected b channel sound (waiting_of_nextJob_none depth positive b next)
  | some job =>
    simp only
    split_ifs
    · rfl
    · cases answer : (startPiece b.nextToken job).2 with
      | refused problem => rfl
      | completed => rfl
      | started piece =>
        simp only [fresh]
        rfl

omit [InFlight P] in
theorem recv_lost (connected : Bool) (b : Batch P) (channel : Channel) (turn : Turn (Batch P))
    (taken : b.recv connected channel = some turn) : turn.lost = [] := by
  rw [Batch.recv] at taken
  split at taken
  · cases taken
    rfl
  · split_ifs at taken
    cases taken
    rfl

omit [InFlight P] in
theorem drainChannel_lost (problem : WriteError) (b : Batch P) (channel : Channel) :
    (b.drainChannel problem channel).lost = [] := by
  rw [Batch.drainChannel]
  split
  · rfl
  · rfl

end Batches

end Seedchamp.Runtime.DiskPhases
