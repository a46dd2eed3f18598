import Seedchamp.Runtime.DiskControlBlocks

/-!
When a turn of a disk thread is lossless, and that lossless turns keep every thread sound.
-/

namespace Seedchamp.Runtime.DiskSafety
open Runtime.DiskJobs Runtime.DiskThreads Runtime.DiskPhases Runtime.DiskRings
open Runtime.DiskControlBlocks Foundation.KeyedRows Foundation.KeyedMap

/-- The receiver is dropped, and the ring's set-up fails, only with an empty channel; the fatal drain
ends with nothing in flight; a piece starts under a token that its completions can name. -/
def lossless (channel : Channel) : Thread → ThreadEvent → Bool
  | .uring _, .setUp ok => ok || channel.queue.isEmpty
  | .uring u, .startNext _ => decide (u.batch.nextToken < 2 ^ 48)
  | .uring u, .leaveDrain => u.batch.idle
  | .uring u, .deadline => u.batch.idle
  | .uring _, .dropReceiver => channel.queue.isEmpty
  | .aio b, .startNext _ => (get? b.inflight b.nextToken).isNone
  | .aio _, .dropReceiver => channel.queue.isEmpty
  | _, _ => true

inductive SyncSound (s : Sync) (channel : Channel) : Prop where
  | receiving (here : s.phase = .receive) (free : s.current = none) (receiver : channel.receiver = true)
  | writing (here : s.phase = .suspend) (busy : s.current ≠ none) (receiver : channel.receiver = true)
  | exited (here : s.phase = .exited) (free : s.current = none) (receiver : channel.receiver = false)
      (drained : channel.queue = [])

def ThreadSound (connected : Bool) (channel : Channel) : Thread → Prop
  | .sync s => SyncSound s channel
  | .uring u => Sound connected u.batch channel ∧ RingSound u
  | .aio b => Sound connected b channel ∧ AioSound b ∧ b.phase ≠ .setUp

theorem slots_positive (cfg : Config) : 0 < cfg.slots := Nat.le_max_right _ _

theorem uring_sound (cfg : Config) (connected : Bool) (u : Uring) (channel : Channel)
    (event : ThreadEvent) (turn : Turn Uring) (sound : Sound connected u.batch channel)
    (ring : RingSound u) (careful : lossless channel (.uring u) event = true)
    (taken : u.step cfg connected channel event = some turn) :
    Sound connected turn.state.batch turn.channel ∧ RingSound turn.state ∧ turn.lost = [] := by
  cases event with
  | setUp ok =>
    simp only [Uring.step] at taken
    split at taken
    · rename_i here
      have live : u.batch.phase ≠ .exited := by
        rw [here]
        decide
      cases ok with
      | true =>
        cases taken
        exact ⟨go_freely connected u.batch channel .fill sound live rfl,
          keeps_ring u _ ring ⟨rfl, Or.inl rfl⟩, rfl⟩
      | false =>
        cases taken
        have held := held_nil connected u.batch channel sound (by rw [here]; rfl) (by rw [here]; rfl)
        exact ⟨exit_sound connected u.batch channel sound,
          keeps_ring u _ ring (exit_keeps u.batch channel),
          exit_lost u.batch channel (List.isEmpty_iff.1 careful) held⟩
    · cases taken
  | tryRecv =>
    simp only [Uring.step] at taken
    split at taken
    · rename_i here
      cases taken
      exact ⟨tryRecv_sound _ connected u.batch channel sound here,
        keeps_ring u _ ring (tryRecv_keeps _ connected u.batch channel),
        tryRecv_lost _ connected u.batch channel sound⟩
    · rename_i here
      cases taken
      exact ⟨drainChannel_sound connected .submit u.batch channel sound here,
        keeps_ring u _ ring (drainChannel_keeps .submit u.batch channel),
        drainChannel_lost .submit u.batch channel⟩
    · cases taken
  | startNext env =>
    have small := of_decide_eq_true careful
    have ring' := startNext_ring cfg connected u channel env turn ring small taken
    simp only [Uring.step] at taken
    split at taken
    · rename_i here
      cases taken
      have fresh : get? u.batch.inflight u.batch.nextToken = none := by
        cases found : get? u.batch.inflight u.batch.nextToken with
        | none => rfl
        | some piece => exact absurd (ring.keyed _ piece found) (lt_irrefl _)
      exact ⟨startNext_sound _ (slots_positive cfg) _ connected _ u.batch channel sound here, ring',
        startNext_lost _ (slots_positive cfg) _ connected _ u.batch channel sound fresh⟩
    · cases taken
  | recv =>
    simp only [Uring.step] at taken
    split at taken
    · rename_i here
      obtain ⟨inner, received, same⟩ := Option.map_eq_some_iff.1 taken
      rw [← same]
      exact ⟨recv_sound connected u.batch channel inner sound here received,
        keeps_ring u _ ring (recv_keeps connected u.batch channel inner received),
        recv_lost connected u.batch channel inner received⟩
    · cases taken
  | wait answer =>
    simp only [Uring.step] at taken
    split at taken
    · rename_i here
      split at taken
      · cases taken
      · cases taken
        have live : u.batch.phase ≠ .exited := by
          rw [here]
          decide
        exact ⟨refly_freely connected u.batch channel _ .fill sound live rfl,
          harvestTo_ring u channel .fill ring, rfl⟩
    · rename_i here
      cases taken
      have live : u.batch.phase ≠ .exited := by
        rw [here]
        decide
      exact ⟨refly_freely connected u.batch channel _ (.draining 0) sound live rfl,
        markFailed_ring u ring, rfl⟩
    · rename_i n here
      split at taken
      · cases taken
      · cases taken
        have live : u.batch.phase ≠ .exited := by
          rw [here]
          intro clash
          cases clash
        exact ⟨refly_freely connected u.batch channel _ (.draining 0) sound live rfl,
          harvestTo_ring u channel _ ring, rfl⟩
    · rename_i n here
      split at taken
      · cases taken
      · cases taken
        have live : u.batch.phase ≠ .exited := by
          rw [here]
          intro clash
          cases clash
        exact ⟨refly_freely connected u.batch channel _ (.draining (n + 1)) sound live rfl, harvestTo_ring u channel _ ring, rfl⟩
    · cases taken
  | leaveDrain =>
    simp only [Uring.step] at taken
    split at taken
    · rename_i n here
      split at taken
      · cases taken
        exact forget_sound n here careful
      · cases taken
    · cases taken
  | deadline =>
    simp only [Uring.step] at taken
    split at taken
    · rename_i n here
      cases taken
      exact forget_sound n here careful
    · cases taken
  | failWaiting =>
    simp only [Uring.step] at taken
    split at taken
    · rename_i here
      cases taken
      exact ⟨failWaiting_sound connected .submit u.batch channel sound here,
        keeps_ring u _ ring ⟨rfl, Or.inl rfl⟩, rfl⟩
    · cases taken
  | dropReceiver =>
    simp only [Uring.step] at taken
    split at taken
    · rename_i here
      cases taken
      have held := held_nil connected u.batch channel sound (by rw [here]; rfl) (by rw [here]; rfl)
      exact ⟨exit_sound connected u.batch channel sound,
        keeps_ring u _ ring (exit_keeps u.batch channel),
        exit_lost u.batch channel (List.isEmpty_iff.1 careful) held⟩
    · cases taken
  | uringDone i res =>
    simp only [Uring.step] at taken
    split at taken
    · rename_i tag pending
      cases taken
      exact ⟨sound, uringDone_ring u i tag res pending ring, rfl⟩
    · cases taken
  | _ => cases taken
where
  /-- The fatal drain ends with nothing in flight, so nothing is forgotten. -/
  forget_sound (n : Nat) (here : u.batch.phase = .draining n) (idle : u.batch.idle = true) :
      Sound connected (u.forget channel).state.batch channel ∧ RingSound (u.forget channel).state ∧
        (u.forget channel).lost = [] := by
    have live : u.batch.phase ≠ .exited := by
      rw [here]
      intro clash
      cases clash
    refine ⟨refly_sound connected u.batch channel Rows.empty .failWaiting sound live (fun clash => by cases clash)
      (fun clash => by cases clash) (fun _ => rfl) (fun clash => by cases clash) (fun clash => by cases clash),
      keeps_ring u _ ring ⟨rfl, Or.inr rfl⟩, ?_⟩
    rw [Uring.forget, Batch.jobs, (Batch.idle_iff u.batch).1 idle]
    rfl

theorem list_ne_nil_of_get? {P : Type} (m : Map P) (key : Nat) (piece : P)
    (found : get? m key = some piece) : m.list ≠ [] :=
  List.ne_nil_of_mem ((mem_list m key piece).2 found)

theorem aio_sound (cfg : Config) (connected : Bool) (b : Batch AioPiece) (channel : Channel)
    (event : ThreadEvent) (turn : Turn (Batch AioPiece)) (sound : Sound connected b channel)
    (careful : lossless channel (.aio b) event = true)
    (taken : Aio.step cfg connected b channel event = some turn) :
    Sound connected turn.state turn.channel ∧ turn.lost = [] := by
  cases event with
  | tryRecv =>
    simp only [Aio.step] at taken
    split at taken
    · rename_i here
      cases taken
      exact ⟨tryRecv_sound _ connected b channel sound here, tryRecv_lost _ connected b channel sound⟩
    · rename_i here
      cases taken
      exact ⟨drainChannel_sound connected .submit b channel sound here,
        drainChannel_lost .submit b channel⟩
    · cases taken
  | startNext env =>
    have fresh := Option.isNone_iff_eq_none.1 careful
    simp only [Aio.step] at taken
    split at taken
    · rename_i here
      cases taken
      exact ⟨startNext_sound _ (slots_positive cfg) _ connected _ b channel sound here,
        startNext_lost _ (slots_positive cfg) _ connected _ b channel sound fresh⟩
    · cases taken
  | recv =>
    simp only [Aio.step] at taken
    split at taken
    · rename_i here
      exact ⟨recv_sound connected b channel turn sound here taken, recv_lost connected b channel turn taken⟩
    · cases taken
  | wait answer =>
    simp only [Aio.step] at taken
    split at taken
    · rename_i here
      have live : b.phase ≠ .exited := by
        rw [here]
        decide
      have filled := refly_freely connected b channel (harvestCompletions b.inflight).1 .fill sound live rfl
      split at taken
      · split at taken
        · split at taken
          · cases taken
            exact ⟨filled, rfl⟩
          · cases taken
        · cases taken
          exact ⟨filled, rfl⟩
        · cases taken
          exact ⟨go_freely connected b channel (.draining 0) sound live rfl, rfl⟩
      · cases taken
        exact ⟨filled, rfl⟩
    · cases taken
  | drainPiece key =>
    simp only [Aio.step] at taken
    split at taken
    · rename_i n piece here found
      split at taken
      · cases taken
        have live : b.phase ≠ .exited := by
          rw [here]
          intro clash
          cases clash
        have onward := refly_freely connected b channel (erase b.inflight key) (.draining n) sound live rfl
        rw [← here] at onward
        exact ⟨onward, rfl⟩
      · cases taken
    · cases taken
  | leaveDrain =>
    simp only [Aio.step] at taken
    split at taken
    · rename_i n here
      split at taken
      · rename_i idle
        cases taken
        have live : b.phase ≠ .exited := by
          rw [here]
          intro clash
          cases clash
        exact ⟨go_sound connected b channel .failWaiting sound live (fun clash => by cases clash)
          (fun clash => by cases clash) (fun _ => (Batch.idle_iff b).1 idle)
          (fun clash => by cases clash) (fun clash => by cases clash), rfl⟩
      · cases taken
    · cases taken
  | failWaiting =>
    simp only [Aio.step] at taken
    split at taken
    · rename_i here
      cases taken
      exact ⟨failWaiting_sound connected .submit b channel sound here, rfl⟩
    · cases taken
  | dropReceiver =>
    simp only [Aio.step] at taken
    split at taken
    · rename_i here
      cases taken
      have held := held_nil connected b channel sound (by rw [here]; rfl) (by rw [here]; rfl)
      exact ⟨exit_sound connected b channel sound,
        exit_lost b channel (List.isEmpty_iff.1 careful) held⟩
    · cases taken
  | aioDone key i error returned =>
    simp only [Aio.step] at taken
    split at taken
    · rename_i piece found
      split at taken
      · cases taken
        have something := list_ne_nil_of_get? b.inflight key piece found
        have flying : ¬noneFlies b.phase = true := fun flies => something (sound.idle flies)
        have after := list_ne_nil_of_get?
          (insert b.inflight key (Aio.finishSpan piece i error returned)) key _
          ((get?_insert _ _ _ _).trans (if_pos rfl))
        have live : b.phase ≠ .exited := by
          intro ended
          exact flying (by rw [ended]; rfl)
        exact ⟨refly_sound connected b channel _ b.phase sound live live sound.waiting
          (fun flies => absurd flies flying) (fun _ => after) sound.listening, rfl⟩
      · cases taken
    · cases taken
  | _ => cases taken

section Begun
variable {P : Type} [InFlight P] (b : Batch P) (channel : Channel) (begun : b.phase ≠ .setUp)

include begun in
theorem tryRecv_begun (depth : Nat) (connected : Bool) :
    (b.tryRecv depth connected channel).state.phase ≠ .setUp := by
  rw [Batch.tryRecv]
  split_ifs
  · intro clash
    cases clash
  · cases channel.queue with
    | nil =>
      intro clash
      cases clash
    | cons job rest => exact begun
  · intro clash
    cases clash

include begun in
theorem startNext_begun (depth : Nat) (discardWrites : Bool)
    (startPiece : Nat → DiskWriteJob → Nat × Start P) :
    (b.startNext depth discardWrites startPiece channel).state.phase ≠ .setUp := by
  rw [Batch.startNext]
  split
  · rw [Batch.leaveStart]
    split_ifs
    · intro clash
      cases clash
    · intro clash
      cases clash
    · intro clash
      cases clash
  · dsimp only
    split_ifs
    · exact begun
    · split
      · exact begun
      · exact begun
      · exact begun

include begun in
omit [InFlight P] in
theorem drainChannel_begun (problem : WriteError) :
    (b.drainChannel problem channel).state.phase ≠ .setUp := by
  rw [Batch.drainChannel]
  split
  · exact begun
  · intro clash
    cases clash

end Begun

/-- The AIO main function has no set-up. -/
theorem aio_begun (cfg : Config) (connected : Bool) (b : Batch AioPiece) (channel : Channel)
    (event : ThreadEvent) (turn : Turn (Batch AioPiece)) (begun : b.phase ≠ .setUp)
    (taken : Aio.step cfg connected b channel event = some turn) : turn.state.phase ≠ .setUp := by
  cases event with
  | tryRecv =>
    simp only [Aio.step] at taken
    split at taken
    · cases taken
      exact tryRecv_begun b channel begun _ connected
    · cases taken
      exact drainChannel_begun b channel begun .submit
    · cases taken
  | startNext env =>
    simp only [Aio.step] at taken
    split at taken
    · cases taken
      exact startNext_begun b channel begun _ _ _
    · cases taken
  | recv =>
    simp only [Aio.step, Batch.recv] at taken
    split at taken
    · split at taken
      · cases taken
        intro clash
        cases clash
      · split at taken
        · cases taken
        · cases taken
          intro clash
          cases clash
    · cases taken
  | wait answer =>
    simp only [Aio.step] at taken
    split at taken
    · split at taken
      · split at taken
        · split at taken
          · cases taken
            intro clash
            cases clash
          · cases taken
        · cases taken
          intro clash
          cases clash
        · cases taken
          intro clash
          cases clash
      · cases taken
        intro clash
        cases clash
    · cases taken
  | drainPiece key =>
    simp only [Aio.step] at taken
    split at taken
    · split at taken
      · cases taken
        exact begun
      · cases taken
    · cases taken
  | leaveDrain =>
    simp only [Aio.step] at taken
    split at taken
    · split at taken
      · cases taken
        intro clash
        cases clash
      · cases taken
    · cases taken
  | failWaiting =>
    simp only [Aio.step] at taken
    split at taken
    · cases taken
      intro clash
      cases clash
    · cases taken
  | dropReceiver =>
    simp only [Aio.step] at taken
    split at taken
    · cases taken
      intro clash
      cases clash
    · cases taken
  | aioDone key i error returned =>
    simp only [Aio.step] at taken
    split at taken
    · split at taken
      · cases taken
        exact begun
      · cases taken
    · cases taken
  | _ => cases taken

theorem sync_sound (cfg : Config) (connected : Bool) (s : Sync) (channel : Channel)
    (event : ThreadEvent) (turn : Turn Sync) (sound : SyncSound s channel)
    (taken : s.step cfg connected channel event = some turn) :
    SyncSound turn.state turn.channel ∧ turn.lost = [] := by
  cases event with
  | recv =>
    simp only [Sync.step] at taken
    split at taken
    · rename_i here
      have live : channel.receiver = true ∧ s.current = none := by
        cases sound with
        | receiving _ free receiver => exact ⟨receiver, free⟩
        | writing there _ _ => exact absurd (here.symm.trans there) (fun clash => by cases clash)
        | exited there _ _ _ => exact absurd (here.symm.trans there) (fun clash => by cases clash)
      split at taken
      · split at taken
        · cases taken
          exact ⟨.receiving here live.2 live.1, rfl⟩
        · cases taken
          exact ⟨.writing rfl (fun clash => by cases clash) live.1, rfl⟩
      · split at taken
        · cases taken
        · cases taken
          exact ⟨.exited rfl rfl rfl rfl, rfl⟩
    · cases taken
  | write ok =>
    simp only [Sync.step] at taken
    split at taken
    · cases taken
    · rename_i job writing
      cases taken
      have receiver : channel.receiver = true := by
        cases sound with
        | receiving _ free _ => exact absurd (writing.symm.trans free) (fun clash => by cases clash)
        | writing _ _ receiver => exact receiver
        | exited _ free _ _ => exact absurd (writing.symm.trans free) (fun clash => by cases clash)
      exact ⟨.receiving rfl rfl receiver, rfl⟩
  | _ => cases taken

/-- A lossless turn keeps a sound thread sound and loses no job. -/
theorem thread_sound (cfg : Config) (connected : Bool) (thread : Thread) (channel : Channel)
    (event : ThreadEvent) (turn : Turn Thread) (sound : ThreadSound connected channel thread)
    (careful : lossless channel thread event = true)
    (taken : thread.step cfg connected channel event = some turn) :
    ThreadSound connected turn.channel turn.state ∧ turn.lost = [] := by
  cases thread with
  | sync s =>
    obtain ⟨inner, stepped, same⟩ := Option.map_eq_some_iff.1 taken
    rw [← same]
    exact sync_sound cfg connected s channel event inner sound stepped
  | uring u =>
    obtain ⟨inner, stepped, same⟩ := Option.map_eq_some_iff.1 taken
    rw [← same]
    have after := uring_sound cfg connected u channel event inner sound.1 sound.2 careful stepped
    exact ⟨⟨after.1, after.2.1⟩, after.2.2⟩
  | aio b =>
    obtain ⟨inner, stepped, same⟩ := Option.map_eq_some_iff.1 taken
    rw [← same]
    have after := aio_sound cfg connected b channel event inner sound.1 careful stepped
    exact ⟨⟨after.1, aio_blocks cfg connected b channel event inner sound.2.1 stepped,
      aio_begun cfg connected b channel event inner sound.2.2 stepped⟩, after.2⟩

/-- A job that arrives leaves a connected thread sound. -/
theorem thread_push (thread : Thread) (channel : Channel) (job : DiskWriteJob)
    (sound : ThreadSound true channel thread) (receiver : channel.receiver = true) :
    ThreadSound true { channel with queue := channel.queue ++ [job] } thread := by
  cases thread with
  | sync s =>
    cases sound with
    | receiving here free _ => exact .receiving here free receiver
    | writing here busy _ => exact .writing here busy receiver
    | exited _ _ gone _ => exact absurd (gone.symm.trans receiver) nofun
  | uring u => exact ⟨sound_push u.batch channel job sound.1 receiver, sound.2⟩
  | aio b => exact ⟨sound_push b channel job sound.1 receiver, sound.2⟩

theorem thread_disconnect (before after : Bool) (thread : Thread) (channel : Channel)
    (sound : ThreadSound before channel thread) (fewer : after = true → before = true) :
    ThreadSound after channel thread := by
  cases thread with
  | sync s => exact sound
  | uring u => exact ⟨sound_disconnect before after u.batch channel sound.1 fewer, sound.2⟩
  | aio b => exact ⟨sound_disconnect before after b channel sound.1 fewer, sound.2⟩

end Seedchamp.Runtime.DiskSafety
