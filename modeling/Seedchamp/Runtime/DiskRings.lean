import Seedchamp.Runtime.DiskPhases
import Seedchamp.Foundation.Tasks

/-!
The pieces in flight against what the kernel still owes: a piece stays in flight exactly as long as
completions of it are to come.
-/

namespace Seedchamp.Runtime.DiskRings
open Runtime.DiskJobs Runtime.DiskThreads Foundation.KeyedRows Foundation.KeyedMap Foundation

/-! ### Turns that start and finish no piece -/

section Batches
variable {P : Type} [InFlight P]

structure Keeps (before after : Batch P) : Prop where
  token : after.nextToken = before.nextToken
  inflight : after.inflight = before.inflight ∨ after.inflight = Rows.empty

theorem exit_keeps (b : Batch P) (channel : Channel) : Keeps b (b.exit channel).state :=
  ⟨rfl, Or.inr rfl⟩

theorem tryRecv_keeps (depth : Nat) (connected : Bool) (b : Batch P) (channel : Channel) :
    Keeps b (b.tryRecv depth connected channel).state := by
  rw [Batch.tryRecv]
  split_ifs
  · exact exit_keeps b channel
  · cases channel.queue with
    | nil | cons _ _ => exact ⟨rfl, Or.inl rfl⟩
  · exact ⟨rfl, Or.inl rfl⟩

theorem leaveStart_keeps (b : Batch P) (channel : Channel) : Keeps b (b.leaveStart channel).state := by
  rw [Batch.leaveStart]
  split_ifs
  · exact ⟨rfl, Or.inl rfl⟩
  · exact exit_keeps b channel
  · exact ⟨rfl, Or.inl rfl⟩

omit [InFlight P] in
theorem recv_keeps (connected : Bool) (b : Batch P) (channel : Channel) (turn : Turn (Batch P))
    (taken : b.recv connected channel = some turn) : Keeps b turn.state := by
  rw [Batch.recv] at taken
  split at taken
  · cases taken
    exact ⟨rfl, Or.inl rfl⟩
  · split at taken
    · cases taken
    · cases taken
      exact ⟨rfl, Or.inl rfl⟩

omit [InFlight P] in
theorem drainChannel_keeps (problem : WriteError) (b : Batch P) (channel : Channel) :
    Keeps b (b.drainChannel problem channel).state := by
  rw [Batch.drainChannel]
  split
  · exact ⟨rfl, Or.inl rfl⟩
  · exact ⟨rfl, Or.inl rfl⟩

omit [InFlight P] in
/-- What is in flight after such a turn was in flight before it. -/
theorem Keeps.present (before after : Batch P) (keeps : Keeps before after) (key : Nat) (piece : P)
    (found : get? after.inflight key = some piece) :
    get? before.inflight key = some piece := by
  rcases keeps.inflight with same | empty
  · rw [← same]
    exact found
  · rw [empty, get?_empty] at found
    cases found

/-! ### Harvests -/

/-- Completions are counted down one by one; a piece that is still in flight waits for the others. -/
theorem harvest_counts {ι : Type} (keyOf : ι → Nat) (account : ι → P → P)
    (one : ∀ done piece, InFlight.remaining (account done piece) = InFlight.remaining piece - 1)
    (other : Nat → Nat) (dones : List ι) (m : Map P)
    (counted : ∀ key piece, get? m key = some piece → 0 < InFlight.remaining piece ∧
      InFlight.remaining piece = dones.countP (fun done => decide (keyOf done = key)) + other key)
    (key : Nat) (piece : P) (found : get? (harvest keyOf account dones m).1 key = some piece) :
    0 < InFlight.remaining piece ∧ InFlight.remaining piece = other key := by
  induction dones generalizing m with
  | nil =>
    rw [harvest] at found
    have start := counted key piece found
    rw [List.countP_nil, Nat.zero_add] at start
    exact start
  | cons done rest ih =>
    rw [harvest] at found
    cases at_ : get? m (keyOf done) with
    | none =>
      simp only [at_] at found
      apply ih m _ found
      intro key piece present
      have start := counted key piece present
      have elsewhere : keyOf done ≠ key := by
        intro same
        rw [same, present] at at_
        cases at_
      rw [List.countP_cons, if_neg (by simpa using elsewhere)] at start
      exact start
    | some current =>
      have here := counted _ current at_
      rw [List.countP_cons, if_pos (decide_eq_true rfl)] at here
      simp only [at_] at found
      by_cases last : InFlight.remaining (account done current) = 0
      · rw [if_pos last] at found
        apply ih _ _ found
        intro key piece present
        rw [get?_erase] at present
        split_ifs at present with elsewhere
        have start := counted key piece present
        rw [List.countP_cons, if_neg (by simpa using Ne.symm elsewhere)] at start
        exact start
      · rw [if_neg last] at found
        apply ih _ _ found
        intro key piece present
        rw [get?_insert] at present
        split_ifs at present with same
        · cases present
          rw [one] at last ⊢
          rw [same]
          omega
        · have start := counted key piece present
          rw [List.countP_cons, if_neg (by simpa using Ne.symm same)] at start
          exact start

/-- Only pieces that were in flight are in flight after a harvest, accounted for. -/
theorem harvest_forall {ι : Type} (keyOf : ι → Nat) (account : ι → P → P) (Q : Nat → P → Prop)
    (dones : List ι) (m : Map P) (before : ∀ key piece, get? m key = some piece → Q key piece)
    (kept : ∀ key done piece, Q key piece → InFlight.remaining (account done piece) ≠ 0 →
      Q key (account done piece))
    (key : Nat) (piece : P) (found : get? (harvest keyOf account dones m).1 key = some piece) :
    Q key piece := by
  induction dones generalizing m with
  | nil => exact before key piece found
  | cons done rest ih =>
    rw [harvest] at found
    cases at_ : get? m (keyOf done) with
    | none =>
      simp only [at_] at found
      exact ih m before found
    | some current =>
      simp only [at_] at found
      by_cases last : InFlight.remaining (account done current) = 0
      · rw [if_pos last] at found
        apply ih _ _ found
        intro key piece present
        rw [get?_erase] at present
        split_ifs at present
        exact before key piece present
      · rw [if_neg last] at found
        apply ih _ _ found
        intro key piece present
        rw [get?_insert] at present
        split_ifs at present with same
        · cases present
          rw [same]
          exact kept _ done current (before _ current at_) last
        · exact before key piece present

end Batches

/-! ### io_uring -/

def tags (ring : Ring) : List Nat := ring.pending ++ ring.cq.map Prod.fst

def named (key tag : Nat) : Bool := decide ((unpackUserData tag).1 = key)

theorem unpack_pack (key span : Nat) (small : key < 2 ^ 48) :
    unpackUserData (packUserData key span) = (key, span % 2 ^ 16) := by
  rw [unpackUserData, packUserData, Prod.mk.injEq]
  constructor
  · omega
  · omega

structure RingSound (u : Uring) : Prop where
  counted : ∀ key piece, get? u.batch.inflight key = some piece →
    0 < piece.remaining ∧ piece.remaining = (tags u.ring).countP (named key)
  keyed : ∀ key piece, get? u.batch.inflight key = some piece → key < u.batch.nextToken
  tagged : ∀ tag ∈ tags u.ring, (unpackUserData tag).1 < u.batch.nextToken
  bounded : u.batch.nextToken ≤ 2 ^ 48

/-- Soundness survives where pieces leave, tokens grow and the operations stay the same. -/
theorem RingSound.shrink (before after : Uring) (sound : RingSound before)
    (inflight : ∀ key piece, get? after.batch.inflight key = some piece →
      ∃ old, get? before.batch.inflight key = some old ∧ piece.remaining = old.remaining)
    (token : before.batch.nextToken ≤ after.batch.nextToken) (bounded : after.batch.nextToken ≤ 2 ^ 48)
    (moved : (tags after.ring).Perm (tags before.ring)) : RingSound after where
  counted := by
    intro key piece found
    obtain ⟨old, present, same⟩ := inflight key piece found
    rw [same, moved.countP_eq]
    exact sound.counted key old present
  keyed := by
    intro key piece found
    obtain ⟨old, present, same⟩ := inflight key piece found
    exact Nat.lt_of_lt_of_le (sound.keyed key old present) token
  tagged := by
    intro tag member
    exact Nat.lt_of_lt_of_le (sound.tagged tag (moved.mem_iff.1 member)) token
  bounded := bounded

theorem keeps_ring (u : Uring) (b : Batch UringPiece) (sound : RingSound u) (keeps : Keeps u.batch b) :
    RingSound { u with batch := b } :=
  RingSound.shrink u _ sound
    (fun key piece found => ⟨piece, keeps.present _ _ key piece found, rfl⟩)
    (le_of_eq keeps.token.symm) (keeps.token.trans_le sound.bounded) (List.Perm.refl _)

theorem advanceToken_small (token : Nat) (small : token < 2 ^ 48) : advanceToken token = token + 1 := by
  rw [advanceToken]
  omega

/-- How many spans a job has. -/
def spanCount (job : DiskWriteJob) : Nat :=
  match job.layout.spansForPiece job.index with
  | .ok spans => spans.length
  | .error _ => 0

theorem pushSpans_count (attempts : Nat → Nat → PushAttempt) (spans submitted : Nat) :
    submitted ≤ (pushSpans attempts spans submitted).1 ∧
      (pushSpans attempts spans submitted).1 ≤ submitted + spans ∧
      ((pushSpans attempts spans submitted).2 = none →
        (pushSpans attempts spans submitted).1 = submitted + spans) := by
  induction spans generalizing submitted with
  | zero => exact ⟨Nat.le_refl _, Nat.le_refl _, fun _ => rfl⟩
  | succ spans ih =>
    rw [pushSpans]
    cases pushSpan (attempts submitted) 64 0 with
    | none =>
      have later := ih (submitted + 1)
      dsimp only
      refine ⟨by omega, by omega, ?_⟩
      intro complete
      have all := later.2.2 complete
      omega
    | some problem => exact ⟨Nat.le_refl _, Nat.le_add_right _ _, nofun⟩

/-- A piece that is started has something pushed, and never more than its spans. -/
theorem submitSpans_remaining (env : StartEnv) (job : DiskWriteJob) (expected : List Nat)
    (piece : UringPiece) (some_ : expected ≠ [])
    (started : Uring.submitSpans env job expected = .started piece) :
    0 < piece.remaining ∧ piece.remaining ≤ expected.length := by
  have pushed := pushSpans_count env.attempts expected.length 0
  have positive := List.length_pos_of_ne_nil some_
  rw [Uring.submitSpans] at started
  split at started
  · rename_i problem _
    split at started
    · cases started
    · rename_i pushedSome
      cases started
      simp only
      omega
  · rename_i fine
    cases started
    cases stopped : (pushSpans env.attempts expected.length 0).2 with
    | none =>
      have all := pushed.2.2 stopped
      simp only
      omega
    | some problem =>
      rw [stopped] at fine
      cases fine

theorem uring_startPiece_token (entries : Nat) (env : StartEnv) (token : Nat) (job : DiskWriteJob) :
    (Uring.startPiece entries env token job).1 = token ∨
      (Uring.startPiece entries env token job).1 = advanceToken token := by
  rw [Uring.startPiece]
  split
  · exact Or.inl rfl
  · split
    · exact Or.inl rfl
    · split
      · exact Or.inl rfl
      · split
        · exact Or.inl rfl
        · exact Or.inr rfl

theorem uring_startPiece_started (entries : Nat) (env : StartEnv) (token : Nat) (job : DiskWriteJob)
    (piece : UringPiece) (started : (Uring.startPiece entries env token job).2 = .started piece) :
    (Uring.startPiece entries env token job).1 = advanceToken token ∧ 0 < piece.remaining ∧
      piece.remaining ≤ spanCount job := by
  rw [Uring.startPiece] at started ⊢
  split at started
  · cases started
  · split at started
    · cases started
    · rename_i spans mapped
      rw [spanCount, mapped]
      split at started
      · cases started
      · rename_i filled
        split at started
        · cases started
        · rename_i fits
          have expected : spans.map (fun span => Machine.asU32 span.length) ≠ [] := by
            intro none
            exact filled (List.isEmpty_iff.2 (List.map_eq_nil_iff.1 none))
          dsimp only at started
          split at started
          · cases started
          · split at started
            · cases started
            · have bounds := submitSpans_remaining env job _ piece expected started
              rw [List.length_map] at bounds
              rw [if_neg (by assumption), if_neg filled, if_neg fits]
              exact ⟨rfl, bounds⟩

theorem harvestTo_ring (u : Uring) (channel : Channel) (phase : Phase) (sound : RingSound u) :
    RingSound (u.harvestTo channel phase).state where
  counted := by
    intro key piece found
    have counts := harvest_counts (fun (cqe : Nat × Int) => (unpackUserData cqe.1).1)
      (fun cqe piece => UringPiece.account piece cqe) (fun _ _ => rfl)
      (fun key => u.ring.pending.countP (named key)) u.ring.cq u.batch.inflight
    have start : ∀ key piece, get? u.batch.inflight key = some piece → 0 < piece.remaining ∧
        piece.remaining =
          u.ring.cq.countP (fun cqe => decide ((unpackUserData cqe.1).1 = key)) +
            u.ring.pending.countP (named key) := by
      intro key piece present
      have counted := sound.counted key piece present
      rw [tags, List.countP_append, List.countP_map] at counted
      refine ⟨counted.1, ?_⟩
      rw [counted.2, Nat.add_comm]
      rfl
    have rest := counts start key piece found
    rw [tags, show (u.harvestTo channel phase).state.ring.cq = [] from rfl, List.map_nil,
      List.append_nil]
    exact rest
  keyed := by
    intro key piece found
    exact harvest_forall (fun (cqe : Nat × Int) => (unpackUserData cqe.1).1)
      (fun cqe piece => UringPiece.account piece cqe) (fun key _ => key < u.batch.nextToken)
      u.ring.cq u.batch.inflight sound.keyed (fun _ _ _ below _ => below) key piece found
  tagged := by
    intro tag member
    rw [tags, show (u.harvestTo channel phase).state.ring.cq = [] from rfl, List.map_nil,
      List.append_nil] at member
    exact sound.tagged tag (List.mem_append_left _ member)
  bounded := sound.bounded

theorem get?_markFailed (u : Uring) (key : Nat) (piece : UringPiece)
    (found : get? u.markFailed.batch.inflight key = some piece) :
    ∃ old, get? u.batch.inflight key = some old ∧ piece.remaining = old.remaining := by
  obtain ⟨⟨other, old⟩, listed, same⟩ := List.mem_map.1 ((mem_list _ key piece).2 found)
  rw [Prod.mk.injEq] at same
  refine ⟨old, (mem_list _ key old).1 ?_, ?_⟩
  · rw [← same.1]
    exact listed
  · rw [← same.2]

theorem markFailed_ring (u : Uring) (sound : RingSound u) : RingSound u.markFailed :=
  RingSound.shrink u _ sound (get?_markFailed u) (Nat.le_refl _) sound.bounded (List.Perm.refl _)

theorem uringDone_ring (u : Uring) (i tag : Nat) (res : Int) (pending : u.ring.pending[i]? = some tag)
    (sound : RingSound u) :
    RingSound { u with ring := ⟨u.ring.pending.eraseIdx i, u.ring.cq ++ [(tag, res)]⟩ } := by
  have inside := List.getElem?_eq_some_iff.1 pending
  have moved : (tags ⟨u.ring.pending.eraseIdx i, u.ring.cq ++ [(tag, res)]⟩).Perm (tags u.ring) := by
    have out := List.getElem_cons_eraseIdx_perm inside.1
    rw [inside.2] at out
    calc tags ⟨u.ring.pending.eraseIdx i, u.ring.cq ++ [(tag, res)]⟩
        = u.ring.pending.eraseIdx i ++ (u.ring.cq.map Prod.fst ++ [tag]) := by
          rw [tags, List.map_append, List.map_singleton]
      _ = (u.ring.pending.eraseIdx i ++ u.ring.cq.map Prod.fst) ++ [tag] :=
          (List.append_assoc _ _ _).symm
      _ |>.Perm (tag :: (u.ring.pending.eraseIdx i ++ u.ring.cq.map Prod.fst)) :=
          List.perm_append_singleton _ _
      _ |>.Perm (tags u.ring) := out.append_right _
  exact RingSound.shrink u _ sound (fun key piece found => ⟨piece, found, rfl⟩) (Nat.le_refl _)
    sound.bounded moved

/-- The operations pushed for a piece carry its token. -/
theorem countP_pushedTags (token : Nat) (piece : UringPiece) (small : token < 2 ^ 48) (key : Nat) :
    (pushedTags token (.started piece)).countP (named key) =
      if key = token then piece.remaining else 0 := by
  have same : (named key ∘ packUserData token) = fun _ => decide (token = key) := by
    funext span
    rw [Function.comp, named, unpack_pack token span small]
  rw [pushedTags, List.countP_map, same]
  by_cases here : key = token
  · rw [if_pos here, here, decide_eq_true rfl, List.countP_true, List.length_range]
  · rw [if_neg here, decide_eq_false (Ne.symm here), List.countP_false]
    rfl

/-- A piece enters under a token that no operation carries, with the operations pushed for it. -/
theorem insert_ring (u : Uring) (piece : UringPiece) (waiting : List DiskWriteJob)
    (sound : RingSound u) (small : u.batch.nextToken < 2 ^ 48) (positive : 0 < piece.remaining) :
    RingSound
      ⟨{ u.batch with
          waiting := waiting
          inflight := insert u.batch.inflight u.batch.nextToken piece
          nextToken := u.batch.nextToken + 1 },
        { u.ring with
          pending := u.ring.pending ++ pushedTags u.batch.nextToken (.started piece) }⟩ where
  counted := by
    intro key other found
    dsimp only at found ⊢
    rw [get?_insert] at found
    rw [tags, List.countP_append, List.countP_append, countP_pushedTags _ piece small]
    dsimp only
    split_ifs at found with here
    · cases found
      have none : ∀ tag ∈ tags u.ring, ¬named key tag = true := by
        intro tag member
        have below := sound.tagged tag member
        rw [named, decide_eq_true_eq]
        omega
      have zero := List.countP_eq_zero.2 none
      rw [tags, List.countP_append] at zero
      rw [if_pos here]
      exact ⟨positive, by omega⟩
    · have counted := sound.counted key other found
      rw [tags, List.countP_append] at counted
      rw [if_neg here]
      exact ⟨counted.1, by omega⟩
  keyed := by
    intro key other found
    dsimp only at found ⊢
    rw [get?_insert] at found
    split_ifs at found with here
    · omega
    · have below := sound.keyed key other found
      omega
  tagged := by
    intro tag member
    dsimp only at member ⊢
    rw [tags, List.append_assoc, List.mem_append, List.mem_append] at member
    rcases member with old | fresh | done
    · have below := sound.tagged tag (List.mem_append_left _ old)
      omega
    · obtain ⟨span, _, packed⟩ := List.mem_map.1 fresh
      rw [← packed, unpack_pack _ span small]
      exact Nat.lt_succ_self _
    · have below := sound.tagged tag (List.mem_append_right _ done)
      omega
  bounded := small

theorem startNext_ring (cfg : Config) (connected : Bool) (u : Uring) (channel : Channel)
    (env : StartEnv) (turn : Turn Uring) (sound : RingSound u) (small : u.batch.nextToken < 2 ^ 48)
    (taken : u.step cfg connected channel (.startNext env) = some turn) : RingSound turn.state := by
  simp only [Uring.step] at taken
  split at taken
  · cases next : u.batch.nextJob cfg.slots with
    | none =>
      simp only [next, Batch.startNext, List.append_nil, Option.some_inj] at taken
      rw [← taken]
      exact keeps_ring u _ sound (leaveStart_keeps u.batch channel)
    | some job =>
      simp only [next, Batch.startNext, Option.some_inj] at taken
      rw [← taken]
      have same : ∀ (waiting : List DiskWriteJob) (token : Nat), u.batch.nextToken ≤ token →
          token ≤ 2 ^ 48 → RingSound
            ⟨{ u.batch with waiting := waiting, nextToken := token },
              { u.ring with pending := u.ring.pending ++ [] }⟩ := by
        intro waiting token more bound
        have moved : (tags { u.ring with pending := u.ring.pending ++ [] }).Perm (tags u.ring) := by
          rw [List.append_nil]
        exact RingSound.shrink u
          ⟨{ u.batch with waiting := waiting, nextToken := token },
            { u.ring with pending := u.ring.pending ++ [] }⟩
          sound (fun key piece found => ⟨piece, found, rfl⟩) more bound moved
      have advanced := advanceToken_small u.batch.nextToken small
      have token := uring_startPiece_token (ringEntries cfg.depth) env u.batch.nextToken job
      by_cases discard : cfg.discardWrites = true
      · rw [if_pos discard, if_pos discard]
        exact same _ _ (Nat.le_refl _) sound.bounded
      · rw [if_neg discard, if_neg discard]
        cases answer : (Uring.startPiece (ringEntries cfg.depth) env u.batch.nextToken job).2 with
        | refused problem =>
          apply same _ _
          · omega
          · omega
        | completed =>
          apply same _ _
          · omega
          · omega
        | started piece =>
          have started := uring_startPiece_started _ env u.batch.nextToken job piece answer
          have inserted := insert_ring u piece u.batch.waiting.tail sound small started.2.1
          rw [← advanced, ← started.1] at inserted
          exact inserted
  · cases taken

end Seedchamp.Runtime.DiskRings
