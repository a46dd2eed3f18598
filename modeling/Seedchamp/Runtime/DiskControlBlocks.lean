import Seedchamp.Runtime.DiskRings

/-!
The control blocks of the POSIX AIO pieces in flight: `remaining` counts the spans whose result has
not been taken.
-/

namespace Seedchamp.Runtime.DiskControlBlocks
open Runtime.DiskJobs Runtime.DiskThreads Runtime.DiskRings Foundation.KeyedMap Foundation.Tasks
open Foundation.Custody

def undone (span : AioSpan) : Bool := !span.done

def Counted (piece : AioPiece) : Prop := piece.remaining = piece.spans.countP undone

def AioSound (b : Batch AioPiece) : Prop :=
  ∀ key piece, get? b.inflight key = some piece → 0 < piece.remaining ∧ Counted piece

/-- What is still to be done for a span: let the kernel finish it, and take its result. -/
def spanWork (span : AioSpan) : Nat :=
  if span.done then 0 else if span.status = .inProgress then 11 else 10

def pieceWork (piece : AioPiece) : Nat := (piece.spans.map spanWork).sum

/-- A span with a finished control block gives its result; any other is left alone. -/
theorem takeResult_cases (piece : AioPiece) (i : Nat) :
    (∃ span, piece.spans[i]? = some span ∧ span.finished = true ∧
      (piece.takeResult i).spans = piece.spans.set i { span with done := true } ∧
      (piece.takeResult i).remaining = piece.remaining - 1) ∨
    ((∀ span, piece.spans[i]? = some span → span.finished = false) ∧ piece.takeResult i = piece) := by
  rw [AioPiece.takeResult]
  split
  · rename_i expected error returned here
    exact Or.inl ⟨_, here, rfl, rfl, rfl⟩
  · rename_i other
    refine Or.inr ⟨?_, rfl⟩
    intro span here
    obtain ⟨expected, status, done⟩ := span
    cases done with
    | true => rfl
    | false =>
      cases status with
      | inProgress => rfl
      | finished error returned => exact absurd here (other expected error returned)

theorem takeResult_counted (piece : AioPiece) (i : Nat) (counted : Counted piece) :
    Counted (piece.takeResult i) := by
  rcases takeResult_cases piece i with ⟨span, here, finished, spans, remaining⟩ | ⟨_, same⟩
  · have moved := countP_set piece.spans i span { span with done := true } undone here
    have open_ : undone span = true := by
      rw [AioSpan.finished, Bool.and_eq_true] at finished
      exact finished.1
    have shut : undone { span with done := true } = false := rfl
    rw [if_pos open_, shut, if_neg (by decide)] at moved
    rw [Counted] at counted ⊢
    rw [spans, remaining]
    omega
  · rw [same]
    exact counted

theorem takeResult_work (piece : AioPiece) (i : Nat) :
    pieceWork (piece.takeResult i) ≤ pieceWork piece ∧
      ((∃ span, piece.spans[i]? = some span ∧ span.finished = true) →
        pieceWork (piece.takeResult i) + 10 ≤ pieceWork piece) := by
  rcases takeResult_cases piece i with ⟨span, here, finished, spans, _⟩ | ⟨none, same⟩
  · have moved := sum_map_set piece.spans spanWork i span { span with done := true } here
    rw [AioSpan.finished, Bool.and_eq_true, Bool.not_eq_true', decide_eq_true_eq] at finished
    have before : spanWork span = 10 := by
      rw [spanWork, finished.1, if_neg (by decide), if_neg finished.2]
    have after : spanWork { span with done := true } = 0 := if_pos rfl
    rw [pieceWork, pieceWork, spans]
    exact ⟨by omega, fun _ => by omega⟩
  · rw [same]
    refine ⟨Nat.le_refl _, ?_⟩
    intro some_
    obtain ⟨span, here, finished⟩ := some_
    rw [none span here] at finished
    cases finished

theorem harvest_counted (piece : AioPiece) (counted : Counted piece) : Counted piece.harvest := by
  have all : ∀ (range : List Nat) (piece : AioPiece), Counted piece →
      Counted (range.foldl AioPiece.takeResult piece) := by
    intro range
    induction range with
    | nil => exact fun _ counted => counted
    | cons i rest ih => exact fun piece counted => ih _ (takeResult_counted piece i counted)
  exact all _ piece counted

/-- Taking results in any order takes every one that is there. -/
theorem foldl_work (range : List Nat) (piece : AioPiece) :
    pieceWork (range.foldl AioPiece.takeResult piece) ≤ pieceWork piece ∧
      ((∃ i ∈ range, ∃ span, piece.spans[i]? = some span ∧ span.finished = true) →
        pieceWork (range.foldl AioPiece.takeResult piece) + 10 ≤ pieceWork piece) := by
  induction range generalizing piece with
  | nil => exact ⟨Nat.le_refl _, fun some_ => by obtain ⟨i, member, _⟩ := some_; cases member⟩
  | cons j rest ih =>
    have first := takeResult_work piece j
    have later := ih (piece.takeResult j)
    rw [List.foldl_cons]
    refine ⟨later.1.trans first.1, ?_⟩
    intro some_
    obtain ⟨i, member, span, here, finished⟩ := some_
    rcases takeResult_cases piece j with ⟨taken, at_, done, _, _⟩ | ⟨_, same⟩
    · have less := first.2 ⟨taken, at_, done⟩
      have rest_ := later.1
      omega
    · rcases List.mem_cons.1 member with head | tail
      · rw [head] at here
        have less := first.2 ⟨span, here, finished⟩
        have rest_ := later.1
        omega
      · have less := later.2 ⟨i, tail, span, by rw [same]; exact here, finished⟩
        rw [same] at less ⊢
        exact less

theorem harvest_work (piece : AioPiece) :
    pieceWork piece.harvest ≤ pieceWork piece ∧
      (piece.spans.any AioSpan.finished = true → pieceWork piece.harvest + 10 ≤ pieceWork piece) := by
  have all := foldl_work (List.range piece.spans.length) piece
  refine ⟨all.1, ?_⟩
  intro ready
  obtain ⟨span, listed, finished⟩ := List.any_eq_true.1 ready
  obtain ⟨i, here⟩ := List.mem_iff_getElem?.1 listed
  have inside := (List.getElem?_eq_some_iff.1 here).1
  exact all.2 ⟨i, List.mem_range.2 inside, span, here, finished⟩

theorem keeps_blocks (before after : Batch AioPiece) (sound : AioSound before)
    (keeps : Keeps before after) : AioSound after :=
  fun key piece found => sound key piece (keeps.present before after key piece found)

theorem harvestTo_blocks (b : Batch AioPiece) (channel : Channel) (phase : Phase) (sound : AioSound b) :
    AioSound (Aio.harvestTo b channel phase).state := by
  intro key piece found
  apply harvest_forall (fun key => key) (fun (_ : Nat) piece => AioPiece.harvest piece)
    (fun _ piece => 0 < piece.remaining ∧ Counted piece) (keys b.inflight) b.inflight sound _ key piece
    found
  intro _ _ piece before positive
  exact ⟨Nat.pos_of_ne_zero positive, harvest_counted piece before.2⟩

theorem aio_startPiece_started (env : StartEnv) (token : Nat) (job : DiskWriteJob) (piece : AioPiece)
    (started : (Aio.startPiece env token job).2 = .started piece) :
    0 < piece.remaining ∧ Counted piece ∧ pieceWork piece = 11 * spanCount job := by
  rw [Aio.startPiece] at started
  split at started
  · cases started
  · split at started
    · cases started
    · rename_i spans mapped
      rw [spanCount, mapped]
      dsimp only at started
      split at started
      · cases started
      · rename_i filled
        split at started
        · cases started
        · split at started
          · cases started
          · split at started
            · cases started
            · cases started
              refine ⟨List.length_pos_iff.2 (fun none => filled (List.isEmpty_iff.2 none)), ?_, ?_⟩
              · rw [Counted, List.countP_map]
                exact (List.countP_eq_length.2 (fun _ _ => rfl)).symm
              · have each : spanWork ∘ (fun span : Disk.Spans.IoSpan =>
                    (⟨span.length, .inProgress, false⟩ : AioSpan)) = fun _ => 11 := rfl
                rw [pieceWork, List.map_map, each, List.map_const', List.sum_replicate_nat,
                  Nat.mul_comm]

theorem startNext_blocks (cfg : Config) (env : StartEnv) (b : Batch AioPiece) (channel : Channel)
    (sound : AioSound b) :
    AioSound (b.startNext cfg.slots cfg.discardWrites (Aio.startPiece env) channel).state := by
  rw [Batch.startNext]
  cases next : b.nextJob cfg.slots with
  | none => exact keeps_blocks b _ sound (leaveStart_keeps b channel)
  | some job =>
    simp only
    split_ifs
    · exact sound
    · cases answer : (Aio.startPiece env b.nextToken job).2 with
      | refused _ | completed => exact sound
      | started piece =>
        have started := aio_startPiece_started env b.nextToken job piece answer
        intro key other found
        dsimp only at found
        rw [get?_insert] at found
        split_ifs at found
        · cases found
          exact ⟨started.1, started.2.1⟩
        · exact sound key other found

theorem countP_finishSpan (piece : AioPiece) (i error : Nat) (returned : Int) :
    (Aio.finishSpan piece i error returned).spans.countP undone = piece.spans.countP undone := by
  have same : ∀ (spans : List AioSpan) (i : Nat),
      (spans.modify i (fun span => { span with status := .finished error returned })).countP undone =
        spans.countP undone := by
    intro spans
    induction spans with
    | nil =>
      intro i
      rw [List.modify_nil]
    | cons head rest ih =>
      intro i
      cases i with
      | zero => rfl
      | succ i =>
        rw [List.modify_succ_cons, List.countP_cons, List.countP_cons, ih]
  exact same piece.spans i

theorem finishSpan_blocks (b : Batch AioPiece) (key i error : Nat) (returned : Int) (piece : AioPiece)
    (found : get? b.inflight key = some piece) (sound : AioSound b) :
    AioSound { b with inflight := insert b.inflight key (Aio.finishSpan piece i error returned) } := by
  intro other current present
  dsimp only at present
  rw [get?_insert] at present
  split_ifs at present
  · cases present
    have before := sound key piece found
    exact ⟨before.1, before.2.trans (countP_finishSpan piece i error returned).symm⟩
  · exact sound other current present

theorem erase_blocks (b : Batch AioPiece) (key : Nat) (sound : AioSound b) :
    AioSound { b with inflight := erase b.inflight key } := by
  intro other current present
  dsimp only at present
  rw [get?_erase] at present
  split_ifs at present
  exact sound other current present

/-- Every turn keeps the count of results to come. -/
theorem aio_blocks (cfg : Config) (connected : Bool) (b : Batch AioPiece) (channel : Channel)
    (event : ThreadEvent) (turn : Turn (Batch AioPiece)) (sound : AioSound b)
    (taken : Aio.step cfg connected b channel event = some turn) : AioSound turn.state := by
  cases event with
  | tryRecv =>
    simp only [Aio.step] at taken
    split at taken
    · cases taken
      exact keeps_blocks b _ sound (tryRecv_keeps _ connected b channel)
    · cases taken
      exact keeps_blocks b _ sound (drainChannel_keeps .submit b channel)
    · cases taken
  | startNext env =>
    simp only [Aio.step] at taken
    split at taken
    · cases taken
      exact startNext_blocks cfg env b channel sound
    · cases taken
  | recv =>
    simp only [Aio.step] at taken
    split at taken
    · exact keeps_blocks b _ sound (recv_keeps connected b channel turn taken)
    · cases taken
  | wait answer =>
    simp only [Aio.step] at taken
    split at taken
    · split at taken
      · split at taken
        · split at taken
          · cases taken
            exact harvestTo_blocks b channel .fill sound
          · cases taken
        · cases taken
          exact harvestTo_blocks b channel .fill sound
        · cases taken
          exact sound
      · cases taken
        exact harvestTo_blocks b channel .fill sound
    · cases taken
  | drainPiece key =>
    simp only [Aio.step] at taken
    split at taken
    · split at taken
      · cases taken
        exact erase_blocks b key sound
      · cases taken
    · cases taken
  | leaveDrain =>
    simp only [Aio.step] at taken
    split at taken
    · split at taken
      · cases taken
        exact sound
      · cases taken
    · cases taken
  | failWaiting =>
    simp only [Aio.step] at taken
    split at taken
    · cases taken
      exact sound
    · cases taken
  | dropReceiver =>
    simp only [Aio.step] at taken
    split at taken
    · cases taken
      exact keeps_blocks b _ sound (exit_keeps b channel)
    · cases taken
  | aioDone key i error returned =>
    simp only [Aio.step] at taken
    split at taken
    · rename_i piece found
      split at taken
      · cases taken
        exact finishSpan_blocks b key i error returned piece found sound
      · cases taken
    · cases taken
  | _ => cases taken

end Seedchamp.Runtime.DiskControlBlocks
