import Seedchamp.Peer.Duplex
import Seedchamp.Peer.WireOrder

/-!
Answers to block requests with the Fast extension. A Request is in one of four places: a command on
the channel, the queue, a PIECE frame, or a REJECT frame; only Cancel, NotInterested and the final
flush take one out of the queue without an answer.
-/

namespace Seedchamp.Peer.Answers
open Crypto.PayloadCipher Disk.Spans Foundation.TransitionSystem Upload.InFlight Wire.Messages
open Peer.SendQueue Peer.Duplex
open Peer.WireOrder hiding step connect

/-- Requests for the block that the send half has answered, started to answer, or still owes. -/
def charge (block : UploadBlock) (s : PeerSend) : Nat :=
  (s.log.started.flatMap Frame.blocks).count block + s.log.pushed.count (rejectFrame block) +
    (waitingBlock s.out ++ s.out.pieces).count block

def carried (block : UploadBlock) : WriterMsg → Nat
  | .upload other => if other = block then 1 else 0
  | .ctrl plain => plain.count (rejectFrame block)
  | _ => 0

/-- Requests for the block whose command the writer has not received. -/
def inTransit (block : UploadBlock) (channel : List WriterMsg) : Nat := (channel.map (carried block)).sum

theorem inTransit_append (block : UploadBlock) (channel : List WriterMsg) (msg : WriterMsg) :
    inTransit block (channel ++ [msg]) = inTransit block channel + carried block msg := by
  simp only [inTransit, List.map_append, List.sum_append, List.map_cons, List.map_nil,
    List.sum_cons, List.sum_nil, Nat.add_zero]

theorem rejectFrame_injective (first second : UploadBlock)
    (same : rejectFrame first = rejectFrame second) : first = second := by
  cases first
  cases second
  cases same
  rfl

theorem count_rejectFrame (block other : UploadBlock) :
    [rejectFrame other].count (rejectFrame block) = if other = block then 1 else 0 := by
  rw [List.count_singleton]
  split_ifs with same different different
  · rfl
  · rw [beq_iff_eq] at same
    exact absurd (rejectFrame_injective _ _ same) different
  · rw [different, beq_self_eq_true] at same
    exact absurd rfl same
  · rfl

theorem count_reject_eq_zero (block : UploadBlock) (plain : List Message)
    (clean : plain.any isReject = false) : plain.count (rejectFrame block) = 0 := by
  rw [List.count_eq_zero]
  intro member
  have found := List.any_eq_false.1 clean _ member
  exact found rfl

/-- Nothing is queued for upload and no active PIECE may be dropped. -/
def Spared (s : PeerSend) : Prop := s.out.pieces = [] ∧ s.out.abortable = none

instance (s : PeerSend) : Decidable (Spared s) := inferInstanceAs (Decidable (_ ∧ _))

theorem charge_pushCtrl (block : UploadBlock) (s : PeerSend) (plain : List Message) :
    charge block (s.pushCtrl plain) = charge block s + plain.count (rejectFrame block) := by
  obtain ⟨active, pieces⟩ := pushCtrlOwned_frame s.out plain
  simp only [charge, PeerSend.pushCtrl, waitingBlock, active, pieces, List.count_append]
  omega

theorem charge_pushReject (block other : UploadBlock) (s : PeerSend) :
    charge block (s.pushReject other true) = charge block s + if other = block then 1 else 0 := by
  rw [PeerSend.pushReject, if_pos rfl, charge_pushCtrl]
  exact congrArg (charge block s + ·) (count_rejectFrame block other)

theorem charge_pushKeepalive (block : UploadBlock) (s : PeerSend) :
    charge block s.pushKeepalive = charge block s := by
  unfold PeerSend.pushKeepalive
  split_ifs
  · rfl
  · rw [charge_pushCtrl, count_reject_eq_zero block [.keepAlive] rfl]
    rfl

/-- An accepted block is owed; a refused one leaves the queue as it was. -/
theorem charge_tryPushPiece (block other : UploadBlock) (s : PeerSend) :
    charge block (s.tryPushPiece other).2 =
      charge block s + if (s.tryPushPiece other).1 ∧ other = block then 1 else 0 := by
  unfold PeerSend.tryPushPiece OutQueue.tryPushPiece
  split_ifs with short full queued active mine
  all_goals simp_all [charge, waitingBlock, List.count_append]
  all_goals try omega

theorem charge_cancelPiece (block other : UploadBlock) (s : PeerSend)
    (absent : other ∉ s.out.pieces) (held : s.out.abortable ≠ some other) :
    charge block (s.cancelPiece other) = charge block s := by
  have same : s.out.pieces.erase other = s.out.pieces := List.erase_of_not_mem absent
  unfold PeerSend.cancelPiece OutQueue.cancelPiece
  dsimp only
  rw [same, if_neg held]
  split_ifs <;> rfl

theorem charge_clearPieces (block : UploadBlock) (s : PeerSend) (spared : Spared s) :
    charge block s.clearPieces = charge block s := by
  obtain ⟨blank, kept⟩ := spared
  unfold PeerSend.clearPieces OutQueue.clearPieces
  dsimp only
  have none' : ({ s.out with pieces := [] } : OutQueue).abortable = none := kept
  rw [none', if_neg (by decide)]
  simp only [charge, waitingBlock, blank]

/-- Activating moves a block from owed to started, or answers it with a reject. -/
theorem charge_pickNextActive (block : UploadBlock) (config : SendConfig) (turn : Turn)
    (rc4 : Option Rc4) (s : PeerSend) (intact : Intact rc4 s) (fast : config.fastEnabled = true) :
    charge block (pickNextActive config turn s) = charge block s := by
  unfold pickNextActive
  split_ifs with busy
  · rfl
  · have idle : s.out.active = none := by simpa using busy
    split
    · rename_i plain rest queued
      simp only [charge, waitingBlock, idle, List.flatMap_append, blocks_ctrl, List.append_nil]
    · split
      · rfl
      · rename_i other rest queued
        have filling := fillBlock_cases config other s.rc4 turn s.scratch intact.scratchLen
        dsimp only
        rcases filling with ⟨room, ⟨problem, failed, kept⟩ | ⟨inf, ok, filled⟩⟩
        · rw [failed, fast]
          dsimp only
          rw [charge_pushReject]
          simp only [charge, waitingBlock, idle, queued, List.nil_append, List.count_cons, beq_iff_eq]
          omega
        · rw [ok]
          have serves := filled.serves
          cases applied : inf.cipherApplied with
          | true =>
            simp only [charge, waitingBlock, idle, queued, applied, if_true, List.nil_append,
              List.flatMap_append, List.flatMap_singleton, Frame.blocks, List.count_append,
              List.count_cons, List.count_nil, beq_iff_eq]
            omega
          | false =>
            simp only [charge, waitingBlock, idle, queued, applied, Bool.false_eq_true, if_false,
              serves, List.nil_append, List.singleton_append]

theorem charge_writeCtrl (block : UploadBlock) (turn : Turn) (s : PeerSend) (any : Bool)
    (buf : Bytes) (active : s.out.active = some (.ctrl buf)) :
    charge block (writeCtrl turn s any buf).1 = charge block s := by
  unfold writeCtrl OutQueue.noteCtrlFullySent
  dsimp only
  split_ifs <;> simp only [charge, waitingBlock, active]

theorem charge_writePiece (block : UploadBlock) (rc4 : Option Rc4) (turn : Turn) (s : PeerSend)
    (any : Bool) (inf : InFlightUpload) (intact : Intact rc4 s)
    (active : s.out.active = some (.piece inf))
    (stands : (writePiece turn s any inf).2.2 ≠ .failed) :
    charge block (writePiece turn s any inf).1 = charge block s := by
  have framed := intact.framed inf active
  have unsent : ¬inf.total ≤ inf.sent := by
    rw [framed.unsent, framed.total, PIECE_HEADER_LEN]
    omega
  unfold writePiece at stands ⊢
  rw [if_neg unsent] at stands ⊢
  split_ifs at stands ⊢ with short
  · exact absurd rfl stands
  · dsimp only at stands ⊢
    split_ifs at stands ⊢
    · unfold startPlain
      split_ifs with applied
      · simp only [charge, waitingBlock, active, applied, if_true]
      · simp only [charge, waitingBlock, active, applied, Bool.false_eq_true, if_false,
          List.flatMap_append, List.flatMap_singleton, Frame.blocks, List.count_append,
          List.nil_append]
        omega
    · exact absurd rfl stands

theorem abortable_piece (out : OutQueue) (inf : InFlightUpload)
    (active : out.active = some (.piece inf)) (abort : inf.canAbort = true) :
    out.abortable = some inf.block := by
  unfold OutQueue.abortable
  rw [active]
  exact if_pos abort

theorem charge_sendActive (block : UploadBlock) (config : SendConfig) (rc4 : Option Rc4) (turn : Turn)
    (s : PeerSend) (any : Bool) (intact : Intact rc4 s)
    (keeps : config.allowUpload = true ∨ Spared s)
    (stands : (sendActive config turn s any).2.2 ≠ .failed) :
    charge block (sendActive config turn s any).1 = charge block s := by
  revert stands
  unfold sendActive
  split
  · exact fun _ => rfl
  · rename_i buf active
    exact fun _ => charge_writeCtrl block turn s any buf active
  · rename_i inf active
    split_ifs with dropped
    · rcases keeps with allowed | ⟨_, kept⟩
      · rw [dropped.1] at allowed
        cases allowed
      · rw [abortable_piece s.out inf active dropped.2] at kept
        cases kept
    · split
      · exact fun _ => rfl
      · rename_i inf' reserved
        intro stands
        obtain ⟨tokens, same⟩ := reserveTokens_frame turn inf inf' reserved
        subst same
        rw [charge_writePiece block rc4 turn _ any _ (intact_reserve rc4 s inf tokens intact active)
          rfl stands]
        simp only [charge, waitingBlock, active]

/-- Control activated on a spared queue leaves it spared. -/
theorem spared_pickNextActive (config : SendConfig) (turn : Turn) (s : PeerSend) (spared : Spared s) :
    Spared (pickNextActive config turn s) := by
  unfold pickNextActive
  split_ifs
  · exact spared
  · split
    · exact ⟨spared.1, rfl⟩
    · split
      · exact spared
      · rename_i other rest queued
        rw [spared.1] at queued
        cases queued

theorem spared_of_idle (s : PeerSend) (blank : s.out.pieces = []) (idle : s.out.active = none) :
    Spared s := by
  refine ⟨blank, ?_⟩
  unfold OutQueue.abortable
  rw [idle]

theorem spared_writeCtrl (turn : Turn) (s : PeerSend) (any : Bool) (buf : Bytes)
    (blank : s.out.pieces = []) : Spared (writeCtrl turn s any buf).1 := by
  unfold writeCtrl OutQueue.noteCtrlFullySent
  dsimp only
  split_ifs <;> exact spared_of_idle _ blank rfl

theorem spared_writePiece (turn : Turn) (s : PeerSend) (any : Bool) (inf : InFlightUpload)
    (spared : Spared s) : Spared (writePiece turn s any inf).1 := by
  unfold writePiece startPlain
  dsimp only
  split_ifs
  all_goals first
    | exact spared_of_idle _ spared.1 rfl
    | exact ⟨spared.1, spared.2⟩

theorem spared_reserve (s : PeerSend) (inf : InFlightUpload) (tokens : Nat) (spared : Spared s)
    (active : s.out.active = some (.piece inf)) :
    Spared { s with
      out := { s.out with active := some (.piece { inf with rateReserved := tokens }) } } := by
  refine ⟨spared.1, ?_⟩
  have kept := spared.2
  simp only [OutQueue.abortable, active] at kept ⊢
  exact kept

theorem spared_sendActive (config : SendConfig) (turn : Turn) (s : PeerSend) (any : Bool)
    (spared : Spared s) : Spared (sendActive config turn s any).1 := by
  unfold sendActive
  split
  · exact spared
  · exact spared_writeCtrl turn s any _ spared.1
  · rename_i inf active
    split_ifs
    · exact spared_of_idle _ spared.1 rfl
    · split
      · exact spared
      · rename_i inf' reserved
        obtain ⟨tokens, same⟩ := reserveTokens_frame turn inf inf' reserved
        subst same
        exact spared_writePiece turn _ any _ (spared_reserve s inf tokens spared active)

theorem spared_quantumTurn (config : SendConfig) (turn : Turn) (s : PeerSend) (any : Bool)
    (spared : Spared s) : Spared (quantumTurn config turn s any).1 := by
  have picked := spared_pickNextActive config turn s spared
  unfold quantumTurn
  dsimp only
  split_ifs
  · exact spared_sendActive config turn s any spared
  · exact spared
  · exact spared_sendActive config turn _ any picked
  · exact picked
  · exact picked
  · exact picked

theorem charge_quantumTurn (block : UploadBlock) (config : SendConfig) (rc4 : Option Rc4) (turn : Turn)
    (s : PeerSend) (any : Bool) (intact : Intact rc4 s) (fast : config.fastEnabled = true)
    (keeps : config.allowUpload = true ∨ Spared s)
    (stands : (quantumTurn config turn s any).2.2 ≠ .failed) :
    charge block (quantumTurn config turn s any).1 = charge block s := by
  have picked := intact_pickNextActive config turn rc4 s intact
  have same := charge_pickNextActive block config turn rc4 s intact fast
  have keeps' := keeps.imp_right (spared_pickNextActive config turn s)
  unfold quantumTurn at stands ⊢
  dsimp only at stands ⊢
  split_ifs at stands ⊢
  · exact charge_sendActive block config rc4 turn s any intact keeps stands
  · rfl
  · rw [charge_sendActive block config rc4 turn _ any picked keeps' stands, same]
  · exact same
  · exact same
  · exact same

/-- A quantum that keeps the session up neither loses nor duplicates a request. -/
theorem charge_quantumLoop (block : UploadBlock) (config : SendConfig) (turns : Nat → Turn)
    (rc4 : Option Rc4) (fuel k : Nat) (s s' : PeerSend) (any : Bool) (outcome : SendOutcome)
    (intact : Intact rc4 s) (fast : config.fastEnabled = true)
    (keeps : config.allowUpload = true ∨ Spared s)
    (ran : quantumLoop config turns fuel k s any = some (s', .ok outcome)) :
    charge block s' = charge block s := by
  induction fuel generalizing k s any with
  | zero => cases ran
  | succ fuel ih =>
    have turned := turnKeeps_quantumTurn config rc4 (turns k) s any intact
    have same := charge_quantumTurn block config rc4 (turns k) s any intact fast keeps
    have keeps' := keeps.imp_right (spared_quantumTurn config (turns k) s any)
    rw [quantumLoop] at ran
    split at ran
    · rename_i next any' result
      rw [result] at turned same keeps'
      rw [ih (k + 1) next any' (turned.1 (by simp)) keeps' ran]
      exact same (by simp)
    · rename_i next any' limited result
      rw [result] at same
      cases ran
      exact same (by simp)
    · cases ran

theorem charge_sendQuantum (block : UploadBlock) (config : SendConfig) (turns : Nat → Turn)
    (rc4 : Option Rc4) (s s' : PeerSend) (outcome : SendOutcome)
    (intact : Intact rc4 s) (fast : config.fastEnabled = true)
    (keeps : config.allowUpload = true ∨ Spared s)
    (ran : sendQuantum config turns s = some (s', .ok outcome)) :
    charge block s' = charge block s := by
  unfold sendQuantum at ran
  split_ifs at ran with allowed
  · exact charge_quantumLoop block config turns rc4 _ 0 s s' false outcome intact fast keeps ran
  · have spared := keeps.resolve_left allowed
    have same : ({ s with out := { s.out with pieces := [] } } : PeerSend) = s := by
      rw [← spared.1]
    rw [same] at ran
    exact charge_quantumLoop block config turns rc4 _ 0 s s' false outcome intact fast keeps ran

/-- The condition on a step under which it takes no unanswered request out of the queue: requests are
served at all, a Cancel finds its block neither queued nor still droppable, and NotInterested and the
final flush find nothing to drop. -/
def answersKept (config : PeerConfig) (d : PeerSession) : Event → Bool
  | .request _ _ _ => config.allowUpload
  | .receive =>
    match d.channel with
    | .cancel block :: _ => block ∉ d.send.out.pieces ∧ d.send.out.abortable ≠ some block
    | .clearPieces :: _ => Spared d.send
    | _ => true
  | .flush _ _ => Spared d.send
  | _ => true

/-- While the session stands every request is on the channel, owed, or answered. -/
structure Accounted (rc4 : Option Rc4) (d : PeerSession) : Prop where
  intact : d.phase ≠ .failed → Intact rc4 d.send
  counts : d.phase ≠ .failed → ∀ block,
    d.received.count block = charge block d.send + inTransit block d.channel

theorem accounted_connect (rc4 : Option Rc4) : Accounted rc4 (connect rc4) :=
  ⟨fun _ => (sound_connect rc4).1 rfl, fun _ _ => rfl⟩

/-- A command that carries no request leaves the account as it is. -/
theorem accounted_post (rc4 : Option Rc4) (d : PeerSession) (msg : WriterMsg)
    (accounted : Accounted rc4 d) (silent : ∀ block, carried block msg = 0) :
    Accounted rc4 (d.post msg) := by
  refine ⟨accounted.intact, fun stands block => ?_⟩
  have counts := accounted.counts stands block
  simp only [PeerSession.post, inTransit_append, silent block]
  omega

theorem accounted_pushCtrlOwned (rc4 : Option Rc4) (d : PeerSession) (plain : List Message)
    (accounted : Accounted rc4 d) (clean : plain.any isReject = false) :
    Accounted rc4 (d.pushCtrlOwned plain) := by
  unfold PeerSession.pushCtrlOwned
  split_ifs
  · exact accounted
  · exact accounted_post rc4 d _ accounted (fun block => count_reject_eq_zero block plain clean)

/-- A Request enters the account with the one command it posts. -/
theorem accounted_onRequest (rc4 : Option Rc4) (config : PeerConfig) (layout : StorageLayout)
    (hasPiece : Bool) (block : UploadBlock) (d : PeerSession) (accounted : Accounted rc4 d)
    (fast : config.fastEnabled = true) (serves : config.allowUpload = true) :
    Accounted rc4 (d.onRequest config layout hasPiece block) := by
  have posted : ∀ msg, (∀ other, carried other msg = if block = other then 1 else 0) →
      Accounted rc4 ({ d with received := d.received ++ [block] }.post msg) := by
    intro msg one
    refine ⟨accounted.intact, fun stands other => ?_⟩
    have counts := accounted.counts stands other
    simp only [PeerSession.post, inTransit_append, one other, List.count_append,
      List.count_singleton, beq_iff_eq]
    omega
  unfold PeerSession.onRequest
  dsimp only
  rw [if_pos serves]
  split
  · exact posted _ (fun other => rfl)
  · rw [if_pos fast]
    exact posted _ (fun other => count_rejectFrame other block)

/-- The writer moves a request from the channel to the queue or to a reject. -/
theorem accounted_receive (rc4 : Option Rc4) (config : PeerConfig) (d : PeerSession) (msg : WriterMsg)
    (rest : List WriterMsg) (accounted : Accounted rc4 d) (fast : config.fastEnabled = true)
    (running : d.phase = .running) (next : d.channel = msg :: rest)
    (kept : answersKept config d .receive = true) :
    Accounted rc4 ({ d with channel := rest }.applyWriterMsg config msg) := by
  have stands : d.phase ≠ .failed := by
    rw [running]
    decide
  have intact := accounted.intact stands
  have counts := accounted.counts stands
  simp only [answersKept, next] at kept
  simp only [next, inTransit, List.map_cons, List.sum_cons] at counts
  cases msg with
  | ctrl plain =>
    refine ⟨fun _ => intact_pushCtrl rc4 d.send intact plain, fun _ block => ?_⟩
    have before := counts block
    simp only [PeerSession.applyWriterMsg, charge_pushCtrl, inTransit, carried] at before ⊢
    omega
  | upload other =>
    have pushed := intact_tryPushPiece rc4 d.send intact other
    simp only [PeerSession.applyWriterMsg]
    split_ifs with took
    · refine ⟨fun _ => pushed, fun _ block => ?_⟩
      have before := counts block
      simp only [charge_tryPushPiece, took, true_and, inTransit, carried] at before ⊢
      omega
    · refine ⟨fun _ => intact_pushReject rc4 _ pushed other _, fun _ block => ?_⟩
      have before := counts block
      simp only [fast, charge_pushReject, charge_tryPushPiece, took, false_and, if_false,
        Bool.false_eq_true, inTransit, carried] at before ⊢
      omega
  | cancel other =>
    rw [decide_eq_true_eq] at kept
    refine ⟨fun _ => intact_cancelPiece rc4 d.send intact other, fun _ block => ?_⟩
    have before := counts block
    simp only [PeerSession.applyWriterMsg, charge_cancelPiece block other d.send kept.1 kept.2,
      inTransit, carried] at before ⊢
    omega
  | clearPieces =>
    rw [decide_eq_true_eq] at kept
    refine ⟨fun _ => intact_clearPieces rc4 d.send intact, fun _ block => ?_⟩
    have before := counts block
    simp only [PeerSession.applyWriterMsg, charge_clearPieces block d.send kept, inTransit,
      carried] at before ⊢
    omega
  | readerDone =>
    refine ⟨fun _ => intact, fun _ block => ?_⟩
    have before := counts block
    simp only [PeerSession.applyWriterMsg, inTransit, carried] at before ⊢
    omega

/-- A quantum that succeeds keeps the account, one that fails ends the session. -/
theorem accounted_quantum (rc4 : Option Rc4) (config : SendConfig) (turns : Nat → Turn)
    (d d' : PeerSession) (result : PeerSend × Except Unit SendOutcome)
    (accounted : Accounted rc4 d) (stands : d.phase ≠ .failed) (fast : config.fastEnabled = true)
    (keeps : config.allowUpload = true ∨ Spared d.send)
    (ran : sendQuantum config turns d.send = some result) (send : d'.send = result.1)
    (channel : d'.channel = d.channel) (received : d'.received = d.received)
    (failed : result.2 = .error () → d'.phase = .failed) : Accounted rc4 d' := by
  have intact := accounted.intact stands
  have sound := intact_sendQuantum config turns rc4 d.send result intact ran
  obtain ⟨s', outcome⟩ := result
  cases outcome with
  | error problem => exact ⟨fun up => absurd (failed rfl) up, fun up => absurd (failed rfl) up⟩
  | ok outcome =>
    refine ⟨fun _ => ?_, fun _ block => ?_⟩
    · rw [send]
      exact sound.1 outcome rfl
    · rw [send, channel, received, accounted.counts stands block]
      rw [charge_sendQuantum block config turns rc4 d.send s' outcome intact fast keeps ran]

theorem accounted_step (rc4 : Option Rc4) (config : PeerConfig) (fast : config.fastEnabled = true)
    (d : PeerSession) (event : Event) (d' : PeerSession) (accounted : Accounted rc4 d)
    (kept : answersKept config d event = true) (taken : step config d event = some d') :
    Accounted rc4 d' := by
  cases event with
  | request layout hasPiece block =>
    simp only [step] at taken
    split_ifs at taken
    cases taken
    exact accounted_onRequest rc4 config layout hasPiece block d accounted fast kept
  | cancel block =>
    simp only [step] at taken
    split_ifs at taken
    cases taken
    unfold PeerSession.onCancel
    split_ifs
    · exact accounted_post rc4 d _ accounted (fun _ => rfl)
    · exact accounted
  | interested =>
    simp only [step] at taken
    split_ifs at taken
    cases taken
    exact ⟨accounted.intact, accounted.counts⟩
  | notInterested =>
    simp only [step] at taken
    split_ifs at taken
    cases taken
    exact accounted_post rc4 _ _ ⟨accounted.intact, accounted.counts⟩ (fun _ => rfl)
  | readerCtrl plain =>
    simp only [step] at taken
    split_ifs at taken with able
    cases taken
    exact accounted_pushCtrlOwned rc4 d plain accounted able.2
  | readerEnd =>
    simp only [step] at taken
    split_ifs at taken
    cases taken
    exact accounted_post rc4 _ _ ⟨accounted.intact, accounted.counts⟩ (fun _ => rfl)
  | receive =>
    simp only [step] at taken
    split_ifs at taken with running
    split at taken
    · rename_i msg rest next
      cases taken
      exact accounted_receive rc4 config d msg rest accounted fast running next kept
    · cases taken
  | haves indices =>
    simp only [step] at taken
    split_ifs at taken with running
    cases taken
    refine ⟨fun up => intact_pushCtrl rc4 d.send (accounted.intact up) _, fun up block => ?_⟩
    have clean : (indices.map Message.have_).any isReject = false := by
      rw [List.any_map]
      exact List.any_eq_false.2 (fun _ _ => Bool.false_ne_true)
    simp only [charge_pushCtrl, count_reject_eq_zero block _ clean, Nat.add_zero]
    exact accounted.counts up block
  | keepalive =>
    simp only [step] at taken
    split_ifs at taken with running
    cases taken
    refine ⟨fun up => intact_pushKeepalive rc4 d.send (accounted.intact up), fun up block => ?_⟩
    simp only [charge_pushKeepalive]
    exact accounted.counts up block
  | pump layout turns =>
    simp only [step] at taken
    split_ifs at taken with able
    obtain ⟨result, ran, same⟩ := Option.map_eq_some_iff.1 taken
    have allowed : (config.allowUpload || d.send.out.hasWork) = true := by
      rw [able.2, Bool.or_true]
    subst same
    refine accounted_quantum rc4 _ turns d _ result accounted ?_ fast (Or.inl allowed) ran rfl rfl rfl ?_
    · rw [able.1]
      decide
    · intro failed
      dsimp only
      rw [failed]
      rfl
  | leave stopped =>
    simp only [step] at taken
    split_ifs at taken with able
    cases taken
    have stands : d.phase ≠ .failed := by
      rw [able.1]
      decide
    exact ⟨fun _ => accounted.intact stands, fun _ => accounted.counts stands⟩
  | flush layout turns =>
    simp only [step] at taken
    split_ifs at taken with able
    obtain ⟨result, ran, same⟩ := Option.map_eq_some_iff.1 taken
    have spared : Spared d.send := of_decide_eq_true kept
    subst same
    refine accounted_quantum rc4 _ turns d _ result accounted ?_ fast (Or.inr spared) ran rfl rfl rfl ?_
    · rw [able.1]
      decide
    · intro failed
      dsimp only
      rw [failed]

/-- In a drained session nothing is owed or on its way, and every pushed reject was sent. -/
theorem answers_of_drained (rc4 : Option Rc4) (d : PeerSession) (accounted : Accounted rc4 d)
    (drained : d.drained = true) (block : UploadBlock) :
    d.received.count block = (d.send.log.started.flatMap Frame.blocks).count block +
      (d.send.log.started.flatMap Frame.messages).count (rejectFrame block) := by
  simp only [PeerSession.drained, OutQueue.hasWork, Bool.and_eq_true, List.isEmpty_iff,
    Bool.not_eq_true', Bool.or_eq_false_iff, bne_iff_ne, Bool.not_eq_false',
    Option.isSome_eq_false_iff, Option.isNone_iff_eq_none] at drained
  obtain ⟨⟨channel, ⟨idle, ctrl⟩, pieces⟩, stands⟩ := drained
  have order := (accounted.intact stands).orderly.control
  rw [ctrl, List.flatten_nil, List.append_nil] at order
  rw [order, accounted.counts stands block, channel]
  simp only [charge, waitingBlock, idle, pieces, List.append_nil, List.count_nil, Nat.add_zero,
    inTransit, List.map_nil, List.sum_nil]

/-- Every Request is answered by exactly one PIECE or one REJECT once the session has drained, in
every run whose steps drop no unanswered request. -/
theorem requests_answered_once (rc4 : Option Rc4) (config : PeerConfig) (events : List Event)
    (d : PeerSession) (fast : config.fastEnabled = true)
    (kept : Guarded (step config) (fun d event => answersKept config d event = true)
      (connect rc4) events)
    (ran : exec (step config) (connect rc4) events = some d) (drained : d.drained = true)
    (block : UploadBlock) :
    d.received.count block = (d.send.log.started.flatMap Frame.blocks).count block +
      (d.send.log.started.flatMap Frame.messages).count (rejectFrame block) := by
  have accounted : Accounted rc4 d :=
    exec_invariant (step config) _ (Accounted rc4) (accounted_step rc4 config fast) _ d events
      (accounted_connect rc4) kept ran
  exact answers_of_drained rc4 d accounted drained block

/-- The peer asks for the one block, which is served without a limiter. -/
def requestThenServe : List Event :=
  [.interested, .request (onePiece 2) true ⟨0, 0, 2⟩, .receive,
    .pump (onePiece 2) (fun _ => ⟨.read (fun _ => 7), .failed false [], none, fun _ => .accepted 1⟩)]

def served : PeerSession := (exec (step ⟨true, true⟩) (connect none) requestThenServe).getD (connect none)

theorem requests_answered_once_requestThenServe :
    served.drained = true ∧ served.received.count ⟨0, 0, 2⟩ =
      (served.send.log.started.flatMap Frame.blocks).count ⟨0, 0, 2⟩ +
        (served.send.log.started.flatMap Frame.messages).count (rejectFrame ⟨0, 0, 2⟩) := by
  have returns : (exec (step ⟨true, true⟩) (connect none) requestThenServe).isSome = true := by
    decide +kernel
  have ran := (Option.getD_of_ne_none (Option.isSome_iff_ne_none.1 returns) (connect none)).symm
  have kept := guarded_of_guardedB (step ⟨true, true⟩) (answersKept ⟨true, true⟩) (connect none)
    requestThenServe (by decide +kernel)
  have empty : served.drained = true := by decide +kernel
  exact ⟨empty, requests_answered_once none ⟨true, true⟩ requestThenServe served rfl kept ran empty _⟩

/-- The peer cancels its request while the block is still queued. -/
def requestThenCancel : List Event :=
  [.interested, .request (onePiece 2) true ⟨0, 0, 2⟩, .cancel ⟨0, 0, 2⟩, .receive, .receive]

def cancelled : PeerSession :=
  (exec (step ⟨true, true⟩) (connect none) requestThenCancel).getD (connect none)

/-- The cancelled request gets neither a PIECE nor a REJECT. -/
theorem cancelled_request_unanswered :
    ¬∀ (rc4 : Option Rc4) (config : PeerConfig) (events : List Event) (d : PeerSession),
      config.fastEnabled = true → exec (step config) (connect rc4) events = some d →
      d.drained = true → ∀ block, d.received.count block =
        (d.send.log.started.flatMap Frame.blocks).count block +
          (d.send.log.started.flatMap Frame.messages).count (rejectFrame block) := by
  intro always
  have returns : (exec (step ⟨true, true⟩) (connect none) requestThenCancel).isSome = true := by
    decide +kernel
  have ran := (Option.getD_of_ne_none (Option.isSome_iff_ne_none.1 returns) (connect none)).symm
  have once := always none ⟨true, true⟩ requestThenCancel cancelled rfl ran (by decide +kernel) ⟨0, 0, 2⟩
  revert once
  decide +kernel

end Seedchamp.Peer.Answers
