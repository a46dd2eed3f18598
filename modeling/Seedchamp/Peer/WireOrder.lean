import Seedchamp.Peer.SendQueue
import Seedchamp.Foundation.TransitionSystem

/-!
The outbound byte stream of a connection. Whatever the disk, the limiter and the socket answer, the
socket carries the keystream XOR whole frames in the order they were started, and the cipher stands
exactly behind the frames started so far.
-/

namespace Seedchamp.Peer.WireOrder
open Crypto.PayloadCipher Disk.Spans Net.Socket Foundation.TransitionSystem Upload.InFlight
open Wire.Messages Peer.SendQueue

def Frame.messages : Frame → List Message
  | .ctrl message => [message]
  | .piece _ _ => []

def Frame.blocks : Frame → List UploadBlock
  | .ctrl _ => []
  | .piece block _ => [block]

theorem encodeFrames_append (first second : List Frame) :
    encodeFrames (first ++ second) = encodeFrames first ++ encodeFrames second :=
  List.flatMap_append

theorem encodeFrames_ctrl (plain : List Message) :
    encodeFrames (plain.map Frame.ctrl) = encodeAll plain := by
  induction plain with
  | nil => rfl
  | cons message rest ih =>
    simp only [encodeFrames, encodeAll, List.map_cons, List.flatMap_cons] at ih ⊢
    rw [ih]
    rfl

theorem messages_ctrl (plain : List Message) :
    (plain.map Frame.ctrl).flatMap Frame.messages = plain := by
  induction plain with
  | nil => rfl
  | cons message rest ih =>
    rw [List.map_cons, List.flatMap_cons, ih]
    rfl

theorem blocks_ctrl (plain : List Message) :
    (plain.map Frame.ctrl).flatMap Frame.blocks = [] := by
  induction plain with
  | nil => rfl
  | cons message rest ih =>
    rw [List.map_cons, List.flatMap_cons, ih]
    rfl

/-- Bytes that passed the cipher and wait to be written. -/
def pending (s : PeerSend) : Bytes :=
  match s.out.active with
  | some (.ctrl buf) => buf
  | some (.piece inf) => if inf.cipherApplied then s.scratch.take inf.total else []
  | none => []

/-- A PIECE that is filled but has neither passed the cipher nor reached the socket. -/
def waitingBlock (out : OutQueue) : List UploadBlock :=
  match out.active with
  | some (.piece inf) => if inf.cipherApplied then [] else [inf.block]
  | _ => []

/-- No control message is lost or reordered, and PIECE frames follow the order of acceptance. -/
structure Orderly (s : PeerSend) : Prop where
  payloads : ∀ block payload, Frame.piece block payload ∈ s.log.started →
    payload.length = block.length
  control : s.log.started.flatMap Frame.messages ++ s.out.ctrl.flatten = s.log.pushed
  serving : (s.log.started.flatMap Frame.blocks ++ (waitingBlock s.out ++ s.out.pieces)).Sublist
    s.log.accepted

/-- What the scratch holds for the active PIECE. -/
structure Framed (s : PeerSend) (inf : InFlightUpload) : Prop where
  unsent : inf.sent = 0
  total : inf.total = PIECE_HEADER_LEN + inf.block.length
  small : inf.block.length ≤ UPLOAD_BLOCK_LEN
  cipher : inf.cipherApplied = s.rc4.isSome
  plain : inf.cipherApplied = false → ∃ payload, payload.length = inf.block.length ∧
    s.scratch.take inf.total = (Frame.piece inf.block payload).encode

/-- The state of an unbroken connection: `sent` is on the socket, `waiting` is the active frame that
passed the cipher, and the cipher stands behind both. -/
structure Intact (rc4 : Option Rc4) (s : PeerSend) : Prop where
  orderly : Orderly s
  scratchLen : s.scratch.length = UPLOAD_SCRATCH_LEN
  framed : ∀ inf, s.out.active = some (.piece inf) → Framed s inf
  stream : ∃ sent waiting, s.log.started = sent ++ waiting ∧
    s.socket = (cryptOpt rc4 (encodeFrames sent)).1 ∧
    pending s = (cryptOpt (cryptOpt rc4 (encodeFrames sent)).2 (encodeFrames waiting)).1
  cipher : s.rc4 = (cryptOpt rc4 (encodeFrames s.log.started)).2

/-- The state after a failed write: the socket carries a prefix of the stream. -/
structure Torn (rc4 : Option Rc4) (s : PeerSend) : Prop where
  orderly : Orderly { s with out := { s.out with active := none } }
  partial' : s.socket <+: (cryptOpt rc4 (encodeFrames s.log.started)).1

theorem intact_bytes (rc4 : Option Rc4) (s : PeerSend) (intact : Intact rc4 s) :
    s.socket ++ pending s = (cryptOpt rc4 (encodeFrames s.log.started)).1 := by
  obtain ⟨sent, waiting, split, socket, rest⟩ := intact.stream
  rw [split, encodeFrames_append, cryptOpt_append, socket, rest]

theorem pushCtrlOwned_flatten (out : OutQueue) (plain : List Message) :
    (out.pushCtrlOwned plain).ctrl.flatten = out.ctrl.flatten ++ plain := by
  unfold OutQueue.pushCtrlOwned
  split_ifs with blank
  · rw [List.isEmpty_iff.1 blank, List.append_nil]
  · split
    · rename_i back last
      split_ifs
      · have whole := List.dropLast_append_getLast? back last
        have flat := congrArg List.flatten whole
        rw [List.flatten_append] at flat
        simp only [List.flatten_append, List.flatten_cons, List.flatten_nil, List.append_nil]
          at flat ⊢
        rw [← flat, List.append_assoc]
      · simp only [List.flatten_append, List.flatten_cons, List.flatten_nil, List.append_nil]
    · simp only [List.flatten_append, List.flatten_cons, List.flatten_nil, List.append_nil]

theorem pushCtrlOwned_frame (out : OutQueue) (plain : List Message) :
    (out.pushCtrlOwned plain).active = out.active ∧
      (out.pushCtrlOwned plain).pieces = out.pieces := by
  unfold OutQueue.pushCtrlOwned
  split_ifs
  · exact ⟨rfl, rfl⟩
  · split
    · split_ifs <;> exact ⟨rfl, rfl⟩
    · exact ⟨rfl, rfl⟩

/-- Queue operations leave the active frame, the scratch, the cipher and the socket alone. -/
theorem intact_of_queue (rc4 : Option Rc4) (s s' : PeerSend) (intact : Intact rc4 s)
    (orderly : Orderly s') (active : s'.out.active = s.out.active) (scratch : s'.scratch = s.scratch)
    (cipher : s'.rc4 = s.rc4) (socket : s'.socket = s.socket)
    (started : s'.log.started = s.log.started) : Intact rc4 s' := by
  have same : pending s' = pending s := by
    unfold pending
    rw [active, scratch]
  refine ⟨orderly, ?_, ?_, ?_, ?_⟩
  · rw [scratch, intact.scratchLen]
  · intro inf at'
    rw [active] at at'
    obtain ⟨unsent, total, small, sealed', plain⟩ := intact.framed inf at'
    rw [← cipher] at sealed'
    rw [← scratch] at plain
    exact ⟨unsent, total, small, sealed', plain⟩
  · rw [started, socket, same]
    exact intact.stream
  · rw [cipher, started, intact.cipher]

/-- Dropping an abortable PIECE loses no byte: none has reached the cipher or the socket. -/
theorem intact_abort (rc4 : Option Rc4) (s s' : PeerSend) (inf : InFlightUpload)
    (intact : Intact rc4 s) (at' : s.out.active = some (.piece inf)) (abort : inf.canAbort = true)
    (orderly : Orderly s') (active : s'.out.active = none) (scratch : s'.scratch = s.scratch)
    (cipher : s'.rc4 = s.rc4) (socket : s'.socket = s.socket)
    (started : s'.log.started = s.log.started) : Intact rc4 s' := by
  have plain : inf.cipherApplied = false := by
    simp only [InFlightUpload.canAbort, Bool.and_eq_true, Bool.not_eq_true'] at abort
    exact abort.2
  have nothing : pending s = [] := by
    rw [pending, at']
    simp only [plain, Bool.false_eq_true, if_false]
  have none' : pending s' = [] := by rw [pending, active]
  refine ⟨orderly, ?_, ?_, ?_, ?_⟩
  · rw [scratch, intact.scratchLen]
  · intro other found
    rw [active] at found
    cases found
  · rw [started, socket, none', ← nothing]
    exact intact.stream
  · rw [cipher, started, intact.cipher]

theorem orderly_pushCtrl (s : PeerSend) (orderly : Orderly s) (plain : List Message) :
    Orderly (s.pushCtrl plain) := by
  obtain ⟨active, pieces⟩ := pushCtrlOwned_frame s.out plain
  refine ⟨orderly.payloads, ?_, ?_⟩
  · simp only [PeerSend.pushCtrl]
    rw [pushCtrlOwned_flatten, ← List.append_assoc, orderly.control]
  · simp only [PeerSend.pushCtrl, waitingBlock, active, pieces]
    exact orderly.serving

theorem intact_pushCtrl (rc4 : Option Rc4) (s : PeerSend) (intact : Intact rc4 s)
    (plain : List Message) : Intact rc4 (s.pushCtrl plain) :=
  intact_of_queue rc4 s _ intact (orderly_pushCtrl s intact.orderly plain)
    (pushCtrlOwned_frame s.out plain).1 rfl rfl rfl rfl

theorem intact_pushKeepalive (rc4 : Option Rc4) (s : PeerSend) (intact : Intact rc4 s) :
    Intact rc4 s.pushKeepalive := by
  unfold PeerSend.pushKeepalive
  split_ifs
  · exact intact
  · apply intact_pushCtrl
    exact intact_of_queue rc4 s _ intact
      ⟨intact.orderly.payloads, intact.orderly.control, intact.orderly.serving⟩ rfl rfl rfl rfl rfl

theorem intact_pushReject (rc4 : Option Rc4) (s : PeerSend) (intact : Intact rc4 s)
    (block : UploadBlock) (fastEnabled : Bool) : Intact rc4 (s.pushReject block fastEnabled) := by
  unfold PeerSend.pushReject
  split_ifs
  · exact intact_pushCtrl rc4 s intact _
  · exact intact

theorem intact_tryPushPiece (rc4 : Option Rc4) (s : PeerSend) (intact : Intact rc4 s)
    (block : UploadBlock) : Intact rc4 (s.tryPushPiece block).2 := by
  unfold PeerSend.tryPushPiece OutQueue.tryPushPiece
  split_ifs
  · exact intact
  · exact intact
  · exact intact
  · exact intact
  · refine intact_of_queue rc4 s _ intact ⟨intact.orderly.payloads, intact.orderly.control, ?_⟩
      rfl rfl rfl rfl rfl
    have longer := intact.orderly.serving.append (List.Sublist.refl [block])
    simp only [List.append_assoc, if_true] at longer ⊢
    exact longer

/-- Removing waiting blocks keeps the order of the others. -/
theorem orderly_remove (s s' : PeerSend) (orderly : Orderly s) (log : s'.log = s.log)
    (ctrl : s'.out.ctrl = s.out.ctrl)
    (fewer : (waitingBlock s'.out ++ s'.out.pieces).Sublist (waitingBlock s.out ++ s.out.pieces)) :
    Orderly s' := by
  refine ⟨?_, ?_, ?_⟩
  · rw [log]
    exact orderly.payloads
  · rw [log, ctrl]
    exact orderly.control
  · rw [log]
    exact (fewer.append_left _).trans orderly.serving

theorem abortable_active (out : OutQueue) (block : UploadBlock)
    (abortable : out.abortable = some block) :
    ∃ inf, out.active = some (.piece inf) ∧ inf.canAbort = true := by
  unfold OutQueue.abortable at abortable
  split at abortable
  · rename_i inf active
    split_ifs at abortable with abort
    exact ⟨inf, active, abort⟩
  · cases abortable

theorem intact_cancelPiece (rc4 : Option Rc4) (s : PeerSend) (intact : Intact rc4 s)
    (block : UploadBlock) : Intact rc4 (s.cancelPiece block) := by
  have removed : Orderly { s with out := { s.out with pieces := s.out.pieces.erase block } } :=
    orderly_remove s _ intact.orderly rfl rfl (List.erase_sublist.append_left _)
  unfold PeerSend.cancelPiece OutQueue.cancelPiece
  dsimp only
  split_ifs with active abortable
  · obtain ⟨inf, at', abort⟩ := abortable_active _ block abortable
    refine intact_abort rc4 s _ inf intact at' abort ?_ rfl rfl rfl rfl rfl
    exact orderly_remove _ _ removed rfl rfl (List.sublist_append_right _ _)
  · exact intact_of_queue rc4 s _ intact removed rfl rfl rfl rfl rfl
  · exact intact_of_queue rc4 s _ intact removed rfl rfl rfl rfl rfl

theorem orderly_clear (s : PeerSend) (orderly : Orderly s) :
    Orderly { s with out := { s.out with pieces := [] } } :=
  orderly_remove s _ orderly rfl rfl ((List.nil_sublist _).append_left _)

theorem intact_clearPieces (rc4 : Option Rc4) (s : PeerSend) (intact : Intact rc4 s) :
    Intact rc4 s.clearPieces := by
  have cleared := orderly_clear s intact.orderly
  unfold PeerSend.clearPieces OutQueue.clearPieces
  dsimp only
  split_ifs with abortable
  · obtain ⟨block, found⟩ := Option.isSome_iff_exists.1 abortable
    obtain ⟨inf, at', abort⟩ := abortable_active _ block found
    refine intact_abort rc4 s _ inf intact at' abort ?_ rfl rfl rfl rfl rfl
    exact orderly_remove _ _ cleared rfl rfl (List.sublist_append_right _ _)
  · exact intact_of_queue rc4 s _ intact cleared rfl rfl rfl rfl rfl

theorem toBeBytes_length (n : Nat) : (toBeBytes n).length = 4 := rfl

theorem overwrite_take (scratch bytes : Bytes) : (overwrite scratch bytes).take bytes.length = bytes := by
  unfold overwrite
  rw [List.take_left']
  rfl

theorem overwrite_length (scratch bytes : Bytes) (fits : bytes.length ≤ scratch.length) :
    (overwrite scratch bytes).length = scratch.length := by
  unfold overwrite
  rw [List.length_append, List.length_drop]
  omega

theorem uploadSpans_small (layout : StorageLayout) (block : UploadBlock) (spans : List IoSpan)
    (ok : uploadSpans layout block = .ok spans) : block.length ≤ UPLOAD_BLOCK_LEN := by
  unfold uploadSpans at ok
  split at ok
  · cases ok
  · split_ifs at ok
    omega

/-- A successful fill leaves one whole encrypted frame at the front of the scratch and moves the
cipher over exactly that frame. -/
structure Filled (rc4 : Option Rc4) (block : UploadBlock) (inf : InFlightUpload)
    (rc4' : Option Rc4) (scratch' : Bytes) (payload : Bytes) : Prop where
  serves : inf.block = block
  unsent : inf.sent = 0
  total : inf.total = PIECE_HEADER_LEN + block.length
  small : block.length ≤ UPLOAD_BLOCK_LEN
  cipher : inf.cipherApplied = rc4.isSome
  whole : payload.length = block.length
  bytes : (scratch'.take inf.total, rc4') = cryptOpt rc4 (Frame.piece block payload).encode

theorem beginUpload_cases (layout : StorageLayout) (block : UploadBlock) (rc4 : Option Rc4)
    (fill : Fill) (scratch : Bytes) (room : scratch.length = UPLOAD_SCRATCH_LEN) :
    (beginUpload layout block rc4 fill scratch).2.2.length = UPLOAD_SCRATCH_LEN ∧
    (((beginUpload layout block rc4 fill scratch).1.toOption = none ∧
        (beginUpload layout block rc4 fill scratch).2.1 = rc4) ∨
      ∃ inf, (beginUpload layout block rc4 fill scratch).1 = .ok inf ∧
        Filled rc4 block inf (beginUpload layout block rc4 fill scratch).2.1
          (beginUpload layout block rc4 fill scratch).2.2 (Fill.payload fill block.length)) := by
  unfold beginUpload
  split
  · exact ⟨room, Or.inl ⟨rfl, rfl⟩⟩
  · rename_i spans ok
    have small := uploadSpans_small layout block spans ok
    have fits : PIECE_HEADER_LEN + block.length ≤ scratch.length := by
      rw [room, UPLOAD_SCRATCH_LEN]
      omega
    cases fill with
    | failed notFound spill =>
      refine ⟨?_, Or.inl ⟨rfl, rfl⟩⟩
      dsimp only
      rw [overwrite_length, room]
      rw [List.length_append, fillPieceHeader_length, List.length_take]
      omega
    | read byte =>
      have glued := cryptOpt_append rc4 (fillPieceHeader block.index block.begin' block.length)
        ((List.range block.length).map byte)
      have whole : ((cryptOpt rc4 (fillPieceHeader block.index block.begin' block.length)).1 ++
          (cryptOpt (cryptOpt rc4 (fillPieceHeader block.index block.begin' block.length)).2
            ((List.range block.length).map byte)).1).length = PIECE_HEADER_LEN + block.length := by
        rw [List.length_append, cryptOpt_length, cryptOpt_length, fillPieceHeader_length,
          List.length_map, List.length_range]
      refine ⟨?_, Or.inr ⟨_, rfl, rfl, rfl, rfl, small, rfl, ?_, ?_⟩⟩
      · dsimp only
        rw [overwrite_length _ _ (by rw [whole]; exact fits), room]
      · simp only [Fill.payload, List.length_map, List.length_range]
      · dsimp only
        rw [← whole, overwrite_take]
        exact glued.symm

theorem fillBlock_cases (config : SendConfig) (block : UploadBlock) (rc4 : Option Rc4) (turn : Turn)
    (scratch : Bytes) (room : scratch.length = UPLOAD_SCRATCH_LEN) :
    (fillBlock config block rc4 turn scratch).1.2.2.length = UPLOAD_SCRATCH_LEN ∧
    ((∃ problem, (fillBlock config block rc4 turn scratch).1.1 = .error problem ∧
        (fillBlock config block rc4 turn scratch).1.2.1 = rc4) ∨
      ∃ inf, (fillBlock config block rc4 turn scratch).1.1 = .ok inf ∧
        Filled rc4 block inf (fillBlock config block rc4 turn scratch).1.2.1
          (fillBlock config block rc4 turn scratch).1.2.2
          (fillBlock config block rc4 turn scratch).2) := by
  have first := beginUpload_cases config.layout block rc4 turn.fill scratch room
  unfold fillBlock
  dsimp only
  split
  · rename_i inf ok
    rcases first with ⟨length, ⟨none', _⟩ | ⟨inf', ok', filled⟩⟩
    · rw [ok] at none'
      cases none'
    · exact ⟨length, Or.inr ⟨inf', ok', filled⟩⟩
  · rename_i problem failed
    have kept : (beginUpload config.layout block rc4 turn.fill scratch).2.1 = rc4 := by
      rcases first.2 with ⟨_, same⟩ | ⟨inf', ok', _⟩
      · exact same
      · rw [failed] at ok'
        cases ok'
    split_ifs
    · have second := beginUpload_cases config.layout block
        (beginUpload config.layout block rc4 turn.fill scratch).2.1 turn.refill
        (beginUpload config.layout block rc4 turn.fill scratch).2.2 first.1
      rw [kept] at second ⊢
      rcases second with ⟨length, ⟨none', same⟩ | ⟨inf', ok', filled⟩⟩
      · refine ⟨length, Or.inl ?_⟩
        revert none'
        cases (beginUpload config.layout block rc4 turn.refill
          (beginUpload config.layout block rc4 turn.fill scratch).2.2).1 with
        | ok inf' => intro none'; cases none'
        | error again => exact fun _ => ⟨again, rfl, same⟩
      · exact ⟨length, Or.inr ⟨inf', ok', filled⟩⟩
    · exact ⟨first.1, Or.inl ⟨problem, failed, kept⟩⟩

/-- With nothing active, the socket carries the stream of everything started. -/
theorem intact_idle (rc4 : Option Rc4) (s : PeerSend) (orderly : Orderly s)
    (scratchLen : s.scratch.length = UPLOAD_SCRATCH_LEN) (idle : s.out.active = none)
    (stream : (s.socket, s.rc4) = cryptOpt rc4 (encodeFrames s.log.started)) : Intact rc4 s := by
  refine ⟨orderly, scratchLen, ?_, ?_, congrArg Prod.snd stream⟩
  · intro inf found
    rw [idle] at found
    cases found
  · refine ⟨s.log.started, [], (List.append_nil _).symm, congrArg Prod.fst stream, ?_⟩
    rw [pending, idle]
    simp only [encodeFrames, List.flatMap_nil, cryptOpt_nil]

theorem stream_idle (rc4 : Option Rc4) (s : PeerSend) (intact : Intact rc4 s)
    (idle : s.out.active = none) :
    (s.socket, s.rc4) = cryptOpt rc4 (encodeFrames s.log.started) := by
  have bytes := intact_bytes rc4 s intact
  rw [pending, idle, List.append_nil] at bytes
  rw [bytes, intact.cipher]

theorem intact_pickCtrl (rc4 : Option Rc4) (s : PeerSend) (intact : Intact rc4 s)
    (idle : s.out.active = none) (plain : List Message) (rest : List (List Message))
    (queued : s.out.ctrl = plain :: rest) :
    Intact rc4 { s with
      out := { s.out with ctrl := rest, active := some (.ctrl (cryptOpt s.rc4 (encodeAll plain)).1) }
      rc4 := (cryptOpt s.rc4 (encodeAll plain)).2
      log := { s.log with started := s.log.started ++ plain.map Frame.ctrl } } := by
  have stream := stream_idle rc4 s intact idle
  have cipher := congrArg Prod.snd stream
  refine ⟨⟨?_, ?_, ?_⟩, intact.scratchLen, ?_, ?_, ?_⟩
  · intro block payload member
    rcases List.mem_append.1 member with old | new
    · exact intact.orderly.payloads block payload old
    · obtain ⟨message, _, same⟩ := List.mem_map.1 new
      cases same
  · have order := intact.orderly.control
    rw [queued, List.flatten_cons, ← List.append_assoc] at order
    dsimp only
    rw [List.flatMap_append, messages_ctrl, order]
  · have order := intact.orderly.serving
    simp only [waitingBlock, idle, List.nil_append] at order
    dsimp only [waitingBlock]
    rw [List.flatMap_append, blocks_ctrl, List.append_nil, List.nil_append]
    exact order
  · intro inf found
    cases found
  · refine ⟨s.log.started, plain.map Frame.ctrl, rfl, congrArg Prod.fst stream, ?_⟩
    rw [encodeFrames_ctrl, ← cipher]
    rfl
  · dsimp only at cipher ⊢
    rw [encodeFrames_append, cryptOpt_append, encodeFrames_ctrl, ← cipher]

theorem encodeFrames_singleton (frame : Frame) : encodeFrames [frame] = frame.encode := by
  rw [encodeFrames, List.flatMap_singleton]

theorem intact_pickPiece (rc4 : Option Rc4) (s : PeerSend) (intact : Intact rc4 s)
    (idle : s.out.active = none) (block : UploadBlock) (rest : List UploadBlock)
    (queued : s.out.pieces = block :: rest) (inf : InFlightUpload) (rc4' : Option Rc4)
    (scratch' payload : Bytes) (room : scratch'.length = UPLOAD_SCRATCH_LEN)
    (filled : Filled s.rc4 block inf rc4' scratch' payload) :
    Intact rc4 { s with
      out := { s.out with pieces := rest, active := some (.piece inf) }
      rc4 := rc4'
      scratch := scratch'
      log := { s.log with
        started :=
          if inf.cipherApplied then s.log.started ++ [.piece block payload]
          else s.log.started } } := by
  have stream := stream_idle rc4 s intact idle
  have cipher := congrArg Prod.snd stream
  have order := intact.orderly.serving
  simp only [waitingBlock, idle, List.nil_append, queued] at order
  have bytes := congrArg Prod.fst filled.bytes
  have moved := congrArg Prod.snd filled.bytes
  dsimp only at cipher bytes moved
  have serves := filled.serves
  have total := filled.total
  have small := filled.small
  cases applied : inf.cipherApplied with
  | true =>
    have encrypted : rc4'.isSome = true := by
      rw [moved, cryptOpt_isSome, ← filled.cipher, applied]
    rw [if_pos rfl]
    refine ⟨⟨?_, ?_, ?_⟩, room, ?_, ?_, ?_⟩
    · intro block' payload' member
      rcases List.mem_append.1 member with old | new
      · exact intact.orderly.payloads block' payload' old
      · cases List.mem_singleton.1 new
        exact filled.whole
    · dsimp only
      rw [List.flatMap_append, List.flatMap_singleton, Frame.messages, List.append_nil]
      exact intact.orderly.control
    · simp only [waitingBlock, applied, if_true, List.nil_append, List.flatMap_append,
        List.flatMap_singleton, Frame.blocks, List.append_assoc, List.singleton_append]
      exact order
    · intro other found
      cases found
      refine ⟨filled.unsent, by rw [total, serves], by rw [serves]; exact small, ?_, ?_⟩
      · rw [applied, encrypted]
      · intro plain
        rw [applied] at plain
        cases plain
    · refine ⟨s.log.started, [.piece block payload], rfl, congrArg Prod.fst stream, ?_⟩
      rw [encodeFrames_singleton, ← cipher, pending]
      simp only [applied, if_true]
      exact bytes
    · dsimp only
      rw [encodeFrames_append, cryptOpt_append, encodeFrames_singleton, ← cipher]
      exact moved
  | false =>
    have noCipher : s.rc4 = none := by
      have some' := filled.cipher
      rw [applied] at some'
      exact Option.isSome_eq_false_iff.1 some'.symm |> Option.isNone_iff_eq_none.1
    rw [if_neg Bool.false_ne_true]
    rw [noCipher] at bytes moved
    refine ⟨⟨intact.orderly.payloads, intact.orderly.control, ?_⟩, room, ?_, ?_, ?_⟩
    · simp only [waitingBlock, applied, Bool.false_eq_true, if_false, List.singleton_append, serves]
      exact order
    · intro other found
      cases found
      refine ⟨filled.unsent, by rw [total, serves], by rw [serves]; exact small, ?_, ?_⟩
      · rw [applied, moved]
        rfl
      · intro _
        refine ⟨payload, by rw [serves]; exact filled.whole, ?_⟩
        rw [serves]
        exact bytes
    · refine ⟨s.log.started, [], (List.append_nil _).symm, congrArg Prod.fst stream, ?_⟩
      rw [pending]
      simp only [applied, Bool.false_eq_true, if_false, encodeFrames, List.flatMap_nil, cryptOpt_nil]
    · dsimp only
      rw [← cipher, moved, noCipher]
      rfl

theorem intact_pickNextActive (config : SendConfig) (turn : Turn) (rc4 : Option Rc4) (s : PeerSend)
    (intact : Intact rc4 s) : Intact rc4 (pickNextActive config turn s) := by
  unfold pickNextActive
  split_ifs with busy
  · exact intact
  · have idle : s.out.active = none := by simpa using busy
    split
    · rename_i plain rest queued
      exact intact_pickCtrl rc4 s intact idle plain rest queued
    · split
      · exact intact
      · rename_i block rest queued
        have cases' := fillBlock_cases config block s.rc4 turn s.scratch intact.scratchLen
        dsimp only
        rcases cases' with ⟨room, ⟨problem, failed, kept⟩ | ⟨inf, ok, filled⟩⟩
        · rw [failed]
          dsimp only
          apply intact_pushReject
          have stream := stream_idle rc4 s intact idle
          rw [kept]
          refine intact_idle rc4 _ ?_ room idle stream
          refine orderly_remove s _ intact.orderly rfl rfl ?_
          simp only [waitingBlock, idle, List.nil_append, queued]
          exact List.sublist_cons_self block rest
        · rw [ok]
          exact intact_pickPiece rc4 s intact idle block rest queued inf _ _ _ room filled

/-- The outcome of a turn: an unbroken connection, or a torn one after a failed write. -/
def TurnKeeps (rc4 : Option Rc4) (result : PeerSend × Bool × TurnResult) : Prop :=
  (result.2.2 ≠ .failed → Intact rc4 result.1) ∧ (result.2.2 = .failed → Torn rc4 result.1)

theorem turnKeeps_intact (rc4 : Option Rc4) (s : PeerSend) (any : Bool) (result : TurnResult)
    (intact : Intact rc4 s) (unbroken : result ≠ .failed) : TurnKeeps rc4 (s, any, result) :=
  ⟨fun _ => intact, fun failed => absurd failed unbroken⟩

theorem turnKeeps_torn (rc4 : Option Rc4) (s : PeerSend) (any : Bool) (torn : Torn rc4 s) :
    TurnKeeps rc4 (s, any, .failed) := ⟨fun unbroken => absurd rfl unbroken, fun _ => torn⟩

theorem turnKeeps_writeCtrl (rc4 : Option Rc4) (turn : Turn) (s : PeerSend) (any : Bool)
    (buf : Bytes) (intact : Intact rc4 s) (active : s.out.active = some (.ctrl buf)) :
    TurnKeeps rc4 (writeCtrl turn s any buf) := by
  have bytes := intact_bytes rc4 s intact
  rw [pending, active] at bytes
  have taken : Orderly { s with out := { s.out with active := none } } :=
    orderly_remove s _ intact.orderly rfl rfl (List.sublist_append_right _ _)
  unfold writeCtrl
  dsimp only
  split_ifs with done
  · apply turnKeeps_intact _ _ _ _ _ (by decide)
    have whole := writeAll_complete turn.write buf done
    have idle : (({ s.out with active := none } : OutQueue).noteCtrlFullySent).active = none ∧
        (({ s.out with active := none } : OutQueue).noteCtrlFullySent).ctrl = s.out.ctrl ∧
        (({ s.out with active := none } : OutQueue).noteCtrlFullySent).pieces = s.out.pieces := by
      unfold OutQueue.noteCtrlFullySent
      split_ifs <;> exact ⟨rfl, rfl, rfl⟩
    obtain ⟨none', ctrl, pieces⟩ := idle
    refine intact_idle rc4 _ ?_ intact.scratchLen none' ?_
    · refine ⟨taken.payloads, ?_, ?_⟩
      · dsimp only
        rw [ctrl]
        exact taken.control
      · dsimp only [waitingBlock]
        rw [none', pieces]
        exact taken.serving
    · dsimp only
      rw [whole, bytes, intact.cipher]
  · apply turnKeeps_torn
    refine ⟨⟨taken.payloads, taken.control, taken.serving⟩, ?_⟩
    dsimp only
    rw [← bytes]
    exact (List.prefix_append_right_inj s.socket).2 (writeAll_split turn.write buf)

/-- A PIECE about to be written: its frame is the last one started, and the scratch completes the
stream. -/
structure Launched (rc4 : Option Rc4) (s : PeerSend) (inf : InFlightUpload) : Prop where
  orderly : Orderly { s with out := { s.out with active := none } }
  scratchLen : s.scratch.length = UPLOAD_SCRATCH_LEN
  bytes : s.socket ++ s.scratch.take inf.total = (cryptOpt rc4 (encodeFrames s.log.started)).1
  cipher : s.rc4 = (cryptOpt rc4 (encodeFrames s.log.started)).2

theorem launched_startPlain (rc4 : Option Rc4) (s : PeerSend) (inf : InFlightUpload)
    (intact : Intact rc4 s) (active : s.out.active = some (.piece inf)) :
    Launched rc4 (startPlain s inf) inf := by
  have framed := intact.framed inf active
  have bytes := intact_bytes rc4 s intact
  have order := intact.orderly.serving
  unfold startPlain
  split_ifs with applied
  · refine ⟨?_, intact.scratchLen, ?_, intact.cipher⟩
    · exact orderly_remove s _ intact.orderly rfl rfl (List.sublist_append_right _ _)
    · rw [pending, active] at bytes
      simpa only [applied, if_true] using bytes
  · obtain ⟨payload, whole, frame⟩ := framed.plain (Bool.eq_false_of_not_eq_true applied)
    have read : (s.scratch.take inf.total).drop PIECE_HEADER_LEN = payload := by
      rw [frame, Frame.encode, List.drop_left' (fillPieceHeader_length _ _ _)]
    have plain : s.rc4 = none := by
      have some' := framed.cipher
      rw [Bool.eq_false_of_not_eq_true applied] at some'
      exact Option.isNone_iff_eq_none.1 (Option.isSome_eq_false_iff.1 some'.symm)
    have cipher := intact.cipher
    rw [plain] at cipher
    rw [read]
    refine ⟨⟨?_, ?_, ?_⟩, intact.scratchLen, ?_, ?_⟩
    · intro block' payload' member
      rcases List.mem_append.1 member with old | new
      · exact intact.orderly.payloads block' payload' old
      · cases List.mem_singleton.1 new
        exact whole
    · dsimp only
      rw [List.flatMap_append, List.flatMap_singleton, Frame.messages, List.append_nil]
      exact intact.orderly.control
    · simp only [waitingBlock, active, Bool.eq_false_of_not_eq_true applied, Bool.false_eq_true,
        if_false] at order
      simp only [waitingBlock, List.flatMap_append, List.flatMap_singleton, Frame.blocks,
        List.nil_append, List.append_assoc]
      exact order
    · rw [pending, active] at bytes
      simp only [Bool.eq_false_of_not_eq_true applied, Bool.false_eq_true, if_false,
        List.append_nil] at bytes
      dsimp only
      rw [encodeFrames_append, cryptOpt_append, encodeFrames_singleton, ← cipher, bytes, frame]
      rfl
    · dsimp only
      rw [encodeFrames_append, cryptOpt_append, ← cipher, plain]
      rfl

theorem turnKeeps_writePiece (rc4 : Option Rc4) (turn : Turn) (s : PeerSend) (any : Bool)
    (inf : InFlightUpload) (intact : Intact rc4 s) (active : s.out.active = some (.piece inf)) :
    TurnKeeps rc4 (writePiece turn s any inf) := by
  have framed := intact.framed inf active
  have launched := launched_startPlain rc4 s inf intact active
  have unsent : ¬inf.total ≤ inf.sent := by
    rw [framed.unsent, framed.total, PIECE_HEADER_LEN]
    omega
  have room : ¬s.scratch.length < inf.total := by
    have small := framed.small
    rw [intact.scratchLen, framed.total, UPLOAD_SCRATCH_LEN]
    omega
  unfold writePiece
  rw [if_neg unsent, if_neg room]
  dsimp only
  have bytes := launched.bytes
  split_ifs with done
  · apply turnKeeps_intact _ _ _ _ _ (by decide)
    have whole := writeAll_complete turn.write _ done
    refine intact_idle rc4 _ ?_ launched.scratchLen rfl ?_
    · exact ⟨launched.orderly.payloads, launched.orderly.control, launched.orderly.serving⟩
    · dsimp only
      rw [whole, bytes, launched.cipher]
  · apply turnKeeps_torn
    refine ⟨⟨launched.orderly.payloads, launched.orderly.control, launched.orderly.serving⟩, ?_⟩
    dsimp only
    rw [← bytes]
    exact (List.prefix_append_right_inj _).2 (writeAll_split turn.write _)

/-- Reserving tokens changes only the reservation of the active PIECE. -/
theorem reserveTokens_frame (turn : Turn) (inf inf' : InFlightUpload)
    (reserved : reserveTokens turn inf = some inf') :
    ∃ tokens, inf' = { inf with rateReserved := tokens } := by
  unfold reserveTokens at reserved
  split_ifs at reserved
  · cases reserved
    exact ⟨inf.rateReserved, rfl⟩
  · split at reserved
    · cases reserved
      exact ⟨inf.rateReserved, rfl⟩
    · split_ifs at reserved
      cases reserved
      exact ⟨inf.block.length, rfl⟩

theorem intact_reserve (rc4 : Option Rc4) (s : PeerSend) (inf : InFlightUpload) (tokens : Nat)
    (intact : Intact rc4 s) (active : s.out.active = some (.piece inf)) :
    Intact rc4 { s with
      out := { s.out with active := some (.piece { inf with rateReserved := tokens }) } } := by
  have framed := intact.framed inf active
  have order := intact.orderly.serving
  have stream := intact.stream
  simp only [waitingBlock, active] at order
  simp only [pending, active] at stream
  refine ⟨⟨intact.orderly.payloads, intact.orderly.control, order⟩, intact.scratchLen, ?_, stream,
    intact.cipher⟩
  intro other found
  cases found
  exact ⟨framed.unsent, framed.total, framed.small, framed.cipher, framed.plain⟩

theorem turnKeeps_sendActive (config : SendConfig) (rc4 : Option Rc4) (turn : Turn) (s : PeerSend)
    (any : Bool) (intact : Intact rc4 s) : TurnKeeps rc4 (sendActive config turn s any) := by
  unfold sendActive
  split
  · exact turnKeeps_intact _ _ _ _ intact (by simp)
  · rename_i buf active
    exact turnKeeps_writeCtrl rc4 turn s any buf intact active
  · rename_i inf active
    split_ifs with dropped
    · apply turnKeeps_intact _ _ _ _ _ (by decide)
      refine intact_abort rc4 s _ inf intact active dropped.2 ?_ rfl rfl rfl rfl rfl
      exact orderly_remove s _ intact.orderly rfl rfl (List.sublist_append_right _ _)
    · split
      · exact turnKeeps_intact _ _ _ _ intact (by simp)
      · rename_i inf' reserved
        obtain ⟨tokens, same⟩ := reserveTokens_frame turn inf inf' reserved
        rw [same]
        exact turnKeeps_writePiece rc4 turn _ any _ (intact_reserve rc4 s inf tokens intact active) rfl

theorem turnKeeps_quantumTurn (config : SendConfig) (rc4 : Option Rc4) (turn : Turn) (s : PeerSend)
    (any : Bool) (intact : Intact rc4 s) : TurnKeeps rc4 (quantumTurn config turn s any) := by
  have picked := intact_pickNextActive config turn rc4 s intact
  unfold quantumTurn
  dsimp only
  split_ifs
  · exact turnKeeps_sendActive config rc4 turn s any intact
  · exact turnKeeps_intact _ _ _ _ intact (by simp)
  · exact turnKeeps_sendActive config rc4 turn _ any picked
  · exact turnKeeps_intact _ _ _ _ picked (by simp)
  · exact turnKeeps_intact _ _ _ _ picked (by decide)
  · exact turnKeeps_intact _ _ _ _ picked (by simp)

/-- A whole quantum keeps the connection unbroken unless a write fails. -/
theorem intact_quantumLoop (config : SendConfig) (turns : Nat → Turn) (rc4 : Option Rc4)
    (fuel k : Nat) (s : PeerSend) (any : Bool) (result : PeerSend × Except Unit SendOutcome)
    (intact : Intact rc4 s) (ran : quantumLoop config turns fuel k s any = some result) :
    (∀ outcome, result.2 = .ok outcome → Intact rc4 result.1) ∧
      (result.2 = .error () → Torn rc4 result.1) := by
  induction fuel generalizing k s any with
  | zero => cases ran
  | succ fuel ih =>
    have keeps := turnKeeps_quantumTurn config rc4 (turns k) s any intact
    rw [quantumLoop] at ran
    split at ran
    · rename_i s' any' turned
      rw [turned] at keeps
      exact ih (k + 1) s' any' (keeps.1 (by simp)) ran
    · rename_i s' any' limited turned
      rw [turned] at keeps
      cases ran
      exact ⟨fun _ _ => keeps.1 (by simp), fun failed => by cases failed⟩
    · rename_i s' any' turned
      rw [turned] at keeps
      cases ran
      exact ⟨fun _ ok => (by cases ok), fun _ => keeps.2 rfl⟩

theorem intact_sendQuantum (config : SendConfig) (turns : Nat → Turn) (rc4 : Option Rc4)
    (s : PeerSend) (result : PeerSend × Except Unit SendOutcome) (intact : Intact rc4 s)
    (ran : sendQuantum config turns s = some result) :
    (∀ outcome, result.2 = .ok outcome → Intact rc4 result.1) ∧
      (result.2 = .error () → Torn rc4 result.1) := by
  unfold sendQuantum at ran
  split_ifs at ran
  · exact intact_quantumLoop config turns rc4 _ 0 s false result intact ran
  · refine intact_quantumLoop config turns rc4 _ 0 _ false result ?_ ran
    exact intact_of_queue rc4 s _ intact (orderly_clear s intact.orderly) rfl rfl rfl rfl rfl

/-- Queued work: a PIECE weighs two, since a failed fill may queue a reject in its place. -/
def weight (out : OutQueue) : Nat :=
  2 * out.pieces.length + out.ctrl.length + (if out.active.isSome then 1 else 0)

theorem pushCtrlOwned_length (out : OutQueue) (plain : List Message) :
    (out.pushCtrlOwned plain).ctrl.length ≤ out.ctrl.length + 1 := by
  unfold OutQueue.pushCtrlOwned
  split_ifs
  · omega
  · split
    · split_ifs
      · simp only [List.length_append, List.length_dropLast, List.length_singleton]
        omega
      · simp only [List.length_append, List.length_singleton, Nat.le_refl]
    · simp only [List.length_append, List.length_singleton, Nat.le_refl]

theorem weight_pushReject (s : PeerSend) (block : UploadBlock) (fastEnabled : Bool) :
    weight (s.pushReject block fastEnabled).out ≤ weight s.out + 1 := by
  unfold PeerSend.pushReject
  split_ifs
  · have length := pushCtrlOwned_length s.out [.rejectRequest block.index block.begin' block.length]
    obtain ⟨active, pieces⟩ := pushCtrlOwned_frame s.out
      [.rejectRequest block.index block.begin' block.length]
    simp only [PeerSend.pushCtrl, weight, active, pieces]
    omega
  · omega

/-- Activating never adds work; a fill that fails removes some. -/
theorem weight_pickNextActive (config : SendConfig) (turn : Turn) (s : PeerSend)
    (idle : s.out.active = none) :
    weight (pickNextActive config turn s).out ≤ weight s.out ∧
      ((pickNextActive config turn s).out.active = none →
        (pickNextActive config turn s).out.pieces ≠ [] →
        weight (pickNextActive config turn s).out < weight s.out) := by
  unfold pickNextActive
  rw [if_neg (by simp [idle])]
  split
  · rename_i plain rest queued
    refine ⟨?_, fun active => nomatch active⟩
    simp only [weight, queued, idle, List.length_cons, Option.isSome_some, Option.isSome_none,
      if_true, Bool.false_eq_true, if_false]
    omega
  · rename_i empty
    split
    · rename_i blank
      exact ⟨le_refl _, fun _ some' => absurd blank some'⟩
    · rename_i block rest queued
      dsimp only
      split
      · refine ⟨?_, fun active => nomatch active⟩
        simp only [weight, queued, idle, List.length_cons, Option.isSome_some, Option.isSome_none,
          if_true, Bool.false_eq_true, if_false]
        omega
      · have lighter : weight { s.out with pieces := rest } + 2 = weight s.out := by
          simp only [weight, queued, List.length_cons]
          omega
        have bound := fun s' : PeerSend => weight_pushReject s' block config.fastEnabled
        refine ⟨(bound _).trans ?_, fun _ _ => Nat.lt_of_le_of_lt (bound _) ?_⟩
        · dsimp only at lighter ⊢
          omega
        · dsimp only at lighter ⊢
          omega

theorem weight_sendActive (config : SendConfig) (turn : Turn) (s s' : PeerSend) (any any' : Bool)
    (again : sendActive config turn s any = (s', any', .again)) : weight s'.out < weight s.out := by
  unfold sendActive at again
  split at again
  · cases again
  · rename_i buf active
    unfold writeCtrl at again
    dsimp only at again
    split_ifs at again
    · cases again
      simp only [weight, OutQueue.noteCtrlFullySent, active, Option.isSome_some, if_true]
      split_ifs <;> simp_all
    · cases again
  · rename_i inf active
    split_ifs at again
    · cases again
      simp [weight, active]
    · split at again
      · cases again
      · unfold writePiece startPlain at again
        dsimp only at again
        split_ifs at again <;> cases again <;> simp [weight, active]

theorem weight_quantumTurn (config : SendConfig) (turn : Turn) (s s' : PeerSend) (any any' : Bool)
    (again : quantumTurn config turn s any = (s', any', .again)) : weight s'.out < weight s.out := by
  unfold quantumTurn at again
  dsimp only at again
  split_ifs at again with busy _ picked _ skip
  · exact weight_sendActive config turn s s' any any' again
  · cases again
  · have idle : s.out.active = none := by simpa using busy
    have step := weight_sendActive config turn _ s' any any' again
    exact Nat.lt_of_lt_of_le step (weight_pickNextActive config turn s idle).1
  · cases again
  · have idle : s.out.active = none := by simpa using busy
    cases again
    have none' : (pickNextActive config turn s).out.active = none := by simpa using picked
    apply (weight_pickNextActive config turn s idle).2 none'
    intro blank
    simp [blank] at skip
  · cases again

theorem quantumLoop_returns (config : SendConfig) (turns : Nat → Turn) (fuel k : Nat) (s : PeerSend)
    (any : Bool) (enough : weight s.out < fuel) :
    ∃ result, quantumLoop config turns fuel k s any = some result := by
  induction fuel generalizing k s any with
  | zero => omega
  | succ fuel ih =>
    rw [quantumLoop]
    split
    · rename_i s' any' turned
      have lighter := weight_quantumTurn config (turns k) s s' any any' turned
      exact ih (k + 1) s' any' (by omega)
    · exact ⟨_, rfl⟩
    · exact ⟨_, rfl⟩

/-- A quantum returns, whatever the disk, the limiter and the socket answer. -/
theorem sendQuantum_returns (config : SendConfig) (turns : Nat → Turn) (s : PeerSend) :
    ∃ result, sendQuantum config turns s = some result :=
  quantumLoop_returns config turns _ 0 _ false (Nat.lt_succ_self _)

/-- A connection; an error of a quantum ends it. -/
structure Conn where
  send : PeerSend
  alive : Bool

inductive SendEvent where
  | pushCtrl (plain : List Message)
  | pushKeepalive
  | tryPushPiece (block : UploadBlock)
  | cancelPiece (block : UploadBlock)
  | clearPieces
  | sendQuantum (config : SendConfig) (turns : Nat → Turn)

def connect (rc4 : Option Rc4) : Conn := ⟨PeerSend.new rc4, true⟩

def step (c : Conn) (event : SendEvent) : Option Conn :=
  if c.alive then
    match event with
    | .pushCtrl plain => some { c with send := c.send.pushCtrl plain }
    | .pushKeepalive => some { c with send := c.send.pushKeepalive }
    | .tryPushPiece block => some { c with send := (c.send.tryPushPiece block).2 }
    | .cancelPiece block => some { c with send := c.send.cancelPiece block }
    | .clearPieces => some { c with send := c.send.clearPieces }
    | .sendQuantum config turns =>
      (sendQuantum config turns c.send).map (fun result => ⟨result.1, result.2.toBool⟩)
  else none

def Sound (rc4 : Option Rc4) (c : Conn) : Prop :=
  (c.alive = true → Intact rc4 c.send) ∧ (c.alive = false → Torn rc4 c.send)

theorem sound_connect (rc4 : Option Rc4) : Sound rc4 (connect rc4) := by
  refine ⟨fun _ => ?_, fun dead => by cases dead⟩
  refine intact_idle rc4 _ ⟨?_, rfl, List.nil_sublist _⟩ List.length_replicate rfl ?_
  · intro block payload member
    cases member
  · exact (cryptOpt_nil rc4).symm

theorem sound_step (rc4 : Option Rc4) (c : Conn) (event : SendEvent) (c' : Conn) (sound : Sound rc4 c)
    (taken : step c event = some c') : Sound rc4 c' := by
  unfold step at taken
  split_ifs at taken with alive
  have intact := sound.1 alive
  have kept : ∀ s', Intact rc4 s' → Sound rc4 { c with send := s' } :=
    fun s' intact' => ⟨fun _ => intact', fun dead => absurd (alive.symm.trans dead) (by decide)⟩
  cases event with
  | pushCtrl plain =>
    cases taken
    exact kept _ (intact_pushCtrl rc4 c.send intact plain)
  | pushKeepalive =>
    cases taken
    exact kept _ (intact_pushKeepalive rc4 c.send intact)
  | tryPushPiece block =>
    cases taken
    exact kept _ (intact_tryPushPiece rc4 c.send intact block)
  | cancelPiece block =>
    cases taken
    exact kept _ (intact_cancelPiece rc4 c.send intact block)
  | clearPieces =>
    cases taken
    exact kept _ (intact_clearPieces rc4 c.send intact)
  | sendQuantum config turns =>
    obtain ⟨result, ran, same⟩ := Option.map_eq_some_iff.1 taken
    subst same
    have keeps := intact_sendQuantum config turns rc4 c.send result intact ran
    obtain ⟨s', outcome⟩ := result
    cases outcome with
    | ok outcome => exact ⟨fun _ => keeps.1 outcome rfl, fun dead => by cases dead⟩
    | error problem => exact ⟨fun alive' => (by cases alive'), fun _ => keeps.2 rfl⟩

/-- An unbroken connection takes every event. -/
theorem step_total (c : Conn) (event : SendEvent) (alive : c.alive = true) :
    (step c event).isSome = true := by
  unfold step
  rw [if_pos alive]
  cases event with
  | sendQuantum config turns =>
    obtain ⟨result, ran⟩ := sendQuantum_returns config turns c.send
    simp only [ran, Option.map_some, Option.isSome_some]
  | _ => rfl

theorem sound_exec (rc4 : Option Rc4) (events : List SendEvent) (c : Conn)
    (ran : exec step (connect rc4) events = some c) : Sound rc4 c :=
  exec_invariant_free step (Sound rc4) (sound_step rc4) _ c events (sound_connect rc4) ran

theorem orderly_of_sound (rc4 : Option Rc4) (c : Conn) (sound : Sound rc4 c) :
    Orderly { c.send with out := { c.send.out with active := none } } := by
  cases alive : c.alive with
  | true =>
    exact orderly_remove c.send _ (sound.1 alive).orderly rfl rfl (List.sublist_append_right _ _)
  | false => exact (sound.2 alive).orderly

/-- The socket carries the keystream XOR whole frames in the order they were started. What passed the
cipher and is not yet written is the active frame, which comes next, and a failed write ends the
stream inside it. -/
theorem outbound_stream_integrity (rc4 : Option Rc4) (events : List SendEvent) (c : Conn)
    (ran : exec step (connect rc4) events = some c) :
    (c.alive = true →
      (∃ sent waiting, c.send.log.started = sent ++ waiting ∧
        c.send.socket = wireBytes rc4 (encodeFrames sent) ∧
        c.send.socket ++ pending c.send = wireBytes rc4 (encodeFrames c.send.log.started)) ∧
      c.send.rc4 = moved rc4 (encodeFrames c.send.log.started).length ∧
      ∀ event, (step c event).isSome = true) ∧
    (c.alive = false → c.send.socket <+: wireBytes rc4 (encodeFrames c.send.log.started)) ∧
    (∀ block payload, Frame.piece block payload ∈ c.send.log.started →
      payload.length = block.length) ∧
    c.send.log.started.flatMap Frame.messages ++ c.send.out.ctrl.flatten = c.send.log.pushed ∧
    (c.send.log.started.flatMap Frame.blocks ++ c.send.out.pieces).Sublist c.send.log.accepted := by
  have sound := sound_exec rc4 events c ran
  have order := orderly_of_sound rc4 c sound
  refine ⟨?_, ?_, order.payloads, order.control, order.serving⟩
  · intro alive
    have intact := sound.1 alive
    have bytes := intact_bytes rc4 c.send intact
    have cipher := intact.cipher
    obtain ⟨sent, waiting, split, socket, _⟩ := intact.stream
    rw [cryptOpt_eq] at socket bytes cipher
    exact ⟨⟨sent, waiting, split, socket, bytes⟩, cipher, fun event => step_total c event alive⟩
  · intro dead
    have torn := (sound.2 dead).partial'
    rw [cryptOpt_eq] at torn
    exact torn

/-- An unchoke, then one block of a one-piece torrent, written one byte at a time. -/
def unchokeThenServe : List SendEvent :=
  [.pushCtrl [.unchoke], .tryPushPiece ⟨0, 0, 2⟩,
    .sendQuantum ⟨⟨["data"], 2, 1, 2, [⟨["a"], 2, 0, 1⟩]⟩, true, true⟩
      (fun _ => ⟨.read (fun _ => 7), .failed false [], none, fun _ => .accepted 1⟩)]

def unchokedAndServed : Conn := (exec step (connect none) unchokeThenServe).getD (connect none)

theorem outbound_stream_integrity_unchokeThenServe :
    unchokedAndServed.alive = true ∧
    unchokedAndServed.send.socket =
      encodeFrames [.ctrl .unchoke, .piece ⟨0, 0, 2⟩ [7, 7]] ∧
    (unchokedAndServed.send.log.started.flatMap Frame.blocks ++
      unchokedAndServed.send.out.pieces).Sublist unchokedAndServed.send.log.accepted := by
  have returns : (exec step (connect none) unchokeThenServe).isSome = true := by decide +kernel
  have ran := (Option.getD_of_ne_none (Option.isSome_iff_ne_none.1 returns) (connect none)).symm
  have whole := outbound_stream_integrity none unchokeThenServe unchokedAndServed ran
  exact ⟨by decide +kernel, by decide +kernel, whole.2.2.2.2⟩

end Seedchamp.Peer.WireOrder
