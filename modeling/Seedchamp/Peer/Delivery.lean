import Seedchamp.Net.Inbound
import Seedchamp.Peer.WireOrder

/-!
Both ends of a connection. What the write half of one client puts on the wire is what the reader of
the other one takes off it, however the stream is encrypted and cut into reads.
-/

namespace Seedchamp.Peer.Delivery
open Crypto.PayloadCipher Foundation Foundation.TransitionSystem Foundation.Framing Net.Inbound
open Peer.SendQueue Peer.WireOrder Upload.InFlight Wire.Messages Wire.Parse

/-- What the reader makes of a frame. -/
def taken : Frame → ParsedMessage
  | .ctrl message => parsedAs message
  | .piece block payload => .piece block.index block.begin' payload

/-- What a connection has sent: the messages of its greeting, and what its write half put on the
socket. -/
def stream (rc4 : Option Rc4) (greeting : List Message) (c : Conn) : Bytes :=
  (cryptOpt rc4 (encodeAll greeting)).1 ++ c.send.socket

/-- The messages a session queues are those a reader has to accept, and the fields of a requested
block are of type `u32`. -/
def Speaks : SendEvent → Prop
  | .pushCtrl plain => ∀ message ∈ plain, Admissible message
  | .tryPushPiece block => block.index < 2 ^ 32 ∧ block.begin' < 2 ^ 32
  | _ => True

structure Servable (block : UploadBlock) : Prop where
  index : block.index < 2 ^ 32
  begin' : block.begin' < 2 ^ 32
  length : block.length ≤ MAX_REQUEST_LENGTH

structure Speakable (s : PeerSend) : Prop where
  pushed : ∀ message ∈ s.log.pushed, Admissible message
  accepted : ∀ block ∈ s.log.accepted, Servable block

/-! ### The cipher -/

theorem cryptOpt_cryptOpt (rc4 : Option Rc4) (data : Bytes) :
    (cryptOpt rc4 (cryptOpt rc4 data).1).1 = data := by
  cases rc4 with
  | none => rfl
  | some rc4 => exact StreamCipher.crypt_crypt Rc4.next rc4 data

theorem cryptOpt_take (rc4 : Option Rc4) (data : Bytes) (n : Nat) :
    (cryptOpt rc4 (data.take n)).1 = (cryptOpt rc4 data).1.take n := by
  cases rc4 with
  | none => rfl
  | some rc4 => exact StreamCipher.crypt_take Rc4.next rc4 data n

/-- What arrived of an encrypted stream decrypts to the start of what was sent. -/
theorem decrypts (rc4 : Option Rc4) (data got : Bytes) (arrived : got <+: (cryptOpt rc4 data).1) :
    (cryptOpt rc4 got).1 = data.take got.length := by
  calc (cryptOpt rc4 got).1
    _ = (cryptOpt rc4 ((cryptOpt rc4 data).1.take got.length)).1 := by
      exact congrArg (fun part => (cryptOpt rc4 part).1) (List.prefix_iff_eq_take.1 arrived)
    _ = (cryptOpt rc4 (cryptOpt rc4 (data.take got.length)).1).1 :=
      congrArg (fun part => (cryptOpt rc4 part).1) (cryptOpt_take rc4 data _).symm
    _ = data.take got.length := cryptOpt_cryptOpt rc4 _

/-! ### The frames -/

theorem reads_message (message : Message) (admissible : Admissible message) :
    framer.Reads (encodeMessage message) (parsedAs message) where
  whole := (parseMessage_encodeMessage message admissible).1
  part := (parseMessage_encodeMessage message admissible).2

theorem admissible_piece (block : UploadBlock) (payload : Bytes) (servable : Servable block)
    (whole : payload.length = block.length) : Admissible (.piece block.index block.begin' payload) where
  fields := ⟨servable.index, servable.begin'⟩
  length := by
    have small := servable.length
    have cap : MAX_REQUEST_LENGTH = 131072 := rfl
    have most : MAX_MESSAGE_LENGTH = 1048576 := rfl
    rw [encodeMessage, encodeId_length, List.length_append, List.length_append]
    simp only [Seedchamp.Wire.Parse.toBeBytes_length]
    omega
  unknown := by
    intro id body same
    cases same

theorem encode_piece (block : UploadBlock) (payload : Bytes) (whole : payload.length = block.length) :
    (Frame.piece block payload).encode = encodeMessage (.piece block.index block.begin' payload) := by
  have declared : 1 + (toBeBytes block.index ++ toBeBytes block.begin' ++ payload).length =
      9 + block.length := by
    simp only [List.length_append, Seedchamp.Wire.Parse.toBeBytes_length, whole]
    omega
  rw [Frame.encode, fillPieceHeader, encodeMessage, encodeId, declared]
  simp

/-- Every frame that a speakable session started is read back. -/
theorem reads_frame (s : PeerSend) (speakable : Speakable s)
    (orderly : Orderly { s with out := { s.out with active := none } }) (frame : Frame)
    (started : frame ∈ s.log.started) : framer.Reads frame.encode (taken frame) := by
  cases frame with
  | ctrl message =>
    have listed : message ∈ s.log.pushed := by
      rw [← orderly.control]
      exact List.mem_append_left _ (List.mem_flatMap.2 ⟨_, started, List.mem_singleton.2 rfl⟩)
    exact reads_message message (speakable.pushed message listed)
  | piece block payload =>
    have whole := orderly.payloads block payload started
    have listed : block ∈ s.log.accepted := orderly.serving.subset
      (List.mem_append_left _ (List.mem_flatMap.2 ⟨_, started, List.mem_singleton.2 rfl⟩))
    rw [encode_piece block payload whole]
    exact reads_message _ (admissible_piece block payload (speakable.accepted block listed) whole)

/-! ### What a session queues -/

theorem Speakable.same {s s' : PeerSend} (speakable : Speakable s)
    (pushed : s'.log.pushed = s.log.pushed) (accepted : s'.log.accepted = s.log.accepted) :
    Speakable s' := by
  constructor
  · rw [pushed]
    exact speakable.pushed
  · rw [accepted]
    exact speakable.accepted

theorem Speakable.pushCtrl {s : PeerSend} (speakable : Speakable s) (plain : List Message)
    (admissible : ∀ message ∈ plain, Admissible message) : Speakable (s.pushCtrl plain) := by
  refine ⟨?_, speakable.accepted⟩
  intro message listed
  rcases List.mem_append.1 listed with old | new
  · exact speakable.pushed message old
  · exact admissible message new

theorem admissible_keepAlive : Admissible .keepAlive where
  fields := trivial
  length := by decide
  unknown := by
    intro id payload same
    cases same

theorem Speakable.pushKeepalive {s : PeerSend} (speakable : Speakable s) :
    Speakable s.pushKeepalive := by
  rw [PeerSend.pushKeepalive]
  split_ifs
  · exact speakable
  · have kept : Speakable { s with out := { s.out with keepaliveQueued := true } } :=
      speakable.same rfl rfl
    refine kept.pushCtrl _ ?_
    intro message listed
    rw [List.mem_singleton.1 listed]
    exact admissible_keepAlive

theorem admissible_reject (block : UploadBlock) (servable : Servable block) :
    Admissible (.rejectRequest block.index block.begin' block.length) where
  fields := by
    have small := servable.length
    have cap : MAX_REQUEST_LENGTH = 131072 := rfl
    exact ⟨servable.index, servable.begin', by omega⟩
  length := by
    change 17 ≤ 4 + MAX_MESSAGE_LENGTH
    decide
  unknown := by
    intro id payload same
    cases same

theorem Speakable.pushReject {s : PeerSend} (speakable : Speakable s) (block : UploadBlock)
    (fastEnabled : Bool) (servable : Servable block) : Speakable (s.pushReject block fastEnabled) := by
  rw [PeerSend.pushReject]
  split_ifs
  · refine speakable.pushCtrl _ ?_
    intro message listed
    rw [List.mem_singleton.1 listed]
    exact admissible_reject block servable
  · exact speakable

/-- A block that is accepted is of an admissible length. -/
theorem Speakable.tryPushPiece {s : PeerSend} (speakable : Speakable s) (block : UploadBlock)
    (index : block.index < 2 ^ 32) (begin' : block.begin' < 2 ^ 32) :
    Speakable (s.tryPushPiece block).2 := by
  refine ⟨speakable.pushed, ?_⟩
  intro other listed
  have small : (s.out.tryPushPiece block).1 = true → block.length ≤ MAX_REQUEST_LENGTH := by
    intro pushed
    rw [OutQueue.tryPushPiece] at pushed
    split_ifs at pushed with bad
    omega
  have cases' : other ∈ s.log.accepted ∨ (s.out.tryPushPiece block).1 = true ∧ other = block := by
    cases pushed : (s.out.tryPushPiece block).1 with
    | true =>
      simpa [PeerSend.tryPushPiece, pushed] using listed
    | false =>
      simpa [PeerSend.tryPushPiece, pushed] using listed
  rcases cases' with old | ⟨pushed, rfl⟩
  · exact speakable.accepted other old
  · exact ⟨index, begin', small pushed⟩

theorem Speakable.pickNextActive {s : PeerSend} (speakable : Speakable s) (orderly : Orderly s)
    (config : SendConfig) (turn : Turn) : Speakable (pickNextActive config turn s) := by
  rw [SendQueue.pickNextActive]
  split_ifs with busy
  · exact speakable
  · cases s.out.ctrl with
    | cons plain rest => exact speakable.same rfl rfl
    | nil =>
      cases queued : s.out.pieces with
      | nil => exact speakable
      | cons block rest =>
        have listed : block ∈ s.log.accepted := orderly.serving.subset (by
          rw [queued]
          simp)
        dsimp only
        cases (fillBlock config block s.rc4 turn s.scratch).1.1 with
        | ok inf => exact speakable.same rfl rfl
        | error problem =>
          have kept : Speakable { s with
              out := { s.out with pieces := rest }
              rc4 := (fillBlock config block s.rc4 turn s.scratch).1.2.1
              scratch := (fillBlock config block s.rc4 turn s.scratch).1.2.2 } := speakable.same rfl rfl
          exact kept.pushReject block config.fastEnabled (speakable.accepted block listed)

/-- Writing what is active queues nothing. -/
theorem Speakable.sendActive {s : PeerSend} (speakable : Speakable s) (config : SendConfig)
    (turn : Turn) (any : Bool) : Speakable (sendActive config turn s any).1 := by
  rw [SendQueue.sendActive]
  cases s.out.active with
  | none => exact speakable
  | some active =>
    cases active with
    | ctrl buf =>
      dsimp only [writeCtrl]
      split_ifs
      · exact speakable.same rfl rfl
      · exact speakable.same rfl rfl
    | piece inf =>
      dsimp only
      split_ifs
      · exact speakable.same rfl rfl
      · cases reserveTokens turn inf with
        | none => exact speakable
        | some inf' =>
          dsimp only [writePiece, startPlain]
          split_ifs <;> exact speakable.same rfl rfl

theorem Speakable.quantumTurn {s : PeerSend} (speakable : Speakable s) (orderly : Orderly s)
    (config : SendConfig) (turn : Turn) (any : Bool) :
    Speakable (quantumTurn config turn s any).1 := by
  have picked := speakable.pickNextActive orderly config turn
  rw [SendQueue.quantumTurn]
  dsimp only
  split_ifs
  · exact speakable.sendActive config turn any
  · exact speakable
  · exact picked.sendActive config turn any
  · exact picked
  · exact picked
  · exact picked

theorem Speakable.quantumLoop (config : SendConfig) (turns : Nat → Turn) (rc4 : Option Rc4)
    (fuel k : Nat) (s : PeerSend) (any : Bool) (result : PeerSend × Except Unit SendOutcome)
    (speakable : Speakable s) (intact : Intact rc4 s)
    (ran : quantumLoop config turns fuel k s any = some result) : Speakable result.1 := by
  induction fuel generalizing k s any with
  | zero => cases ran
  | succ fuel ih =>
    have kept := speakable.quantumTurn intact.orderly config (turns k) any
    have keeps := turnKeeps_quantumTurn config rc4 (turns k) s any intact
    rw [SendQueue.quantumLoop] at ran
    rcases turned : SendQueue.quantumTurn config (turns k) s any with ⟨s', any', outcome⟩
    rw [turned] at ran kept keeps
    cases outcome with
    | again => exact ih (k + 1) s' any' kept (keeps.1 (by simp)) ran
    | finished limited =>
      cases ran
      exact kept
    | failed =>
      cases ran
      exact kept

theorem speakable_step (rc4 : Option Rc4) (c c' : Conn) (event : SendEvent) (sound : Sound rc4 c)
    (speaks : Speaks event) (speakable : Speakable c.send) (went : step c event = some c') :
    Speakable c'.send := by
  unfold WireOrder.step at went
  split_ifs at went with alive
  cases event with
  | pushCtrl plain =>
    cases went
    exact speakable.pushCtrl plain speaks
  | pushKeepalive =>
    cases went
    exact speakable.pushKeepalive
  | tryPushPiece block =>
    cases went
    exact speakable.tryPushPiece block speaks.1 speaks.2
  | cancelPiece block =>
    cases went
    exact speakable.same rfl rfl
  | clearPieces =>
    cases went
    exact speakable.same rfl rfl
  | sendQuantum config turns =>
    obtain ⟨result, ran, rfl⟩ := Option.map_eq_some_iff.1 went
    have intact := sound.1 alive
    rw [sendQuantum] at ran
    split_ifs at ran
    · exact Speakable.quantumLoop config turns rc4 _ 0 _ false result speakable intact ran
    · refine Speakable.quantumLoop config turns rc4 _ 0 _ false result ?_ ?_ ran
      · exact speakable.same rfl rfl
      · exact intact_of_queue rc4 c.send _ intact (orderly_clear c.send intact.orderly) rfl rfl rfl rfl
          rfl

theorem speakable_exec (rc4 : Option Rc4) (events : List SendEvent)
    (speaks : ∀ event ∈ events, Speaks event) (c c' : Conn) (sound : Sound rc4 c)
    (speakable : Speakable c.send) (ran : exec step c events = some c') : Speakable c'.send := by
  induction events generalizing c with
  | nil =>
    cases ran
    exact speakable
  | cons event rest ih =>
    obtain ⟨next, went, later⟩ := (exec_cons step c c' event rest).1 ran
    exact ih (fun other member => speaks other (List.mem_cons_of_mem event member)) next
      (sound_step rc4 c event next sound went)
      (speakable_step rc4 c next event sound (speaks event List.mem_cons_self) speakable went) later

/-! ### The stream -/

theorem started_frames (greeting : List Message) (started : List Frame) :
    encodeFrames (greeting.map Frame.ctrl ++ started) = encodeAll greeting ++ encodeFrames started := by
  rw [encodeFrames_append, encodeFrames_ctrl]

/-- The socket carries the start of the encrypted frames, the whole of them once nothing waits. -/
theorem stream_prefix (rc4 : Option Rc4) (greeting : List Message) (c : Conn)
    (sound : Sound (moved rc4 (encodeAll greeting).length) c) :
    stream rc4 greeting c <+:
      (cryptOpt rc4 (encodeFrames (greeting.map Frame.ctrl ++ c.send.log.started))).1 ∧
    (c.alive = true → c.send.out.active = none → stream rc4 greeting c =
      (cryptOpt rc4 (encodeFrames (greeting.map Frame.ctrl ++ c.send.log.started))).1) := by
  have later : (cryptOpt rc4 (encodeAll greeting)).2 = moved rc4 (encodeAll greeting).length := by
    rw [cryptOpt_eq]
  rw [started_frames, cryptOpt_append, later, stream]
  constructor
  · rw [List.prefix_append_right_inj]
    cases alive : c.alive with
    | true =>
      rw [← intact_bytes _ c.send (sound.1 alive)]
      exact List.prefix_append _ _
    | false => exact (sound.2 alive).partial'
  · intro alive idle
    rw [List.append_cancel_left_eq, ← intact_bytes _ c.send (sound.1 alive), pending, idle]
    exact (List.append_nil _).symm

/-- What an inbound reader takes of the start of an encrypted stream, the bytes it was handed by the
handshake and those it reads. -/
theorem inbound_of_prefix (rc4 : Option Rc4) (data early : Bytes) (reads : List Bytes)
    (arrived : early ++ received reads <+: (cryptOpt rc4 data).1) :
    (inbound (moved rc4 early.length) (cryptOpt rc4 early).1 reads).drained =
      framer.drain (data.take (early ++ received reads).length) := by
  rw [inbound_drained, ← decrypts rc4 data _ arrived, cryptOpt_append]
  have later : (cryptOpt rc4 early).2 = moved rc4 early.length := by rw [cryptOpt_eq]
  rw [later]

theorem clean_of_drained (parsed : Parsed) (frames : List (ParsedMessage × Nat)) (left : Bytes)
    (drained : parsed.drained = ⟨frames, .ok left⟩) : parsed.problem = none ∧ parsed.frames = frames := by
  cases problem : parsed.problem with
  | none =>
    rw [drained_ok parsed problem] at drained
    cases drained
    exact ⟨rfl, rfl⟩
  | some text =>
    rw [drained_error parsed text problem] at drained
    cases drained

/-- Messages that arrived whole are read whole. -/
theorem messages_read (rc4 : Option Rc4) (messages : List Message)
    (admissible : ∀ message ∈ messages, Admissible message) (early : Bytes) (reads : List Bytes)
    (whole : early ++ received reads = (cryptOpt rc4 (encodeAll messages)).1) :
    let got := inbound (moved rc4 early.length) (cryptOpt rc4 early).1 reads
    got.problem = none ∧ got.frames.map Prod.fst = messages.map parsedAs := by
  intro got
  have framed := inbound_of_prefix rc4 _ early reads (by rw [whole])
  rw [whole, cryptOpt_length, List.take_length] at framed
  obtain ⟨delivered, later, left, parts, same, drained, -, short⟩ := framer.drain_encoded encodeMessage
    parsedAs messages _ (fun message listed => reads_message message (admissible message listed))
    List.prefix_rfl
  rw [encodeAll, drained] at framed
  obtain ⟨clean, taken_⟩ := clean_of_drained got _ left framed
  rw [parts, List.flatMap_append, List.append_cancel_left_eq] at same
  rw [Framer.later_nil encodeMessage later left short same.symm, List.append_nil] at parts
  refine ⟨clean, ?_⟩
  rw [taken_, List.map_map, parts]
  rfl

/-- In every run of a session the reader at the other end takes the frames that were started, in their
order, and refuses none: it has taken every frame that has wholly arrived, the control messages are the
first of those queued, and each block is one that was accepted. When nothing is left to send and all has
arrived, every started frame and every control message has been taken. -/
theorem frames_delivered (rc4 : Option Rc4) (greeting : List Message) (events : List SendEvent)
    (c : Conn) (greets : ∀ message ∈ greeting, Admissible message)
    (speaks : ∀ event ∈ events, Speaks event)
    (ran : exec step (connect (moved rc4 (encodeAll greeting).length)) events = some c)
    (early : Bytes) (reads : List Bytes) (arrived : early ++ received reads <+: stream rc4 greeting c) :
    let got := inbound (moved rc4 early.length) (cryptOpt rc4 early).1 reads
    got.problem = none ∧ ∃ delivered later,
      delivered ++ later = greeting.map Frame.ctrl ++ c.send.log.started ∧
      got.frames.map Prod.fst = delivered.map taken ∧
      (encodeFrames delivered).length ≤ (early ++ received reads).length ∧
      (∀ next ∈ later.head?, (early ++ received reads).length < (encodeFrames (delivered ++ [next])).length) ∧
      delivered.flatMap Frame.messages <+: greeting ++ c.send.log.pushed ∧
      (delivered.flatMap Frame.blocks).Sublist c.send.log.accepted ∧
      (c.alive = true → c.send.out.hasWork = false → early ++ received reads = stream rc4 greeting c →
        later = [] ∧ delivered.flatMap Frame.messages = greeting ++ c.send.log.pushed) := by
  intro got
  have sound := sound_exec _ events c ran
  have orderly := orderly_of_sound _ c sound
  have speakable := speakable_exec _ events speaks _ c (sound_connect _)
    ⟨fun message none => (by cases none), fun block none => (by cases none)⟩ ran
  obtain ⟨carried, complete⟩ := stream_prefix rc4 greeting c sound
  have frames : ∀ frame ∈ greeting.map Frame.ctrl ++ c.send.log.started,
      framer.Reads frame.encode (taken frame) := by
    intro frame listed
    rcases List.mem_append.1 listed with first | started
    · obtain ⟨message, member, rfl⟩ := List.mem_map.1 first
      exact reads_message message (greets message member)
    · exact reads_frame c.send speakable orderly frame started
  have framed := inbound_of_prefix rc4 _ early reads (arrived.trans carried)
  obtain ⟨delivered, later, left, parts, same, drained, -, short⟩ := framer.drain_encoded Frame.encode taken
    _ _ frames (List.take_prefix (early ++ received reads).length _)
  rw [encodeFrames, drained] at framed
  obtain ⟨clean, taken_⟩ := clean_of_drained got _ left framed
  have messages : (greeting.map Frame.ctrl ++ c.send.log.started).flatMap Frame.messages =
      greeting ++ c.send.log.started.flatMap Frame.messages := by
    rw [List.flatMap_append, messages_ctrl]
  have blocks : (greeting.map Frame.ctrl ++ c.send.log.started).flatMap Frame.blocks =
      c.send.log.started.flatMap Frame.blocks := by
    rw [List.flatMap_append, blocks_ctrl, List.nil_append]
  have queued : greeting ++ c.send.log.pushed =
      (greeting.map Frame.ctrl ++ c.send.log.started).flatMap Frame.messages ++ c.send.out.ctrl.flatten := by
    rw [messages, List.append_assoc]
    exact congrArg (greeting ++ ·) orderly.control.symm
  have arrivals : (early ++ received reads).length = (encodeFrames delivered).length + left.length := by
    have bytes := (arrived.trans carried).length_le
    rw [cryptOpt_length, encodeFrames] at bytes
    have counted := congrArg List.length same
    rw [List.length_take_of_le bytes] at counted
    exact counted.trans List.length_append
  refine ⟨clean, delivered, later, parts.symm, ?_, ?_, ?_, ?_, ?_, ?_⟩
  · rw [taken_, List.map_map]
    rfl
  · rw [arrivals]
    exact Nat.le_add_right _ _
  · intro next first
    have less := short next first
    have longer : (encodeFrames (delivered ++ [next])).length =
        (encodeFrames delivered).length + next.encode.length := by
      rw [encodeFrames_append, List.length_append, show encodeFrames [next] = next.encode from
        List.flatMap_singleton ..]
    omega
  · rw [queued, parts, List.flatMap_append, List.append_assoc]
    exact List.prefix_append _ _
  · have first : (delivered.flatMap Frame.blocks).Sublist
        ((delivered ++ later).flatMap Frame.blocks) := by
      rw [List.flatMap_append]
      exact List.sublist_append_left _ _
    rw [← parts, blocks] at first
    exact first.trans ((List.sublist_append_left _ _).trans orderly.serving)
  · intro alive idle whole
    rw [OutQueue.hasWork, Bool.or_eq_false_iff, Bool.or_eq_false_iff] at idle
    obtain ⟨⟨inactive, empty⟩, -⟩ := idle
    have none : c.send.out.active = none := by
      cases active : c.send.out.active with
      | none => rfl
      | some a =>
        rw [active] at inactive
        cases inactive
    have drainedCtrl : c.send.out.ctrl = [] := by simpa using empty
    have exact_ : left = later.flatMap Frame.encode := by
      rw [whole, complete alive none, cryptOpt_length, encodeFrames, List.take_length, parts,
        List.flatMap_append, List.append_cancel_left_eq] at same
      exact same.symm
    have last := Framer.later_nil Frame.encode later left short exact_
    refine ⟨last, ?_⟩
    rw [queued, parts, last, drainedCtrl]
    simp

/-- The bytes of a greeting, an unchoke and a served block. -/
def servedWire : Bytes := stream none [.haveAll] unchokedAndServed

theorem servedWire_delivered :
    (inbound none [] [servedWire.take 7, servedWire.drop 7]).problem = none ∧
      (inbound none [] [servedWire.take 7, servedWire.drop 7]).frames.map Prod.fst =
        (Frame.ctrl .haveAll :: unchokedAndServed.send.log.started).map taken ∧
      1 < unchokedAndServed.send.log.started.length := by
  have returns : (exec step (connect none) unchokeThenServe).isSome = true := by decide +kernel
  have ran := (Option.getD_of_ne_none (Option.isSome_iff_ne_none.1 returns) (connect none)).symm
  have greets : ∀ message ∈ [Message.haveAll], Admissible message := by
    intro message listed
    rw [List.mem_singleton.1 listed]
    exact ⟨trivial, by decide, fun id payload same => by cases same⟩
  have speaks : ∀ event ∈ unchokeThenServe, Speaks event := by
    intro event listed
    simp only [unchokeThenServe, List.mem_cons, List.not_mem_nil, or_false] at listed
    rcases listed with rfl | rfl | rfl
    · intro message listed
      rw [List.mem_singleton.1 listed]
      exact ⟨trivial, by decide, fun id payload same => by cases same⟩
    · exact ⟨by decide, by decide⟩
    · trivial
  have whole : received [servedWire.take 7, servedWire.drop 7] = servedWire := by decide +kernel
  obtain ⟨clean, delivered, later, parts, taken_, -, -, -, -, all⟩ :=
    frames_delivered none [.haveAll] unchokeThenServe unchokedAndServed greets speaks ran []
      [servedWire.take 7, servedWire.drop 7] (by rw [List.nil_append, whole]; exact List.prefix_rfl)
  obtain ⟨nothing, -⟩ := all (by decide +kernel) (by decide +kernel) whole
  rw [nothing, List.append_nil] at parts
  rw [parts] at taken_
  exact ⟨clean, taken_, by decide +kernel⟩

end Seedchamp.Peer.Delivery
