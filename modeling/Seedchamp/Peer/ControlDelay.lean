import Seedchamp.Peer.WireOrder

/-!
Control under the upload rate limit. A quantum that starts with nothing active writes all queued control
before a refused block stops it; a block that was picked by an earlier quantum and is refused again stops
it before any control is written.
-/

namespace Seedchamp.Peer.ControlDelay
open Crypto.PayloadCipher Foundation.TransitionSystem Upload.InFlight Wire.Messages Peer.SendQueue
open Peer.WireOrder

/-- The active PIECE is neither dropped nor granted its tokens in this turn. -/
def Stuck (config : SendConfig) (turn : Turn) (s : PeerSend) : Prop :=
  ∃ inf, s.out.active = some (.piece inf) ∧ ¬(config.allowUpload = false ∧ inf.canAbort = true) ∧
    reserveTokens turn inf = none

/-- No control message waits between its start and the socket. -/
def Flushed (rc4 : Option Rc4) (s : PeerSend) : Prop :=
  ∃ sent waiting, s.log.started = sent ++ waiting ∧
    s.socket = (cryptOpt rc4 (encodeFrames sent)).1 ∧ waiting.flatMap Frame.messages = []

/-- Every control message pushed up to the state `s` is on the socket in the state `s'`. -/
def ControlWritten (rc4 : Option Rc4) (s s' : PeerSend) : Prop :=
  ∃ sent waiting, s'.log.started = sent ++ waiting ∧
    s'.socket = (cryptOpt rc4 (encodeFrames sent)).1 ∧ s.log.pushed <+: sent.flatMap Frame.messages

theorem flushed_idle (rc4 : Option Rc4) (s : PeerSend) (intact : Intact rc4 s)
    (idle : s.out.active = none) : Flushed rc4 s :=
  ⟨s.log.started, [], (List.append_nil _).symm, congrArg Prod.fst (stream_idle rc4 s intact idle), rfl⟩

theorem flushed_of_same (rc4 : Option Rc4) (s s' : PeerSend) (flushed : Flushed rc4 s)
    (started : s'.log.started = s.log.started) (socket : s'.socket = s.socket) : Flushed rc4 s' := by
  unfold Flushed at flushed ⊢
  rwa [started, socket]

/-! ### One turn -/

theorem writeCtrl_cases (turn : Turn) (s s' : PeerSend) (any any' : Bool) (buf : Bytes)
    (result : TurnResult) (taken : writeCtrl turn s any buf = (s', any', result)) :
    s'.log = s.log ∧ (result = .failed ∨ result = .again ∧ s'.out.active = none) := by
  unfold writeCtrl at taken
  dsimp only at taken
  split_ifs at taken
  · cases taken
    refine ⟨rfl, Or.inr ⟨rfl, ?_⟩⟩
    dsimp only
    unfold OutQueue.noteCtrlFullySent
    split_ifs
    · rfl
    · rfl
  · cases taken
    exact ⟨rfl, Or.inl rfl⟩

theorem writePiece_cases (turn : Turn) (s s' : PeerSend) (any any' : Bool) (inf : InFlightUpload)
    (result : TurnResult) (taken : writePiece turn s any inf = (s', any', result)) :
    s'.log.pushed = s.log.pushed ∧ (result = .failed ∨ result = .again ∧ s'.out.active = none) := by
  have plain : (startPlain s inf).log.pushed = s.log.pushed := by
    unfold startPlain
    split_ifs
    · rfl
    · rfl
  unfold writePiece at taken
  dsimp only at taken
  split_ifs at taken
  · cases taken
    exact ⟨rfl, Or.inr ⟨rfl, rfl⟩⟩
  · cases taken
    exact ⟨rfl, Or.inl rfl⟩
  · cases taken
    exact ⟨plain, Or.inr ⟨rfl, rfl⟩⟩
  · cases taken
    exact ⟨plain, Or.inl rfl⟩

/-- How a turn with an active frame ends: it fails, it frees the active slot, or it is refused. -/
theorem sendActive_cases (config : SendConfig) (turn : Turn) (s s' : PeerSend) (any any' : Bool)
    (result : TurnResult) (busy : s.out.active.isSome = true)
    (taken : sendActive config turn s any = (s', any', result)) :
    s'.log.pushed = s.log.pushed ∧
      (result = .failed ∨ result = .again ∧ s'.out.active = none ∨
        result = .finished true ∧ s' = s ∧ Stuck config turn s) := by
  cases active : s.out.active with
  | none =>
    rw [active] at busy
    cases busy
  | some frame =>
    cases frame with
    | ctrl buf =>
      simp only [sendActive, active] at taken
      obtain ⟨log, ends⟩ := writeCtrl_cases turn s s' any any' buf result taken
      refine ⟨congrArg Log.pushed log, ?_⟩
      rcases ends with failed | freed
      · exact Or.inl failed
      · exact Or.inr (Or.inl freed)
    | piece inf =>
      simp only [sendActive, active] at taken
      split_ifs at taken with dropped
      · cases taken
        exact ⟨rfl, Or.inr (Or.inl ⟨rfl, rfl⟩)⟩
      · cases reserved : reserveTokens turn inf with
        | none =>
          simp only [reserved] at taken
          cases taken
          exact ⟨rfl, Or.inr (Or.inr ⟨rfl, rfl, inf, active, dropped, reserved⟩)⟩
        | some inf' =>
          simp only [reserved] at taken
          obtain ⟨pushed, ends⟩ := writePiece_cases turn _ s' any any' inf' result taken
          refine ⟨pushed, ?_⟩
          rcases ends with failed | freed
          · exact Or.inl failed
          · exact Or.inr (Or.inl freed)

theorem pushReject_frame (s : PeerSend) (block : UploadBlock) (fastEnabled : Bool) :
    (s.pushReject block fastEnabled).out.active = s.out.active ∧
      s.log.pushed <+: (s.pushReject block fastEnabled).log.pushed := by
  unfold PeerSend.pushReject
  split_ifs
  · exact ⟨(pushCtrlOwned_frame s.out _).1, List.prefix_append _ _⟩
  · exact ⟨rfl, List.prefix_refl _⟩

/-- A PIECE is picked only when no control is queued; it starts no control. -/
theorem pick_piece (config : SendConfig) (turn : Turn) (s : PeerSend) (inf : InFlightUpload)
    (idle : s.out.active = none) (picked : (pickNextActive config turn s).out.active = some (.piece inf)) :
    (pickNextActive config turn s).out.ctrl = [] ∧
      (pickNextActive config turn s).socket = s.socket ∧
      ∃ more, (pickNextActive config turn s).log.started = s.log.started ++ more ∧
        more.flatMap Frame.messages = [] := by
  have free : ¬s.out.active.isSome = true := by rw [idle]; exact Bool.false_ne_true
  unfold pickNextActive at picked ⊢
  rw [if_neg free] at picked ⊢
  cases control : s.out.ctrl with
  | cons plain rest =>
    simp only [control] at picked
    cases picked
  | nil =>
    cases queued : s.out.pieces with
    | nil =>
      simp only [control, queued, idle] at picked
      cases picked
    | cons block rest =>
      simp only [control, queued] at picked ⊢
      cases filled : (fillBlock config block s.rc4 turn s.scratch).1.1 with
      | error problem =>
        simp only [filled] at picked
        rw [(pushReject_frame _ block config.fastEnabled).1] at picked
        dsimp only at picked
        rw [idle] at picked
        cases picked
      | ok active =>
        dsimp only
        refine ⟨rfl, rfl, ?_⟩
        split_ifs
        · exact ⟨[.piece block (fillBlock config block s.rc4 turn s.scratch).2], rfl, rfl⟩
        · exact ⟨[], (List.append_nil _).symm, rfl⟩

theorem pick_pushed (config : SendConfig) (turn : Turn) (s : PeerSend) :
    s.log.pushed <+: (pickNextActive config turn s).log.pushed := by
  unfold pickNextActive
  split_ifs
  · exact List.prefix_refl _
  · cases control : s.out.ctrl with
    | cons plain rest => exact List.prefix_refl _
    | nil =>
      cases queued : s.out.pieces with
      | nil => exact List.prefix_refl _
      | cons block rest =>
        cases filled : (fillBlock config block s.rc4 turn s.scratch).1.1 with
        | error problem =>
          simp only [filled]
          refine List.IsPrefix.trans ?_ (pushReject_frame _ block config.fastEnabled).2
          exact List.prefix_refl _
        | ok active =>
          simp only [filled]
          exact List.prefix_refl _

/-- How a turn ends: it fails, it ends with nothing active, or the active PIECE is refused, which was
active before or was picked by the turn. -/
theorem quantumTurn_cases (config : SendConfig) (turn : Turn) (s s' : PeerSend) (any any' : Bool)
    (result : TurnResult) (taken : quantumTurn config turn s any = (s', any', result)) :
    s.log.pushed <+: s'.log.pushed ∧
      (result = .failed ∨ result ≠ .finished true ∧ s'.out.active = none ∨
        result = .finished true ∧ Stuck config turn s' ∧
          (s' = s ∨ s.out.active = none ∧ s' = pickNextActive config turn s)) := by
  unfold quantumTurn at taken
  dsimp only at taken
  split_ifs at taken with busy closed picked
  · obtain ⟨pushed, ends⟩ := sendActive_cases config turn s s' any any' result busy taken
    refine ⟨pushed ▸ List.prefix_refl _, ?_⟩
    rcases ends with failed | ⟨rfl, freed⟩ | ⟨rfl, rfl, stuck⟩
    · exact Or.inl failed
    · exact Or.inr (Or.inl ⟨(fun clash => by cases clash), freed⟩)
    · exact Or.inr (Or.inr ⟨rfl, stuck, Or.inl rfl⟩)
  · cases taken
    exact ⟨List.prefix_refl _, Or.inr (Or.inl ⟨(fun clash => by cases clash), by simpa using busy⟩)⟩
  · obtain ⟨pushed, ends⟩ := sendActive_cases config turn _ s' any any' result picked taken
    refine ⟨pushed ▸ pick_pushed config turn s, ?_⟩
    rcases ends with failed | ⟨rfl, freed⟩ | ⟨rfl, rfl, stuck⟩
    · exact Or.inl failed
    · exact Or.inr (Or.inl ⟨(fun clash => by cases clash), freed⟩)
    · exact Or.inr (Or.inr ⟨rfl, stuck, Or.inr ⟨by simpa using busy, rfl⟩⟩)
  all_goals
    cases taken
    exact ⟨pick_pushed config turn s, Or.inr (Or.inl ⟨(fun clash => by cases clash), by simpa using picked⟩)⟩

theorem not_stuck_of_idle (config : SendConfig) (turn : Turn) (s : PeerSend) (idle : s.out.active = none) :
    ¬Stuck config turn s := by
  rintro ⟨inf, active, -, -⟩
  rw [idle] at active
  cases active

/-- A PIECE that a turn picks and that is refused leaves no control behind. -/
theorem flushed_pick (config : SendConfig) (turn : Turn) (rc4 : Option Rc4) (s : PeerSend)
    (intact : Intact rc4 s) (idle : s.out.active = none)
    (stuck : Stuck config turn (pickNextActive config turn s)) :
    (pickNextActive config turn s).out.ctrl = [] ∧ Flushed rc4 (pickNextActive config turn s) := by
  obtain ⟨inf, active, -, -⟩ := stuck
  obtain ⟨control, socket, more, started, silent⟩ := pick_piece config turn s inf idle active
  refine ⟨control, s.log.started, more, started, ?_, silent⟩
  rw [socket]
  exact congrArg Prod.fst (stream_idle rc4 s intact idle)

theorem flushed_turn (config : SendConfig) (turn : Turn) (rc4 : Option Rc4) (s s' : PeerSend)
    (any any' : Bool) (result : TurnResult) (intact : Intact rc4 s) (flushed : Flushed rc4 s)
    (taken : quantumTurn config turn s any = (s', any', result)) (unbroken : result ≠ .failed) :
    Flushed rc4 s' := by
  have keeps := turnKeeps_quantumTurn config rc4 turn s any intact
  rw [taken] at keeps
  obtain ⟨-, failed | ⟨-, freed⟩ | ⟨-, stuck, rfl | ⟨idle, rfl⟩⟩⟩ :=
    quantumTurn_cases config turn s s' any any' result taken
  · exact absurd failed unbroken
  · exact flushed_idle rc4 s' (keeps.1 unbroken) freed
  · exact flushed
  · exact (flushed_pick config turn rc4 s intact idle stuck).2

/-! ### One quantum -/

theorem flushed_quantumLoop (config : SendConfig) (turns : Nat → Turn) (rc4 : Option Rc4)
    (fuel k : Nat) (s s' : PeerSend) (any : Bool) (outcome : SendOutcome) (intact : Intact rc4 s)
    (flushed : Flushed rc4 s)
    (ran : quantumLoop config turns fuel k s any = some (s', .ok outcome)) : Flushed rc4 s' := by
  induction fuel generalizing k s any with
  | zero => cases ran
  | succ fuel ih =>
    have keeps := turnKeeps_quantumTurn config rc4 (turns k) s any intact
    rw [quantumLoop] at ran
    cases turned : quantumTurn config (turns k) s any with
    | mk next rest =>
      obtain ⟨any', result⟩ := rest
      rw [turned] at keeps
      have kept := flushed_turn config (turns k) rc4 s next any any' result intact flushed turned
      cases result with
      | again =>
        simp only [turned] at ran
        exact ih (k + 1) next any' (keeps.1 (by simp)) (kept (by simp)) ran
      | finished limited =>
        simp only [turned] at ran
        cases ran
        exact kept (by simp)
      | failed =>
        simp only [turned] at ran
        cases ran

/-- A quantum whose first turn is not refused and that a refused block stops leaves no control
behind. -/
theorem quantumLoop_drains (config : SendConfig) (turns : Nat → Turn) (rc4 : Option Rc4)
    (fuel k : Nat) (s s' : PeerSend) (any wrote : Bool) (intact : Intact rc4 s)
    (open' : ¬Stuck config (turns k) s)
    (ran : quantumLoop config turns fuel k s any = some (s', .ok ⟨.rateLimited, wrote⟩)) :
    s'.out.ctrl = [] ∧ s.log.pushed <+: s'.log.pushed := by
  induction fuel generalizing k s any with
  | zero => cases ran
  | succ fuel ih =>
    have keeps := turnKeeps_quantumTurn config rc4 (turns k) s any intact
    rw [quantumLoop] at ran
    cases turned : quantumTurn config (turns k) s any with
    | mk next rest =>
      obtain ⟨any', result⟩ := rest
      rw [turned] at keeps
      obtain ⟨pushed, ends⟩ := quantumTurn_cases config (turns k) s next any any' result turned
      cases result with
      | again =>
        simp only [turned] at ran
        have idle : next.out.active = none := by
          rcases ends with clash | ⟨-, freed⟩ | ⟨clash, -⟩
          · cases clash
          · exact freed
          · cases clash
        obtain ⟨empty, later⟩ := ih (k + 1) next any' (keeps.1 (by simp))
          (not_stuck_of_idle config (turns (k + 1)) next idle) ran
        exact ⟨empty, pushed.trans later⟩
      | finished limited =>
        simp only [turned] at ran
        cases limited with
        | false =>
          cases any' with
          | _ => cases ran
        | true =>
          cases ran
          refine ⟨?_, pushed⟩
          rcases ends with clash | ⟨clash, -⟩ | ⟨-, stuck, rfl | ⟨idle, rfl⟩⟩
          · cases clash
          · exact absurd rfl clash
          · exact absurd stuck open'
          · exact (flushed_pick config (turns k) rc4 s intact idle stuck).1
      | failed =>
        simp only [turned] at ran
        cases ran

/-- The quantum as the loop that it runs. -/
theorem sendQuantum_loop (config : SendConfig) (turns : Nat → Turn) (s : PeerSend) :
    ∃ s0, sendQuantum config turns s = quantumLoop config turns (quantumBudget s0) 0 s0 false ∧
      s0.out.active = s.out.active ∧ s0.out.ctrl = s.out.ctrl ∧ s0.log = s.log ∧ s0.socket = s.socket ∧
      ∀ rc4, Intact rc4 s → Intact rc4 s0 := by
  unfold sendQuantum
  dsimp only
  split_ifs
  · exact ⟨s, rfl, rfl, rfl, rfl, rfl, fun _ intact => intact⟩
  · exact ⟨{ s with out := { s.out with pieces := [] } }, rfl, rfl, rfl, rfl, rfl, fun rc4 intact =>
      intact_of_queue rc4 s _ intact (orderly_clear s intact.orderly) rfl rfl rfl rfl rfl⟩

theorem flushed_sendQuantum (config : SendConfig) (turns : Nat → Turn) (rc4 : Option Rc4)
    (s s' : PeerSend) (outcome : SendOutcome) (intact : Intact rc4 s) (flushed : Flushed rc4 s)
    (ran : sendQuantum config turns s = some (s', .ok outcome)) : Flushed rc4 s' := by
  obtain ⟨s0, loop, -, -, log, socket, kept⟩ := sendQuantum_loop config turns s
  rw [loop] at ran
  exact flushed_quantumLoop config turns rc4 _ 0 s0 s' false outcome (kept rc4 intact)
    (flushed_of_same rc4 s s0 flushed (congrArg Log.started log) socket) ran

/-- What the refused quantum of an open connection wrote. -/
theorem written_of_open (config : SendConfig) (turns : Nat → Turn) (rc4 : Option Rc4) (s s' : PeerSend)
    (wrote : Bool) (intact : Intact rc4 s) (flushed : Flushed rc4 s) (open' : ¬Stuck config (turns 0) s)
    (ran : sendQuantum config turns s = some (s', .ok ⟨.rateLimited, wrote⟩)) : ControlWritten rc4 s s' := by
  obtain ⟨sent, waiting, started, socket, silent⟩ :=
    flushed_sendQuantum config turns rc4 s s' _ intact flushed ran
  have order := ((intact_sendQuantum config turns rc4 s _ intact ran).1 _ rfl).orderly.control
  obtain ⟨s0, loop, active, -, log, -, kept⟩ := sendQuantum_loop config turns s
  rw [loop] at ran
  have closed : ¬Stuck config (turns 0) s0 := by
    unfold Stuck at open' ⊢
    rwa [active]
  obtain ⟨empty, pushed⟩ := quantumLoop_drains config turns rc4 _ 0 s0 s' false wrote (kept rc4 intact)
    closed ran
  refine ⟨sent, waiting, started, socket, ?_⟩
  dsimp only at order
  rw [started, List.flatMap_append, silent, empty, List.flatten_nil, List.append_nil, List.append_nil]
    at order
  rw [order, ← log]
  exact pushed

/-- A refused block that was active before the quantum stops it at once. -/
theorem quantum_of_stuck (config : SendConfig) (turns : Nat → Turn) (s s' : PeerSend)
    (outcome : SendOutcome) (stuck : Stuck config (turns 0) s)
    (ran : sendQuantum config turns s = some (s', .ok outcome)) :
    s'.log = s.log ∧ s'.socket = s.socket := by
  obtain ⟨s0, loop, active, -, log, socket, -⟩ := sendQuantum_loop config turns s
  obtain ⟨inf, busy, kept, refused⟩ := stuck
  rw [← active] at busy
  have turned : quantumTurn config (turns 0) s0 false = (s0, false, .finished true) := by
    rw [quantumTurn, busy, Option.isSome_some, if_pos rfl]
    simp only [sendActive, busy, if_neg kept, refused]
  rw [loop, quantumBudget, quantumLoop, turned] at ran
  cases ran
  exact ⟨log, socket⟩

/-- Control that is queued behind such a block stays queued. -/
theorem queued_of_stuck (config : SendConfig) (turns : Nat → Turn) (rc4 : Option Rc4) (s s' : PeerSend)
    (outcome : SendOutcome) (intact : Intact rc4 s) (stuck : Stuck config (turns 0) s)
    (ran : sendQuantum config turns s = some (s', .ok outcome)) (written : ControlWritten rc4 s s') :
    s.out.ctrl.flatten = [] := by
  obtain ⟨sent, waiting, started, -, pushed⟩ := written
  have order := intact.orderly.control
  rw [(quantum_of_stuck config turns s s' outcome stuck ran).1] at started
  rw [started, List.flatMap_append] at order
  have length := pushed.length_le
  rw [← order] at length
  simp only [List.length_append] at length
  exact List.eq_nil_of_length_eq_zero (by omega)

theorem written_of_empty (config : SendConfig) (turns : Nat → Turn) (rc4 : Option Rc4) (s s' : PeerSend)
    (outcome : SendOutcome) (intact : Intact rc4 s) (flushed : Flushed rc4 s)
    (stuck : Stuck config (turns 0) s) (empty : s.out.ctrl.flatten = [])
    (ran : sendQuantum config turns s = some (s', .ok outcome)) : ControlWritten rc4 s s' := by
  obtain ⟨log, socket⟩ := quantum_of_stuck config turns s s' outcome stuck ran
  obtain ⟨sent, waiting, started, written, silent⟩ := flushed
  have order := intact.orderly.control
  rw [started, List.flatMap_append, silent, empty, List.append_nil, List.append_nil] at order
  refine ⟨sent, waiting, ?_, ?_, ?_⟩
  · rw [log]
    exact started
  · rw [socket]
    exact written
  · rw [order]

/-! ### Every run -/

/-- An unbroken connection holds no started control back. -/
def Steady (rc4 : Option Rc4) (c : Conn) : Prop :=
  Sound rc4 c ∧ (c.alive = true → Flushed rc4 c.send)

theorem steady_connect (rc4 : Option Rc4) : Steady rc4 (connect rc4) :=
  ⟨sound_connect rc4, fun _ => flushed_idle rc4 _ ((sound_connect rc4).1 rfl) rfl⟩

theorem steady_step (rc4 : Option Rc4) (c : Conn) (event : SendEvent) (c' : Conn) (steady : Steady rc4 c)
    (taken : step c event = some c') : Steady rc4 c' := by
  refine ⟨sound_step rc4 c event c' steady.1 taken, ?_⟩
  intro alive'
  unfold step at taken
  split_ifs at taken with alive
  have flushed := steady.2 alive
  cases event with
  | sendQuantum config turns =>
    obtain ⟨result, ran, rfl⟩ := Option.map_eq_some_iff.1 taken
    obtain ⟨s', outcome⟩ := result
    cases outcome with
    | ok outcome => exact flushed_sendQuantum config turns rc4 c.send s' outcome (steady.1.1 alive) flushed ran
    | error problem => cases alive'
  | pushKeepalive =>
    cases taken
    dsimp only
    unfold PeerSend.pushKeepalive
    split_ifs
    · exact flushed
    · exact flushed
  | _ =>
    cases taken
    exact flushed

theorem steady_exec (rc4 : Option Rc4) (events : List SendEvent) (c : Conn)
    (ran : exec step (connect rc4) events = some c) : Steady rc4 c :=
  exec_invariant_free step (Steady rc4) (steady_step rc4) _ c events (steady_connect rc4) ran

/-- Where a quantum of any run is stopped by the upload limit, the control queued before it is on the
socket just when there was none, or no PIECE was active already and refused again. -/
theorem control_written_iff (rc4 : Option Rc4) (events : List SendEvent) (c : Conn)
    (ran : exec step (connect rc4) events = some c) (alive : c.alive = true) (config : SendConfig)
    (turns : Nat → Turn) (s' : PeerSend) (wrote : Bool)
    (limited : sendQuantum config turns c.send = some (s', .ok ⟨.rateLimited, wrote⟩)) :
    ControlWritten rc4 c.send s' ↔ c.send.out.ctrl.flatten = [] ∨ ¬Stuck config (turns 0) c.send := by
  obtain ⟨sound, flushed⟩ := steady_exec rc4 events c ran
  have intact := sound.1 alive
  constructor
  · intro written
    by_cases stuck : Stuck config (turns 0) c.send
    · exact Or.inl (queued_of_stuck config turns rc4 c.send s' _ intact stuck limited written)
    · exact Or.inr stuck
  · intro free
    by_cases stuck : Stuck config (turns 0) c.send
    · exact written_of_empty config turns rc4 c.send s' _ intact (flushed alive) stuck
        (free.resolve_right (not_not_intro stuck)) limited
    · exact written_of_open config turns rc4 c.send s' wrote intact (flushed alive) stuck limited

/-- Uploads are allowed, and the limiter grants nothing. -/
def servingTwo : SendConfig := ⟨⟨["data"], 2, 1, 2, [⟨["a"], 2, 0, 1⟩]⟩, true, true⟩

def noTokens (_ : Nat) : Turn := ⟨.read (fun _ => 7), .failed false [], some 0, fun _ => .accepted 64⟩

/-- A block waits for tokens. -/
def blockWaits : List SendEvent := [.pushCtrl [.unchoke], .tryPushPiece ⟨0, 0, 2⟩]

def connAfter (events : List SendEvent) : Conn := (exec step (connect none) events).getD (connect none)

theorem connAfter_ran (events : List SendEvent)
    (returns : (exec step (connect none) events).isSome = true) :
    exec step (connect none) events = some (connAfter events) :=
  (Option.getD_of_ne_none (Option.isSome_iff_ne_none.1 returns) (connect none)).symm

def quantumAfter (events : List SendEvent) : PeerSend × Except Unit SendOutcome :=
  (sendQuantum servingTwo noTokens (connAfter events).send).getD ((connAfter events).send, .error ())

theorem quantumAfter_ran (events : List SendEvent) (outcome : SendOutcome)
    (told : (quantumAfter events).2 = .ok outcome) :
    sendQuantum servingTwo noTokens (connAfter events).send = some ((quantumAfter events).1, .ok outcome) := by
  obtain ⟨result, ran⟩ := sendQuantum_returns servingTwo noTokens (connAfter events).send
  rw [quantumAfter, ran, Option.getD_some] at told ⊢
  rw [← told]

/-- The first refusal comes after the unchoke. -/
theorem control_written_first :
    (connAfter blockWaits).alive = true ∧ (quantumAfter blockWaits).2 = .ok ⟨.rateLimited, true⟩ ∧
      ControlWritten none (connAfter blockWaits).send (quantumAfter blockWaits).1 := by
  have ran := connAfter_ran blockWaits (by decide +kernel)
  have alive : (connAfter blockWaits).alive = true := by decide +kernel
  have told : (quantumAfter blockWaits).2 = .ok ⟨.rateLimited, true⟩ := by decide +kernel
  have idle : (connAfter blockWaits).send.out.active = none := by decide +kernel
  have iff := control_written_iff none blockWaits (connAfter blockWaits) ran alive servingTwo noTokens
    (quantumAfter blockWaits).1 true (quantumAfter_ran blockWaits _ told)
  exact ⟨alive, told, iff.2 (Or.inr (not_stuck_of_idle servingTwo (noTokens 0) _ idle))⟩

/-- Behind the refused block a HAVE is pushed. -/
def haveBehind : List SendEvent :=
  blockWaits ++ [.sendQuantum servingTwo noTokens, .pushCtrl [.have_ 0]]

/-- The next refusal leaves it in the queue. -/
theorem have_held_back :
    ¬ ∀ events c s' wrote, exec step (connect none) events = some c → c.alive = true →
      sendQuantum servingTwo noTokens c.send = some (s', .ok ⟨.rateLimited, wrote⟩) →
      ControlWritten none c.send s' := by
  intro always
  have ran := connAfter_ran haveBehind (by decide +kernel)
  have alive : (connAfter haveBehind).alive = true := by decide +kernel
  have told : (quantumAfter haveBehind).2 = .ok ⟨.rateLimited, false⟩ := by decide +kernel
  have limited := quantumAfter_ran haveBehind _ told
  have written := always haveBehind _ _ false ran alive limited
  have active : (connAfter haveBehind).send.out.active =
      some (.piece ⟨⟨0, 0, 2⟩, false, 0, 15, 0, 2⟩) := by decide +kernel
  have stuck : Stuck servingTwo (noTokens 0) (connAfter haveBehind).send :=
    ⟨⟨⟨0, 0, 2⟩, false, 0, 15, 0, 2⟩, active, by decide, rfl⟩
  have empty := queued_of_stuck servingTwo noTokens none _ _ _ ((steady_exec none _ _ ran).1.1 alive)
    stuck limited written
  exact absurd empty (by decide +kernel)

end Seedchamp.Peer.ControlDelay
