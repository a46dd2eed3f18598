import Mathlib.Data.List.Nodup
import Seedchamp.Foundation.TransitionSystem
import Seedchamp.Tracker.Requests

/-!
The announce to a UDP tracker as a protocol between one socket and the trackers behind the addresses of
a host. Datagrams are lost, delayed, repeated and reordered, and the sender of one is not looked at: what
tells a late answer from the right one is its transaction id.
-/

namespace Seedchamp.Tracker.Exchange
open Foundation Foundation.Text Foundation.TransitionSystem Tracker.Http Tracker.Requests
open Tracker.Udp
open Wire.Parse (u32At u32At_append u32At_take_at u32At_toBeBytes)
open Wire.Messages (toBeBytes)

/-! ### The address of the tracker -/

/-- `str::parse::<u16>`. -/
def parseU16 (text : List Char) : Option UInt16 :=
  let digits := if text.head? = some '+' then text.tail else text
  let value := Nat.ofDigitChars 10 digits 0
  if digits ≠ [] ∧ digits.all Char.isDigit = true ∧ value < 2 ^ 16 then some (UInt16.ofNat value)
  else none

/-- `str::rsplit_once`. -/
def rsplitOnce (c : Char) (text : List Char) : Option (List Char × List Char) :=
  if c ∈ text then
    some ((text.reverse.dropWhile (· ≠ c)).tail.reverse, (text.reverse.takeWhile (· ≠ c)).reverse)
  else none

/-- `str::strip_prefix` with one of two prefixes. -/
def stripScheme (url : List Char) : Option (List Char) :=
  if "udp://".toList.isPrefixOf url || "UDP://".toList.isPrefixOf url then some (url.drop 6) else none

def parseUdpTrackerUrl (url : List Char) : Except String (List Char × UInt16) :=
  match stripScheme (trim url) with
  | none => .error ("not a udp tracker url: " ++ String.ofList url)
  | some rest =>
    let hostport := rest.takeWhile (· ≠ '/')
    match rsplitOnce ':' hostport with
    | none => if hostport.isEmpty then .error "empty udp host" else .ok (hostport, 80)
    | some (host, text) =>
      match parseU16 text with
      | none => .error ("bad udp port in " ++ String.ofList url)
      | some port => if host.isEmpty then .error "empty udp host" else .ok (host, port)

example : parseUdpTrackerUrl "udp://tracker.opentrackr.org:1337/announce".toList =
    .ok ("tracker.opentrackr.org".toList, 1337) := by decide

/-! ### The exchange -/

/-- A datagram that a tracker sent, with the packet that it answers. -/
structure Reply where
  addr : SocketAddr
  packet : Query.Bytes
  datagram : Query.Bytes
  deriving DecidableEq

inductive Phase where
  | next
  | connecting (addr : SocketAddr) (tid : UInt32)
  | announcing (addr : SocketAddr) (tid : UInt32) (connId : Nat)
  | done (result : Except String AnnounceResponse)
  deriving DecidableEq

/-- The addresses that are left with the last error, the packets that were sent to each address, the
transaction ids that were drawn, both the last one first, and what the trackers answered. -/
structure State where
  rest : List SocketAddr
  lastErr : String
  phase : Phase
  sent : List (SocketAddr × Query.Bytes)
  drawn : List UInt32
  replies : List Reply
  deriving DecidableEq

/-- `recv_from` gives a datagram, an error or nothing in time. -/
inductive Arrival where
  | datagram (d : Query.Bytes)
  | failed (text : String)
  | timeout

inductive Event where
  | connect (tid : UInt32) (sent : Except String Unit)
  | giveUp
  /-- The transaction id and the key are drawn when the announce packet is built. -/
  | deliver (reply : Reply) (tid random : UInt32) (sent : Except String Unit)
  | stray (d : Query.Bytes) (tid random : UInt32) (sent : Except String Unit)
  | broken (text : String)
  | timeout
  | answer (reply : Reply)

/-- An error of one address: the loop goes on with the next one. -/
def failed (s : State) (text : String) : State := { s with phase := .next, lastErr := text }

/-- A packet leaves under a transaction id that was drawn for it, or the send fails. -/
def send (s : State) (addr : SocketAddr) (packet : Query.Bytes) (tid : UInt32) (waiting : Phase)
    (step : String) : Except String Unit → State
  | .error e => failed { s with drawn := tid :: s.drawn } ("udp " ++ step ++ " send: " ++ e)
  | .ok _ => { s with drawn := tid :: s.drawn, sent := (addr, packet) :: s.sent, phase := waiting }

variable (req : AnnounceRequest)

/-- What the client makes of an arrival. -/
def receive (s : State) (arrival : Arrival) (tid random : UInt32) (sent : Except String Unit) :
    Option State :=
  match s.phase with
  | .connecting addr asked =>
    match arrival with
    | .failed text => some (failed s ("udp connect recv: " ++ text))
    | .timeout => some (failed s "udp connect recv timeout")
    | .datagram d =>
      let r := recvFrom 2048 d
      (parseConnectResponse r.buf r.n asked).map (fun parsed =>
        match parsed with
        | .error text => failed s text
        | .ok connId => send s addr (buildAnnouncePacket connId tid random req) tid
            (.announcing addr tid connId) "announce" sent)
  | .announcing _ asked _ =>
    match arrival with
    | .failed text => some (failed s ("udp announce recv: " ++ text))
    | .timeout => some (failed s "udp announce recv timeout")
    | .datagram d =>
      let r := recvFrom 4096 d
      (parseAnnounceResponseUdp r.buf r.n asked).map (fun parsed =>
        match parsed with
        | .error text => failed s text
        | .ok response => { s with phase := .done (.ok response) })
  | _ => none

def step (s : State) : Event → Option State
  | .connect tid sent =>
    match s.phase, s.rest with
    | .next, addr :: rest =>
      some (send { s with rest := rest } addr (buildConnectPacket tid) tid (.connecting addr tid)
        "connect" sent)
    | _, _ => none
  | .giveUp =>
    match s.phase, s.rest with
    | .next, [] => some { s with phase := .done (.error s.lastErr) }
    | _, _ => none
  | .deliver reply tid random sent =>
    if reply ∈ s.replies then receive req s (.datagram reply.datagram) tid random sent else none
  | .stray d tid random sent => receive req s (.datagram d) tid random sent
  | .broken text => receive req s (.failed text) 0 0 (.ok ())
  | .timeout => receive req s .timeout 0 0 (.ok ())
  | .answer reply =>
    if (reply.addr, reply.packet) ∈ s.sent then some { s with replies := reply :: s.replies } else none

def opened (phase : Phase) (addrs : List SocketAddr) : State :=
  ⟨addrs, "udp announce failed", phase, [], [], []⟩

/-- `announce_udp` up to its first packet; `resolve` is `resolve_ipv4`. -/
def start (resolve : List Char → UInt16 → Except String (List SocketAddr)) : State :=
  match parseUdpTrackerUrl req.announceUrl with
  | .error text => opened (.done (.error text)) []
  | .ok (host, port) =>
    match resolve host port with
    | .error text => opened (.done (.error text)) []
    | .ok addrs => opened .next addrs

/-- The transaction of the packet that is waited for. -/
def Phase.tid? : Phase → Option UInt32
  | .connecting _ tid => some tid
  | .announcing _ tid _ => some tid
  | _ => none

/-- Transaction ids do not repeat, a tracker answers under the id of the packet it answers, and nobody
else guesses the id in use. -/
def Fair (s : State) : Event → Prop
  | .connect tid _ => tid ∉ s.drawn
  | .deliver _ tid _ _ => tid ∉ s.drawn
  | .stray d _ _ _ => ∀ asked ∈ s.phase.tid?, u32At d 4 ≠ asked.toNat
  | .answer reply => u32At reply.datagram 4 = u32At reply.packet 12
  | _ => True

instance (s : State) (event : Event) : Decidable (Fair s event) :=
  match event with
  | .connect tid _ => inferInstanceAs (Decidable (tid ∉ s.drawn))
  | .deliver _ tid _ _ => inferInstanceAs (Decidable (tid ∉ s.drawn))
  | .stray d _ _ _ => inferInstanceAs (Decidable (∀ asked ∈ s.phase.tid?, u32At d 4 ≠ asked.toNat))
  | .answer reply => inferInstanceAs (Decidable (u32At reply.datagram 4 = u32At reply.packet 12))
  | .giveUp | .broken _ | .timeout => inferInstanceAs (Decidable True)

/-- The tracker at this address gave out this connection id. -/
def Issued (s : State) (addr : SocketAddr) (connId : Nat) : Prop :=
  ∃ tid, ∃ reply ∈ s.replies, reply.addr = addr ∧ reply.packet = buildConnectPacket tid ∧
    connectStep.outcome tid (reply.datagram.take 2048) = .ok connId

/-- A packet asks for a connection, or is the request under a connection id of the tracker it goes to. -/
def Proper (s : State) (addr : SocketAddr) (packet : Query.Bytes) : Prop :=
  (∃ tid : UInt32, readConnect packet = some ⟨PROTOCOL_ID, ACTION_CONNECT, tid.toNat⟩) ∨
    ∃ connId tid random, readAnnouncement packet = some (announcement connId tid random req) ∧
      Issued s addr connId

/-- The tracker at this address was sent the request under a connection id of its own, and answered that
packet with what the client made the response of. -/
def Agreed (s : State) (addr : SocketAddr) (response : AnnounceResponse) : Prop :=
  ∃ connId tid random packet, (addr, packet) ∈ s.sent ∧
    readAnnouncement packet = some (announcement connId tid random req) ∧ Issued s addr connId ∧
    ∃ reply ∈ s.replies, reply.addr = addr ∧ reply.packet = packet ∧
      announceStep.outcome tid (reply.datagram.take 4096) = .ok response

/-- The packets that went to an address. -/
def sentTo (s : State) (addr : SocketAddr) : Nat := (s.sent.map Prod.fst).count addr

/-- Two packets at most go to an address each time that the host lists it. -/
structure Sound (addrs : List SocketAddr) (s : State) : Prop where
  bounded : ∀ addr, sentTo s addr ≤ 2 * addrs.count addr
  proper : ∀ p ∈ s.sent, p.1 ∈ addrs ∧ Proper req s p.1 p.2
  agreed : ∀ response, s.phase = .done (.ok response) → ∃ addr ∈ addrs, Agreed req s addr response

/-! ### Packets and datagrams -/

theorem u32At_lt (bytes : Query.Bytes) (at' : Nat) : u32At bytes at' < 2 ^ 32 := by
  have byte : ∀ b : UInt8, b.toNat < 256 := fun b => b.toNat_lt
  rw [u32At]
  rcases bytes.drop at' with _ | ⟨a, _ | ⟨b, _ | ⟨c, _ | ⟨d, rest⟩⟩⟩⟩
  · decide
  · have first := byte a
    simp only [List.take_succ_cons, List.take_nil, List.foldl_cons, List.foldl_nil]
    omega
  · have first := byte a
    have second := byte b
    simp only [List.take_succ_cons, List.take_nil, List.foldl_cons, List.foldl_nil]
    omega
  · have first := byte a
    have second := byte b
    have third := byte c
    simp only [List.take_succ_cons, List.take_nil, List.foldl_cons, List.foldl_nil]
    omega
  · have first := byte a
    have second := byte b
    have third := byte c
    have fourth := byte d
    simp only [List.take_succ_cons, List.take_zero, List.foldl_cons, List.foldl_nil]
    omega

theorem tid_connect (tid : UInt32) : u32At (buildConnectPacket tid) 12 = tid.toNat := by
  have small := tid.toNat_lt
  have whole := u32At_toBeBytes tid.toNat [] small
  rw [List.append_nil] at whole
  rw [buildConnectPacket, ← List.append_assoc, u32At_append _ _ 12 rfl, whole]

theorem tid_announce (connId : Nat) (tid random : UInt32) :
    u32At (buildAnnouncePacket connId tid random req) 12 = tid.toNat := by
  rw [buildAnnouncePacket, ← List.append_assoc, u32At_append _ _ 12 rfl]
  exact u32At_toBeBytes tid.toNat _ tid.toNat_lt

theorem recvFrom_datagram (cap : Nat) (d : Query.Bytes) : (recvFrom cap d).datagram = d.take cap :=
  List.take_left' (List.length_take ..)

/-- Whatever a step takes for an answer is under its transaction id. -/
theorem outcome_ok {α : Type} (step : Udp.Step α) (tid : UInt32) (d : Query.Bytes) (value : α)
    (fine : step.outcome tid d = .ok value) : u32At d 4 = tid.toNat := by
  rw [Step.outcome] at fine
  split_ifs at fine with short other
  · exact not_not.1 other
  · exact not_not.1 other

theorem outcome_take {α : Type} (step : Udp.Step α) (tid : UInt32) (cap : Nat) (large : 8 ≤ cap)
    (d : Query.Bytes) (value : α) (fine : step.outcome tid (d.take cap) = .ok value) :
    u32At d 4 = tid.toNat := by
  rw [← u32At_take_at d cap 4 large]
  exact outcome_ok step tid _ value fine

/-- A connection id has 64 bits. -/
theorem connId_lt (tid : UInt32) (d : Query.Bytes) (connId : Nat)
    (fine : connectStep.outcome tid d = .ok connId) : connId < 2 ^ 64 := by
  have high := u32At_lt d 8
  have low := u32At_lt d (8 + 4)
  rw [Step.outcome] at fine
  split_ifs at fine
  · cases fine
  · cases fine
    change u64At d 8 < 2 ^ 64
    rw [u64At]
    omega

/-! ### What an arrival leads to -/

inductive Outcome (s : State) (arrival : Arrival) (tid random : UInt32) (sent : Except String Unit) :
    State → Prop
  | failed (text : String) : Outcome s arrival tid random sent (failed s text)
  | connected (addr : SocketAddr) (asked : UInt32) (d : Query.Bytes) (connId : Nat)
      (waiting : s.phase = .connecting addr asked) (arrived : arrival = .datagram d)
      (fine : connectStep.outcome asked (d.take 2048) = .ok connId) :
      Outcome s arrival tid random sent (send s addr (buildAnnouncePacket connId tid random req) tid
        (.announcing addr tid connId) "announce" sent)
  | announced (addr : SocketAddr) (asked : UInt32) (connId : Nat) (d : Query.Bytes)
      (response : AnnounceResponse) (waiting : s.phase = .announcing addr asked connId)
      (arrived : arrival = .datagram d)
      (fine : announceStep.outcome asked (d.take 4096) = .ok response) :
      Outcome s arrival tid random sent { s with phase := .done (.ok response) }

theorem receive_cases (s s' : State) (arrival : Arrival) (tid random : UInt32)
    (sent : Except String Unit) (taken : receive req s arrival tid random sent = some s') :
    Outcome req s arrival tid random sent s' := by
  rw [receive] at taken
  cases phase : s.phase with
  | next | done _ => simp [phase] at taken
  | connecting addr asked =>
    simp only [phase] at taken
    cases arrival with
    | failed text =>
      cases taken
      exact .failed _
    | timeout =>
      cases taken
      exact .failed _
    | datagram d =>
      dsimp only at taken
      rw [parseConnectResponse_eq, recvFrom_datagram, Option.map_some, Option.some_inj] at taken
      cases fine : connectStep.outcome asked (d.take 2048) with
      | error text =>
        rw [fine] at taken
        cases taken
        exact .failed _
      | ok connId =>
        rw [fine] at taken
        cases taken
        exact .connected addr asked d connId phase rfl fine
  | announcing addr asked connId =>
    simp only [phase] at taken
    cases arrival with
    | failed text =>
      cases taken
      exact .failed _
    | timeout =>
      cases taken
      exact .failed _
    | datagram d =>
      dsimp only at taken
      rw [parseAnnounceResponseUdp_eq, recvFrom_datagram, Option.map_some, Option.some_inj] at taken
      cases fine : announceStep.outcome asked (d.take 4096) with
      | error text =>
        rw [fine] at taken
        cases taken
        exact .failed _
      | ok response =>
        rw [fine] at taken
        cases taken
        exact .announced addr asked connId d response phase rfl fine

/-! ### The invariant -/

/-- The second packet that is still to come to an address. -/
def pending (other : SocketAddr) : Phase → Nat
  | .connecting addr _ => if addr = other then 1 else 0
  | _ => 0

/-- What the phase says about the packets and the answers. -/
def Backed (addrs : List SocketAddr) (s : State) : Phase → Prop
  | .connecting addr tid => addr ∈ addrs ∧ (addr, buildConnectPacket tid) ∈ s.sent
  | .announcing addr tid connId => connId < 2 ^ 64 ∧ Issued s addr connId ∧ addr ∈ addrs ∧
      ∃ random, (addr, buildAnnouncePacket connId tid random req) ∈ s.sent
  | .done (.ok response) => ∃ addr ∈ addrs, Agreed req s addr response
  | _ => True

structure Invariant (addrs : List SocketAddr) (s : State) : Prop where
  left : ∀ addr ∈ s.rest, addr ∈ addrs
  proper : ∀ p ∈ s.sent, p.1 ∈ addrs ∧ Proper req s p.1 p.2
  drawn : ∀ p ∈ s.sent, ∃ tid ∈ s.drawn, u32At p.2 12 = tid.toNat
  distinct : (s.sent.map (fun p => u32At p.2 12)).Nodup
  origin : ∀ reply ∈ s.replies,
    (reply.addr, reply.packet) ∈ s.sent ∧ u32At reply.datagram 4 = u32At reply.packet 12
  bounded : ∀ other,
    sentTo s other + 2 * s.rest.count other + pending other s.phase ≤ 2 * addrs.count other
  backed : Backed req addrs s s.phase

section
variable (s s' : State) (known : ∀ reply ∈ s.replies, reply ∈ s'.replies)
include known

theorem issued_mono (addr : SocketAddr) (connId : Nat) (issued : Issued s addr connId) :
    Issued s' addr connId := by
  obtain ⟨tid, reply, listed, rest⟩ := issued
  exact ⟨tid, reply, known reply listed, rest⟩

theorem proper_mono (addr : SocketAddr) (packet : Query.Bytes) (proper : Proper req s addr packet) :
    Proper req s' addr packet := by
  rcases proper with connect | ⟨connId, tid, random, read, issued⟩
  · exact Or.inl connect
  · exact Or.inr ⟨connId, tid, random, read, issued_mono s s' known addr connId issued⟩

theorem agreed_mono (kept : ∀ p ∈ s.sent, p ∈ s'.sent) (addr : SocketAddr)
    (response : AnnounceResponse) (agreed : Agreed req s addr response) : Agreed req s' addr response := by
  obtain ⟨connId, tid, random, packet, listed, read, issued, reply, answered, rest⟩ := agreed
  exact ⟨connId, tid, random, packet, kept _ listed, read, issued_mono s s' known addr connId issued,
    reply, known reply answered, rest⟩

theorem backed_mono (kept : ∀ p ∈ s.sent, p ∈ s'.sent) (addrs : List SocketAddr) (phase : Phase)
    (backed : Backed req addrs s phase) : Backed req addrs s' phase := by
  cases phase with
  | next => trivial
  | connecting addr tid => exact ⟨backed.1, kept _ backed.2⟩
  | announcing addr tid connId =>
    obtain ⟨small, issued, listed, random, left⟩ := backed
    exact ⟨small, issued_mono s s' known addr connId issued, listed, random, kept _ left⟩
  | done result =>
    cases result with
    | error text => trivial
    | ok response =>
      obtain ⟨addr, listed, agreed⟩ := backed
      exact ⟨addr, listed, agreed_mono req s s' known kept addr response agreed⟩

end

section
variable (addrs : List SocketAddr) (s : State) (invariant : Invariant req addrs s)
include invariant

/-- An answer under the id of a packet is an answer to that packet. -/
theorem answered_current (addr : SocketAddr) (packet : Query.Bytes) (listed : (addr, packet) ∈ s.sent)
    (reply : Reply) (known : reply ∈ s.replies) (same : u32At reply.datagram 4 = u32At packet 12) :
    reply.addr = addr ∧ reply.packet = packet := by
  obtain ⟨asked, echoed⟩ := invariant.origin reply known
  have equal := List.inj_on_of_nodup_map invariant.distinct asked listed (echoed.symm.trans same)
  exact Prod.mk.inj equal

theorem invariant_failed (text : String) : Invariant req addrs (failed s text) where
  left := invariant.left
  proper := invariant.proper
  drawn := invariant.drawn
  distinct := invariant.distinct
  origin := invariant.origin
  bounded := fun other => (Nat.le_add_right _ _).trans (invariant.bounded other)
  backed := trivial

theorem invariant_draw (tid : UInt32) : Invariant req addrs { s with drawn := tid :: s.drawn } where
  left := invariant.left
  proper := invariant.proper
  drawn := by
    intro p listed
    obtain ⟨earlier, before, same⟩ := invariant.drawn p listed
    exact ⟨earlier, List.mem_cons_of_mem _ before, same⟩
  distinct := invariant.distinct
  origin := invariant.origin
  bounded := invariant.bounded
  backed := backed_mono req s _ (fun _ known => known) (fun _ kept => kept) addrs s.phase invariant.backed

/-- A packet under a fresh id goes to an address of the host. -/
theorem invariant_send (addr : SocketAddr) (packet : Query.Bytes) (tid : UInt32) (waiting : Phase)
    (step : String) (sent : Except String Unit) (fresh : tid ∉ s.drawn) (listed : addr ∈ addrs)
    (named : u32At packet 12 = tid.toNat) (proper : Proper req s addr packet)
    (room : ∀ other, sentTo s other + (if addr = other then 1 else 0) + 2 * s.rest.count other +
      pending other waiting ≤ 2 * addrs.count other)
    (backed : Backed req addrs { s with sent := (addr, packet) :: s.sent } waiting) :
    Invariant req addrs (send s addr packet tid waiting step sent) := by
  cases sent with
  | error e => exact invariant_failed req addrs _ (invariant_draw req addrs s invariant tid) _
  | ok _ =>
    have kept : ∀ p ∈ s.sent, p ∈ (addr, packet) :: s.sent := fun p => List.mem_cons_of_mem _
    refine ⟨invariant.left, ?_, ?_, ?_, ?_, ?_, ?_⟩
    · intro p sentNow
      rcases List.mem_cons.1 sentNow with new | old
      · rw [new]
        exact ⟨listed, proper⟩
      · exact invariant.proper p old
    · intro p sentNow
      rcases List.mem_cons.1 sentNow with new | old
      · rw [new]
        exact ⟨tid, List.mem_cons_self, named⟩
      · obtain ⟨earlier, before, same⟩ := invariant.drawn p old
        exact ⟨earlier, List.mem_cons_of_mem _ before, same⟩
    · refine List.nodup_cons.2 ⟨?_, invariant.distinct⟩
      intro clash
      obtain ⟨p, old, same⟩ := List.mem_map.1 clash
      obtain ⟨earlier, before, drawn⟩ := invariant.drawn p old
      have equal : earlier = tid := UInt32.toNat_inj.1 (drawn.symm.trans (same.trans named))
      exact fresh (equal ▸ before)
    · intro reply known
      exact ⟨kept _ (invariant.origin reply known).1, (invariant.origin reply known).2⟩
    · intro other
      have counted : sentTo { s with sent := (addr, packet) :: s.sent } other =
          sentTo s other + if addr = other then 1 else 0 := by
        simp only [sentTo, List.map_cons, List.count_cons, beq_iff_eq]
      have fits := room other
      rw [← counted] at fits
      exact fits
    · exact backed_mono req _ _ (fun _ known => known) (fun _ sentNow => sentNow) addrs waiting backed

end

/-- A datagram is one that a tracker sent, and the next id is fresh, or it does not carry the id in
use. -/
def Known (s : State) (tid : UInt32) (d : Query.Bytes) : Prop :=
  ((∃ reply ∈ s.replies, reply.datagram = d) ∧ tid ∉ s.drawn) ∨
    ∀ asked ∈ s.phase.tid?, u32At d 4 ≠ asked.toNat

theorem invariant_receive (addrs : List SocketAddr) (s s' : State) (invariant : Invariant req addrs s)
    (arrival : Arrival) (tid random : UInt32) (sent : Except String Unit)
    (known : ∀ d, arrival = .datagram d → Known s tid d)
    (taken : receive req s arrival tid random sent = some s') : Invariant req addrs s' := by
  have backed := invariant.backed
  have bounded := invariant.bounded
  rcases receive_cases req s s' arrival tid random sent taken with
    ⟨text⟩ | ⟨addr, asked, d, connId, waiting, arrived, fine⟩ |
    ⟨addr, asked, connId, d, response, waiting, arrived, fine⟩
  · exact invariant_failed req addrs s invariant text
  · rw [waiting] at backed bounded
    have echoed := outcome_take connectStep asked 2048 (by decide) d connId fine
    have small := connId_lt asked _ connId fine
    rcases known d arrived with ⟨⟨reply, listed, same⟩, fresh⟩ | foreign
    · have current := answered_current req addrs s invariant addr _ backed.2 reply listed
        (by rw [same, echoed, tid_connect])
      have issued : Issued s addr connId :=
        ⟨asked, reply, listed, current.1, current.2, by rw [same, fine]⟩
      have read := readAnnouncement_build connId small tid random req
      apply invariant_send req addrs s invariant addr _ tid _ _ sent fresh backed.1 (tid_announce req connId tid random)
        (Or.inr ⟨connId, tid, random, read, issued⟩)
      · intro other
        have fits := bounded other
        simp only [pending] at fits ⊢
        omega
      · exact ⟨small, issued, backed.1, random, List.mem_cons_self⟩
    · exact absurd echoed (foreign asked (by rw [waiting]; rfl))
  · rw [waiting] at backed bounded
    obtain ⟨small, issued, listed, key, asking⟩ := backed
    have echoed := outcome_take announceStep asked 4096 (by decide) d response fine
    rcases known d arrived with ⟨⟨reply, answered, same⟩, -⟩ | foreign
    · have current := answered_current req addrs s invariant addr _ asking reply answered
        (by rw [same, echoed, tid_announce])
      have read := readAnnouncement_build connId small asked key req
      refine ⟨invariant.left, invariant.proper, invariant.drawn, invariant.distinct, invariant.origin,
        bounded, addr, listed, connId, asked, key, _, asking, read, issued, reply, answered, current.1,
        current.2, by rw [same, fine]⟩
    · exact absurd echoed (foreign asked (by rw [waiting]; rfl))

theorem invariant_answer (addrs : List SocketAddr) (s : State) (invariant : Invariant req addrs s)
    (reply : Reply) (asked : (reply.addr, reply.packet) ∈ s.sent)
    (echoed : u32At reply.datagram 4 = u32At reply.packet 12) :
    Invariant req addrs { s with replies := reply :: s.replies } := by
  have known : ∀ other ∈ s.replies, other ∈ reply :: s.replies := fun other => List.mem_cons_of_mem _
  refine ⟨invariant.left, ?_, invariant.drawn, invariant.distinct, ?_, invariant.bounded, ?_⟩
  · intro p listed
    obtain ⟨inside, proper⟩ := invariant.proper p listed
    exact ⟨inside, proper_mono req s _ known p.1 p.2 proper⟩
  · intro other listed
    rcases List.mem_cons.1 listed with new | old
    · rw [new]
      exact ⟨asked, echoed⟩
    · exact invariant.origin other old
  · exact backed_mono req s { s with replies := reply :: s.replies } known (fun _ sentNow => sentNow) addrs
      s.phase invariant.backed

theorem invariant_step (addrs : List SocketAddr) (s : State) (event : Event) (s' : State)
    (invariant : Invariant req addrs s) (fair : Fair s event) (taken : step req s event = some s') :
    Invariant req addrs s' := by
  have bounded := invariant.bounded
  cases event with
  | connect tid sent =>
    rw [step] at taken
    cases phase : s.phase with
    | next =>
      cases left : s.rest with
      | nil => simp [phase, left] at taken
      | cons addr rest =>
        simp only [phase, left, Option.some_inj] at taken
        have counted : ∀ other, sentTo s other + 2 * (rest.count other + if addr = other then 1 else 0) ≤
            2 * addrs.count other := by
          intro other
          have fits := bounded other
          rw [phase, left, List.count_cons] at fits
          simpa only [pending, Nat.add_zero, beq_iff_eq] using fits
        have listed := invariant.left addr (by rw [left]; exact List.mem_cons_self)
        have shorter : Invariant req addrs { s with rest := rest } :=
          { invariant with
            left := fun other member => invariant.left other (by rw [left]; exact List.mem_cons_of_mem _ member)
            bounded := fun other => by
              have fits := counted other
              simp only [sentTo, pending, phase] at fits ⊢
              omega
            backed := backed_mono req s _ (fun _ known => known) (fun _ kept => kept) addrs s.phase
              invariant.backed }
        rw [← taken]
        apply invariant_send req addrs _ shorter addr _ tid _ _ sent fair listed (tid_connect tid)
          (Or.inl ⟨tid, readConnect_build tid⟩)
        · intro other
          have fits := counted other
          simp only [sentTo, pending] at fits ⊢
          omega
        · exact ⟨listed, List.mem_cons_self⟩
    | connecting _ _ | announcing _ _ _ | done _ => simp [phase] at taken
  | giveUp =>
    rw [step] at taken
    split at taken
    · cases taken
      exact { invariant with
        bounded := fun other => (Nat.le_add_right _ _).trans (bounded other)
        backed := trivial }
    · cases taken
  | deliver reply tid random sent =>
    rw [step] at taken
    split_ifs at taken with listed
    apply invariant_receive req addrs s s' invariant _ tid random sent _ taken
    intro d same
    cases same
    exact Or.inl ⟨⟨reply, listed, rfl⟩, fair⟩
  | stray d tid random sent =>
    apply invariant_receive req addrs s s' invariant (.datagram d) tid random sent _ taken
    intro other same
    cases same
    exact Or.inr fair
  | broken text =>
    exact invariant_receive req addrs s s' invariant (.failed text) 0 0 (.ok ()) (by simp) taken
  | timeout => exact invariant_receive req addrs s s' invariant .timeout 0 0 (.ok ()) (by simp) taken
  | answer reply =>
    rw [step] at taken
    split_ifs at taken with listed
    cases taken
    exact invariant_answer req addrs s invariant reply listed fair

theorem invariant_start (resolve : List Char → UInt16 → Except String (List SocketAddr)) :
    Invariant req (start req resolve).rest (start req resolve) := by
  have opening : ∀ phase addrs, Backed req addrs (opened phase addrs) phase →
      (∀ other, pending other phase = 0) → Invariant req addrs (opened phase addrs) := by
    intro phase addrs backed quiet
    refine ⟨fun _ listed => listed, by simp [opened], by simp [opened], by simp [opened], by simp [opened],
      ?_, backed⟩
    intro other
    simp [opened, sentTo, quiet]
  rw [start]
  cases parseUdpTrackerUrl req.announceUrl with
  | error text => exact opening (.done (.error text)) [] trivial (fun _ => rfl)
  | ok parsed =>
    dsimp only
    cases resolve parsed.1 parsed.2 with
    | error text => exact opening (.done (.error text)) [] trivial (fun _ => rfl)
    | ok addrs => exact opening .next addrs trivial (fun _ => rfl)

/-- Whatever is lost, delayed or repeated, an announce sends an address two packets at most each time the
host lists it, tells a tracker the request only under the connection id that it gave out, and the response it returns is what
one of the trackers answered to that packet. -/
theorem announce_agreed (resolve : List Char → UInt16 → Except String (List SocketAddr))
    (events : List Event) (s : State)
    (ran : exec (step req) (start req resolve) events = some s)
    (fair : Guarded (step req) Fair (start req resolve) events) :
    Sound req (start req resolve).rest s := by
  have reached := exec_invariant (step req) Fair (Invariant req (start req resolve).rest)
    (invariant_step req (start req resolve).rest) (start req resolve) s events
    (invariant_start req resolve) fair ran
  refine ⟨?_, reached.proper, ?_⟩
  · intro addr
    have bounded := reached.bounded addr
    omega
  · intro response finished
    have backed := reached.backed
    rw [finished] at backed
    exact backed

/-- A request to a tracker with two addresses. -/
def swarmRequest : AnnounceRequest where
  announceUrl := "udp://t.example:6969/announce".toList
  infohash := ⟨List.replicate 20 1, rfl⟩
  peerId := ⟨List.replicate 20 2, rfl⟩
  port := 6881
  uploaded := 0
  downloaded := 0
  left := 16384
  event := some .started
  numwant := 80
  userAgent := []
  key := 0

def firstTracker : SocketAddr := ⟨(10, 0, 0, 1), 6969⟩
def secondTracker : SocketAddr := ⟨(10, 0, 0, 2), 6969⟩

def resolveSwarm (_ : List Char) (_ : UInt16) : Except String (List SocketAddr) :=
  .ok [firstTracker, secondTracker]

def connectAnswer : Reply :=
  ⟨secondTracker, buildConnectPacket 2, toBeBytes 0 ++ toBeBytes 2 ++ toBeBytes64 77⟩

def announceAnswer : Reply :=
  ⟨secondTracker, buildAnnouncePacket 77 3 9 swarmRequest,
    toBeBytes 1 ++ toBeBytes 3 ++ toBeBytes 1800 ++ toBeBytes 4 ++ toBeBytes 5 ++ [10, 0, 0, 9, 0x1A, 0xE1]⟩

/-- The first address does not answer in time, the second one answers twice. -/
def swarmEvents : List Event :=
  [.connect 1 (.ok ()), .timeout, .connect 2 (.ok ()), .answer connectAnswer,
    .deliver connectAnswer 3 9 (.ok ()), .answer announceAnswer, .deliver announceAnswer 4 0 (.ok ())]

def swarmEnd : State where
  rest := []
  lastErr := "udp connect recv timeout"
  phase := .done (.ok
    { interval := 1800
      minInterval := 0
      peers := [⟨(10, 0, 0, 9), 6881⟩]
      complete := some 5
      incomplete := some 4 })
  sent := [(secondTracker, buildAnnouncePacket 77 3 9 swarmRequest), (secondTracker, buildConnectPacket 2),
    (firstTracker, buildConnectPacket 1)]
  drawn := [3, 2, 1]
  replies := [announceAnswer, connectAnswer]

theorem swarm_agreed : exec (step swarmRequest) (start swarmRequest resolveSwarm) swarmEvents = some swarmEnd ∧
    Sound swarmRequest [firstTracker, secondTracker] swarmEnd := by
  have ran : exec (step swarmRequest) (start swarmRequest resolveSwarm) swarmEvents = some swarmEnd := by
    decide +kernel
  have checked := guarded_of_guardedB (step swarmRequest) (fun s event => decide (Fair s event))
    (start swarmRequest resolveSwarm) swarmEvents (by decide +kernel)
  have fair := guarded_mono (step swarmRequest) _ Fair (fun _ _ => of_decide_eq_true) _ _ checked
  exact ⟨ran, announce_agreed swarmRequest resolveSwarm swarmEvents swarmEnd ran fair⟩

end Seedchamp.Tracker.Exchange
