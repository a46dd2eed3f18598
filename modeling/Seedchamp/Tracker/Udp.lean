import Seedchamp.Torrentfile.RoundTrip
import Seedchamp.Tracker.Http
import Seedchamp.Wire.Parse

/-!
The replies of a UDP tracker in the connect and the announce step, and with those of an HTTP tracker
which of them are classified as they should be. A parser without a result has panicked.
-/

namespace Seedchamp.Tracker.Udp
open Foundation Tracker.Http Wire.Parse
open Torrentfile.Bencode (Value Bytes WellFormed decodeFull encode)

def ACTION_CONNECT : Nat := 0
def ACTION_ANNOUNCE : Nat := 1
def ACTION_ERROR : Nat := 3

/-- What `recv_from` leaves: a buffer and the number of bytes of the datagram in it. -/
structure Received where
  buf : Bytes
  n : Nat
  inside : n ≤ buf.length

def Received.datagram (r : Received) : Bytes := r.buf.take r.n

/-- `recv_from` into a buffer of `cap` zeros; what does not fit is lost. -/
def recvFrom (cap : Nat) (datagram : Bytes) : Received where
  buf := datagram.take cap ++ List.replicate (cap - datagram.length) 0
  n := min cap datagram.length
  inside := by simp only [List.length_append, List.length_take]; omega

/-! ### The parsers -/

/-- `buf[start..stop]`, which is nothing out of bounds. -/
def slice (buf : Bytes) (start stop : Nat) : Option Bytes :=
  if start ≤ stop ∧ stop ≤ buf.length then some ((buf.drop start).take (stop - start)) else none

/-- `u32::from_be_bytes(buf[at..at + 4].try_into().unwrap())`. -/
def word (buf : Bytes) (at' : Nat) : Option Nat := (slice buf at' (at' + 4)).map (u32At · 0)

/-- `u64::from_be_bytes` of eight bytes. -/
def u64At (bytes : Bytes) (at' : Nat) : Nat := u32At bytes at' * 2 ^ 32 + u32At bytes (at' + 4)

def message (bytes : Bytes) : String := String.ofList (Utf8.fromUtf8Lossy bytes)

def parseConnectResponse (buf : Bytes) (n : Nat) (tid : UInt32) : Option (Except String Nat) :=
  if n < 16 then some (.error "udp connect short response")
  else do
    let action ← word buf 0
    let rtid ← word buf 4
    if rtid ≠ tid.toNat then some (.error "udp connect transaction mismatch")
    else if action = ACTION_ERROR then do
      let msg ← slice buf 8 n
      some (.error ("udp connect error: " ++ message msg))
    else if action ≠ ACTION_CONNECT then some (.error s!"udp connect bad action {action}")
    else do
      let connId ← slice buf 8 16
      some (.ok (u64At connId 0))

def parseAnnounceResponseUdp (buf : Bytes) (n : Nat) (tid : UInt32) :
    Option (Except String AnnounceResponse) :=
  if n < 20 then some (.error "udp announce short response")
  else do
    let action ← word buf 0
    let rtid ← word buf 4
    if rtid ≠ tid.toNat then some (.error "udp announce transaction mismatch")
    else if action = ACTION_ERROR then do
      let msg ← slice buf 8 n
      some (.ok { failure := some (message msg) })
    else if action ≠ ACTION_ANNOUNCE then some (.error s!"udp announce bad action {action}")
    else do
      let interval ← word buf 8
      let leechers ← word buf 12
      let seeders ← word buf 16
      let peers ← slice buf 20 n
      some (.ok
        { interval := interval
          minInterval := 0
          peers := (compactPeers peers).filter (fun peer => peer.port ≠ 0)
          complete := some seeders
          incomplete := some leechers })

example : parseConnectResponse [0, 0, 0, 0, 0, 0, 0, 7, 0, 0, 0, 0, 0, 0, 0, 0xAA] 16 7 =
    some (.ok 0xAA) := by decide

/-! ### The bytes of a datagram -/

theorem Received.datagram_length (r : Received) : r.datagram.length = r.n := by
  rw [Received.datagram, List.length_take, Nat.min_eq_left r.inside]

theorem u32At_drop (bytes : Bytes) (skip at' : Nat) :
    u32At (bytes.drop skip) at' = u32At bytes (skip + at') := by
  rw [u32At, u32At, List.drop_drop]

/-- A word inside the datagram is read as it stands in the buffer. -/
theorem u32At_datagram (r : Received) (at' : Nat) (inside : at' + 4 ≤ r.n) :
    u32At r.datagram at' = u32At r.buf at' :=
  u32At_take_at r.buf r.n at' inside

theorem word_received (r : Received) (at' : Nat) (inside : at' + 4 ≤ r.n) :
    word r.buf at' = some (u32At r.datagram at') := by
  have bound := r.inside
  rw [word, slice, if_pos ⟨by omega, by omega⟩, Option.map_some, Nat.add_sub_cancel_left,
    u32At_datagram r at' inside, u32At_take _ _ (Nat.le_refl 4), u32At_drop, Nat.add_zero]

theorem slice_received (r : Received) (start : Nat) (inside : start ≤ r.n) :
    slice r.buf start r.n = some (r.datagram.drop start) := by
  rw [slice, if_pos ⟨inside, r.inside⟩, Received.datagram, List.drop_take]

/-- The eight bytes behind the transaction id. -/
theorem connId_received (r : Received) (long : 16 ≤ r.n) :
    ∃ connId, slice r.buf 8 16 = some connId ∧ u64At connId 0 = u64At r.datagram 8 := by
  have bound := r.inside
  refine ⟨(r.buf.drop 8).take (16 - 8), by rw [slice, if_pos ⟨by decide, by omega⟩], ?_⟩
  rw [u64At, u64At, u32At_take_at _ _ _ (by decide), u32At_take_at _ _ _ (by decide), u32At_drop,
    u32At_drop, u32At_datagram r 8 (by omega), u32At_datagram r (8 + 4) (by omega)]

/-! ### Packets -/

/-- A packet of one kind under our transaction id. -/
structure Packet (least action : Nat) (tid : UInt32) (d : Bytes) : Prop where
  long : least ≤ d.length
  action : u32At d 0 = action
  ours : u32At d 4 = tid.toNat

abbrev ErrorPacket := Packet 8 ACTION_ERROR
abbrev ConnectReply := Packet 16 ACTION_CONNECT
abbrev AnnounceReply := Packet 20 ACTION_ANNOUNCE

/-- A step of the exchange: the reply it waits for, what it makes of that and of an error message, and
the texts of its errors. -/
structure Step (α : Type) where
  least : Nat
  action : Nat
  failed : String → Except String α
  reply : Bytes → α
  short : String
  mismatch : String
  badAction : String

/-- What a step makes of a datagram. -/
def Step.outcome {α : Type} (step : Step α) (tid : UInt32) (d : Bytes) : Except String α :=
  if d.length < step.least then .error step.short
  else if u32At d 4 ≠ tid.toNat then .error step.mismatch
  else if u32At d 0 = ACTION_ERROR then step.failed (message (d.drop 8))
  else if u32At d 0 ≠ step.action then .error (step.badAction ++ toString (u32At d 0))
  else .ok (step.reply d)

def connectStep : Step Nat where
  least := 16
  action := ACTION_CONNECT
  failed := fun text => .error ("udp connect error: " ++ text)
  reply := fun d => u64At d 8
  short := "udp connect short response"
  mismatch := "udp connect transaction mismatch"
  badAction := "udp connect bad action "

def announceStep : Step AnnounceResponse where
  least := 20
  action := ACTION_ANNOUNCE
  failed := fun text => .ok { failure := some text }
  reply := fun d =>
    { interval := u32At d 8
      minInterval := 0
      peers := (compactPeers (d.drop 20)).filter (fun peer => peer.port ≠ 0)
      complete := some (u32At d 16)
      incomplete := some (u32At d 12) }
  short := "udp announce short response"
  mismatch := "udp announce transaction mismatch"
  badAction := "udp announce bad action "

section
variable {α : Type} (step : Step α) (tid : UInt32) (d : Bytes)

theorem outcome_short (short : d.length < step.least) :
    step.outcome tid d = .error step.short := by
  rw [Step.outcome, if_pos short]

theorem outcome_failed (long : step.least ≤ d.length) (packet : ErrorPacket tid d) :
    step.outcome tid d = step.failed (message (d.drop 8)) := by
  rw [Step.outcome, if_neg (Nat.not_lt.2 long), if_neg (not_not_intro packet.ours),
    if_pos packet.action]

theorem outcome_reply (distinct : step.action ≠ ACTION_ERROR)
    (packet : Packet step.least step.action tid d) :
    step.outcome tid d = .ok (step.reply d) := by
  rw [Step.outcome, if_neg (Nat.not_lt.2 packet.long), if_neg (not_not_intro packet.ours),
    packet.action, if_neg distinct, if_neg (not_not_intro rfl)]

/-- What is neither kind of packet is an error. -/
theorem outcome_refused (least : 8 ≤ step.least) (other : ¬ ErrorPacket tid d)
    (unlike : ¬ Packet step.least step.action tid d) :
    ∃ problem, step.outcome tid d = .error problem := by
  by_cases short : d.length < step.least
  · exact ⟨_, outcome_short step tid d short⟩
  · rw [Step.outcome, if_neg short]
    by_cases ours : u32At d 4 = tid.toNat
    · have failure : u32At d 0 ≠ ACTION_ERROR := fun same => other ⟨by omega, same, ours⟩
      have reply : u32At d 0 ≠ step.action := fun same => unlike ⟨by omega, same, ours⟩
      exact ⟨_, by rw [if_neg (not_not_intro ours), if_neg failure, if_pos reply]⟩
    · exact ⟨_, by rw [if_pos ours]⟩

end

/-! ### Both steps on what is received -/

/-- No datagram takes the parser out of bounds. -/
theorem parseConnectResponse_eq (r : Received) (tid : UInt32) :
    parseConnectResponse r.buf r.n tid = some (connectStep.outcome tid r.datagram) := by
  rw [parseConnectResponse, Step.outcome, connectStep, r.datagram_length]
  by_cases short : r.n < 16
  · rw [if_pos short, if_pos short]
  · obtain ⟨connId, read, same⟩ := connId_received r (by omega)
    rw [if_neg short, if_neg short, word_received r 0 (by omega), word_received r 4 (by omega),
      slice_received r 8 (by omega), read]
    dsimp only [Option.bind_eq_bind, Option.bind_some]
    rw [same]
    simp only [apply_ite some]
    rfl

theorem parseAnnounceResponseUdp_eq (r : Received) (tid : UInt32) :
    parseAnnounceResponseUdp r.buf r.n tid = some (announceStep.outcome tid r.datagram) := by
  rw [parseAnnounceResponseUdp, Step.outcome, announceStep, r.datagram_length]
  by_cases short : r.n < 20
  · rw [if_pos short, if_pos short]
  · rw [if_neg short, if_neg short, word_received r 0 (by omega), word_received r 4 (by omega),
      word_received r 8 (by omega), word_received r 12 (by omega), word_received r 16 (by omega),
      slice_received r 8 (by omega), slice_received r 20 (by omega)]
    dsimp only [Option.bind_eq_bind, Option.bind_some]
    simp only [apply_ite some]
    rfl

/-- The connect step on every datagram. -/
structure ConnectClassified (tid : UInt32) (d : Bytes) (result : Option (Except String Nat)) :
    Prop where
  inBounds : result ≠ none
  failed : ErrorPacket tid d →
    result = some (.error ("udp connect error: " ++ message (d.drop 8)))
  refused : ¬ ErrorPacket tid d → ¬ ConnectReply tid d → ∃ problem, result = some (.error problem)
  connected : ConnectReply tid d → result = some (.ok (u64At d 8))

/-- The announce step on every datagram. -/
structure AnnounceClassified (tid : UInt32) (d : Bytes)
    (result : Option (Except String AnnounceResponse)) : Prop where
  inBounds : result ≠ none
  failed : ErrorPacket tid d →
    ∃ out, result = some (.ok out) ∧ out.failure = some (message (d.drop 8))
  refused : ¬ ErrorPacket tid d → ¬ AnnounceReply tid d → ∃ problem, result = some (.error problem)
  announced : AnnounceReply tid d → ∃ out entries, result = some (.ok out) ∧ out.failure = none ∧
    out.interval = u32At d 8 ∧ out.incomplete = some (u32At d 12) ∧
    out.complete = some (u32At d 16) ∧ CompleteEntries (d.drop 20) entries ∧
    out.peers = entries.filter (fun peer => peer.port ≠ 0)

/-- An error packet that the step takes for a short response. -/
def Overlooked (least : Nat) (tid : UInt32) (d : Bytes) : Prop :=
  ErrorPacket tid d ∧ d.length < least

theorem connectError_ne_short (text : String) :
    "udp connect short response" ≠ "udp connect error: " ++ text := by
  intro same
  have letters := congrArg (fun word => word.toList.getD 12 ' ') same
  rw [String.toList_append] at letters
  exact absurd letters (by
    change 's' ≠ 'e'
    decide)

theorem connect_classified_iff (tid : UInt32) (d : Bytes) :
    ConnectClassified tid d (some (connectStep.outcome tid d)) ↔ ¬ Overlooked 16 tid d := by
  constructor
  · rintro classified ⟨packet, short⟩
    have failed := classified.failed packet
    rw [outcome_short connectStep tid d short] at failed
    exact connectError_ne_short _ (Except.error.inj (Option.some.inj failed))
  · intro noticed
    refine ⟨fun clash => (by cases clash), fun packet => ?_, fun other unlike => ?_, fun packet => ?_⟩
    · have long : 16 ≤ d.length := Nat.not_lt.1 (fun short => noticed ⟨packet, short⟩)
      rw [outcome_failed connectStep tid d long packet]
      rfl
    · obtain ⟨problem, refused⟩ := outcome_refused connectStep tid d (by decide) other unlike
      exact ⟨problem, by rw [refused]⟩
    · rw [outcome_reply connectStep tid d (by decide) packet]
      rfl

theorem announce_classified_iff (tid : UInt32) (d : Bytes) :
    AnnounceClassified tid d (some (announceStep.outcome tid d)) ↔ ¬ Overlooked 20 tid d := by
  constructor
  · rintro classified ⟨packet, short⟩
    obtain ⟨out, answered, -⟩ := classified.failed packet
    rw [outcome_short announceStep tid d short] at answered
    cases answered
  · intro noticed
    refine ⟨fun clash => (by cases clash), fun packet => ?_, fun other unlike => ?_, fun packet => ?_⟩
    · have long : 20 ≤ d.length := Nat.not_lt.1 (fun short => noticed ⟨packet, short⟩)
      rw [outcome_failed announceStep tid d long packet]
      exact ⟨_, rfl, rfl⟩
    · obtain ⟨problem, refused⟩ := outcome_refused announceStep tid d (by decide) other unlike
      exact ⟨problem, by rw [refused]⟩
    · rw [outcome_reply announceStep tid d (by decide) packet]
      exact ⟨announceStep.reply d, compactPeers (d.drop 20), rfl, rfl, rfl, rfl, rfl,
        compactPeers_complete _, rfl⟩

/-! ### Every reply -/

/-- What a tracker may send: the body of an HTTP response, or a datagram in one of the two steps. -/
inductive Reply where
  | http (body : Bytes)
  | connect (tid : UInt32) (r : Received)
  | announce (tid : UInt32) (r : Received)

def Classified : Reply → Prop
  | .http body => ∀ map, decodeFull body = .ok (.dict map) →
      ∃ out, parseAnnounceResponse body = .ok out ∧ Http.Classified (.dict map) out
  | .connect tid r => ConnectClassified tid r.datagram (parseConnectResponse r.buf r.n tid)
  | .announce tid r => AnnounceClassified tid r.datagram (parseAnnounceResponseUdp r.buf r.n tid)

/-- The replies that are read as they should be. -/
def Readable : Reply → Prop
  | .http body => ∀ map, decodeFull body = .ok (.dict map) → Http.Readable (.dict map)
  | .connect tid r => ¬ Overlooked 16 tid r.datagram
  | .announce tid r => ¬ Overlooked 20 tid r.datagram

theorem http_classified_iff (body : Bytes) : Classified (.http body) ↔ Readable (.http body) := by
  refine forall_congr' (fun map => forall_congr' (fun decoded => ?_))
  have parsed : parseAnnounceResponse body = .ok (responseOf (.dict map)) := by
    rw [parseAnnounceResponse, decoded]
  rw [← classified_responseOf_iff, parsed]
  constructor
  · rintro ⟨out, same, classified⟩
    cases same
    exact classified
  · exact fun classified => ⟨_, rfl, classified⟩

/-- A reply is classified correctly exactly when it is readable. -/
theorem reply_classified_iff (reply : Reply) : Classified reply ↔ Readable reply := by
  cases reply with
  | http body => exact http_classified_iff body
  | connect tid r =>
    rw [Classified, parseConnectResponse_eq]
    exact connect_classified_iff tid r.datagram
  | announce tid r =>
    rw [Classified, parseAnnounceResponseUdp_eq]
    exact announce_classified_iff tid r.datagram

/-- A dictionary of one entry is decoded from its encoding. -/
theorem single_entry_decoded (k : Bytes) (v : Value) (wellFormed : WellFormed v)
    (fits : (encode (.dict [(k, v)])).length < 2 ^ 63) :
    decodeFull (encode (.dict [(k, v)])) = .ok (.dict [(k, v)]) := by
  refine Torrentfile.RoundTrip.decodeFull_encode _ (.dict _ (List.pairwise_singleton _ _) ?_) fits
  intro entry member
  rw [List.mem_singleton.1 member]
  exact wellFormed

/-- A failure reason that is not UTF-8, an interval of more than 32 bits, and in either step an error
packet of eight bytes. -/
theorem replies_misread :
    ¬ Classified (.http (encode (.dict [(Value.key "failure reason", .bytes [0xFF])]))) ∧
      ¬ Classified (.http (encode (.dict [(Value.key "interval", .int 4294967297)]))) ∧
      ¬ Classified (.connect 7 (recvFrom 2048 [0, 0, 0, 3, 0, 0, 0, 7])) ∧
      ¬ Classified (.announce 7 (recvFrom 4096 [0, 0, 0, 3, 0, 0, 0, 7])) := by
  have short : Overlooked 16 7 [0, 0, 0, 3, 0, 0, 0, 7] :=
    ⟨⟨by decide, by decide, by decide⟩, by decide⟩
  refine ⟨fun always => ?_, fun always => ?_, fun always => ?_, fun always => ?_⟩
  · have readable := (http_classified_iff _).1 always _
      (single_entry_decoded (Value.key "failure reason") (.bytes [0xFF]) (.bytes _) (by decide +kernel))
    exact absurd (readable.text [0xFF] (by rfl)) (by decide)
  · have readable := (http_classified_iff _).1 always _
      (single_entry_decoded (Value.key "interval") (.int 4294967297) (.int _) (by decide +kernel))
    exact absurd (readable.casts (by rfl) "interval" (by decide) 4294967297 (by rfl)) (by
      rw [CastSaturates]
      decide)
  · rw [Classified, parseConnectResponse_eq] at always
    have received : (recvFrom 2048 [0, 0, 0, 3, 0, 0, 0, 7]).datagram = [0, 0, 0, 3, 0, 0, 0, 7] := by
      decide +kernel
    rw [received, connect_classified_iff] at always
    exact always short
  · rw [Classified, parseAnnounceResponseUdp_eq] at always
    have received : (recvFrom 4096 [0, 0, 0, 3, 0, 0, 0, 7]).datagram = [0, 0, 0, 3, 0, 0, 0, 7] := by
      decide +kernel
    rw [received, announce_classified_iff] at always
    exact always ⟨short.1, by decide⟩

end Seedchamp.Tracker.Udp
