import Seedchamp.Foundation.Decimal
import Seedchamp.Foundation.Query
import Seedchamp.Foundation.Text
import Seedchamp.Foundation.Utf8
import Seedchamp.Tracker.Udp
import Seedchamp.Wire.Messages

/-!
What an announce sends: the URL of an HTTP tracker and the two packets of a UDP tracker, and how a
tracker reads them.
-/

namespace Seedchamp.Tracker.Requests
open Foundation Foundation.Decimal Foundation.Query Foundation.Text Tracker.Http Tracker.Udp
open Wire.Messages (toBeBytes)
open Wire.Parse (u32At u32At_toBeBytes u32At_append)

/-- `[u8; 20]`. -/
structure Bytes20 where
  bytes : Query.Bytes
  sized : bytes.length = 20

inductive AnnounceEvent where
  | started
  | completed
  | stopped
  deriving DecidableEq

def AnnounceEvent.text : AnnounceEvent → String
  | .started => "started"
  | .completed => "completed"
  | .stopped => "stopped"

structure AnnounceRequest where
  announceUrl : List Char
  infohash : Bytes20
  peerId : Bytes20
  port : UInt16
  uploaded : UInt64
  downloaded : UInt64
  left : UInt64
  event : Option AnnounceEvent
  numwant : UInt32
  userAgent : List Char
  key : UInt32

/-! ### The URL -/

def hex8 (n : UInt32) : Query.Bytes := (toBeBytes n.toNat).flatMap (hexPair lowerTen)

/-- The parameters in the order in which they are written. -/
def params (req : AnnounceRequest) : List (Query.Bytes × Query.Bytes) :=
  [(ascii "info_hash", percentEncode req.infohash.bytes),
    (ascii "peer_id", percentEncode req.peerId.bytes),
    (ascii "port", decimal req.port.toNat),
    (ascii "uploaded", decimal req.uploaded.toNat),
    (ascii "downloaded", decimal req.downloaded.toNat),
    (ascii "left", decimal req.left.toNat),
    (ascii "compact", ascii "1"),
    (ascii "numwant", decimal req.numwant.toNat)] ++
  (match req.event with
    | some ev => [(ascii "event", ascii ev.text)]
    | none => []) ++
  (if req.key = 0 then [] else [(ascii "key", hex8 req.key)])

/-- The announce URL as bytes. -/
def buildAnnounceUrl (req : AnnounceRequest) : Except String Query.Bytes :=
  let base := trim req.announceUrl
  if base.isEmpty then .error "empty announce url"
  else
    let sep := if base.contains '?' then AMPERSAND else QUESTION
    .ok (Utf8.encode base ++ sep :: render (params req))

/-! ### The packets -/

def PROTOCOL_ID : Nat := 0x41727101980

def toBeBytes64 (n : Nat) : Query.Bytes := toBeBytes (n / 2 ^ 32) ++ toBeBytes (n % 2 ^ 32)

def buildConnectPacket (tid : UInt32) : Query.Bytes :=
  toBeBytes64 PROTOCOL_ID ++ (toBeBytes ACTION_CONNECT ++ toBeBytes tid.toNat)

def eventCode : Option AnnounceEvent → Nat
  | some .completed => 1
  | some .started => 2
  | some .stopped => 3
  | none => 0

/-- The key of a packet; a request without one gets a random one. -/
def keyOf (random : UInt32) (req : AnnounceRequest) : UInt32 := if req.key ≠ 0 then req.key else random

def buildAnnouncePacket (connId : Nat) (tid random : UInt32) (req : AnnounceRequest) : Query.Bytes :=
  toBeBytes64 connId ++ (toBeBytes ACTION_ANNOUNCE ++ (toBeBytes tid.toNat ++
    (req.infohash.bytes ++ (req.peerId.bytes ++ (toBeBytes64 req.downloaded.toNat ++
    (toBeBytes64 req.left.toNat ++ (toBeBytes64 req.uploaded.toNat ++ (toBeBytes (eventCode req.event) ++
    (toBeBytes 0 ++ (toBeBytes (keyOf random req).toNat ++ (toBeBytes req.numwant.toNat ++
    portBytes req.port)))))))))))

/-! ### How a tracker reads them -/

/-- What an HTTP tracker is told. -/
structure Reported where
  infohash : Query.Bytes
  peerId : Query.Bytes
  port : Nat
  uploaded : Nat
  downloaded : Nat
  left : Nat
  compact : Bool
  numwant : Nat
  event : Option Query.Bytes
  key : Option Nat
  deriving DecidableEq

def valueOf (fields : List (Query.Bytes × Query.Bytes)) (name : String) : Option Query.Bytes :=
  (fields.find? (fun f => f.1 = ascii name)).map Prod.snd

def readFields (fields : List (Query.Bytes × Query.Bytes)) : Option Reported := do
  let infohash ← valueOf fields "info_hash"
  let peerId ← valueOf fields "peer_id"
  let port ← (valueOf fields "port").bind readDigits
  let uploaded ← (valueOf fields "uploaded").bind readDigits
  let downloaded ← (valueOf fields "downloaded").bind readDigits
  let left ← (valueOf fields "left").bind readDigits
  let numwant ← (valueOf fields "numwant").bind readDigits
  some
    { infohash, peerId, port, uploaded, downloaded, left
      compact := valueOf fields "compact" = some (ascii "1")
      numwant
      event := valueOf fields "event"
      key := (valueOf fields "key").bind readHex }

def reported (req : AnnounceRequest) : Reported where
  infohash := req.infohash.bytes
  peerId := req.peerId.bytes
  port := req.port.toNat
  uploaded := req.uploaded.toNat
  downloaded := req.downloaded.toNat
  left := req.left.toNat
  compact := true
  numwant := req.numwant.toNat
  event := req.event.map (fun ev => ascii ev.text)
  key := if req.key = 0 then none else some req.key.toNat

/-- A connect request: its protocol, action and transaction. -/
structure Connect where
  protocol : Nat
  action : Nat
  tid : Nat
  deriving DecidableEq

def word (d : Query.Bytes) : Nat × Query.Bytes := (u32At d 0, d.drop 4)

def long (d : Query.Bytes) : Nat × Query.Bytes := (u64At d 0, d.drop 8)

def readConnect (d : Query.Bytes) : Option Connect :=
  if d.length < 16 then none
  else
    let (protocol, d) := long d
    let (action, d) := word d
    let (tid, _) := word d
    some ⟨protocol, action, tid⟩

/-- An announce request of a UDP tracker. -/
structure Announcement where
  connId : Nat
  action : Nat
  tid : Nat
  infohash : Query.Bytes
  peerId : Query.Bytes
  downloaded : Nat
  left : Nat
  uploaded : Nat
  event : Nat
  ip : Nat
  key : Nat
  numwant : Int
  port : UInt16
  deriving DecidableEq

def readAnnouncement (d : Query.Bytes) : Option Announcement :=
  if d.length < 98 then none
  else
    let (connId, d) := long d
    let (action, d) := word d
    let (tid, d) := word d
    let (infohash, d) := (d.take 20, d.drop 20)
    let (peerId, d) := (d.take 20, d.drop 20)
    let (downloaded, d) := long d
    let (left, d) := long d
    let (uploaded, d) := long d
    let (event, d) := word d
    let (ip, d) := word d
    let (key, d) := word d
    let (numwant, d) := word d
    some ⟨connId, action, tid, infohash, peerId, downloaded, left, uploaded, event, ip, key,
      (BitVec.ofNat 32 numwant).toInt, portOf (d.getD 0 0) (d.getD 1 0)⟩

def announcement (connId : Nat) (tid random : UInt32) (req : AnnounceRequest) : Announcement where
  connId := connId
  action := ACTION_ANNOUNCE
  tid := tid.toNat
  infohash := req.infohash.bytes
  peerId := req.peerId.bytes
  downloaded := req.downloaded.toNat
  left := req.left.toNat
  uploaded := req.uploaded.toNat
  event := eventCode req.event
  ip := 0
  key := (keyOf random req).toNat
  numwant := req.numwant.toBitVec.toInt
  port := req.port

/-! ### The packets are read as they were built -/

theorem word_toBeBytes (n : Nat) (fits : n < 2 ^ 32) (rest : Query.Bytes) :
    word (toBeBytes n ++ rest) = (n, rest) := by
  rw [word, u32At_toBeBytes n rest fits]
  rfl

theorem toBeBytes64_length (n : Nat) : (toBeBytes64 n).length = 8 := rfl

theorem long_toBeBytes64 (n : Nat) (fits : n < 2 ^ 64) (rest : Query.Bytes) :
    long (toBeBytes64 n ++ rest) = (n, rest) := by
  have high : u32At (toBeBytes (n / 2 ^ 32) ++ (toBeBytes (n % 2 ^ 32) ++ rest)) 0 = n / 2 ^ 32 :=
    u32At_toBeBytes _ _ (by omega)
  have low : u32At (toBeBytes (n / 2 ^ 32) ++ (toBeBytes (n % 2 ^ 32) ++ rest)) (0 + 4) = n % 2 ^ 32 := by
    rw [u32At_append _ _ (0 + 4) rfl]
    exact u32At_toBeBytes _ _ (by omega)
  have value : u64At (toBeBytes64 n ++ rest) 0 = n := by
    rw [u64At, toBeBytes64, List.append_assoc, high, low]
    omega
  rw [long, value]
  rfl

theorem take_bytes20 (b : Bytes20) (rest : Query.Bytes) :
    (b.bytes ++ rest).take 20 = b.bytes ∧ (b.bytes ++ rest).drop 20 = rest := by
  rw [← b.sized]
  exact ⟨List.take_left, List.drop_left⟩

theorem readConnect_build (tid : UInt32) :
    readConnect (buildConnectPacket tid) = some ⟨PROTOCOL_ID, ACTION_CONNECT, tid.toNat⟩ := by
  have small := tid.toNat_lt
  have last : word (toBeBytes tid.toNat) = (tid.toNat, []) := by
    have whole := word_toBeBytes tid.toNat small []
    rwa [List.append_nil] at whole
  have size : (buildConnectPacket tid).length = 16 := rfl
  rw [readConnect, if_neg (by rw [size]; decide), buildConnectPacket, long_toBeBytes64 _ (by decide)]
  dsimp only
  rw [word_toBeBytes _ (by decide)]
  dsimp only
  rw [last]

theorem buildAnnouncePacket_length (connId : Nat) (tid random : UInt32) (req : AnnounceRequest) :
    (buildAnnouncePacket connId tid random req).length = 98 := by
  simp only [buildAnnouncePacket, List.length_append, toBeBytes64_length, Wire.Parse.toBeBytes_length,
    req.infohash.sized, req.peerId.sized]
  rfl

/-- A UDP tracker reads from the packet what the request says. -/
theorem readAnnouncement_build (connId : Nat) (fits : connId < 2 ^ 64) (tid random : UInt32)
    (req : AnnounceRequest) :
    readAnnouncement (buildAnnouncePacket connId tid random req) =
      some (announcement connId tid random req) := by
  have event : eventCode req.event < 2 ^ 32 := by
    rcases req.event with _ | ⟨_ | _ | _⟩ <;> decide
  rw [readAnnouncement, if_neg (by rw [buildAnnouncePacket_length]; decide), buildAnnouncePacket,
    long_toBeBytes64 _ fits]
  dsimp only
  rw [word_toBeBytes _ (by decide)]
  dsimp only
  rw [word_toBeBytes _ tid.toNat_lt]
  dsimp only
  rw [(take_bytes20 req.infohash _).1, (take_bytes20 req.infohash _).2, (take_bytes20 req.peerId _).1,
    (take_bytes20 req.peerId _).2, long_toBeBytes64 _ req.downloaded.toNat_lt]
  dsimp only
  rw [long_toBeBytes64 _ req.left.toNat_lt]
  dsimp only
  rw [long_toBeBytes64 _ req.uploaded.toNat_lt]
  dsimp only
  rw [word_toBeBytes _ event]
  dsimp only
  rw [word_toBeBytes _ (by decide)]
  dsimp only
  rw [word_toBeBytes _ (keyOf random req).toNat_lt]
  dsimp only
  rw [word_toBeBytes _ req.numwant.toNat_lt]
  have want : BitVec.ofNat 32 req.numwant.toNat = req.numwant.toBitVec := BitVec.eq_of_toNat_eq (by
    rw [BitVec.toNat_ofNat, Nat.mod_eq_of_lt req.numwant.toNat_lt]
    rfl)
  have port : portOf ((portBytes req.port).getD 0 0) ((portBytes req.port).getD 1 0) = req.port :=
    portOf_portBytes req.port
  rw [want, port]
  rfl

/-! ### The URL is read as it was built -/

def announceNames : List Query.Bytes :=
  ["info_hash", "peer_id", "port", "uploaded", "downloaded", "left", "compact", "numwant", "event",
    "key"].map ascii

theorem plain_decimal (n : Nat) : ∀ b ∈ decimal n, Plain b := by
  intro b listed
  have digit := decimal_digits n b listed
  refine ⟨?_, ?_, ?_, ?_, ?_⟩ <;> rintro rfl <;> exact absurd digit (by decide)

theorem plain_hex8 (n : UInt32) : ∀ b ∈ hex8 n, Plain b := by
  intro b listed
  obtain ⟨byte, -, digit⟩ := List.mem_flatMap.1 listed
  exact hexPair_plain lowerTen (Or.inr rfl) byte b digit

theorem readHex_hex8 (n : UInt32) : readHex (hex8 n) = some n.toNat := by
  have small := n.toNat_lt
  rw [hex8, readHex_flatMap lowerTen (Or.inr rfl)]
  simp only [toBeBytes, List.foldl_cons, List.foldl_nil, UInt8.toNat_ofNat']
  congr 1
  omega

theorem plain_of_all (text : Query.Bytes) (checked : text.all (fun b => decide (Plain b)) = true) :
    ∀ b ∈ text, Plain b := by
  simpa using checked

theorem plain_name (name : Query.Bytes) (listed : name ∈ announceNames) : ∀ b ∈ name, Plain b := by
  have checked : announceNames.all (fun name => name.all (fun b => decide (Plain b))) = true := by decide
  exact plain_of_all name (List.all_eq_true.1 checked name listed)

/-- The names and values separate nothing. -/
theorem params_contained (req : AnnounceRequest) :
    ∀ f ∈ params req, (∀ b ∈ f.1, Plain b) ∧ Contained f.2 := by
  have name : ∀ text, ascii text ∈ announceNames → ∀ b ∈ ascii text, Plain b :=
    fun text listed => plain_name (ascii text) listed
  have digits : ∀ n, Contained (decimal n) := fun n => contained_of_plain _ (plain_decimal n)
  have one : Contained (ascii "1") := contained_of_plain _ (plain_of_all _ (by decide))
  rw [params]
  simp only [List.forall_mem_append, List.forall_mem_cons]
  refine ⟨⟨⟨⟨name "info_hash" (by decide), contained_percentEncode _⟩,
    ⟨name "peer_id" (by decide), contained_percentEncode _⟩, ⟨name "port" (by decide), digits _⟩,
    ⟨name "uploaded" (by decide), digits _⟩, ⟨name "downloaded" (by decide), digits _⟩,
    ⟨name "left" (by decide), digits _⟩, ⟨name "compact" (by decide), one⟩,
    ⟨name "numwant" (by decide), digits _⟩, by simp⟩, ?_⟩, ?_⟩
  · cases req.event with
    | none => simp
    | some ev =>
      rw [List.forall_mem_singleton]
      refine ⟨name "event" (by decide), contained_of_plain _ (plain_of_all _ ?_)⟩
      cases ev <;> decide
  · split_ifs
    · simp
    · rw [List.forall_mem_singleton]
      exact ⟨name "key" (by decide), contained_of_plain _ (plain_hex8 req.key)⟩

/-- The parameters as the tracker takes them apart. -/
def heard (req : AnnounceRequest) : List (Query.Bytes × Query.Bytes) :=
  (params req).map (fun f => (f.1, percentDecode f.2))

theorem fields_params (req : AnnounceRequest) : fields (render (params req)) = heard req := by
  have contained := params_contained req
  apply fields_render
  · simp [params]
  · exact fun f listed => (contained f listed).1
  · exact fun f listed => (contained f listed).2

theorem valueOf_append (own rest : List (Query.Bytes × Query.Bytes)) (name : String)
    (free : ∀ f ∈ own, f.1 ≠ ascii name) : valueOf (own ++ rest) name = valueOf rest name := by
  have absent : own.find? (fun f => decide (f.1 = ascii name)) = none := by
    apply List.find?_eq_none.2
    intro f listed
    simpa using free f listed
  rw [valueOf, List.find?_append, absent, Option.none_or, valueOf]

theorem valueOf_event (req : AnnounceRequest) :
    valueOf (heard req) "event" = req.event.map (fun ev => ascii ev.text) := by
  rw [heard, params]
  cases req.event with
  | none =>
    split_ifs
    · rfl
    · rfl
  | some ev => cases ev <;> rfl

theorem valueOf_key (req : AnnounceRequest) :
    (valueOf (heard req) "key").bind readHex = if req.key = 0 then none else some req.key.toNat := by
  have same : valueOf (heard req) "key" = if req.key = 0 then none else some (percentDecode (hex8 req.key)) := by
    rw [heard, params]
    cases req.event with
    | none =>
      split_ifs
      · rfl
      · rfl
    | some ev =>
      split_ifs
      · rfl
      · rfl
  rw [same, percentDecode_plain _ (plain_hex8 req.key)]
  split_ifs
  · rfl
  · exact readHex_hex8 req.key

/-- A number is read from its digits. -/
theorem readDigits_heard (n : Nat) : readDigits (percentDecode (decimal n)) = some n := by
  rw [percentDecode_plain _ (plain_decimal n), readDigits_decimal]

/-- A tracker reads the request from the parameters, whatever other fields stand before them. -/
theorem readFields_heard (req : AnnounceRequest) (own : List (Query.Bytes × Query.Bytes))
    (free : ∀ f ∈ own, f.1 ∉ announceNames) :
    readFields (own ++ heard req) = some (reported req) := by
  have skip : ∀ name, ascii name ∈ announceNames →
      valueOf (own ++ heard req) name = valueOf (heard req) name := by
    intro name listed
    apply valueOf_append
    intro f member same
    exact free f member (same ▸ listed)
  have infohash : valueOf (heard req) "info_hash" = some (percentDecode (percentEncode req.infohash.bytes)) := rfl
  have peerId : valueOf (heard req) "peer_id" = some (percentDecode (percentEncode req.peerId.bytes)) := rfl
  have port : valueOf (heard req) "port" = some (percentDecode (decimal req.port.toNat)) := rfl
  have uploaded : valueOf (heard req) "uploaded" = some (percentDecode (decimal req.uploaded.toNat)) := rfl
  have downloaded : valueOf (heard req) "downloaded" = some (percentDecode (decimal req.downloaded.toNat)) := rfl
  have left : valueOf (heard req) "left" = some (percentDecode (decimal req.left.toNat)) := rfl
  have compact : valueOf (heard req) "compact" = some (ascii "1") := rfl
  have numwant : valueOf (heard req) "numwant" = some (percentDecode (decimal req.numwant.toNat)) := rfl
  rw [readFields, skip _ (by decide), skip _ (by decide), skip _ (by decide), skip _ (by decide),
    skip _ (by decide), skip _ (by decide), skip _ (by decide), skip _ (by decide), skip _ (by decide),
    skip _ (by decide), infohash, peerId, port, uploaded, downloaded, left, compact, numwant,
    valueOf_event, valueOf_key, percentDecode_percentEncode, percentDecode_percentEncode]
  simp only [Option.bind_eq_bind, Option.bind_some, readDigits_heard]
  rfl

/-! ### ASCII characters in UTF-8 -/

/-- An ASCII byte in the encoding of a character is the character. -/
theorem ascii_of_mem_encodeChar (c : Char) (b : UInt8) (listed : b ∈ String.utf8EncodeChar c)
    (low : b.toNat < 128) : c = Char.ofNat b.toNat := by
  have named : c.val.toNat = c.toNat := rfl
  have valid : c.toNat < 0xD800 ∨ 0xDFFF < c.toNat ∧ c.toNat < 0x110000 := c.valid
  rw [String.utf8EncodeChar, named] at listed
  split_ifs at listed with one two three
  · rw [List.mem_singleton] at listed
    rw [listed, UInt8.toNat_ofNat', Nat.mod_eq_of_lt (by omega), Char.ofNat_toNat]
  · simp only [List.mem_cons, List.not_mem_nil, or_false] at listed
    rcases listed with same | same <;> rw [same, UInt8.toNat_ofNat'] at low <;> omega
  · simp only [List.mem_cons, List.not_mem_nil, or_false] at listed
    rcases listed with same | same | same <;> rw [same, UInt8.toNat_ofNat'] at low <;> omega
  · simp only [List.mem_cons, List.not_mem_nil, or_false] at listed
    rcases listed with same | same | same | same <;> rw [same, UInt8.toNat_ofNat'] at low <;> omega

theorem mem_encode_ascii (text : List Char) (b : UInt8) (low : b.toNat < 128) :
    b ∈ Utf8.encode text ↔ Char.ofNat b.toNat ∈ text := by
  rw [Utf8.encode, List.mem_flatMap]
  constructor
  · rintro ⟨c, listed, inside⟩
    rwa [ascii_of_mem_encodeChar c b inside low] at listed
  · intro listed
    have single : String.utf8EncodeChar (Char.ofNat b.toNat) = [b] := by
      have valid : b.toNat.isValidChar := Or.inl (by omega)
      have code : (Char.ofNat b.toNat).val.toNat = b.toNat := by
        rw [Char.ofNat, dif_pos valid]
        rfl
      rw [String.utf8EncodeChar, code, if_pos (by omega), UInt8.ofNat_toNat]
    exact ⟨_, listed, by rw [single]; exact List.mem_singleton_self b⟩

/-! ### Main results -/

/-- The announce URL begins with the trimmed URL of the tracker, and what it asks for is what that URL
asks for and the request. -/
theorem announce_url_read (req : AnnounceRequest) (named : trim req.announceUrl ≠ [])
    (whole : '#' ∉ trim req.announceUrl)
    (free : ∀ f ∈ queryFields (Utf8.encode (trim req.announceUrl)), f.1 ∉ announceNames) :
    ∃ url, buildAnnounceUrl req = .ok url ∧ Utf8.encode (trim req.announceUrl) <+: url ∧
      queryFields (Utf8.encode (trim req.announceUrl)) <+: queryFields url ∧
      readFields (queryFields url) = some (reported req) := by
  have plainBase : ∀ b ∈ Utf8.encode (trim req.announceUrl), b ≠ HASH := by
    intro b listed same
    rw [same, mem_encode_ascii _ _ (by decide)] at listed
    exact whole listed
  have plainQuery := render_no_hash (params req) (fun f listed => (params_contained req f listed).1)
    (fun f listed => (params_contained req f listed).2)
  have asked : '?' ∈ trim req.announceUrl ↔ QUESTION ∈ Utf8.encode (trim req.announceUrl) :=
    (mem_encode_ascii _ QUESTION (by decide)).symm
  have built : buildAnnounceUrl req = .ok (Utf8.encode (trim req.announceUrl) ++
      (if '?' ∈ trim req.announceUrl then AMPERSAND else QUESTION) :: render (params req)) := by
    rw [buildAnnounceUrl]
    simp [named]
  refine ⟨_, built, List.prefix_append .., ?_⟩
  by_cases query : '?' ∈ trim req.announceUrl
  · rw [if_pos query, queryFields_more _ _ plainBase plainQuery (asked.1 query), fields_params]
    exact ⟨List.prefix_append .., readFields_heard req _ free⟩
  · have absent : QUESTION ∉ Utf8.encode (trim req.announceUrl) := fun listed => query (asked.2 listed)
    rw [if_neg query, queryFields_first _ _ plainBase plainQuery absent, fields_params]
    rw [queryFields_none _ absent]
    exact ⟨List.nil_prefix, readFields_heard req [] (by simp)⟩

/-- A request to a tracker whose URL has a passkey. -/
def passkeyRequest : AnnounceRequest where
  announceUrl := " http://t.example/announce?passkey=a%26b ".toList
  infohash := ⟨List.replicate 20 0x25, by simp⟩
  peerId := ⟨List.replicate 20 0x26, by simp⟩
  port := 6881
  uploaded := 0
  downloaded := 1
  left := 18446744073709551615
  event := some .started
  numwant := 80
  userAgent := []
  key := 0xBEEF

theorem passkey_url_read :
    ∃ url, buildAnnounceUrl passkeyRequest = .ok url ∧
      Utf8.encode (trim passkeyRequest.announceUrl) <+: url ∧
      queryFields (Utf8.encode (trim passkeyRequest.announceUrl)) <+: queryFields url ∧
      readFields (queryFields url) = some (reported passkeyRequest) :=
  announce_url_read passkeyRequest (by decide) (by decide) (by decide)

end Seedchamp.Tracker.Requests
