import Seedchamp.Catalog.PeerCache
import Seedchamp.Foundation.Text
import Seedchamp.Hot.Announcement
import Seedchamp.Hot.Availability
import Seedchamp.Peer.Delivery
import Seedchamp.Peer.Establish
import Seedchamp.Torrentfile.RoundTrip
import Seedchamp.Wire.AllowedFast

/-!
The first messages of an established session, and what a session at the other end learns from them.
-/

namespace Seedchamp.Peer.Opening
open Catalog.Bitfield Catalog.PeerCache Crypto.Mse Crypto.PayloadCipher Foundation
open Foundation.Decimal Foundation.FirstSeen Foundation.Text Hot.Announcement Hot.Availability
open Net.Inbound Peer.Delivery Peer.Establish Torrentfile.Bencode Torrentfile.Bencode.Value
open Torrentfile.RoundTrip Wire.AllowedFast Wire.Messages Wire.Parse

/-! ### The handshakes -/

def HS_EXT_BYTE : Nat := 25
def HS_EXT_BIT : UInt8 := 0x10
def HS_FAST_BYTE : Nat := 27
def HS_FAST_BIT : UInt8 := 0x04

def handshakeSupportsExtensions (hs : List UInt8) : Bool :=
  decide (HS_EXT_BYTE < hs.length) && hs.getD HS_EXT_BYTE 0 &&& HS_EXT_BIT != 0

def handshakeSupportsFast (hs : List UInt8) : Bool :=
  decide (HS_FAST_BYTE < hs.length) && hs.getD HS_FAST_BYTE 0 &&& HS_FAST_BIT != 0

def EXT_HANDSHAKE : UInt8 := 0
def LTEP_REQQ : Nat := 8192

/-- The `e` of the extended handshake: whether an encrypted stream is required, where encryption is
allowed. -/
def ltepE : EncryptionMode → Option Nat
  | .off => none
  | .preferPlain | .preferRc4 => some 0
  | .requireRc4 => some 1

def extendedPayload (client : List Char) (listenPort : UInt16) (e : Option Nat) : List UInt8 :=
  key "d" ++ (e.elim [] fun ev => key "1:ei" ++ decimal ev ++ key "e") ++ key "1:mde" ++
    (key "1:pi" ++ decimal listenPort.toNat ++ key "e") ++ (key "4:reqqi" ++ decimal LTEP_REQQ ++ key "e") ++
    (key "1:v" ++ decimal (Utf8.encode client).length ++ key ":") ++ Utf8.encode client ++ key "e"

def encodeExtendedHandshake (client : List Char) (listenPort : UInt16) (e : Option Nat) : Message :=
  .extended EXT_HANDSHAKE (extendedPayload client listenPort e)

/-- The client version of an extended handshake. -/
def ltepClientVersion (payload : List UInt8) : Option (List Char) :=
  match decode payload with
  | .error _ => none
  | .ok (val, _) =>
    match val.dictGetStr "v" with
    | none => none
    | some text =>
      if (trim text).isEmpty then none
      else if ((trim text).take 64).isEmpty then none else some ((trim text).take 64)

def preferClientLabel (fromPeerId : List Char) : Option (List Char) → List Char
  | some v => if (trim v).isEmpty then fromPeerId else (trim v).take 64
  | none => fromPeerId

/-! ### The opening -/

structure PeerConfig where
  allowDownload : Bool
  hash : Bool
  allowUpload : Bool
  ltepClient : List Char
  listenPort : UInt16
  encryption : EncryptionMode

structure EstablishedPeer where
  cfg : PeerConfig
  peerSupportsExt : Bool
  peerSupportsFast : Bool
  peerAddr : Option SocketAddr
  infohash : List UInt8
  pieceCount : Nat

/-- What the session reads off the torrent, one after the other, while others change it. -/
structure Seen where
  downloadComplete : Bool
  bitfield : Bits
  haveCount : Nat

def ALLOWED_FAST_K : Nat := 10

/-- `u32::from` of an IPv4 address. -/
def ipv4Word (ip : UInt8 × UInt8 × UInt8 × UInt8) : UInt32 :=
  UInt32.ofNat (((ip.1.toNat * 256 + ip.2.1.toNat) * 256 + ip.2.2.1.toNat) * 256 + ip.2.2.2.toNat)

section
variable (sha1 : List UInt8 → Digest)

/-- `generate_allowed_fast_set` takes no more rounds (`allowedFast_of_v4`). -/
def allowedFastForAddr (k pieceCount : Nat) (infohash : List UInt8) : SocketAddr → List Nat
  | .v4 addr =>
    (generateAllowedFastSet sha1 (32 * min k pieceCount) k pieceCount infohash (ipv4Word addr.ip)).getD []
  | .v6 _ _ _ _ => []

namespace EstablishedPeer

def wantDownload (peer : EstablishedPeer) (seen : Seen) : Bool :=
  peer.cfg.allowDownload && peer.cfg.hash && !seen.downloadComplete

def possession (peer : EstablishedPeer) (seen : Seen) : Message :=
  if peer.peerSupportsFast then encodePossessionFast seen.haveCount peer.pieceCount seen.bitfield
  else .bitfield seen.bitfield

/-- The pieces the peer may request while it is choked. -/
def allowedToPeer (peer : EstablishedPeer) : List Nat :=
  if peer.peerSupportsFast then
    peer.peerAddr.elim [] (allowedFastForAddr sha1 ALLOWED_FAST_K peer.pieceCount peer.infohash)
  else []

/-- The first write of `run`. -/
def opening (peer : EstablishedPeer) (seen : Seen) : List Message :=
  [peer.possession seen] ++ (if peer.wantDownload seen then [.interested] else []) ++
    (if peer.cfg.allowUpload then [.unchoke] else []) ++
    (peer.allowedToPeer sha1).map .allowedFast ++
    (if peer.peerSupportsExt then
      [encodeExtendedHandshake peer.cfg.ltepClient peer.cfg.listenPort (ltepE peer.cfg.encryption)]
    else [])

/-- What is written before the session loops start; `haves` are the pieces that the torrent announced
since the session subscribed. -/
def greeting (peer : EstablishedPeer) (seen : Seen) (haves : List Nat) : List Message :=
  peer.opening sha1 seen ++ haves.map .have_

end EstablishedPeer

end

/-! ### The other end -/

/-- What a session knows of its peer. -/
structure PeerView where
  peerBf : Bits
  peerChoking : Bool
  peerInterested : Bool
  allowedFast : Finset Nat
  clientLabel : List Char

/-- What `parse_available_messages` notes of a message about the peer. -/
def learn (pieceCount : Nat) (downloading : Bool) (view : PeerView) : ParsedMessage → PeerView
  | .msg .choke => { view with peerChoking := true }
  | .msg .unchoke => { view with peerChoking := false }
  | .msg .interested => { view with peerInterested := true }
  | .msg .notInterested => { view with peerInterested := false }
  | .msg (.have_ i) => { view with peerBf := bitfieldSet view.peerBf i }
  | .msg .haveAll => { view with peerBf := applyHaveAllNone view.peerBf pieceCount true }
  | .msg .haveNone => { view with peerBf := applyHaveAllNone view.peerBf pieceCount false }
  | .msg (.bitfield bits) => { view with peerBf := copyPrefix view.peerBf bits }
  | .msg (.allowedFast i) =>
    if downloading then { view with allowedFast := insert i view.allowedFast } else view
  | .msg (.extended extId payload) =>
    if extId = EXT_HANDSHAKE then
      match ltepClientVersion payload with
      | some v => { view with clientLabel := preferClientLabel view.clientLabel (some v) }
      | none => view
    else view
  | _ => view

/-- A session before the first message, with the label of the peer's id. -/
def newView (pieceCount : Nat) (fromPeerId : List Char) : PeerView :=
  ⟨emptyBitfield pieceCount, true, false, ∅, fromPeerId⟩

def understood (pieceCount : Nat) (downloading : Bool) (view : PeerView) (parsed : Parsed) : PeerView :=
  (parsed.frames.map Prod.fst).foldl (learn pieceCount downloading) view

/-! ### What the messages carry -/

/-- The handshake up to the infohash. -/
def handshakeFront : List UInt8 := [19] ++ BT_PROTOCOL ++ [0, 0, 0, 0, 0, 0x10, 0, 0x04]

/-- Every client of this code offers both extensions. -/
theorem encodeHandshake_supports (infohash peerId : List UInt8) :
    handshakeSupportsExtensions (encodeHandshake infohash peerId) = true ∧
      handshakeSupportsFast (encodeHandshake infohash peerId) = true := by
  have length : handshakeFront.length = 28 := by decide
  have split : encodeHandshake infohash peerId = handshakeFront ++ (infohash ++ peerId) :=
    List.append_assoc _ _ _
  have front : ∀ i, i < 28 → (handshakeFront ++ (infohash ++ peerId)).getD i 0 = handshakeFront.getD i 0 :=
    fun i inside => List.getD_append _ _ _ _ (by rw [length]; exact inside)
  have long : 28 ≤ (handshakeFront ++ (infohash ++ peerId)).length := by
    rw [List.length_append, length]
    omega
  rw [handshakeSupportsExtensions, handshakeSupportsFast, split, front _ (by decide), front _ (by decide),
    decide_eq_true (Nat.lt_of_lt_of_le (by decide) long),
    decide_eq_true (Nat.lt_of_lt_of_le (by decide) long)]
  decide

/-- The extended handshake as a dictionary. -/
def extendedEntries (client : List Char) (listenPort : UInt16) (e : Option Nat) :
    List (List UInt8 × Value) :=
  (e.elim [] fun ev => [(key "e", .int (Int64.ofNat ev))]) ++
    [(key "m", .dict []), (key "p", .int (Int64.ofNat listenPort.toNat)),
      (key "reqq", .int (Int64.ofNat LTEP_REQQ)), (key "v", .bytes (Utf8.encode client))]

theorem intText_ofNat (n : Nat) (small : n < 2 ^ 63) : intText (Int64.ofNat n) = decimal n := by
  rw [intText, Int64.toInt_ofNat_of_lt small, if_neg (by omega), Int.natAbs_natCast]

theorem ltepE_small (mode : EncryptionMode) (ev : Nat) (told : ltepE mode = some ev) : ev < 2 ^ 63 := by
  cases mode <;> cases told <;> decide

/-- The keys of the extended handshake as they stand in its text. -/
theorem extendedKeys :
    encodeBytes (key "e") = key "1:e" ∧ encodeBytes (key "m") = key "1:m" ∧
    encodeBytes (key "p") = key "1:p" ∧ encodeBytes (key "reqq") = key "4:reqq" ∧
    encodeBytes (key "v") = key "1:v" ∧ key "1:ei" = key "1:e" ++ [byte 'i'] ∧
    key "1:mde" = key "1:m" ++ [byte 'd', byte 'e'] ∧ key "1:pi" = key "1:p" ++ [byte 'i'] ∧
    key "4:reqqi" = key "4:reqq" ++ [byte 'i'] ∧ key "d" = [byte 'd'] ∧ key "e" = [byte 'e'] ∧
    key ":" = [byte ':'] := by decide +kernel

/-- The text that is written is the encoding of the dictionary. -/
theorem extendedPayload_eq (client : List Char) (listenPort : UInt16) (mode : EncryptionMode) :
    extendedPayload client listenPort (ltepE mode) =
      encode (.dict (extendedEntries client listenPort (ltepE mode))) := by
  have port : intText (Int64.ofNat listenPort.toNat) = decimal listenPort.toNat :=
    intText_ofNat _ (by have := listenPort.toNat_lt; omega)
  have queue : intText (Int64.ofNat LTEP_REQQ) = decimal LTEP_REQQ := intText_ofNat _ (by decide)
  obtain ⟨e, m, p, reqq, v, ei, mde, pi, reqqi, d, e', colon⟩ := extendedKeys
  rw [extendedPayload, extendedEntries, mde, pi, reqqi, d, colon]
  cases told : ltepE mode with
  | none =>
    simp only [Option.elim, List.nil_append, List.cons_append, encode, encodeEntries, m, p, reqq, v, port,
      queue, e']
    simp [encodeBytes]
  | some ev =>
    have small := intText_ofNat ev (ltepE_small mode ev told)
    simp only [Option.elim, List.nil_append, List.cons_append, encode, encodeEntries, e, m, p, reqq, v,
      port, queue, small, ei]
    simp [encodeBytes, e']

theorem extendedPayload_length (client : List Char) (listenPort : UInt16) (mode : EncryptionMode)
    (short : (Utf8.encode client).length < 10 ^ 6) :
    (extendedPayload client listenPort (ltepE mode)).length ≤ (Utf8.encode client).length + 45 := by
  have port := decimal_length_le listenPort.toNat 5 (by decide) (by
    have := listenPort.toNat_lt
    omega)
  have text := decimal_length_le (Utf8.encode client).length 6 (by decide) short
  have queue : (decimal LTEP_REQQ).length = 4 := by decide +kernel
  have sizes : (key "d").length = 1 ∧ (key "1:ei").length = 4 ∧ (key "e").length = 1 ∧
      (key "1:mde").length = 5 ∧ (key "1:pi").length = 4 ∧ (key "4:reqqi").length = 7 ∧
      (key "1:v").length = 3 ∧ (key ":").length = 1 := by decide +kernel
  obtain ⟨d, ei, e, mde, pi, reqqi, v, colon⟩ := sizes
  have flag : ((ltepE mode).elim [] fun ev => key "1:ei" ++ decimal ev ++ key "e").length ≤ 6 := by
    cases mode <;> decide +kernel
  rw [extendedPayload]
  simp only [List.length_append, d, e, mde, pi, reqqi, v, colon, queue]
  omega

theorem extendedEntries_wellFormed (client : List Char) (listenPort : UInt16) (mode : EncryptionMode) :
    WellFormed (.dict (extendedEntries client listenPort (ltepE mode))) := by
  have order : (([key "e", key "m", key "p", key "reqq", key "v"] : List (List UInt8)).Pairwise
      (fun a b => a < b)) := by decide +kernel
  apply WellFormed.dict
  · have keys : ((extendedEntries client listenPort (ltepE mode)).map Prod.fst).Sublist
        [key "e", key "m", key "p", key "reqq", key "v"] := by
      cases mode <;> simp [extendedEntries, ltepE]
    exact List.pairwise_map.1 (order.sublist keys)
  · intro entry listed
    rw [extendedEntries, List.mem_append] at listed
    rcases listed with flag | rest
    · cases told : ltepE mode with
      | none =>
        rw [told] at flag
        cases flag
      | some ev =>
        rw [told] at flag
        rw [List.mem_singleton.1 flag]
        exact WellFormed.int _
    · simp only [List.mem_cons, List.not_mem_nil, or_false] at rest
      rcases rest with rfl | rfl | rfl | rfl
      · exact WellFormed.dict [] List.Pairwise.nil (fun entry none => by cases none)
      · exact WellFormed.int _
      · exact WellFormed.int _
      · exact WellFormed.bytes _

/-- The client label of the sender is read back out of its extended handshake. -/
theorem ltepClientVersion_extended (client : List Char) (listenPort : UInt16) (mode : EncryptionMode)
    (short : (Utf8.encode client).length < 10 ^ 6) :
    ltepClientVersion (extendedPayload client listenPort (ltepE mode)) =
      if trim client = [] then none else some ((trim client).take 64) := by
  have small := extendedPayload_length client listenPort mode short
  have read := decode_encode (.dict (extendedEntries client listenPort (ltepE mode)))
    (extendedEntries_wellFormed client listenPort mode) [] (by
      rw [List.append_nil, ← extendedPayload_eq]
      omega)
  rw [List.append_nil, ← extendedPayload_eq] at read
  have keys : key "e" ≠ key "v" ∧ key "m" ≠ key "v" ∧ key "p" ≠ key "v" ∧ key "reqq" ≠ key "v" := by
    decide +kernel
  have found : Value.dictGetStr (.dict (extendedEntries client listenPort (ltepE mode))) "v" =
      some client := by
    have entry : SortedMap.get? (key "v") (extendedEntries client listenPort (ltepE mode)) =
        some (.bytes (Utf8.encode client)) := by
      rw [extendedEntries]
      cases ltepE mode with
      | none =>
        simp [SortedMap.get?_cons, keys]
      | some ev =>
        simp [SortedMap.get?_cons, keys]
    rw [Value.dictGetStr, Value.dictGet, Value.asDict, Option.bind_some, entry]
    exact Utf8.decode_encode client
  rw [ltepClientVersion, read]
  dsimp only
  rw [found]
  dsimp only
  by_cases blank : trim client = []
  · rw [if_pos blank, blank]
    rfl
  · have some_ : (trim client).take 64 ≠ [] := by
      intro none
      cases list : trim client with
      | nil => exact blank list
      | cons c rest =>
        rw [list] at none
        cases none
    rw [if_neg blank, if_neg (by rw [List.isEmpty_iff]; exact blank),
      if_neg (by rw [List.isEmpty_iff]; exact some_)]

/-! ### What the other end learns -/

theorem applyHaveAllNone_all (pieceCount : Nat) :
    applyHaveAllNone (emptyBitfield pieceCount) pieceCount true = allSetBitfield pieceCount := by
  have full : ∀ byte : UInt8, 0xff &&& byte = byte := by
    intro byte
    apply UInt8.toBitVec_inj.1
    exact BitVec.allOnes_and
  rw [applyHaveAllNone, allSetBitfield, if_pos rfl, emptyBitfield_length]
  dsimp only
  by_cases spare : pieceCount % 8 = 0
  · rw [if_neg (fun clash => clash spare), if_neg (fun clash => clash.2 spare)]
  · rw [if_pos spare, if_pos ⟨by omega, spare⟩]
    apply List.ext_getElem?
    intro i
    rw [List.getElem?_modify, List.getElem?_set, List.length_replicate, List.getElem?_replicate]
    have some_ : 0 < bitfieldSizeBytes pieceCount := by
      rw [bitfieldSizeBytes]
      omega
    by_cases last : bitfieldSizeBytes pieceCount - 1 = i
    · have inside : i < bitfieldSizeBytes pieceCount := by omega
      simp [last, inside, full]
    · simp [last]

theorem applyHaveAllNone_none (pieceCount : Nat) :
    applyHaveAllNone (emptyBitfield pieceCount) pieceCount false = emptyBitfield pieceCount := by
  rw [applyHaveAllNone, emptyBitfield_length]
  rfl

theorem copyPrefix_same (bf new : Bits) (same : new.length = bf.length) : copyPrefix bf new = new := by
  rw [copyPrefix, ← same, List.take_length, same, List.drop_length, List.append_nil]

theorem learn_allowedFast (pieceCount : Nat) (downloading : Bool) (view : PeerView) (set : List Nat) :
    ((set.map Message.allowedFast).map parsedAs).foldl (learn pieceCount downloading) view =
      { view with allowedFast :=
          if downloading then view.allowedFast ∪ set.toFinset else view.allowedFast } := by
  induction set generalizing view with
  | nil => cases downloading <;> simp
  | cons i rest ih =>
    rw [List.map_cons, List.map_cons, List.foldl_cons, ih]
    cases downloading with
    | false => rfl
    | true => simp [parsedAs, learn, Finset.insert_union]

theorem learn_haves (pieceCount : Nat) (downloading : Bool) (view : PeerView) (haves : List Nat) :
    ((haves.map Message.have_).map parsedAs).foldl (learn pieceCount downloading) view =
      { view with peerBf := haves.foldl bitfieldSet view.peerBf } := by
  induction haves generalizing view with
  | nil => rfl
  | cons i rest ih =>
    rw [List.map_cons, List.map_cons, List.foldl_cons, ih]
    rfl

theorem bitfieldGet_foldl (haves : List Nat) (bits : Bits)
    (inside : ∀ i ∈ haves, i / 8 < bits.length) (i : Nat) :
    bitfieldGet (haves.foldl bitfieldSet bits) i = (bitfieldGet bits i || decide (i ∈ haves)) := by
  induction haves generalizing bits with
  | nil => simp
  | cons first rest ih =>
    rw [List.foldl_cons, ih _ (fun j member => by
      rw [bitfieldSet_length]
      exact inside j (List.mem_cons_of_mem first member))]
    by_cases same : i = first
    · rw [same, bitfieldGet_bitfieldSet_self bits first (inside first List.mem_cons_self)]
      simp
    · rw [bitfieldGet_bitfieldSet_other bits first i same]
      simp [same]

section
variable (sha1 : List UInt8 → Digest)

/-- The rounds are enough, and the pieces exist. -/
theorem allowedFast_lt (k pieceCount : Nat) (infohash : List UInt8) (addr : SocketAddr) (i : Nat)
    (listed : i ∈ allowedFastForAddr sha1 k pieceCount infohash addr) : i < pieceCount := by
  cases addr with
  | v6 ip port flowinfo scopeId => cases listed
  | v4 addr =>
    rw [allowedFastForAddr] at listed
    by_cases none : k = 0 ∨ pieceCount = 0
    · rw [generateAllowedFastSet, if_pos none] at listed
      cases listed
    · rw [not_or] at none
      obtain ⟨last, few, -, -, made⟩ := generate_eq sha1 k pieceCount infohash (ipv4Word addr.ip) none.1
        none.2
      rw [made _ few, Option.getD_some] at listed
      obtain ⟨j, -, rfl⟩ := (mem_firsts _ _ _).1 (List.mem_of_mem_take listed)
      exact drawn_lt sha1 pieceCount _ j none.2

theorem allowedToPeer_lt (peer : EstablishedPeer) (i : Nat) (listed : i ∈ peer.allowedToPeer sha1) :
    i < peer.pieceCount := by
  rw [EstablishedPeer.allowedToPeer] at listed
  split_ifs at listed
  · cases known : peer.peerAddr with
    | none =>
      rw [known] at listed
      cases listed
    | some addr =>
      rw [known] at listed
      exact allowedFast_lt sha1 ALLOWED_FAST_K peer.pieceCount peer.infohash addr i listed
  · cases listed

/-- What a session puts in its greeting is within the limits of a reader. -/
structure Fits (peer : EstablishedPeer) (seen : Seen) (haves : List Nat) : Prop where
  bits : seen.bitfield.length = bitfieldSizeBytes peer.pieceCount
  pieces : bitfieldSizeBytes peer.pieceCount < MAX_MESSAGE_LENGTH
  client : (Utf8.encode peer.cfg.ltepClient).length < 10 ^ 6
  haves : ∀ i ∈ haves, i < peer.pieceCount

theorem fits_pieceCount {peer : EstablishedPeer} {seen : Seen} {haves : List Nat}
    (fits : Fits peer seen haves) : peer.pieceCount < 2 ^ 32 := by
  have pieces := fits.pieces
  have most : MAX_MESSAGE_LENGTH = 1048576 := rfl
  rw [bitfieldSizeBytes] at pieces
  omega

theorem greeting_admissible (peer : EstablishedPeer) (seen : Seen) (haves : List Nat)
    (fits : Fits peer seen haves) :
    ∀ message ∈ peer.greeting sha1 seen haves, Admissible message := by
  have words := fits_pieceCount fits
  have most : MAX_MESSAGE_LENGTH = 1048576 := rfl
  have plain : ∀ message : Message, FieldsFit message → (encodeMessage message).length ≤ 9 →
      (∀ id payload, message ≠ .unknown id payload) → Admissible message := by
    intro message fields short known
    exact ⟨fields, by omega, fun id payload same => absurd same (known id payload)⟩
  have bits : Admissible (.bitfield seen.bitfield) := by
    refine ⟨trivial, ?_, fun id payload same => by cases same⟩
    rw [encodeMessage, encodeId_length, fits.bits]
    have pieces := fits.pieces
    omega
  intro message listed
  simp only [EstablishedPeer.greeting, EstablishedPeer.opening, List.mem_append] at listed
  rcases listed with ((((possession | interested) | unchoke) | allowed) | extended) | have_
  · rw [List.mem_singleton.1 possession, EstablishedPeer.possession, encodePossessionFast]
    split_ifs
    · exact plain _ trivial (by decide) (fun id payload same => by cases same)
    · exact plain _ trivial (by decide) (fun id payload same => by cases same)
    · exact bits
    · exact bits
  · split_ifs at interested
    · rw [List.mem_singleton.1 interested]
      exact plain _ trivial (by decide) (fun id payload same => by cases same)
    · cases interested
  · split_ifs at unchoke
    · rw [List.mem_singleton.1 unchoke]
      exact plain _ trivial (by decide) (fun id payload same => by cases same)
    · cases unchoke
  · obtain ⟨i, member, rfl⟩ := List.mem_map.1 allowed
    have below := allowedToPeer_lt sha1 peer i member
    exact plain _ (below.trans words) (Nat.le_refl 9) (fun id payload same => by cases same)
  · split_ifs at extended
    · rw [List.mem_singleton.1 extended]
      refine ⟨trivial, ?_, fun id payload same => by cases same⟩
      have small := extendedPayload_length peer.cfg.ltepClient peer.cfg.listenPort peer.cfg.encryption
        fits.client
      have client := fits.client
      rw [encodeExtendedHandshake, encodeMessage, encodeId_length, List.length_cons]
      omega
    · cases extended
  · obtain ⟨i, member, rfl⟩ := List.mem_map.1 have_
    exact plain _ ((fits.haves i member).trans words) (Nat.le_refl 9) (fun id payload same => by cases same)

/-- The possession message gives the reader the bits that it announces. -/
theorem learn_possession (peer : EstablishedPeer) (seen : Seen) (downloading : Bool)
    (fromPeerId : List Char) (sized : seen.bitfield.length = bitfieldSizeBytes peer.pieceCount) :
    ∃ bits, bits.length = bitfieldSizeBytes peer.pieceCount ∧
      (∀ i, i < peer.pieceCount →
        bitfieldGet bits i = announces peer.pieceCount i (peer.possession seen)) ∧
      learn peer.pieceCount downloading (newView peer.pieceCount fromPeerId)
          (parsedAs (peer.possession seen)) =
        { newView peer.pieceCount fromPeerId with peerBf := bits } := by
  have given : ∀ told : Message, told = .bitfield seen.bitfield →
      ∃ bits, bits.length = bitfieldSizeBytes peer.pieceCount ∧
        (∀ i, i < peer.pieceCount → bitfieldGet bits i = announces peer.pieceCount i told) ∧
        learn peer.pieceCount downloading (newView peer.pieceCount fromPeerId) (parsedAs told) =
          { newView peer.pieceCount fromPeerId with peerBf := bits } := by
    rintro told rfl
    refine ⟨seen.bitfield, sized, fun i _ => rfl, ?_⟩
    rw [parsedAs, learn, newView, copyPrefix_same _ _ (by rw [sized, emptyBitfield_length])]
    intro index begin' block same
    cases same
  rw [EstablishedPeer.possession, encodePossessionFast]
  split_ifs with fast full none
  · refine ⟨allSetBitfield peer.pieceCount, allSetBitfield_length _, ?_, ?_⟩
    · intro i below
      rw [bitfieldGet_allSetBitfield _ _ below, announces, decide_eq_true below]
    · simp [parsedAs, learn, newView, applyHaveAllNone_all]
  · refine ⟨emptyBitfield peer.pieceCount, emptyBitfield_length _, ?_, ?_⟩
    · intro i below
      rw [bitfieldGet_emptyBitfield]
      rfl
    · simp [parsedAs, learn, newView, applyHaveAllNone_none]
  · exact given _ rfl
  · exact given _ rfl

/-- The label that the other end shows. -/
def labelOf (peer : EstablishedPeer) (fromPeerId : List Char) : List Char :=
  if peer.peerSupportsExt = true ∧ trim peer.cfg.ltepClient ≠ [] then
    preferClientLabel fromPeerId (some ((trim peer.cfg.ltepClient).take 64))
  else fromPeerId

theorem learn_interested (pieceCount : Nat) (downloading want : Bool) (view : PeerView) :
    ((if want then [Message.interested] else []).map parsedAs).foldl (learn pieceCount downloading) view =
      { view with peerInterested := view.peerInterested || want } := by
  cases want <;> simp [parsedAs, learn]

theorem learn_unchoke (pieceCount : Nat) (downloading upload : Bool) (view : PeerView) :
    ((if upload then [Message.unchoke] else []).map parsedAs).foldl (learn pieceCount downloading) view =
      { view with peerChoking := view.peerChoking && !upload } := by
  cases upload <;> simp [parsedAs, learn]

theorem learn_extended (peer : EstablishedPeer) (downloading : Bool) (view : PeerView)
    (short : (Utf8.encode peer.cfg.ltepClient).length < 10 ^ 6) :
    ((if peer.peerSupportsExt then
        [encodeExtendedHandshake peer.cfg.ltepClient peer.cfg.listenPort (ltepE peer.cfg.encryption)]
      else []).map parsedAs).foldl (learn peer.pieceCount downloading) view =
      { view with clientLabel := labelOf peer view.clientLabel } := by
  have version := ltepClientVersion_extended peer.cfg.ltepClient peer.cfg.listenPort peer.cfg.encryption
    short
  rw [labelOf]
  cases peer.peerSupportsExt with
  | false => simp
  | true =>
    by_cases blank : trim peer.cfg.ltepClient = []
    · simp [parsedAs, learn, encodeExtendedHandshake, version, blank]
    · simp [parsedAs, learn, encodeExtendedHandshake, version, blank]

theorem greeting_view (peer : EstablishedPeer) (seen : Seen) (haves : List Nat) (downloading : Bool)
    (fromPeerId : List Char) (fits : Fits peer seen haves) :
    ∃ bits, bits.length = bitfieldSizeBytes peer.pieceCount ∧
      (∀ i, i < peer.pieceCount →
        bitfieldGet bits i = announces peer.pieceCount i (peer.possession seen)) ∧
      ((peer.greeting sha1 seen haves).map parsedAs).foldl (learn peer.pieceCount downloading)
          (newView peer.pieceCount fromPeerId) =
        ⟨haves.foldl bitfieldSet bits, !peer.cfg.allowUpload, peer.wantDownload seen,
          if downloading then (peer.allowedToPeer sha1).toFinset else ∅, labelOf peer fromPeerId⟩ := by
  obtain ⟨bits, sized, same, told⟩ := learn_possession peer seen downloading fromPeerId fits.bits
  refine ⟨bits, sized, same, ?_⟩
  rw [EstablishedPeer.greeting, EstablishedPeer.opening]
  simp only [List.map_append, List.foldl_append, List.map_cons, List.map_nil, List.foldl_cons,
    List.foldl_nil, told, learn_interested, learn_unchoke, learn_allowedFast,
    learn_extended peer downloading _ fits.client, learn_haves]
  cases downloading <;> simp [newView]

/-! ### The extensions -/

/-- The messages of the Fast extension. -/
def fastOnly : Message → Bool
  | .haveAll | .haveNone | .allowedFast _ | .suggestPiece _ | .rejectRequest _ _ _ => true
  | _ => false

def extendedOnly : Message → Bool
  | .extended _ _ => true
  | _ => false

def tellsPossession : Message → Bool
  | .bitfield _ | .haveAll | .haveNone => true
  | _ => false

/-- Possession is told once and first, and a message of an extension only to a peer that has it. -/
structure Polite (peer : EstablishedPeer) (messages : List Message) : Prop where
  fast : ∀ message ∈ messages, fastOnly message = true → peer.peerSupportsFast = true
  extended : ∀ message ∈ messages, extendedOnly message = true → peer.peerSupportsExt = true
  first : ∃ possession rest, messages = possession :: rest ∧ tellsPossession possession = true ∧
    ∀ message ∈ rest, tellsPossession message = false

theorem greeting_polite (peer : EstablishedPeer) (seen : Seen) (haves : List Nat) :
    Polite peer (peer.greeting sha1 seen haves) := by
  have tail : ∀ message, message ∈ (if peer.wantDownload seen then [Message.interested] else []) ++
      (if peer.cfg.allowUpload then [.unchoke] else []) ++ (peer.allowedToPeer sha1).map .allowedFast ++
      (if peer.peerSupportsExt then
        [encodeExtendedHandshake peer.cfg.ltepClient peer.cfg.listenPort (ltepE peer.cfg.encryption)]
      else []) ++ haves.map .have_ → tellsPossession message = false ∧
        (fastOnly message = true → peer.peerSupportsFast = true) ∧
        (extendedOnly message = true → peer.peerSupportsExt = true) := by
    intro message listed
    simp only [List.mem_append] at listed
    rcases listed with (((interested | unchoke) | allowed) | extended) | have_
    · split_ifs at interested
      · rw [List.mem_singleton.1 interested]
        exact ⟨rfl, (fun clash => by cases clash), (fun clash => by cases clash)⟩
      · cases interested
    · split_ifs at unchoke
      · rw [List.mem_singleton.1 unchoke]
        exact ⟨rfl, (fun clash => by cases clash), (fun clash => by cases clash)⟩
      · cases unchoke
    · obtain ⟨i, member, rfl⟩ := List.mem_map.1 allowed
      refine ⟨rfl, fun _ => ?_, fun clash => by cases clash⟩
      rw [EstablishedPeer.allowedToPeer] at member
      split_ifs at member with supports
      · exact supports
      · cases member
    · split_ifs at extended with supports
      · rw [List.mem_singleton.1 extended]
        exact ⟨rfl, (fun clash => by cases clash), fun _ => supports⟩
      · cases extended
    · obtain ⟨i, member, rfl⟩ := List.mem_map.1 have_
      exact ⟨rfl, (fun clash => by cases clash), (fun clash => by cases clash)⟩
  have head : tellsPossession (peer.possession seen) = true ∧
      (fastOnly (peer.possession seen) = true → peer.peerSupportsFast = true) ∧
      (extendedOnly (peer.possession seen) = true → peer.peerSupportsExt = true) := by
    rw [EstablishedPeer.possession, encodePossessionFast]
    split_ifs with fast
    · exact ⟨rfl, fun _ => fast, fun clash => by cases clash⟩
    · exact ⟨rfl, fun _ => fast, fun clash => by cases clash⟩
    · exact ⟨rfl, fun _ => fast, fun clash => by cases clash⟩
    · exact ⟨rfl, (fun clash => by cases clash), (fun clash => by cases clash)⟩
  have split : peer.greeting sha1 seen haves = peer.possession seen ::
      ((if peer.wantDownload seen then [Message.interested] else []) ++
      (if peer.cfg.allowUpload then [.unchoke] else []) ++ (peer.allowedToPeer sha1).map .allowedFast ++
      (if peer.peerSupportsExt then
        [encodeExtendedHandshake peer.cfg.ltepClient peer.cfg.listenPort (ltepE peer.cfg.encryption)]
      else []) ++ haves.map .have_) := by
    simp [EstablishedPeer.greeting, EstablishedPeer.opening]
  rw [split]
  refine ⟨?_, ?_, _, _, rfl, head.1, fun message listed => (tail message listed).1⟩
  · intro message listed
    rcases List.mem_cons.1 listed with rfl | later
    · exact head.2.1
    · exact (tail message later).2.1
  · intro message listed
    rcases List.mem_cons.1 listed with rfl | later
    · exact head.2.2
    · exact (tail message later).2.2

/-- What the other end knows after the greeting. -/
structure Learned (peer : EstablishedPeer) (seen : Seen) (haves : List Nat) (downloading : Bool)
    (fromPeerId : List Char) (view : PeerView) : Prop where
  pieces : ∀ i, i < peer.pieceCount → (bitfieldGet view.peerBf i = true ↔
    announces peer.pieceCount i (peer.possession seen) = true ∨ i ∈ haves)
  choking : view.peerChoking = !peer.cfg.allowUpload
  interested : view.peerInterested = peer.wantDownload seen
  allowed : ∀ i, i ∈ view.allowedFast ↔ downloading = true ∧ i ∈ peer.allowedToPeer sha1
  exist : ∀ i ∈ view.allowedFast, i < peer.pieceCount
  label : view.clientLabel = labelOf peer fromPeerId

/-- However the greeting is encrypted and cut into reads, the other end understands all of it: it knows
the pieces that were announced, whether it is choked and wanted, what it may request while it is
choked, and the client's name; and it is told nothing it has not offered to understand. -/
theorem opening_understood (peer : EstablishedPeer) (seen : Seen) (haves : List Nat)
    (fits : Fits peer seen haves) (rc4 : Option Rc4) (early : List UInt8) (reads : List (List UInt8))
    (whole : early ++ received reads =
      (cryptOpt rc4 (encodeAll (peer.greeting sha1 seen haves))).1)
    (downloading : Bool) (fromPeerId : List Char) :
    let got := inbound (moved rc4 early.length) (cryptOpt rc4 early).1 reads
    got.problem = none ∧ Polite peer (peer.greeting sha1 seen haves) ∧
      Learned sha1 peer seen haves downloading fromPeerId
        (understood peer.pieceCount downloading (newView peer.pieceCount fromPeerId) got) := by
  intro got
  obtain ⟨clean, read⟩ := messages_read rc4 _ (greeting_admissible sha1 peer seen haves fits) early reads
    whole
  obtain ⟨bits, sized, same, view⟩ := greeting_view sha1 peer seen haves downloading fromPeerId fits
  refine ⟨clean, greeting_polite sha1 peer seen haves, ?_⟩
  rw [understood, read, view]
  have allowed : ∀ i, i ∈ (if downloading then (peer.allowedToPeer sha1).toFinset else ∅) ↔
      downloading = true ∧ i ∈ peer.allowedToPeer sha1 := by
    intro i
    cases downloading <;> simp
  refine ⟨?_, rfl, rfl, allowed, fun i listed => allowedToPeer_lt sha1 peer i ((allowed i).1 listed).2, rfl⟩
  intro i below
  have inside : ∀ j ∈ haves, j / 8 < bits.length := fun j member => by
    rw [sized]
    exact index_div_lt_size j _ (fits.haves j member)
  rw [bitfieldGet_foldl haves bits inside, same i below, Bool.or_eq_true, decide_eq_true_eq]

end

/-- A digest of five different words. -/
def fiveWords (_ : List UInt8) : Digest := ⟨(List.range 20).map (fun i => UInt8.ofNat (i / 4)), by decide⟩

/-- A leech that has the first of three pieces, and gets the second one while it says so. -/
def leech : EstablishedPeer where
  cfg := ⟨true, true, true, "seedchamp 1".toList, 6881, .preferRc4⟩
  peerSupportsExt := true
  peerSupportsFast := true
  peerAddr := some (.v4 ⟨(80, 4, 4, 200), 51413⟩)
  infohash := List.replicate 20 0xaa
  pieceCount := 3

def firstPiece : Seen := ⟨false, [0x80], 1⟩

def leechWire : List UInt8 := encodeAll (leech.greeting fiveWords firstPiece [1])

theorem leech_understood :
    (inbound none [] [leechWire.take 7, leechWire.drop 7]).problem = none ∧
      Learned fiveWords leech firstPiece [1] true "-XX0001-".toList
        (understood 3 true (newView 3 "-XX0001-".toList)
          (inbound none [] [leechWire.take 7, leechWire.drop 7])) ∧
      (leech.greeting fiveWords firstPiece [1]).take 6 =
        [.bitfield [0x80], .interested, .unchoke, .allowedFast 0, .allowedFast 1, .allowedFast 2] ∧
      labelOf leech "-XX0001-".toList = "seedchamp 1".toList := by
  have fits : Fits leech firstPiece [1] := ⟨by decide, by decide, by decide +kernel, by decide⟩
  obtain ⟨clean, -, learned⟩ := opening_understood fiveWords leech firstPiece [1] fits none []
    [leechWire.take 7, leechWire.drop 7] (by decide +kernel) true "-XX0001-".toList
  exact ⟨clean, learned, by decide +kernel, by decide +kernel⟩

end Seedchamp.Peer.Opening
