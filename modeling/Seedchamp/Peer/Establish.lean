import Seedchamp.Crypto.Mse
import Seedchamp.Foundation.Segments

/-!
How a connection is established, inbound and outbound, in the clear or with MSE. The remote is the
segments that it sends; where they end, it sends nothing more in time.
-/

namespace Seedchamp.Peer.Establish
open Foundation.Segments Crypto.PayloadCipher Crypto.Mse Wire.Messages
open Disk.Spans (Error)

/-! ### Handshake -/

def HANDSHAKE_LEN : Nat := 68

def BT_PROTOCOL : Bytes := "BitTorrent protocol".toList.map (fun ch => UInt8.ofNat ch.toNat)

/-- The reserved bytes offer the extension protocol and the fast extension. -/
def encodeHandshake (infohash peerId : Bytes) : Bytes :=
  [19] ++ BT_PROTOCOL ++ [0, 0, 0, 0, 0, 0x10, 0, 0x04] ++ infohash ++ peerId

def looksLikeBtHandshake (buf : Bytes) : Bool :=
  decide (20 ≤ buf.length) && (buf.getD 0 0 == 19) && ((buf.drop 1).take 19 == BT_PROTOCOL)

def parseHandshake (buf : Bytes) : Except Error (Bytes × Bytes) :=
  if buf.length < HANDSHAKE_LEN then .error (.msg "handshake truncated")
  else if buf.getD 0 0 ≠ 19 ∨ (buf.drop 1).take 19 ≠ BT_PROTOCOL then
    .error (.msg "not a BitTorrent handshake")
  else .ok ((buf.drop 28).take 20, (buf.drop 48).take 20)

def require (condition : Bool) (problem : String) : Except Error Unit :=
  if condition then .ok () else .error (.msg problem)

def orElse (value : Option α) (problem : String) : Except Error α :=
  match value with
  | some a => .ok a
  | none => .error (.msg problem)

/-- Drop connections where the remote's peer id is ours. -/
def rejectIfSelf (ourPeerId peerHs : Bytes) : Except Error Unit := do
  let parsed ← parseHandshake peerHs
  require (parsed.2 ≠ ourPeerId) "is self"

/-! ### Sessions -/

inductive PeerCrypto where
  | plain
  | pePlain
  | rc4
  deriving DecidableEq, Repr

structure WireCrypto where
  encrypt : Rc4
  decrypt : Rc4

/-- A peer that reaches the wire loop. `mse` is history: the methods the initiator offered, and the
session that the handshake ended with. -/
structure Established where
  infohash : Bytes
  wire : Option WireCrypto
  peerHs : Bytes
  initialPlain : Bytes
  crypto : PeerCrypto
  segments : List Bytes
  mse : Option (Nat × MseSession)

def mseToWire (mse : MseSession) : Option WireCrypto × PeerCrypto :=
  if mse.rc4 then (some ⟨mse.encrypt, mse.decrypt⟩, .rc4) else (none, .pePlain)

/-- An exact read, decrypted. -/
def readExactCrypto (n : Nat) (segments : List Bytes) (decrypt : Option Rc4) :
    Except Error (Bytes × List Bytes × Option Rc4) := do
  let read ← orElse (readExact n segments) "read timeout"
  let crypted := cryptOpt decrypt read.1
  return (crypted.1, read.2, crypted.2)

/-! ### MSE, receiving side -/

/-- The most that an initiator sends before its payload, with an initial payload of 512 bytes. -/
def MAX : Nat := 512 + 20 + 20 + 8 + 4 + 2 + 512 + 2 + 512

structure HotTorrent where
  id : Nat
  infohash : Bytes
  deriving DecidableEq, Repr

abbrev HotRegistry := List HotTorrent

section
variable (sha1 : Bytes → Digest)

def matchReq2 (registry : HotRegistry) (req2 : Bytes) : Option HotTorrent :=
  registry.find? (fun t => (hashReq2 sha1 t.infohash).1 = req2)

/-- Read until the sync hash is there; its position, the buffer and the reads that are left. -/
def awaitReq1 (secret : Bytes) (buf : Bytes) : List Bytes → Except Error (Nat × Bytes × List Bytes)
  | [] =>
    if MAX ≤ buf.length then .error (.msg "MSE: req1 not found within pad limit")
    else .error (.msg "MSE: eof before req1")
  | read :: rest =>
    if MAX ≤ buf.length then .error (.msg "MSE: req1 not found within pad limit")
    else
      match findSlice (hashReq1 sha1 secret).1 (buf ++ read) with
      | some pos => .ok (pos, buf ++ read, rest)
      | none => awaitReq1 secret (buf ++ read) rest

/-- What a turn of the second loop makes of the buffer. -/
inductive Turn where
  | parsed (torrent : HotTorrent) (sync : SyncParsed)
  /-- Read on without a limit: the torrent hash is not there yet. -/
  | short
  | readOn (problem : SyncError)
  | failed (problem : Error)

def turn (registry : HotRegistry) (secret : Bytes) (req1Pos : Nat) (buf : Bytes) : Turn :=
  if buf.length < req1Pos + 40 then .short
  else
    match matchReq2 sha1 registry (deobfuscateReq2 sha1 secret ((buf.drop (req1Pos + 20)).take 20)) with
    | none => .failed (.msg "MSE: unknown SKEY / torrent")
    | some torrent =>
      match receiverParseInitiator sha1 secret torrent.infohash (buf.drop req1Pos) with
      | .ok sync => .parsed torrent sync
      | .error problem => if problem.readsOn then .readOn problem else .failed (.msg problem.message)

def awaitSync (registry : HotRegistry) (secret : Bytes) (req1Pos : Nat) (buf : Bytes) :
    List Bytes → Except Error (HotTorrent × SyncParsed × List Bytes)
  | [] =>
    match turn sha1 registry secret req1Pos buf with
    | .parsed torrent sync => .ok (torrent, sync, [])
    | .short => .error (.msg "MSE: eof before req2")
    | .readOn problem => .error (.msg s!"MSE: eof mid-sync: {problem.message}")
    | .failed problem => .error problem
  | read :: rest =>
    match turn sha1 registry secret req1Pos buf with
    | .parsed torrent sync => .ok (torrent, sync, read :: rest)
    | .short => awaitSync registry secret req1Pos (buf ++ read) rest
    | .readOn problem =>
      if req1Pos + MAX < (buf ++ read).length then .error (.msg s!"MSE: sync too large: {problem.message}")
      else awaitSync registry secret req1Pos (buf ++ read) rest
    | .failed problem => .error problem

/-- Both loops of `pe_accept_incoming`. -/
def receiveSync (registry : HotRegistry) (secret : Bytes) (segments : List Bytes) :
    Except Error (HotTorrent × SyncParsed × List Bytes) := do
  let found ← awaitReq1 sha1 secret [] (reads 4096 segments)
  awaitSync sha1 registry secret found.1 found.2.1 found.2.2

/-- The torrent, the session, the initial payload, and what the remote sends afterwards. -/
structure Accepted where
  torrent : HotTorrent
  provide : Nat
  mse : MseSession
  ia : Bytes
  segments : List Bytes

def peAcceptIncoming (dh : DhKeyPair) (firstByte : UInt8) (registry : HotRegistry) (mode : EncryptionMode)
    (segments : List Bytes) : Except Error Accepted := do
  let ya ← orElse (readExact (DH_PUB_LEN - 1) segments) "read timeout"
  let secret ← orElse (dh.computeSecret (firstByte :: ya.1)) "invalid DH peer public key"
  let received ← receiveSync sha1 registry secret ya.2
  let sync := received.2.1
  let select ← orElse (selectCrypto mode.cryptoProvideBits sync.provide mode) "MSE: no common crypto"
  let response := receiverBuildResponse sync.encrypt select
  return ⟨received.1, sync.provide, ⟨select, response.2, sync.decrypt, has select CRYPTO_RC4⟩, sync.ia,
    received.2.2⟩

/-! ### MSE, initiating side -/

/-- Scan, and read on until the answer is found. -/
def awaitAnswer (dec : Rc4) (buf : Bytes) : List Bytes → Except Error (Nat × Rc4 × List Bytes)
  | [] => do
    let scanned ← initiatorScanResponse dec buf
    match scanned.1 with
    | .found select consumed =>
      require (consumed = buf.length) s!"MSE: over-read after response (consumed={consumed} buf={buf.length})"
      return (select, scanned.2, [])
    | .needMore => .error (.msg "MSE: eof before peer ENCRYPT response")
  | read :: rest => do
    let scanned ← initiatorScanResponse dec buf
    match scanned.1 with
    | .found select consumed =>
      require (consumed = buf.length) s!"MSE: over-read after response (consumed={consumed} buf={buf.length})"
      return (select, scanned.2, read :: rest)
    | .needMore =>
      if MAX_PAD_B + MSE_RESP_HDR + MAX_PAD_B ≤ buf.length then
        .error (.msg "MSE: response buffer full without VC")
      else awaitAnswer scanned.2 (buf ++ read) rest

def peInitiate (dh : DhKeyPair) (skey : Bytes) (mode : EncryptionMode) (segments : List Bytes) :
    Except Error (MseSession × List Bytes) := do
  require mode.wantsPe "PE initiate requires PE mode"
  let yb ← orElse (readExact DH_PUB_LEN segments) "read timeout"
  let secret ← orElse (dh.computeSecret yb.1) "invalid DH peer public key"
  let sync := initiatorBuildSync sha1 secret skey mode.cryptoProvideBits []
  let answer ← awaitAnswer sync.2.2 [] (reads 256 yb.2)
  return (⟨answer.1, sync.2.1, answer.2.1, has answer.1 CRYPTO_RC4⟩, answer.2.2)

/-! ### Outbound -/

/-- The checks both dials make on the remote's handshake. -/
def checkReply (label hint : String) (infohash peerHs : Bytes) : Except Error Unit := do
  require (peerHs.getD 0 0 == 19) s!"{label} peer handshake invalid first={(peerHs.getD 0 0).toNat}{hint}"
  let parsed ← parseHandshake peerHs
  require (parsed.1 = infohash) "infohash mismatch"

/-- `none` where the connection or a write fails. -/
def dialPlain (infohash : Bytes) (remote : Option (List Bytes)) : Except Error (List Bytes × Bytes) := do
  let segments ← orElse remote "plain connect"
  let reply ← readExactCrypto HANDSHAKE_LEN segments none
  checkReply "plain" " (encryption required?)" infohash reply.1
  return (reply.2.1, reply.1)

def dialPe (dh : DhKeyPair) (infohash ourHs : Bytes) (mode : EncryptionMode) (remote : Option (List Bytes)) :
    Except Error (List Bytes × Option WireCrypto × PeerCrypto × Bytes × MseSession) := do
  let segments ← orElse remote "PE connect"
  let initiated ← peInitiate sha1 dh infohash mode segments
  let wire := mseToWire initiated.1
  let written := wire.1.map (fun w => { w with encrypt := (w.encrypt.cryptInplace ourHs).2 })
  let reply ← readExactCrypto HANDSHAKE_LEN initiated.2 (written.map WireCrypto.decrypt)
  checkReply "PE" "" infohash reply.1
  let read := written.map (fun w => { w with decrypt := reply.2.2.getD w.decrypt })
  return (reply.2.1, read, wire.2, reply.1, initiated.1)

/-- `run_outbound_after_hs`. -/
def afterPlain (infohash peerId : Bytes) (dialled : List Bytes × Bytes) : Except Error Established := do
  rejectIfSelf peerId dialled.2
  return ⟨infohash, none, dialled.2, [], .plain, dialled.1, none⟩

def afterPe (infohash peerId : Bytes) (mode : EncryptionMode)
    (dialled : List Bytes × Option WireCrypto × PeerCrypto × Bytes × MseSession) : Except Error Established := do
  rejectIfSelf peerId dialled.2.2.2.1
  return ⟨infohash, dialled.2.1, dialled.2.2.2.1, [], dialled.2.2.1, dialled.1,
    some (mode.cryptoProvideBits, dialled.2.2.2.2)⟩

/-- `plain` and `pe` are what the remote does on the connection of either kind. -/
def runOutboundPeer (dh : DhKeyPair) (infohash peerId : Bytes) (mode : EncryptionMode)
    (plain pe : Option (List Bytes)) : Except Error Established :=
  let dialledPlain := dialPlain infohash plain
  let dialledPe := dialPe sha1 dh infohash (encodeHandshake infohash peerId) mode pe
  match mode with
  | .preferPlain =>
    match dialledPlain with
    | .ok dialled => afterPlain infohash peerId dialled
    | .error (.msg plainErr) =>
      match dialledPe with
      | .ok dialled => afterPe infohash peerId mode dialled
      | .error (.msg peErr) =>
        .error (.msg s!"prefer-plain: plain failed ({plainErr}); PE retry: {peErr}")
  | .preferRc4 =>
    match dialledPe with
    | .ok dialled => afterPe infohash peerId mode dialled
    | .error (.msg peErr) =>
      match dialledPlain with
      | .ok dialled => afterPlain infohash peerId dialled
      | .error (.msg plainErr) =>
        .error (.msg s!"prefer-rc4: PE failed ({peErr}); plain retry: {plainErr}")
  | .requireRc4 =>
    match dialledPe with
    | .ok dialled => afterPe infohash peerId mode dialled
    | .error problem => .error problem
  | .off =>
    match dialledPlain with
    | .ok dialled => afterPlain infohash peerId dialled
    | .error problem => .error problem

/-! ### Inbound -/

/-- `inbound_after_known`; `bound` is the answer of the `on_bound` callback. -/
def inboundAfterKnown (torrent : HotTorrent) (peerId : Bytes) (bound : Bool) (wire : Option WireCrypto) (peerHs : Bytes)
    (crypto : PeerCrypto) (initialPlain : Bytes) (segments : List Bytes) (mse : Option (Nat × MseSession)) :
    Except Error Established := do
  rejectIfSelf peerId peerHs
  require bound s!"torrent #{torrent.id} at max_peers — rejecting inbound"
  let written := wire.map (fun w =>
    { w with encrypt := (w.encrypt.cryptInplace (encodeHandshake torrent.infohash peerId)).2 })
  return ⟨torrent.infohash, written, peerHs, initialPlain, crypto, segments, mse⟩

def inboundPlain (registry : HotRegistry) (peerId : Bytes) (bound : Bool) (first : UInt8)
    (segments : List Bytes) : Except Error Established := do
  let read ← orElse (readExact (HANDSHAKE_LEN - 1) segments) "read timeout"
  let hsBuf := first :: read.1
  require (looksLikeBtHandshake hsBuf) "invalid handshake"
  let parsed ← parseHandshake hsBuf
  let torrent ← orElse (registry.find? (fun t => t.infohash = parsed.1)) "unknown infohash"
  inboundAfterKnown torrent peerId bound none hsBuf .plain [] read.2 none

/-- Behind the MSE handshake: the BitTorrent handshake is the initial payload, or comes next. -/
def inboundPe (peerId : Bytes) (bound : Bool) (accepted : Accepted) : Except Error Established := do
  let wire := mseToWire accepted.mse
  let mse := some (accepted.provide, accepted.mse)
  if HANDSHAKE_LEN ≤ accepted.ia.length ∧ looksLikeBtHandshake (accepted.ia.take HANDSHAKE_LEN) then
    let parsed ← parseHandshake (accepted.ia.take HANDSHAKE_LEN)
    require (parsed.1 = accepted.torrent.infohash) "IA infohash mismatch"
    inboundAfterKnown accepted.torrent peerId bound wire.1 (accepted.ia.take HANDSHAKE_LEN) wire.2
      (accepted.ia.drop HANDSHAKE_LEN) accepted.segments mse
  else
    let read ← readExactCrypto HANDSHAKE_LEN accepted.segments (wire.1.map WireCrypto.decrypt)
    require (looksLikeBtHandshake read.1) "invalid handshake after PE"
    let parsed ← parseHandshake read.1
    require (parsed.1 = accepted.torrent.infohash) "handshake infohash mismatch after PE"
    inboundAfterKnown accepted.torrent peerId bound
      (wire.1.map (fun w => { w with decrypt := read.2.2.getD w.decrypt })) read.1 wire.2 [] read.2.1 mse

def establishInbound (dh : DhKeyPair) (registry : HotRegistry) (peerId : Bytes) (bound : Bool)
    (mode : EncryptionMode) (segments : List Bytes) : Except Error Established := do
  let first ← orElse (readExact 1 segments) "read timeout"
  let byte := first.1.getD 0 0
  if byte = 19 then
    require (!mode.requiresRc4) "plain BT rejected: encryption mode requires RC4"
    inboundPlain registry peerId bound byte first.2
  else
    require mode.wantsPe "peer tried PE but encryption is off"
    let accepted ← peAcceptIncoming sha1 dh byte registry mode first.2
    inboundPe peerId bound accepted

end

end Seedchamp.Peer.Establish
