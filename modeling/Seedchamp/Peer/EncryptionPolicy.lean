import Seedchamp.Peer.HandshakeSync

/-!
The encryption policy against every remote: what the policy asks of an established peer, and which of the
two sides enforces it.
-/

namespace Seedchamp.Peer.EncryptionPolicy
open Foundation Foundation.Segments Crypto.PayloadCipher Crypto.Mse Crypto.MseScan Peer.Establish
open Peer.HandshakeSync Wire.Messages Wire.Parse
open Disk.Spans (Error)

/-! ### The policy -/

/-- One method, which the policy allows. -/
def selectsOne (provide select : Nat) : Bool :=
  (select = CRYPTO_PLAIN || select = CRYPTO_RC4) && has provide select

structure Enforced (mode : EncryptionMode) (e : Established) : Prop where
  required : mode = .requireRc4 → e.wire.isSome = true
  off : mode = .off → e.mse = none
  plain : e.mse = none → e.wire = none
  selected : ∀ offered session, e.mse = some (offered, session) →
    selectsOne offered session.cryptoSelect = true ∧
      selectsOne mode.cryptoProvideBits session.cryptoSelect = true ∧
      (e.wire.isSome = true ↔ session.cryptoSelect = CRYPTO_RC4)

/-- The remote's answer in these bytes: `k` bytes of padding, then a header that decrypts to the verification
constant, the method and the length of what follows. -/
def Answers (dec : Rc4) (bytes : Bytes) (k select : Nat) : Prop :=
  ∃ padB cipher, bytes = padB ++ cipher ∧ padB.length = k ∧ k ≤ MAX_PAD_B ∧
    (dec.cryptInplace cipher).1.take 8 = VC ∧ u32At (dec.cryptInplace cipher).1 8 = select ∧
    u16At (dec.cryptInplace cipher).1 12 ≤ MAX_PAD_B ∧
    cipher.length = MSE_RESP_HDR + u16At (dec.cryptInplace cipher).1 12

/-- The first read that an answer ends with, and the shortest padding there. -/
def FirstAnswer (dec : Rc4) (reads : List Bytes) (select : Nat) : Prop :=
  ∃ n k, Answers dec (reads.take n).flatten k select ∧ ∀ n' k' select',
    Answers dec (reads.take n').flatten k' select' → n < n' ∨ (n = n' ∧ k ≤ k')

/-! ### Steps that answer -/

theorem bind_ok (x : Except Error α) (f : α → Except Error β) (b : β) (done : (x >>= f) = .ok b) :
    ∃ a, x = .ok a ∧ f a = .ok b := by
  cases x with
  | error problem => cases done
  | ok a => exact ⟨a, rfl, done⟩

theorem require_ok (condition : Bool) (problem : String) (u : Unit)
    (done : require condition problem = .ok u) : condition = true := by
  rw [require] at done
  split_ifs at done with holds
  exact holds

theorem orElse_ok (value : Option α) (problem : String) (a : α) (done : orElse value problem = .ok a) :
    value = some a := by
  cases value with
  | none => cases done
  | some b =>
    cases done
    rfl

/-! ### Selection -/

theorem has_land (a b method : Nat) (both : has (a &&& b) method = true) :
    has a method = true ∧ has b method = true := by
  rw [has, decide_eq_true_eq] at both
  constructor
  · rw [has, decide_eq_true_eq]
    intro none
    apply both
    rw [Nat.and_assoc, Nat.and_comm b, ← Nat.and_assoc, none, Nat.zero_and]
  · rw [has, decide_eq_true_eq]
    intro none
    apply both
    rw [Nat.and_assoc, none, Nat.and_zero]

/-- What `select_crypto` chooses is one method, which both sides offered. -/
theorem selectCrypto_one (ours peer : Nat) (mode : EncryptionMode) (select : Nat)
    (chosen : selectCrypto ours peer mode = some select) :
    selectsOne ours select = true ∧ selectsOne peer select = true := by
  have one : ∀ method, (method = CRYPTO_PLAIN ∨ method = CRYPTO_RC4) → has (ours &&& peer) method = true →
      selectsOne ours method = true ∧ selectsOne peer method = true := by
    intro method known common
    obtain ⟨mine, theirs⟩ := has_land ours peer method common
    have either : (decide (method = CRYPTO_PLAIN) || decide (method = CRYPTO_RC4)) = true := by
      rw [Bool.or_eq_true, decide_eq_true_eq, decide_eq_true_eq]
      exact known
    rw [selectsOne, selectsOne, either, mine, theirs]
    exact ⟨rfl, rfl⟩
  have plain := one CRYPTO_PLAIN (Or.inl rfl)
  have rc4 := one CRYPTO_RC4 (Or.inr rfl)
  cases mode with
  | off =>
    simp only [selectCrypto] at chosen
    split_ifs at chosen with _ common
    cases chosen
    exact plain common
  | preferPlain =>
    simp only [selectCrypto] at chosen
    split_ifs at chosen with _ first second
    · cases chosen
      exact plain first
    · cases chosen
      exact rc4 second
  | preferRc4 =>
    simp only [selectCrypto] at chosen
    split_ifs at chosen with _ first second
    · cases chosen
      exact rc4 first
    · cases chosen
      exact plain second
  | requireRc4 =>
    simp only [selectCrypto] at chosen
    split_ifs at chosen with _ common
    cases chosen
    exact rc4 common

theorem selectsOne_cases (provide select : Nat) (one : selectsOne provide select = true) :
    select = CRYPTO_PLAIN ∨ select = CRYPTO_RC4 := by
  rw [selectsOne, Bool.and_eq_true, Bool.or_eq_true, decide_eq_true_eq, decide_eq_true_eq] at one
  exact one.1

/-- One method is RC4 exactly where its RC4 bit is set. -/
theorem has_rc4_iff (provide select : Nat) (one : selectsOne provide select = true) :
    has select CRYPTO_RC4 = true ↔ select = CRYPTO_RC4 := by
  rcases selectsOne_cases provide select one with plain | rc4
  · rw [plain]
    decide
  · rw [rc4]
    decide

theorem selectsOne_require (select : Nat)
    (one : selectsOne EncryptionMode.requireRc4.cryptoProvideBits select = true) : select = CRYPTO_RC4 := by
  rcases selectsOne_cases _ select one with plain | rc4
  · rw [plain] at one
    cases one
  · exact rc4

theorem mseToWire_isSome (session : MseSession) : (mseToWire session).1.isSome = session.rc4 := by
  rw [mseToWire]
  split_ifs with rc4
  · rw [rc4]
    rfl
  · rw [Bool.not_eq_true] at rc4
    rw [rc4]
    rfl

/-- A session whose cipher follows its select bit meets the policy exactly where one method is selected
that was offered and is allowed. -/
theorem enforced_iff (mode : EncryptionMode) (e : Established) (offered : Nat) (session : MseSession)
    (used : e.mse = some (offered, session)) (wanted : mode ≠ .off)
    (cipher : e.wire.isSome = has session.cryptoSelect CRYPTO_RC4) :
    Enforced mode e ↔ selectsOne offered session.cryptoSelect = true ∧
      selectsOne mode.cryptoProvideBits session.cryptoSelect = true := by
  constructor
  · intro enforced
    obtain ⟨theirs, ours, _⟩ := enforced.selected offered session used
    exact ⟨theirs, ours⟩
  · rintro ⟨theirs, ours⟩
    refine ⟨?_, fun off => absurd off wanted, ?_, ?_⟩
    · rintro rfl
      rw [cipher, has_rc4_iff _ _ ours]
      exact selectsOne_require _ ours
    · intro none
      rw [used] at none
      cases none
    · intro offered' session' used'
      rw [used] at used'
      cases used'
      exact ⟨theirs, ours, by rw [cipher, has_rc4_iff _ _ ours]⟩

theorem enforced_plain (mode : EncryptionMode) (e : Established) (unused : e.mse = none)
    (clear : e.wire = none) (allowed : mode ≠ .requireRc4) : Enforced mode e := by
  refine ⟨fun required => absurd required allowed, fun _ => unused, fun _ => clear, ?_⟩
  intro offered session used
  rw [unused] at used
  cases used

/-! ### Inbound -/

/-- What `inbound_after_known` makes of its arguments. -/
theorem inboundAfterKnown_ok (torrent : HotTorrent) (peerId : Bytes) (bound : Bool) (wire : Option WireCrypto)
    (peerHs : Bytes) (crypto : PeerCrypto) (initialPlain : Bytes) (segments : List Bytes)
    (mse : Option (Nat × MseSession)) (e : Established)
    (done : inboundAfterKnown torrent peerId bound wire peerHs crypto initialPlain segments mse = .ok e) :
    e.mse = mse ∧ e.wire.isSome = wire.isSome := by
  rw [inboundAfterKnown] at done
  obtain ⟨_, _, later⟩ := bind_ok _ _ _ done
  obtain ⟨_, _, answer⟩ := bind_ok _ _ _ later
  cases answer
  exact ⟨rfl, Option.isSome_map⟩

theorem inboundPlain_ok (registry : HotRegistry) (peerId : Bytes) (bound : Bool) (first : UInt8)
    (segments : List Bytes) (e : Established)
    (done : inboundPlain registry peerId bound first segments = .ok e) :
    e.mse = none ∧ e.wire = none := by
  rw [inboundPlain] at done
  obtain ⟨_, _, read⟩ := bind_ok _ _ _ done
  obtain ⟨_, _, checked⟩ := bind_ok _ _ _ read
  obtain ⟨_, _, parsed⟩ := bind_ok _ _ _ checked
  obtain ⟨_, _, known⟩ := bind_ok _ _ _ parsed
  obtain ⟨unused, clear⟩ := inboundAfterKnown_ok _ _ _ _ _ _ _ _ _ _ known
  refine ⟨unused, Option.not_isSome_iff_eq_none.1 ?_⟩
  rw [clear]
  decide

theorem inboundPe_ok (peerId : Bytes) (bound : Bool) (accepted : Accepted) (e : Established)
    (done : inboundPe peerId bound accepted = .ok e) :
    e.mse = some (accepted.provide, accepted.mse) ∧ e.wire.isSome = accepted.mse.rc4 := by
  simp only [inboundPe] at done
  split_ifs at done
  · obtain ⟨_, _, parsed⟩ := bind_ok _ _ _ done
    obtain ⟨_, _, known⟩ := bind_ok _ _ _ parsed
    obtain ⟨used, same⟩ := inboundAfterKnown_ok _ _ _ _ _ _ _ _ _ _ known
    exact ⟨used, same.trans (mseToWire_isSome accepted.mse)⟩
  · obtain ⟨_, _, read⟩ := bind_ok _ _ _ done
    obtain ⟨_, _, checked⟩ := bind_ok _ _ _ read
    obtain ⟨_, _, parsed⟩ := bind_ok _ _ _ checked
    obtain ⟨_, _, known⟩ := bind_ok _ _ _ parsed
    obtain ⟨used, same⟩ := inboundAfterKnown_ok _ _ _ _ _ _ _ _ _ _ known
    rw [Option.isSome_map] at same
    exact ⟨used, same.trans (mseToWire_isSome accepted.mse)⟩

theorem peAcceptIncoming_ok (sha1 : Bytes → Digest) (dh : DhKeyPair) (firstByte : UInt8)
    (registry : HotRegistry) (mode : EncryptionMode) (segments : List Bytes) (accepted : Accepted)
    (done : peAcceptIncoming sha1 dh firstByte registry mode segments = .ok accepted) :
    selectCrypto mode.cryptoProvideBits accepted.provide mode = some accepted.mse.cryptoSelect ∧
      accepted.mse.rc4 = has accepted.mse.cryptoSelect CRYPTO_RC4 := by
  rw [peAcceptIncoming] at done
  obtain ⟨_, _, keyed⟩ := bind_ok _ _ _ done
  obtain ⟨_, _, shared⟩ := bind_ok _ _ _ keyed
  obtain ⟨_, _, received⟩ := bind_ok _ _ _ shared
  obtain ⟨select, chosen, answer⟩ := bind_ok _ _ _ received
  cases answer
  exact ⟨orElse_ok _ _ _ chosen, rfl⟩

/-- The receiving side chooses the method itself. -/
theorem inbound_enforced (sha1 : Bytes → Digest) (dh : DhKeyPair) (registry : HotRegistry) (peerId : Bytes)
    (bound : Bool) (mode : EncryptionMode) (segments : List Bytes) (e : Established)
    (done : establishInbound sha1 dh registry peerId bound mode segments = .ok e) : Enforced mode e := by
  rw [establishInbound] at done
  obtain ⟨first, _, read⟩ := bind_ok _ _ _ done
  dsimp only at read
  split_ifs at read
  · obtain ⟨_, allowed, plain⟩ := bind_ok _ _ _ read
    have lax := require_ok _ _ _ allowed
    obtain ⟨unused, clear⟩ := inboundPlain_ok _ _ _ _ _ _ plain
    apply enforced_plain mode e unused clear
    rintro rfl
    cases lax
  · obtain ⟨_, allowed, pe⟩ := bind_ok _ _ _ read
    have wanted := require_ok _ _ _ allowed
    obtain ⟨accepted, shaken, ready⟩ := bind_ok _ _ _ pe
    obtain ⟨chosen, bit⟩ := peAcceptIncoming_ok _ _ _ _ _ _ _ shaken
    obtain ⟨used, cipher⟩ := inboundPe_ok _ _ _ _ ready
    obtain ⟨ours, theirs⟩ := selectCrypto_one _ _ _ _ chosen
    refine (enforced_iff mode e _ _ used ?_ (cipher.trans bit)).2 ⟨theirs, ours⟩
    rintro rfl
    cases wanted

/-! ### Outbound -/

theorem dialPe_ok (sha1 : Bytes → Digest) (dh : DhKeyPair) (infohash ourHs : Bytes) (mode : EncryptionMode)
    (remote : Option (List Bytes))
    (dialled : List Bytes × Option WireCrypto × PeerCrypto × Bytes × MseSession)
    (done : dialPe sha1 dh infohash ourHs mode remote = .ok dialled) :
    ∃ segments rest, remote = some segments ∧
      peInitiate sha1 dh infohash mode segments = .ok (dialled.2.2.2.2, rest) ∧
      dialled.2.1.isSome = dialled.2.2.2.2.rc4 := by
  rw [dialPe] at done
  obtain ⟨segments, reached, initiate⟩ := bind_ok _ _ _ done
  obtain ⟨initiated, shaken, reply⟩ := bind_ok _ _ _ initiate
  obtain ⟨_, _, checked⟩ := bind_ok _ _ _ reply
  obtain ⟨_, _, answer⟩ := bind_ok _ _ _ checked
  cases answer
  refine ⟨segments, initiated.2, orElse_ok _ _ _ reached, shaken, ?_⟩
  rw [Option.isSome_map, Option.isSome_map]
  exact mseToWire_isSome initiated.1

theorem afterPe_ok (infohash peerId : Bytes) (mode : EncryptionMode)
    (dialled : List Bytes × Option WireCrypto × PeerCrypto × Bytes × MseSession) (e : Established)
    (done : afterPe infohash peerId mode dialled = .ok e) :
    e.mse = some (mode.cryptoProvideBits, dialled.2.2.2.2) ∧ e.wire = dialled.2.1 := by
  rw [afterPe] at done
  obtain ⟨_, _, answer⟩ := bind_ok _ _ _ done
  cases answer
  exact ⟨rfl, rfl⟩

theorem afterPlain_ok (infohash peerId : Bytes) (dialled : List Bytes × Bytes) (e : Established)
    (done : afterPlain infohash peerId dialled = .ok e) : e.mse = none ∧ e.wire = none := by
  rw [afterPlain] at done
  obtain ⟨_, _, answer⟩ := bind_ok _ _ _ done
  cases answer
  exact ⟨rfl, rfl⟩

theorem initiatorBuildSync_decrypt (sha1 : Bytes → Digest) (secret skey : Bytes) (provide : Nat) (ia : Bytes) :
    (initiatorBuildSync sha1 secret skey provide ia).2.2 = rc4KeyB sha1 secret skey := by
  rw [initiatorBuildSync]

theorem peInitiate_ok (sha1 : Bytes → Digest) (dh : DhKeyPair) (skey : Bytes) (mode : EncryptionMode)
    (segments : List Bytes) (session : MseSession) (rest : List Bytes)
    (done : peInitiate sha1 dh skey mode segments = .ok (session, rest)) :
    mode ≠ .off ∧ session.rc4 = has session.cryptoSelect CRYPTO_RC4 ∧
      ∃ yb secret dec, readExact DH_PUB_LEN segments = some yb ∧ dh.computeSecret yb.1 = some secret ∧
        awaitAnswer (rc4KeyB sha1 secret skey) [] (reads 256 yb.2) = .ok (session.cryptoSelect, dec, rest) := by
  rw [peInitiate] at done
  obtain ⟨_, allowed, key⟩ := bind_ok _ _ _ done
  obtain ⟨yb, read, shared⟩ := bind_ok _ _ _ key
  obtain ⟨secret, computed, awaits⟩ := bind_ok _ _ _ shared
  obtain ⟨⟨select, dec, left⟩, found, returned⟩ := bind_ok _ _ _ awaits
  rw [initiatorBuildSync_decrypt] at found
  cases returned
  have wanted := require_ok _ _ _ allowed
  refine ⟨?_, rfl, yb, secret, dec, orElse_ok _ _ _ read, orElse_ok _ _ _ computed, found⟩
  rintro rfl
  cases wanted

/-! ### The answer -/

theorem getD_header (bytes : Bytes) (i : Nat) (inside : i < MSE_RESP_HDR) :
    (bytes.take MSE_RESP_HDR).getD i 0 = bytes.getD i 0 := by
  rw [List.getD_eq_getElem?_getD, List.getD_eq_getElem?_getD, List.getElem?_take_of_lt inside]

/-- An offset that the scan accepts, and whose answer has arrived. -/
def Complete (dec : Rc4) (buf : Bytes) (off : Nat) : Prop :=
  Accepts dec buf off ∧ need dec buf off ≤ buf.length

/-- What the scan accepts is an answer where nothing follows it. -/
theorem answers_of_accepts (dec : Rc4) (buf : Bytes) (off : Nat) (near : off ≤ MAX_PAD_B)
    (accepts : Accepts dec buf off) (ends : need dec buf off = buf.length) :
    Answers dec buf off (u32At (header dec buf off) 8) := by
  have whole : (buf.take (need dec buf off)).drop off = buf.drop off := by
    rw [ends, List.take_length]
  have head := commit_header dec buf off
  rw [whole] at head
  have size : u16At (dec.cryptInplace (buf.drop off)).1 12 = u16At (header dec buf off) 12 := by
    simp only [u16At, ← head, getD_header _ 12 (by decide), getD_header _ 13 (by decide)]
  refine ⟨buf.take off, buf.drop off, (List.take_append_drop off buf).symm, ?_, near, ?_, ?_, ?_, ?_⟩
  · rw [List.length_take, ← ends]
    unfold need
    omega
  · rw [← take_take_eight, head]
    exact accepts.1
  · rw [u32At, u32At, ← head, List.drop_take, List.take_take]
    rfl
  · rw [size]
    exact accepts.2
  · rw [size, List.length_drop, ← ends]
    unfold need
    omega

theorem complete_of_answers (dec : Rc4) (buf : Bytes) (k select : Nat) (answers : Answers dec buf k select) :
    k ≤ MAX_PAD_B ∧ Complete dec buf k := by
  obtain ⟨padB, cipher, rfl, rfl, near, vc, _, padding, size⟩ := answers
  have head : header dec (padB ++ cipher) padB.length = (dec.cryptInplace cipher).1.take MSE_RESP_HDR := by
    rw [header, List.drop_left, cryptInplace_take]
  have same : u16At (header dec (padB ++ cipher) padB.length) 12 = u16At (dec.cryptInplace cipher).1 12 := by
    simp only [u16At, head, getD_header _ 12 (by decide), getD_header _ 13 (by decide)]
  refine ⟨near, ⟨?_, ?_⟩, ?_⟩
  · rw [head, take_take_eight]
    exact vc
  · rw [same]
    exact padding
  · rw [need, same, List.length_append, size]
    omega

/-- The scan takes the first offset with an answer that has arrived. -/
theorem scanLoop_first (dec : Rc4) (buf : Bytes) (k : Nat) (complete : Complete dec buf k) (offsets : List Nat)
    (saw : Bool) (sorted : offsets.Pairwise (· < ·)) (member : k ∈ offsets) :
    ∃ off, Complete dec buf off ∧ (∀ k' ∈ offsets, Complete dec buf k' → off ≤ k') ∧
      scanLoop dec buf offsets saw = .ok (.found (u32At (header dec buf off) 8) (need dec buf off),
        (dec.cryptInplace ((buf.take (need dec buf off)).drop off)).2) := by
  induction offsets generalizing saw with
  | nil => cases member
  | cons off rest ih =>
    obtain ⟨first, later⟩ := List.pairwise_cons.1 sorted
    by_cases here : Complete dec buf off
    · refine ⟨off, here, ?_, scanLoop_found dec buf off rest saw here.1 here.2⟩
      intro k' listed _
      rcases List.mem_cons.1 listed with same | behind
      · exact same.ge
      · exact (first k' behind).le
    · have skipped : ∀ k' ∈ off :: rest, Complete dec buf k' → k' ∈ rest := by
        intro k' listed arrived
        rcases List.mem_cons.1 listed with same | behind
        · exact absurd (same ▸ arrived) here
        · exact behind
      have loop : ∃ saw', scanLoop dec buf (off :: rest) saw = scanLoop dec buf rest saw' := by
        by_cases accepts : Accepts dec buf off
        · have short : buf.length < need dec buf off := Nat.not_le.1 (fun whole => here ⟨accepts, whole⟩)
          exact ⟨true, scanLoop_incomplete dec buf off rest saw accepts short⟩
        · exact ⟨saw, scanLoop_skip dec buf off rest saw accepts⟩
      obtain ⟨saw', looped⟩ := loop
      obtain ⟨found, arrived, least, scanned⟩ := ih saw' later (skipped k member complete)
      exact ⟨found, arrived, fun k' listed whole => least k' (skipped k' listed whole) whole,
        looped.trans scanned⟩

theorem scan_answers (dec : Rc4) (buf : Bytes) (k select : Nat) (answers : Answers dec buf k select) :
    ∃ off, Complete dec buf off ∧ (∀ k' select', Answers dec buf k' select' → off ≤ k') ∧
      initiatorScanResponse dec buf = .ok (.found (u32At (header dec buf off) 8) (need dec buf off),
        (dec.cryptInplace ((buf.take (need dec buf off)).drop off)).2) := by
  have listed : ∀ k select, Answers dec buf k select → Complete dec buf k ∧ MSE_RESP_HDR ≤ buf.length ∧
      k ∈ List.range (min (buf.length - MSE_RESP_HDR) MAX_PAD_B + 1) := by
    intro k select answers
    obtain ⟨near, complete⟩ := complete_of_answers dec buf k select answers
    have arrived := complete.2
    unfold need at arrived
    rw [List.mem_range]
    exact ⟨complete, by omega, by omega⟩
  obtain ⟨complete, room, member⟩ := listed k select answers
  obtain ⟨off, arrived, least, scanned⟩ := scanLoop_first dec buf k complete _ false List.pairwise_lt_range member
  rw [initiatorScanResponse, if_neg (Nat.not_lt.2 room), scanned]
  exact ⟨off, arrived, fun k' select' others => least k' (listed k' select' others).2.2
    (listed k' select' others).1, rfl⟩

theorem answers_unique (dec : Rc4) (bytes : Bytes) (k select select' : Nat)
    (one : Answers dec bytes k select) (other : Answers dec bytes k select') : select = select' := by
  obtain ⟨padB, cipher, rfl, rfl, _, _, rfl, _⟩ := one
  obtain ⟨padB', cipher', same, size, _, _, rfl, _⟩ := other
  rw [(List.append_inj same size.symm).2]

/-- The remote's bytes answer with one method. -/
theorem firstAnswer_unique (dec : Rc4) (reads : List Bytes) (select select' : Nat)
    (one : FirstAnswer dec reads select) (other : FirstAnswer dec reads select') : select = select' := by
  obtain ⟨n, k, answers, first⟩ := one
  obtain ⟨n', k', answers', first'⟩ := other
  have before := first n' k' select' answers'
  have behind := first' n k select answers
  obtain rfl : n = n' := by omega
  obtain rfl : k = k' := by omega
  exact answers_unique dec _ k select select' answers answers'

theorem awaitAnswer_error (dec : Rc4) (buf : Bytes) (left : List Bytes) (problem : Error)
    (scanned : initiatorScanResponse dec buf = .error problem) : awaitAnswer dec buf left = .error problem := by
  cases left with
  | nil =>
    rw [awaitAnswer, scanned]
    rfl
  | cons read rest =>
    rw [awaitAnswer, scanned]
    rfl

/-- A scan that reads on has no answer before it. -/
theorem scan_needMore (dec d : Rc4) (buf : Bytes) (k select : Nat)
    (scanned : initiatorScanResponse dec buf = .ok (.needMore, d)) : ¬Answers dec buf k select := by
  intro answers
  obtain ⟨off, _, _, found⟩ := scan_answers dec buf k select answers
  rw [scanned, Except.ok.injEq, Prod.mk.injEq] at found
  cases found.1

/-- A turn that takes what the scan found. -/
theorem found_answers (dec d : Rc4) (left : List Bytes) (buf : Bytes) (select off : Nat) (rest : List Bytes)
    (near : off ≤ MAX_PAD_B) (accepts : Accepts dec buf off)
    (scanned : initiatorScanResponse dec buf = .ok (.found (u32At (header dec buf off) 8) (need dec buf off),
      (dec.cryptInplace ((buf.take (need dec buf off)).drop off)).2))
    (done : awaitAnswer dec buf left = .ok (select, d, rest)) :
    ∃ k, Answers dec buf k select ∧ ∀ k' select', Answers dec buf k' select' → k ≤ k' := by
  rw [awaitAnswer_found dec _ buf left _ _ scanned] at done
  split_ifs at done with ends
  rw [Except.ok.injEq, Prod.mk.injEq] at done
  have answers := answers_of_accepts dec buf off near accepts ends
  obtain ⟨first, complete, least, same⟩ := scan_answers dec buf off _ answers
  rw [scanned, Except.ok.injEq, Prod.mk.injEq, InitiatorResponseScan.found.injEq] at same
  have low := least off _ answers
  rw [← done.1, same.1.1]
  exact ⟨first, answers_of_accepts dec buf first (low.trans near) complete.1 (same.1.2 ▸ ends), least⟩

/-- What the loop takes is the answer that comes first. -/
theorem awaitAnswer_answers (dec d : Rc4) (left : List Bytes) (buf : Bytes) (select : Nat) (rest : List Bytes)
    (done : awaitAnswer dec buf left = .ok (select, d, rest)) :
    ∃ n k, Answers dec (buf ++ (left.take n).flatten) k select ∧ ∀ n' k' select',
      Answers dec (buf ++ (left.take n').flatten) k' select' → n < n' ∨ (n = n' ∧ k ≤ k') := by
  have here : ∀ (buf : Bytes) (left : List Bytes) (off : Nat), off ≤ MAX_PAD_B → Accepts dec buf off →
      initiatorScanResponse dec buf = .ok (.found (u32At (header dec buf off) 8) (need dec buf off),
        (dec.cryptInplace ((buf.take (need dec buf off)).drop off)).2) →
      awaitAnswer dec buf left = .ok (select, d, rest) →
      ∃ n k, Answers dec (buf ++ (left.take n).flatten) k select ∧ ∀ n' k' select',
        Answers dec (buf ++ (left.take n').flatten) k' select' → n < n' ∨ (n = n' ∧ k ≤ k') := by
    intro buf left off near accepts scanned taken
    obtain ⟨k, answers, least⟩ := found_answers dec d left buf select off rest near accepts scanned taken
    refine ⟨0, k, ?_, ?_⟩
    · rw [List.take_zero, List.flatten_nil, List.append_nil]
      exact answers
    · intro n' k' select' others
      cases n' with
      | zero =>
        rw [List.take_zero, List.flatten_nil, List.append_nil] at others
        exact Or.inr ⟨rfl, least k' select' others⟩
      | succ n' => exact Or.inl (Nat.succ_pos n')
  induction left generalizing buf with
  | nil =>
    cases scanned : initiatorScanResponse dec buf with
    | error problem =>
      rw [awaitAnswer_error dec buf [] problem scanned] at done
      cases done
    | ok answer =>
      rcases initiatorScanResponse_ok dec buf answer scanned with rfl | ⟨off, near, accepts, _, rfl⟩
      · rw [awaitAnswer_eof dec dec buf scanned] at done
        cases done
      · exact here buf [] off near accepts scanned done
  | cons read later ih =>
    cases scanned : initiatorScanResponse dec buf with
    | error problem =>
      rw [awaitAnswer_error dec buf _ problem scanned] at done
      cases done
    | ok answer =>
      rcases initiatorScanResponse_ok dec buf answer scanned with rfl | ⟨off, near, accepts, _, rfl⟩
      · rw [awaitAnswer_more dec dec buf read later scanned] at done
        split_ifs at done
        obtain ⟨n, k, answers, first⟩ := ih (buf ++ read) done
        refine ⟨n + 1, k, ?_, ?_⟩
        · rw [List.take_succ_cons, List.flatten_cons, ← List.append_assoc]
          exact answers
        · intro n' k' select' others
          cases n' with
          | zero =>
            rw [List.take_zero, List.flatten_nil, List.append_nil] at others
            exact absurd others (scan_needMore dec dec buf k' select' scanned)
          | succ n' =>
            rw [List.take_succ_cons, List.flatten_cons, ← List.append_assoc] at others
            have later := first n' k' select' others
            omega
      · exact here buf _ off near accepts scanned done

/-! ### Every session -/

/-- The remote answers our key exchange with this method. -/
def RemoteSelects (sha1 : Bytes → Digest) (dh : DhKeyPair) (infohash : Bytes) (remote : Option (List Bytes))
    (select : Nat) : Prop :=
  ∃ segments yb secret, remote = some segments ∧ readExact DH_PUB_LEN segments = some yb ∧
    dh.computeSecret yb.1 = some secret ∧ FirstAnswer (rc4KeyB sha1 secret infohash) (reads 256 yb.2) select

/-- An outbound session is plain where the policy allows it, or has the method that the remote selected. -/
theorem outbound_session (sha1 : Bytes → Digest) (dh : DhKeyPair) (infohash peerId : Bytes)
    (mode : EncryptionMode) (plain pe : Option (List Bytes)) (e : Established)
    (done : runOutboundPeer sha1 dh infohash peerId mode plain pe = .ok e) :
    (e.mse = none ∧ e.wire = none ∧ mode ≠ .requireRc4) ∨
      ∃ session, e.mse = some (mode.cryptoProvideBits, session) ∧ mode ≠ .off ∧
        e.wire.isSome = has session.cryptoSelect CRYPTO_RC4 ∧
        RemoteSelects sha1 dh infohash pe session.cryptoSelect := by
  have viaPe : ∀ dialled, dialPe sha1 dh infohash (encodeHandshake infohash peerId) mode pe = .ok dialled →
      afterPe infohash peerId mode dialled = .ok e →
      ∃ session, e.mse = some (mode.cryptoProvideBits, session) ∧ mode ≠ .off ∧
        e.wire.isSome = has session.cryptoSelect CRYPTO_RC4 ∧
        RemoteSelects sha1 dh infohash pe session.cryptoSelect := by
    intro dialled reached ready
    obtain ⟨segments, rest, sent, initiated, cipher⟩ := dialPe_ok sha1 dh infohash _ mode pe dialled reached
    obtain ⟨used, wired⟩ := afterPe_ok infohash peerId mode dialled e ready
    obtain ⟨wanted, bit, yb, secret, dec, read, computed, awaited⟩ :=
      peInitiate_ok sha1 dh infohash mode segments _ rest initiated
    refine ⟨_, used, wanted, ?_, segments, yb, secret, sent, read, computed,
      awaitAnswer_answers _ dec _ [] _ rest awaited⟩
    rw [wired, cipher, bit]
  have viaPlain : ∀ dialled, afterPlain infohash peerId dialled = .ok e → e.mse = none ∧ e.wire = none :=
    fun dialled ready => afterPlain_ok infohash peerId dialled e ready
  unfold runOutboundPeer at done
  cases mode with
  | off =>
    dsimp only at done
    split at done
    · obtain ⟨unused, clear⟩ := viaPlain _ done
      exact Or.inl ⟨unused, clear, nofun⟩
    · cases done
  | preferPlain =>
    dsimp only at done
    split at done
    · obtain ⟨unused, clear⟩ := viaPlain _ done
      exact Or.inl ⟨unused, clear, nofun⟩
    · split at done
      · exact Or.inr (viaPe _ (by assumption) done)
      · cases done
  | preferRc4 =>
    dsimp only at done
    split at done
    · exact Or.inr (viaPe _ (by assumption) done)
    · split at done
      · obtain ⟨unused, clear⟩ := viaPlain _ done
        exact Or.inl ⟨unused, clear, nofun⟩
      · cases done
  | requireRc4 =>
    dsimp only at done
    split at done
    · exact Or.inr (viaPe _ (by assumption) done)
    · cases done

theorem remoteSelects_unique (sha1 : Bytes → Digest) (dh : DhKeyPair) (infohash : Bytes)
    (remote : Option (List Bytes)) (select select' : Nat)
    (one : RemoteSelects sha1 dh infohash remote select)
    (other : RemoteSelects sha1 dh infohash remote select') : select = select' := by
  obtain ⟨segments, yb, secret, sent, read, computed, first⟩ := one
  obtain ⟨_, _, _, sent', read', computed', first'⟩ := other
  cases sent.symm.trans sent'
  cases read.symm.trans read'
  cases computed.symm.trans computed'
  exact firstAnswer_unique _ _ select select' first first'

/-- Inbound, the policy holds of every peer. Outbound, it holds of a peer in the clear, and with MSE exactly
if the remote answers with one of the methods that we offered. -/
theorem policy_enforced (sha1 : Bytes → Digest) (dh : DhKeyPair) (peerId : Bytes) (mode : EncryptionMode) :
    (∀ (registry : HotRegistry) (bound : Bool) (segments : List Bytes) (e : Established),
      establishInbound sha1 dh registry peerId bound mode segments = .ok e → Enforced mode e) ∧
    ∀ (infohash : Bytes) (plain pe : Option (List Bytes)) (e : Established),
      runOutboundPeer sha1 dh infohash peerId mode plain pe = .ok e →
      (Enforced mode e ↔ e.mse = none ∨ ∃ select, RemoteSelects sha1 dh infohash pe select ∧
        selectsOne mode.cryptoProvideBits select = true) := by
  constructor
  · intro registry bound segments e
    exact inbound_enforced sha1 dh registry peerId bound mode segments e
  · intro infohash plain pe e done
    rcases outbound_session sha1 dh infohash peerId mode plain pe e done with
      ⟨unused, clear, lax⟩ | ⟨session, used, wanted, cipher, selects⟩
    · exact iff_of_true (enforced_plain mode e unused clear lax) (Or.inl unused)
    · rw [enforced_iff mode e _ session used wanted cipher, and_self]
      constructor
      · intro one
        exact Or.inr ⟨_, selects, one⟩
      · rintro (unused | ⟨select, selects', one⟩)
        · rw [used] at unused
          cases unused
        · rw [remoteSelects_unique sha1 dh infohash pe _ select selects selects']
          exact one

/-! ### A remote that answers -/

theorem awaitAnswer_answered (dec : Rc4) (select : Nat) (fits : select < 2 ^ 32) (rest : List Bytes) :
    awaitAnswer dec [] ((answerFlight dec select []).1 :: rest) =
      .ok (select, (answerFlight dec select []).2, rest) := by
  have size := answerFlight_length dec select []
  have absent : ∀ off, off ≤ MAX_PAD_B → off ≠ ([] : Bytes).length →
      off + MSE_RESP_HDR ≤ (outbound dec select [] [] []).length →
      (header dec (outbound dec select [] [] []) off).take 8 ≠ VC := by
    intro off _ apart room
    rw [outbound, List.nil_append, List.append_nil, size] at room
    exact absurd (Nat.le_zero.1 (Nat.le_of_add_le_add_right room)) apart
  have scanned := scan_arrived dec select [] [] [] fits (by decide) (by decide) absent
    (answerFlight dec select []).1 [] rfl
  rw [if_neg (by rw [size]; exact Nat.lt_irrefl _)] at scanned
  have ends : answerEnd [] [] = (answerFlight dec select []).1.length := by
    rw [size]
    rfl
  rw [awaitAnswer_more dec dec [] _ rest rfl, if_neg (by decide), List.nil_append,
    awaitAnswer_found dec _ _ rest select _ scanned, if_pos ends]

/-- A remote that answers our key exchange, whose private key is 1 like ours. -/
theorem peInitiate_answered (sha1 : Bytes → Digest) (skey reply : Bytes) (mode : EncryptionMode) (select : Nat)
    (wanted : mode.wantsPe = true) (fits : select < 2 ^ 32) (short : reply.length ≤ 256) :
    peInitiate sha1 ⟨1⟩ skey mode
        [DhKeyPair.publicKeyBytes ⟨1⟩, (answerFlight (rc4KeyB sha1 smallSecret skey) select []).1, reply] =
      .ok (⟨select, (initiatorBuildSync sha1 smallSecret skey mode.cryptoProvideBits []).2.1,
        (answerFlight (rc4KeyB sha1 smallSecret skey) select []).2, has select CRYPTO_RC4⟩, [reply]) := by
  have read : readExact DH_PUB_LEN
      [DhKeyPair.publicKeyBytes ⟨1⟩, (answerFlight (rc4KeyB sha1 smallSecret skey) select []).1, reply] =
      some (DhKeyPair.publicKeyBytes ⟨1⟩, [(answerFlight (rc4KeyB sha1 smallSecret skey) select []).1, reply]) := by
    have size : (DhKeyPair.publicKeyBytes ⟨1⟩).length = DH_PUB_LEN := by decide +kernel
    rw [readExact, if_pos size.ge, List.take_of_length_le size.le, List.drop_of_length_le size.le]
    rfl
  have shared : DhKeyPair.computeSecret ⟨1⟩ (DhKeyPair.publicKeyBytes ⟨1⟩) = some smallSecret := by
    decide +kernel
  have pieces : reads 256 [(answerFlight (rc4KeyB sha1 smallSecret skey) select []).1, reply] =
      [(answerFlight (rc4KeyB sha1 smallSecret skey) select []).1, reply] := by
    have whole : ∀ segment : Bytes, segment.length ≤ 256 →
        splitLoop 256 segment.length segment = [segment] := by
      intro segment fits
      cases size : segment.length with
      | zero => rw [splitLoop]
      | succ n => rw [splitLoop, if_pos fits]
    have size := answerFlight_length (rc4KeyB sha1 smallSecret skey) select []
    rw [reads, List.flatMap_cons, List.flatMap_cons, List.flatMap_nil, whole reply short,
      whole _ (by rw [size]; decide)]
    rfl
  rw [peInitiate, wanted, read]
  simp only [orElse, require, shared, initiatorBuildSync_decrypt, pieces, awaitAnswer_answered _ select fits,
    bind, Except.bind, pure, Except.pure, if_true]

def remoteHs : Bytes := encodeHandshake ones.infohash (List.replicate 20 3)

/-- The remote answers with a method and sends its handshake. -/
def answering (sha1 : Bytes → Digest) (select : Nat) (reply : Bytes) : List Bytes :=
  [DhKeyPair.publicKeyBytes ⟨1⟩, (answerFlight (rc4KeyB sha1 smallSecret ones.infohash) select []).1, reply]

/-- Behind the answer comes the remote's handshake, in the method it selected. -/
theorem outbound_answered (sha1 : Bytes → Digest) (segments : List Bytes) (session : MseSession) (reply : Bytes)
    (initiated : peInitiate sha1 ⟨1⟩ ones.infohash .requireRc4 segments = .ok (session, [reply]))
    (size : reply.length = HANDSHAKE_LEN)
    (plain : session.rc4 = false → reply = remoteHs)
    (crypted : session.rc4 = true → (session.decrypt.cryptInplace reply).1 = remoteHs) :
    ∃ e, runOutboundPeer sha1 ⟨1⟩ ones.infohash (List.replicate 20 2) .requireRc4 none (some segments) = .ok e ∧
      e.mse = some (2, session) ∧ e.wire.isSome = session.rc4 := by
  have read : ∀ decrypt, readExactCrypto HANDSHAKE_LEN [reply] decrypt =
      .ok ((cryptOpt decrypt reply).1, [], (cryptOpt decrypt reply).2) := by
    intro decrypt
    rw [readExactCrypto, readExact, if_pos size.ge, List.take_of_length_le size.le,
      List.drop_of_length_le size.le]
    rfl
  have checked : checkReply "PE" "" ones.infohash remoteHs = .ok () := by
    decide +kernel
  have other : rejectIfSelf (List.replicate 20 2) remoteHs = .ok () := by
    decide +kernel
  cases rc4 : session.rc4 with
  | false =>
    have clear : (cryptOpt none reply).1 = remoteHs := plain rc4
    refine ⟨⟨ones.infohash, none, remoteHs, [], .pePlain, [], some (2, session)⟩, ?_, rfl, rfl⟩
    unfold runOutboundPeer dialPe afterPe
    simp only [orElse, initiated, mseToWire, rc4, read, clear, checked, other, bind, Except.bind, pure, Except.pure,
      Option.map_none, Bool.false_eq_true, if_false]
    rfl
  | true =>
    have clear : (cryptOpt (some session.decrypt) reply).1 = remoteHs := crypted rc4
    refine ⟨⟨ones.infohash, some ⟨(session.encrypt.cryptInplace (encodeHandshake ones.infohash
      (List.replicate 20 2))).2, (session.decrypt.cryptInplace reply).2⟩, remoteHs, [], .rc4, [],
      some (2, session)⟩, ?_, rfl, rfl⟩
    unfold runOutboundPeer dialPe afterPe
    simp only [orElse, initiated, mseToWire, rc4, read, clear, checked, other, bind, Except.bind, pure, Except.pure,
      Option.map_some, if_true]
    rfl

/-- The remote selects a method that we never offered, and the session runs in the clear. -/
theorem downgrade_accepted :
    ¬∃ sha1 : Bytes → Digest, ∀ (dh : DhKeyPair) (infohash peerId : Bytes) (mode : EncryptionMode) (plain pe : Option (List Bytes))
      (e : Established), runOutboundPeer sha1 dh infohash peerId mode plain pe = .ok e → Enforced mode e := by
  rintro ⟨sha1, always⟩
  have unset : has CRYPTO_PLAIN CRYPTO_RC4 = false := by decide
  obtain ⟨e, done, _, clear⟩ := outbound_answered sha1 (answering sha1 CRYPTO_PLAIN remoteHs) _ remoteHs
    (peInitiate_answered sha1 ones.infohash remoteHs .requireRc4 CRYPTO_PLAIN rfl (by decide) (by decide))
    (by decide) (fun _ => rfl) (fun rc4 => absurd rc4 (ne_true_of_eq_false unset))
  have required := (always _ _ _ _ _ _ e done).required rfl
  rw [clear] at required
  exact absurd required (ne_true_of_eq_false unset)

/-- The remote's handshake, encrypted behind its answer. -/
def remoteReply (sha1 : Bytes → Digest) : Bytes :=
  ((answerFlight (rc4KeyB sha1 smallSecret ones.infohash) CRYPTO_RC4 []).2.cryptInplace remoteHs).1

theorem outbound_encrypted (sha1 : Bytes → Digest) :
    ∃ e, runOutboundPeer sha1 ⟨1⟩ ones.infohash (List.replicate 20 2) .requireRc4 none
      (some (answering sha1 CRYPTO_RC4 (remoteReply sha1))) = .ok e := by
  have size : (remoteReply sha1).length = HANDSHAKE_LEN := by
    rw [remoteReply, cryptInplace_length]
    decide
  have initiated := peInitiate_answered sha1 ones.infohash (remoteReply sha1) .requireRc4 CRYPTO_RC4 rfl
    (by decide) (by rw [size]; decide)
  have back : ∀ rc4 : Rc4, (rc4.cryptInplace (rc4.cryptInplace remoteHs).1).1 = remoteHs :=
    fun rc4 => StreamCipher.crypt_crypt Rc4.next rc4 remoteHs
  have run := outbound_answered sha1 (answering sha1 CRYPTO_RC4 (remoteReply sha1)) _ _ initiated size
    (fun unset => by cases unset)
  obtain ⟨e, done, _⟩ := run (by
    intro _
    dsimp only
    rw [remoteReply]
    exact back _)
  exact ⟨e, done⟩

theorem policy_enforced_small :
    (∃ e, establishInbound sha1Table ⟨1⟩ [ones] (List.replicate 20 2) true .preferPlain [remoteHs] = .ok e ∧
      Enforced .preferPlain e) ∧
    ∃ e, runOutboundPeer sha1Table ⟨1⟩ ones.infohash (List.replicate 20 2) .requireRc4 none
        (some (answering sha1Table CRYPTO_RC4 (remoteReply sha1Table))) = .ok e ∧
      (Enforced .requireRc4 e ↔ e.mse = none ∨ ∃ select,
        RemoteSelects sha1Table ⟨1⟩ ones.infohash
          (some (answering sha1Table CRYPTO_RC4 (remoteReply sha1Table))) select ∧
        selectsOne EncryptionMode.requireRc4.cryptoProvideBits select = true) := by
  constructor
  · refine ⟨⟨ones.infohash, none, remoteHs, [], .plain, [], none⟩, ?_, ?_⟩
    · rfl
    · exact (policy_enforced sha1Table ⟨1⟩ (List.replicate 20 2) .preferPlain).1 [ones] true [remoteHs] _ rfl
  · obtain ⟨e, done⟩ := outbound_encrypted sha1Table
    exact ⟨e, done, (policy_enforced sha1Table ⟨1⟩ (List.replicate 20 2) .requireRc4).2 ones.infohash none _ e done⟩

end Seedchamp.Peer.EncryptionPolicy
