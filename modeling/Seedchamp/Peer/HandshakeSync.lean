import Seedchamp.Peer.Establish
import Seedchamp.Crypto.MseScan

/-!
The MSE handshake over a segmented stream: what the receiver makes of the initiator's message, and the
initiator of the answer, at every point where a read may end.
-/

namespace Seedchamp.Peer.HandshakeSync
open Foundation Foundation.Segments Crypto.PayloadCipher Crypto.Mse Crypto.MseScan Peer.Establish
open Wire.Messages Wire.Parse
open Disk.Spans (Error)

/-! ### The messages -/

/-- What the initiator encrypts. -/
def syncPlain (provide : Nat) (padC ia : Bytes) : Bytes :=
  VC ++ (toBeBytes provide ++ (u16Bytes padC.length ++ (padC ++ (u16Bytes ia.length ++ ia))))

/-- The message of any initiator, with the stream that encrypts what follows it. -/
def syncFlight (sha1 : Bytes → Digest) (secret skey : Bytes) (provide : Nat) (padC ia : Bytes) : Bytes × Rc4 :=
  let crypted := (rc4KeyA sha1 secret skey).cryptInplace (syncPlain provide padC ia)
  ((hashReq1 sha1 secret).1 ++ (obfuscatedHash sha1 secret skey ++ crypted.1), crypted.2)

/-- Ours has no padding. -/
theorem initiatorBuildSync_eq (sha1 : Bytes → Digest) (secret skey : Bytes) (provide : Nat) (ia : Bytes) :
    initiatorBuildSync sha1 secret skey provide ia =
      ((syncFlight sha1 secret skey provide [] ia).1, (syncFlight sha1 secret skey provide [] ia).2,
        rc4KeyB sha1 secret skey) := by
  have plain : VC ++ toBeBytes provide ++ u16Bytes 0 ++ u16Bytes ia.length ++ ia = syncPlain provide [] ia := by
    rw [syncPlain, List.nil_append, List.length_nil, List.append_assoc, List.append_assoc, List.append_assoc]
  rw [initiatorBuildSync, syncFlight]
  dsimp only
  rw [plain, List.append_assoc]

def answerPlain (select : Nat) (padD : Bytes) : Bytes :=
  VC ++ (toBeBytes select ++ (u16Bytes padD.length ++ padD))

/-- The answer of any responder. -/
def answerFlight (enc : Rc4) (select : Nat) (padD : Bytes) : Bytes × Rc4 :=
  enc.cryptInplace (answerPlain select padD)

theorem receiverBuildResponse_eq (enc : Rc4) (select : Nat) :
    receiverBuildResponse enc select = answerFlight enc select [] := by
  simp only [receiverBuildResponse, answerFlight, answerPlain, List.append_assoc, List.append_nil,
    List.length_nil]

/-! ### Fields -/

theorem u16Bytes_length (n : Nat) : (u16Bytes n).length = 2 := rfl

theorem u16At_u16Bytes (n : Nat) (rest : Bytes) (fits : n < 2 ^ 16) : u16At (u16Bytes n ++ rest) 0 = n := by
  simp only [u16At, u16Bytes, List.cons_append, List.nil_append, List.getD_cons_zero, List.getD_cons_succ,
    UInt8.toNat_ofNat']
  omega

theorem u16At_append (front rest : Bytes) (at' : Nat) (same : front.length = at') :
    u16At (front ++ rest) at' = u16At rest 0 := by
  subst same
  simp only [u16At, List.getD_eq_getElem?_getD, List.getElem?_append_right (Nat.le_refl _),
    List.getElem?_append_right (Nat.le_add_right front.length 1), Nat.sub_self, Nat.add_sub_cancel_left,
    Nat.zero_add]

theorem u16At_take (bytes : Bytes) (k at' : Nat) (inside : at' + 2 ≤ k) :
    u16At (bytes.take k) at' = u16At bytes at' := by
  have first : at' < k := by omega
  have second : at' + 1 < k := by omega
  simp only [u16At, List.getD_eq_getElem?_getD, List.getElem?_take_of_lt first,
    List.getElem?_take_of_lt second]

theorem xorBytes_xorBytes (a b : Bytes) (same : a.length = b.length) : xorBytes (xorBytes a b) b = a := by
  induction a generalizing b with
  | nil => rfl
  | cons x a ih =>
    cases b with
    | nil => cases same
    | cons y b =>
      have tail := ih b (Nat.succ.inj same)
      rw [xorBytes] at tail
      simp only [xorBytes, List.zipWith_cons_cons, UInt8.xor_assoc, UInt8.xor_self, UInt8.xor_zero] at tail ⊢
      rw [tail]

theorem xorBytes_length (a b : Bytes) (same : a.length = b.length) : (xorBytes a b).length = a.length := by
  rw [xorBytes, List.length_zipWith, same, Nat.min_self]

/-! ### The search for the sync hash -/

theorem findSlice_eq_none (needle hay : Bytes) (present : needle ≠ [])
    (absent : ∀ i, i < hay.length → ¬needle <+: hay.drop i) : findSlice needle hay = none := by
  induction hay with
  | nil =>
    rw [findSlice, if_neg]
    rw [List.isEmpty_iff]
    exact present
  | cons byte rest ih =>
    have here := absent 0 (Nat.zero_lt_succ _)
    rw [List.drop_zero] at here
    rw [findSlice, if_neg (by rwa [List.isPrefixOf_iff_prefix]), ih]
    · rfl
    · intro i inside
      exact absent (i + 1) (Nat.succ_lt_succ inside)

theorem findSlice_append (needle front rest : Bytes) (present : needle ≠ []) (here : needle <+: rest)
    (absent : ∀ i, i < front.length → ¬needle <+: (front ++ rest).drop i) :
    findSlice needle (front ++ rest) = some front.length := by
  induction front with
  | nil =>
    cases rest with
    | nil => exact absurd (List.prefix_nil.1 here) present
    | cons byte rest =>
      rw [List.nil_append, findSlice, if_pos (List.isPrefixOf_iff_prefix.2 here)]
      rfl
  | cons byte front ih =>
    have first := absent 0 (Nat.zero_lt_succ _)
    rw [List.drop_zero] at first
    rw [List.cons_append, findSlice, if_neg (by rwa [List.isPrefixOf_iff_prefix]), ih]
    · rfl
    · intro i inside
      exact absent (i + 1) (Nat.succ_lt_succ inside)

/-! ### Parsing what has arrived -/

theorem syncPlain_length (provide : Nat) (padC ia : Bytes) :
    (syncPlain provide padC ia).length = 16 + padC.length + ia.length := by
  simp only [syncPlain, List.length_append, toBeBytes_length, u16Bytes_length, VC, List.length_replicate]
  omega

theorem syncFlight_length (sha1 : Bytes → Digest) (secret skey : Bytes) (provide : Nat) (padC ia : Bytes) :
    (syncFlight sha1 secret skey provide padC ia).1.length = 56 + padC.length + ia.length := by
  have hashes : (obfuscatedHash sha1 secret skey).length = 20 := by
    rw [obfuscatedHash, xorBytes_length _ _ ((hashReq2 sha1 skey).2.trans (hashReq3 sha1 secret).2.symm)]
    exact (hashReq2 sha1 skey).2
  rw [syncFlight]
  dsimp only
  rw [List.length_append, List.length_append, (hashReq1 sha1 secret).2, hashes, cryptInplace_length,
    syncPlain_length]
  omega

/-- The fields of the initiator's plaintext, as far as they have arrived. -/
theorem syncPlain_fields (provide : Nat) (padC ia more : Bytes) (k : Nat) (provide_fits : provide < 2 ^ 32)
    (padC_fits : padC.length < 2 ^ 16) (ia_fits : ia.length < 2 ^ 16) (enough : 16 ≤ k) :
    ((syncPlain provide padC ia ++ more).take k).take 8 = VC ∧
      u32At ((syncPlain provide padC ia ++ more).take k) 8 = provide ∧
      u16At ((syncPlain provide padC ia ++ more).take k) 12 = padC.length ∧
      (16 + padC.length ≤ k →
        u16At ((syncPlain provide padC ia ++ more).take k) (14 + padC.length) = ia.length) ∧
      (16 + padC.length + ia.length ≤ k →
        (((syncPlain provide padC ia ++ more).take k).drop (16 + padC.length)).take ia.length = ia) := by
  have whole : syncPlain provide padC ia ++ more =
      VC ++ (toBeBytes provide ++ (u16Bytes padC.length ++ (padC ++ (u16Bytes ia.length ++ (ia ++ more))))) := by
    simp only [syncPlain, List.append_assoc]
  rw [whole]
  refine ⟨?_, ?_, ?_, ?_, ?_⟩
  · rw [List.take_take, Nat.min_eq_left (by omega)]
    exact List.take_left' rfl
  · rw [u32At_take_at _ _ _ (by omega), u32At_append _ _ 8 rfl]
    exact u32At_toBeBytes provide _ provide_fits
  · rw [u16At_take _ _ _ (by omega), ← List.append_assoc, u16At_append _ _ 12 rfl]
    exact u16At_u16Bytes _ _ padC_fits
  · intro arrived
    rw [u16At_take _ _ _ (by omega), ← List.append_assoc, ← List.append_assoc, ← List.append_assoc,
      u16At_append _ _ (14 + padC.length)]
    · exact u16At_u16Bytes _ _ ia_fits
    · simp only [List.length_append, toBeBytes_length, u16Bytes_length, VC, List.length_replicate]
  · intro arrived
    have front : (VC ++ toBeBytes provide ++ u16Bytes padC.length ++ padC ++ u16Bytes ia.length).length =
        16 + padC.length := by
      simp only [List.length_append, toBeBytes_length, u16Bytes_length, VC, List.length_replicate]
      omega
    rw [List.drop_take, ← List.append_assoc, ← List.append_assoc, ← List.append_assoc, ← List.append_assoc,
      ← front, List.drop_left, List.take_take, Nat.min_eq_left (by omega)]
    exact List.take_left

/-- The bytes from the sync hash on. -/
def syncWire (sha1 : Bytes → Digest) (secret skey : Bytes) (provide : Nat) (padC ia more : Bytes) : Bytes :=
  (syncFlight sha1 secret skey provide padC ia).1 ++ more

section
variable (sha1 : Bytes → Digest) (secret skey : Bytes) (provide : Nat) (padC ia more : Bytes)

theorem syncWire_split : syncWire sha1 secret skey provide padC ia more =
    (hashReq1 sha1 secret).1 ++ (obfuscatedHash sha1 secret skey ++
      (((rc4KeyA sha1 secret skey).cryptInplace (syncPlain provide padC ia)).1 ++ more)) := by
  rw [syncWire, syncFlight]
  dsimp only
  rw [List.append_assoc, List.append_assoc]

theorem obfuscatedHash_length : (obfuscatedHash sha1 secret skey).length = 20 := by
  rw [obfuscatedHash, xorBytes_length _ _ ((hashReq2 sha1 skey).2.trans (hashReq3 sha1 secret).2.symm)]
  exact (hashReq2 sha1 skey).2

/-- The torrent hash of the message, once it has arrived. -/
theorem syncWire_req2 (m : Nat) (enough : 40 ≤ m) :
    deobfuscateReq2 sha1 secret
      ((((syncWire sha1 secret skey provide padC ia more).take m).drop 20).take 20) = (hashReq2 sha1 skey).1 := by
  have first : (hashReq1 sha1 secret).1.length = 20 := (hashReq1 sha1 secret).2
  have second := obfuscatedHash_length sha1 secret skey
  rw [syncWire_split, List.drop_take, List.drop_left' first, List.take_take, Nat.min_eq_left (by omega),
    List.take_left' second, deobfuscateReq2, obfuscatedHash]
  exact xorBytes_xorBytes _ _ ((hashReq2 sha1 skey).2.trans (hashReq3 sha1 secret).2.symm)

theorem syncWire_findSlice (m : Nat) (enough : 20 ≤ m) :
    findSlice (hashReq1 sha1 secret).1 ((syncWire sha1 secret skey provide padC ia more).take m) = some 0 := by
  have first : (hashReq1 sha1 secret).1.length = 20 := (hashReq1 sha1 secret).2
  have present : (hashReq1 sha1 secret).1 ≠ [] := by
    intro blank
    rw [blank] at first
    cases first
  refine findSlice_append _ [] _ present ?_ (fun _ none => absurd none (Nat.not_lt_zero _))
  rw [syncWire_split, List.prefix_take_iff]
  exact ⟨List.prefix_append _ _, by omega⟩

/-- The encrypted part decrypts to the plaintext and goes on with whatever follows. -/
theorem syncWire_decrypt (m : Nat) : ∃ tail,
    ((rc4KeyA sha1 secret skey).cryptInplace
      (((syncWire sha1 secret skey provide padC ia more).take m).drop 40)).1 =
      (syncPlain provide padC ia ++ tail).take (m - 40) := by
  have hashes : ((hashReq1 sha1 secret).1 ++ obfuscatedHash sha1 secret skey).length = 40 := by
    rw [List.length_append, (hashReq1 sha1 secret).2, obfuscatedHash_length]
  have parts := StreamCipher.crypt_append Rc4.next (rc4KeyA sha1 secret skey)
    ((rc4KeyA sha1 secret skey).cryptInplace (syncPlain provide padC ia)).1 more
  have back : ((rc4KeyA sha1 secret skey).cryptInplace
      ((rc4KeyA sha1 secret skey).cryptInplace (syncPlain provide padC ia)).1).1 = syncPlain provide padC ia :=
    StreamCipher.crypt_crypt Rc4.next _ _
  refine ⟨(StreamCipher.crypt Rc4.next (StreamCipher.crypt Rc4.next (rc4KeyA sha1 secret skey)
    ((rc4KeyA sha1 secret skey).cryptInplace (syncPlain provide padC ia)).1).2 more).1, ?_⟩
  rw [List.drop_take, cryptInplace_take, syncWire_split, ← List.append_assoc, List.drop_left' hashes]
  have first := congrArg Prod.fst parts
  change ((rc4KeyA sha1 secret skey).cryptInplace _).1 = ((rc4KeyA sha1 secret skey).cryptInplace _).1 ++ _
    at first
  rw [back] at first
  rw [first]

/-- As long as the message is not there in full the receiver reads on. -/
theorem receiverParse_short (m : Nat) (provide_fits : provide < 2 ^ 32) (padC_fits : padC.length < 2 ^ 16)
    (ia_fits : ia.length < 2 ^ 16) (enough : 40 ≤ m)
    (short : m < (syncFlight sha1 secret skey provide padC ia).1.length) :
    ∃ problem, receiverParseInitiator sha1 secret skey
      ((syncWire sha1 secret skey provide padC ia more).take m) = .error problem ∧ problem.readsOn = true := by
  have size : ((syncWire sha1 secret skey provide padC ia more).take m).length = m := by
    rw [List.length_take, syncWire, List.length_append]
    omega
  rw [syncFlight_length] at short
  simp only [receiverParseInitiator, syncWire_findSlice sha1 secret skey provide padC ia more m (by omega),
    size, Nat.zero_add]
  by_cases header : m < 56
  · rw [if_pos header]
    exact ⟨_, rfl, rfl⟩
  · obtain ⟨tail, plain⟩ := syncWire_decrypt sha1 secret skey provide padC ia more m
    obtain ⟨vc, _, pad, payload, _⟩ :=
      syncPlain_fields provide padC ia tail (m - 40) provide_fits padC_fits ia_fits (by omega)
    have left : ((syncPlain provide padC ia ++ tail).take (m - 40)).length = m - 40 := by
      rw [← plain, cryptInplace_length, List.length_drop, size]
    rw [if_neg header, if_neg (not_not.2 (syncWire_req2 sha1 secret skey provide padC ia more m enough)),
      plain, left, if_neg (by omega), if_neg (not_not.2 vc), pad]
    by_cases padded : m - 40 < 14 + padC.length + 2
    · rw [if_pos padded]
      exact ⟨_, rfl, rfl⟩
    · rw [if_neg padded, payload (by omega), if_pos (by omega)]
      exact ⟨_, rfl, rfl⟩

/-- Once it is, the receiver has all of it, and its stream stands behind everything that has arrived. -/
theorem receiverParse_whole (m : Nat) (provide_fits : provide < 2 ^ 32) (padC_fits : padC.length < 2 ^ 16)
    (ia_fits : ia.length < 2 ^ 16)
    (whole : (syncFlight sha1 secret skey provide padC ia).1.length ≤ m)
    (inside : m ≤ (syncWire sha1 secret skey provide padC ia more).length) :
    receiverParseInitiator sha1 secret skey ((syncWire sha1 secret skey provide padC ia more).take m) =
      .ok ⟨provide, ia, ((rc4KeyA sha1 secret skey).cryptInplace
        (((syncWire sha1 secret skey provide padC ia more).take m).drop 40)).2, rc4KeyB sha1 secret skey⟩ := by
  have size : ((syncWire sha1 secret skey provide padC ia more).take m).length = m :=
    List.length_take_of_le inside
  rw [syncFlight_length] at whole
  obtain ⟨tail, plain⟩ := syncWire_decrypt sha1 secret skey provide padC ia more m
  obtain ⟨vc, offered, pad, payload, initial⟩ :=
    syncPlain_fields provide padC ia tail (m - 40) provide_fits padC_fits ia_fits (by omega)
  have left : ((syncPlain provide padC ia ++ tail).take (m - 40)).length = m - 40 := by
    rw [← plain, cryptInplace_length, List.length_drop, size]
  have at' : 14 + padC.length + 2 = 16 + padC.length := by omega
  simp only [receiverParseInitiator, syncWire_findSlice sha1 secret skey provide padC ia more m (by omega),
    size, Nat.zero_add]
  rw [if_neg (by omega), if_neg (not_not.2 (syncWire_req2 sha1 secret skey provide padC ia more m (by omega))),
    plain, left, if_neg (by omega), if_neg (not_not.2 vc), pad, if_neg (by omega), payload (by omega),
    if_neg (by omega), offered, at', initial (by omega)]

/-- The stream stands where the initiator's does exactly when nothing else has arrived. -/
theorem receiverParse_exact :
    ((rc4KeyA sha1 secret skey).cryptInplace (((syncWire sha1 secret skey provide padC ia more).take
      (syncFlight sha1 secret skey provide padC ia).1.length).drop 40)).2 =
      (syncFlight sha1 secret skey provide padC ia).2 := by
  have hashes : ((hashReq1 sha1 secret).1 ++ obfuscatedHash sha1 secret skey).length = 40 := by
    rw [List.length_append, (hashReq1 sha1 secret).2, obfuscatedHash_length]
  rw [syncWire, List.take_left' rfl, syncFlight]
  dsimp only
  rw [← List.append_assoc, List.drop_left' hashes, Rc4.cryptInplace, StreamCipher.crypt_state,
    cryptInplace_length, ← StreamCipher.crypt_state]
  rfl

end

/-! ### Where the reads end -/

/-- Behind `buffered` bytes, a read ends at the `n`-th byte of the stream. -/
def EndsAt (reads : List Bytes) (buffered n : Nat) : Prop := ∃ k, buffered + (reads.take k).flatten.length = n

theorem endsAt_nil (buffered n : Nat) : EndsAt [] buffered n ↔ buffered = n := by
  constructor
  · rintro ⟨k, ends⟩
    rwa [List.take_nil, List.flatten_nil, List.length_nil, Nat.add_zero] at ends
  · rintro rfl
    exact ⟨0, rfl⟩

theorem endsAt_cons (read : Bytes) (rest : List Bytes) (buffered n : Nat) :
    EndsAt (read :: rest) buffered n ↔ buffered = n ∨ EndsAt rest (buffered + read.length) n := by
  constructor
  · rintro ⟨k, ends⟩
    cases k with
    | zero => exact Or.inl ends
    | succ k =>
      right
      refine ⟨k, ?_⟩
      rwa [List.take_succ_cons, List.flatten_cons, List.length_append, ← Nat.add_assoc] at ends
  · rintro (rfl | ⟨k, ends⟩)
    · exact ⟨0, rfl⟩
    · refine ⟨k + 1, ?_⟩
      rwa [List.take_succ_cons, List.flatten_cons, List.length_append, ← Nat.add_assoc]

theorem endsAt_self (reads : List Bytes) (buffered : Nat) : EndsAt reads buffered buffered := ⟨0, rfl⟩

theorem endsAt_le (reads : List Bytes) (buffered n : Nat) (ends : EndsAt reads buffered n) : buffered ≤ n := by
  obtain ⟨k, rfl⟩ := ends
  exact Nat.le_add_right _ _

/-- A later end is an end of the reads behind this one. -/
theorem endsAt_later (read : Bytes) (rest : List Bytes) (buffered n : Nat) (later : buffered < n) :
    EndsAt (read :: rest) buffered n ↔ EndsAt rest (buffered + read.length) n := by
  rw [endsAt_cons]
  exact or_iff_right (Nat.ne_of_lt later)

/-! ### The receiver's loops -/

section
variable (sha1 : Bytes → Digest) (registry : HotRegistry) (torrent : HotTorrent) (secret : Bytes)
variable (provide : Nat) (padA padC ia more : Bytes)

/-- Everything behind the public key of the initiator. -/
def inbound : Bytes := padA ++ syncWire sha1 secret torrent.infohash provide padC ia more

/-- The byte at which the message ends. -/
def syncEnd : Nat := padA.length + (syncFlight sha1 secret torrent.infohash provide padC ia).1.length

theorem awaitReq1_spec (near : padA.length ≤ 512)
    (absent : ∀ i, i < padA.length →
      ¬(hashReq1 sha1 secret).1 <+: (inbound sha1 torrent secret provide padA padC ia more).drop i)
    (reads : List Bytes) (buf : Bytes)
    (whole : buf ++ reads.flatten = inbound sha1 torrent secret provide padA padC ia more)
    (early : buf.length < padA.length + 20) :
    ∃ buf' rest, awaitReq1 sha1 secret buf reads = .ok (padA.length, buf', rest) ∧
      buf' ++ rest.flatten = inbound sha1 torrent secret provide padA padC ia more ∧
      ∀ n, padA.length + 20 ≤ n → (EndsAt reads buf.length n ↔ EndsAt rest buf'.length n) := by
  have size : (hashReq1 sha1 secret).1.length = 20 := (hashReq1 sha1 secret).2
  have present : (hashReq1 sha1 secret).1 ≠ [] := by
    intro blank
    rw [blank] at size
    cases size
  have long : padA.length + 56 ≤ (inbound sha1 torrent secret provide padA padC ia more).length := by
    rw [inbound, syncWire, List.length_append, List.length_append, syncFlight_length]
    omega
  have open' : ¬MAX ≤ buf.length := by
    unfold MAX
    omega
  induction reads generalizing buf with
  | nil =>
    rw [List.flatten_nil, List.append_nil] at whole
    rw [whole] at early
    omega
  | cons read rest ih =>
    rw [List.flatten_cons, ← List.append_assoc] at whole
    rw [awaitReq1, if_neg open']
    by_cases short : (buf ++ read).length < padA.length + 20
    · have missing : findSlice (hashReq1 sha1 secret).1 (buf ++ read) = none := by
        apply findSlice_eq_none _ _ present
        intro i _ here
        have room := here.length_le
        rw [List.length_drop, size] at room
        apply absent i (by omega)
        rw [← whole, List.drop_append_of_le_length (by omega)]
        exact here.trans (List.prefix_append _ _)
      rw [missing]
      have open'' : ¬MAX ≤ (buf ++ read).length := by
        unfold MAX
        omega
      obtain ⟨buf', left, found, same, ends⟩ := ih (buf ++ read) whole short open''
      refine ⟨buf', left, found, same, ?_⟩
      intro n beyond
      rw [endsAt_later read rest buf.length n (by omega), ← List.length_append]
      exact ends n beyond
    · have arrived : buf ++ read = padA ++ (syncWire sha1 secret torrent.infohash provide padC ia more).take
          ((buf ++ read).length - padA.length) := by
        have front : buf ++ read =
            (inbound sha1 torrent secret provide padA padC ia more).take (buf ++ read).length := by
          rw [← whole, List.take_left' rfl]
        rw [inbound, List.take_append, List.take_of_length_le (by omega)] at front
        exact front
      have found : findSlice (hashReq1 sha1 secret).1 (buf ++ read) = some padA.length := by
        rw [arrived]
        apply findSlice_append _ _ _ present
        · rw [List.prefix_take_iff, syncWire_split]
          exact ⟨List.prefix_append _ _, by omega⟩
        · intro i inside here
          apply absent i inside
          rw [← arrived] at here
          rw [← whole, List.drop_append_of_le_length (by omega)]
          exact here.trans (List.prefix_append _ _)
      rw [found]
      refine ⟨buf ++ read, rest, rfl, whole, ?_⟩
      intro n beyond
      rw [endsAt_later read rest buf.length n (by omega), List.length_append]

/-- The buffer behind the padding is the beginning of the message. -/
theorem buffered_sync (buf : Bytes) (left : List Bytes)
    (whole : buf ++ left.flatten = inbound sha1 torrent secret provide padA padC ia more)
    (past : padA.length ≤ buf.length) : buf.drop padA.length =
      (syncWire sha1 secret torrent.infohash provide padC ia more).take (buf.length - padA.length) := by
  have front : buf = (inbound sha1 torrent secret provide padA padC ia more).take buf.length := by
    rw [← whole, List.take_left' rfl]
  rw [inbound, List.take_append, List.take_of_length_le past] at front
  calc buf.drop padA.length
      = (padA ++ (syncWire sha1 secret torrent.infohash provide padC ia more).take
          (buf.length - padA.length)).drop padA.length := by rw [← front]
    _ = _ := List.drop_left' rfl

/-- The turn on a buffer that holds the torrent hash, by what the parser says. -/
theorem turn_eq (known : matchReq2 sha1 registry (hashReq2 sha1 torrent.infohash).1 = some torrent)
    (buf : Bytes) (left : List Bytes)
    (whole : buf ++ left.flatten = inbound sha1 torrent secret provide padA padC ia more)
    (hashed : padA.length + 40 ≤ buf.length) :
    turn sha1 registry secret padA.length buf =
      match receiverParseInitiator sha1 secret torrent.infohash
        ((syncWire sha1 secret torrent.infohash provide padC ia more).take (buf.length - padA.length)) with
      | .ok sync => .parsed torrent sync
      | .error problem => if problem.readsOn then .readOn problem else .failed (.msg problem.message) := by
  have front := buffered_sync sha1 torrent secret provide padA padC ia more buf left whole (by omega)
  have req2 : deobfuscateReq2 sha1 secret ((buf.drop (padA.length + 20)).take 20) =
      (hashReq2 sha1 torrent.infohash).1 := by
    rw [← List.drop_drop, front]
    exact syncWire_req2 sha1 secret torrent.infohash provide padC ia more _ (by omega)
  rw [← front]
  cases outcome : receiverParseInitiator sha1 secret torrent.infohash (buf.drop padA.length) with
  | ok sync =>
    rw [turn, if_neg (by omega), req2, known]
    simp only [outcome]
  | error problem =>
    rw [turn, if_neg (by omega), req2, known]
    simp only [outcome]

theorem turn_readOn (provide_fits : provide < 2 ^ 32) (padC_fits : padC.length < 2 ^ 16)
    (ia_fits : ia.length < 2 ^ 16)
    (known : matchReq2 sha1 registry (hashReq2 sha1 torrent.infohash).1 = some torrent)
    (buf : Bytes) (left : List Bytes)
    (whole : buf ++ left.flatten = inbound sha1 torrent secret provide padA padC ia more)
    (hashed : padA.length + 40 ≤ buf.length)
    (short : buf.length < syncEnd sha1 torrent secret provide padA padC ia) :
    ∃ problem, turn sha1 registry secret padA.length buf = .readOn problem := by
  rw [syncEnd] at short
  obtain ⟨problem, parsed, readsOn⟩ := receiverParse_short sha1 secret torrent.infohash provide padC ia more
    (buf.length - padA.length) provide_fits padC_fits ia_fits (by omega) (by omega)
  refine ⟨problem, ?_⟩
  rw [turn_eq sha1 registry torrent secret provide padA padC ia more known buf left whole hashed, parsed]
  dsimp only
  rw [if_pos readsOn]

theorem turn_parsed (provide_fits : provide < 2 ^ 32) (padC_fits : padC.length < 2 ^ 16)
    (ia_fits : ia.length < 2 ^ 16)
    (known : matchReq2 sha1 registry (hashReq2 sha1 torrent.infohash).1 = some torrent)
    (buf : Bytes) (left : List Bytes)
    (whole : buf ++ left.flatten = inbound sha1 torrent secret provide padA padC ia more)
    (there : syncEnd sha1 torrent secret provide padA padC ia ≤ buf.length) :
    turn sha1 registry secret padA.length buf = .parsed torrent ⟨provide, ia,
      ((rc4KeyA sha1 secret torrent.infohash).cryptInplace
        (((syncWire sha1 secret torrent.infohash provide padC ia more).take
          (buf.length - padA.length)).drop 40)).2, rc4KeyB sha1 secret torrent.infohash⟩ := by
  have size := syncFlight_length sha1 secret torrent.infohash provide padC ia
  have total := congrArg List.length whole
  rw [List.length_append, inbound, List.length_append] at total
  rw [syncEnd] at there
  rw [turn_eq sha1 registry torrent secret provide padA padC ia more known buf left whole (by omega),
    receiverParse_whole sha1 secret torrent.infohash provide padC ia more _ provide_fits padC_fits ia_fits
      (by omega) (by omega)]

/-- The receiver knows exactly what the initiator said, and has read nothing else. -/
def ReceiverInStep (result : Except Error (HotTorrent × SyncParsed × List Bytes)) : Prop :=
  ∃ rest, result = .ok (torrent, ⟨provide, ia, (syncFlight sha1 secret torrent.infohash provide padC ia).2,
    rc4KeyB sha1 secret torrent.infohash⟩, rest) ∧ rest.flatten = more

/-- What has been parsed is in step where the buffer ends with the message. -/
theorem inStep_parsed (buf : Bytes) (left : List Bytes)
    (whole : buf ++ left.flatten = inbound sha1 torrent secret provide padA padC ia more) :
    ReceiverInStep sha1 torrent secret provide padC ia more (.ok (torrent, ⟨provide, ia,
      ((rc4KeyA sha1 secret torrent.infohash).cryptInplace
        (((syncWire sha1 secret torrent.infohash provide padC ia more).take
          (buf.length - padA.length)).drop 40)).2, rc4KeyB sha1 secret torrent.infohash⟩, left)) ↔
      buf.length = syncEnd sha1 torrent secret provide padA padC ia := by
  have total := congrArg List.length whole
  rw [List.length_append, inbound, syncWire, List.length_append, List.length_append] at total
  rw [syncEnd]
  constructor
  · rintro ⟨rest, same, kept⟩
    rw [Except.ok.injEq, Prod.mk.injEq, Prod.mk.injEq] at same
    rw [same.2.2, kept] at total
    omega
  · intro exact'
    refine ⟨left, ?_, ?_⟩
    · rw [exact', Nat.add_sub_cancel_left, receiverParse_exact]
    · rw [inbound, syncWire, ← List.append_assoc] at whole
      exact (List.append_inj whole (by rw [exact', List.length_append])).2

/-- The reads end with the message, and it is not too large for the reads it comes in. -/
def Ends (reads : List Bytes) (buffered : Nat) : Prop :=
  EndsAt reads buffered (syncEnd sha1 torrent secret provide padA padC ia) ∧
    ((syncFlight sha1 secret torrent.infohash provide padC ia).1.length ≤ MAX ∨
      ∀ n, padA.length + 40 ≤ n → n < syncEnd sha1 torrent secret provide padA padC ia →
        ¬EndsAt reads buffered n)

/-- Behind the message the reads end with it only if they do so at once. -/
theorem ends_of_le (reads : List Bytes) (buffered : Nat)
    (there : syncEnd sha1 torrent secret provide padA padC ia ≤ buffered) :
    Ends sha1 torrent secret provide padA padC ia reads buffered ↔
      buffered = syncEnd sha1 torrent secret provide padA padC ia := by
  constructor
  · rintro ⟨ends, _⟩
    exact Nat.le_antisymm (endsAt_le _ _ _ ends) there
  · intro exact'
    refine ⟨exact' ▸ endsAt_self reads buffered, Or.inr ?_⟩
    intro n _ inside ends
    have bound := endsAt_le _ _ _ ends
    omega

/-- Before the torrent hash is there, a read changes nothing. -/
theorem ends_early (read : Bytes) (rest : List Bytes) (buffered : Nat)
    (early : buffered < padA.length + 40) :
    Ends sha1 torrent secret provide padA padC ia (read :: rest) buffered ↔
      Ends sha1 torrent secret provide padA padC ia rest (buffered + read.length) := by
  have size := syncFlight_length sha1 secret torrent.infohash provide padC ia
  have past : buffered < syncEnd sha1 torrent secret provide padA padC ia := by
    rw [syncEnd]
    omega
  rw [Ends, Ends, endsAt_later read rest buffered _ past]
  refine and_congr_right (fun _ => or_congr_right ?_)
  refine forall_congr' (fun n => forall_congr' (fun hashed => ?_))
  rw [endsAt_later read rest buffered n (by omega)]

/-- After it, the message must not outgrow the limit with the read. -/
theorem ends_late (read : Bytes) (rest : List Bytes) (buffered : Nat)
    (hashed : padA.length + 40 ≤ buffered)
    (short : buffered < syncEnd sha1 torrent secret provide padA padC ia) :
    Ends sha1 torrent secret provide padA padC ia (read :: rest) buffered ↔
      buffered + read.length ≤ padA.length + MAX ∧
        Ends sha1 torrent secret provide padA padC ia rest (buffered + read.length) := by
  have ends : syncEnd sha1 torrent secret provide padA padC ia =
      padA.length + (syncFlight sha1 secret torrent.infohash provide padC ia).1.length := rfl
  rw [Ends, Ends, endsAt_later read rest buffered _ short]
  constructor
  · rintro ⟨there, small | none⟩
    · have bound := endsAt_le _ _ _ there
      exact ⟨by omega, there, Or.inl small⟩
    · exact absurd (endsAt_self _ _) (none buffered hashed short)
  · rintro ⟨within, there, small | none⟩
    · exact ⟨there, Or.inl small⟩
    · refine ⟨there, Or.inl ?_⟩
      by_contra large
      exact none (buffered + read.length) (by omega) (by omega) (endsAt_self _ _)

theorem awaitSync_spec (provide_fits : provide < 2 ^ 32) (padC_fits : padC.length < 2 ^ 16)
    (ia_fits : ia.length < 2 ^ 16)
    (known : matchReq2 sha1 registry (hashReq2 sha1 torrent.infohash).1 = some torrent)
    (reads : List Bytes) (buf : Bytes)
    (whole : buf ++ reads.flatten = inbound sha1 torrent secret provide padA padC ia more) :
    ReceiverInStep sha1 torrent secret provide padC ia more
        (awaitSync sha1 registry secret padA.length buf reads) ↔
      Ends sha1 torrent secret provide padA padC ia reads buf.length := by
  induction reads generalizing buf with
  | nil =>
    rw [awaitSync]
    by_cases there : syncEnd sha1 torrent secret provide padA padC ia ≤ buf.length
    · rw [turn_parsed sha1 registry torrent secret provide padA padC ia more provide_fits padC_fits ia_fits
        known buf [] whole there]
      exact (inStep_parsed sha1 torrent secret provide padA padC ia more buf [] whole).trans
        (ends_of_le sha1 torrent secret provide padA padC ia [] buf.length there).symm
    · have total := congrArg List.length whole
      rw [List.flatten_nil, List.append_nil, inbound, syncWire, List.length_append, List.length_append]
        at total
      rw [syncEnd] at there
      omega
  | cons read rest ih =>
    have whole' : buf ++ read ++ rest.flatten = inbound sha1 torrent secret provide padA padC ia more := by
      rw [List.append_assoc]
      exact whole
    have later := ih (buf ++ read) whole'
    rw [List.length_append] at later
    rw [awaitSync]
    by_cases early : buf.length < padA.length + 40
    · have short : turn sha1 registry secret padA.length buf = .short := by
        rw [turn, if_pos early]
      rw [short]
      exact later.trans (ends_early sha1 torrent secret provide padA padC ia read rest buf.length early).symm
    · by_cases there : syncEnd sha1 torrent secret provide padA padC ia ≤ buf.length
      · rw [turn_parsed sha1 registry torrent secret provide padA padC ia more provide_fits padC_fits ia_fits
          known buf _ whole there]
        exact (inStep_parsed sha1 torrent secret provide padA padC ia more buf _ whole).trans
          (ends_of_le sha1 torrent secret provide padA padC ia _ buf.length there).symm
      · obtain ⟨problem, readOn⟩ := turn_readOn sha1 registry torrent secret provide padA padC ia more
          provide_fits padC_fits ia_fits known buf _ whole (by omega) (by omega)
        rw [readOn, ends_late sha1 torrent secret provide padA padC ia read rest buf.length (by omega)
          (by omega)]
        dsimp only
        split_ifs with large
        · rw [List.length_append] at large
          refine ⟨?_, fun within => absurd within.1 (by omega)⟩
          rintro ⟨_, failed, _⟩
          cases failed
        · rw [List.length_append] at large
          exact later.trans (and_iff_right (by omega)).symm

/-- Both loops together, from the first read on. -/
theorem receiveSync_spec (provide_fits : provide < 2 ^ 32) (padC_fits : padC.length < 2 ^ 16)
    (ia_fits : ia.length < 2 ^ 16) (near : padA.length ≤ 512)
    (known : matchReq2 sha1 registry (hashReq2 sha1 torrent.infohash).1 = some torrent)
    (absent : ∀ i, i < padA.length →
      ¬(hashReq1 sha1 secret).1 <+: (inbound sha1 torrent secret provide padA padC ia more).drop i)
    (segments : List Bytes)
    (sent : segments.flatten = inbound sha1 torrent secret provide padA padC ia more) :
    ReceiverInStep sha1 torrent secret provide padC ia more (receiveSync sha1 registry secret segments) ↔
      Ends sha1 torrent secret provide padA padC ia (reads 4096 segments) 0 := by
  have size := syncFlight_length sha1 secret torrent.infohash provide padC ia
  have ends : syncEnd sha1 torrent secret provide padA padC ia =
      padA.length + (syncFlight sha1 secret torrent.infohash provide padC ia).1.length := rfl
  obtain ⟨buf, rest, found, whole, later⟩ := awaitReq1_spec sha1 torrent secret provide padA padC ia more near
    absent (reads 4096 segments) [] ((reads_flatten 4096 segments).trans sent) (Nat.succ_pos _)
  have both := awaitSync_spec sha1 registry torrent secret provide padA padC ia more provide_fits padC_fits
    ia_fits known rest buf whole
  rw [receiveSync, found]
  refine both.trans ?_
  rw [Ends, Ends]
  refine and_congr (later _ (by omega)).symm (or_congr_right ?_)
  refine forall_congr' (fun n => forall_congr' (fun hashed => ?_))
  rw [← later n (by omega)]
  rfl

end

/-! ### The initiator's loop -/

theorem answerPlain_length (select : Nat) (padD : Bytes) :
    (answerPlain select padD).length = MSE_RESP_HDR + padD.length := by
  simp only [answerPlain, List.length_append, toBeBytes_length, u16Bytes_length, VC, List.length_replicate,
    MSE_RESP_HDR]
  omega

theorem answerFlight_length (dec : Rc4) (select : Nat) (padD : Bytes) :
    (answerFlight dec select padD).1.length = MSE_RESP_HDR + padD.length := by
  rw [answerFlight, cryptInplace_length, answerPlain_length]

/-- A header that has arrived is the header of the whole stream. -/
theorem header_arrived (dec : Rc4) (buf rest : Bytes) (off : Nat) (arrived : off + MSE_RESP_HDR ≤ buf.length) :
    header dec buf off = header dec (buf ++ rest) off := by
  rw [header, header, List.drop_append_of_le_length (by omega), List.take_append_of_le_length]
  rw [List.length_drop]
  omega

theorem scanLoop_refused (dec : Rc4) (buf : Bytes) (offsets rest : List Nat) (saw : Bool)
    (refused : ∀ off ∈ offsets, ¬Accepts dec buf off) :
    scanLoop dec buf (offsets ++ rest) saw = scanLoop dec buf rest saw := by
  induction offsets with
  | nil => rfl
  | cons off offsets ih =>
    rw [List.cons_append, scanLoop_skip dec buf off _ saw (refused off List.mem_cons_self)]
    exact ih (fun other member => refused other (List.mem_cons_of_mem _ member))

theorem require_return (condition : Prop) [Decidable condition] (problem : String) (value : α) :
    (do require (decide condition) problem; return value : Except Error α) =
      if condition then .ok value else .error (.msg problem) := by
  by_cases holds : condition
  · rw [if_pos holds, decide_eq_true holds]
    rfl
  · rw [if_neg holds, decide_eq_false holds]
    rfl

/-- A turn of the loop that finds the answer. -/
theorem awaitAnswer_found (dec d : Rc4) (buf : Bytes) (left : List Bytes) (select consumed : Nat)
    (scanned : initiatorScanResponse dec buf = .ok (.found select consumed, d)) :
    awaitAnswer dec buf left =
      if consumed = buf.length then .ok (select, d, left)
      else .error (.msg s!"MSE: over-read after response (consumed={consumed} buf={buf.length})") := by
  cases left with
  | nil =>
    rw [awaitAnswer, scanned]
    exact require_return (consumed = buf.length) _ (select, d, [])
  | cons read rest =>
    rw [awaitAnswer, scanned]
    exact require_return (consumed = buf.length) _ (select, d, read :: rest)

theorem awaitAnswer_eof (dec d : Rc4) (buf : Bytes)
    (scanned : initiatorScanResponse dec buf = .ok (.needMore, d)) :
    awaitAnswer dec buf [] = .error (.msg "MSE: eof before peer ENCRYPT response") := by
  rw [awaitAnswer, scanned]
  rfl

theorem awaitAnswer_more (dec d : Rc4) (buf read : Bytes) (rest : List Bytes)
    (scanned : initiatorScanResponse dec buf = .ok (.needMore, d)) :
    awaitAnswer dec buf (read :: rest) =
      if MAX_PAD_B + MSE_RESP_HDR + MAX_PAD_B ≤ buf.length then
        .error (.msg "MSE: response buffer full without VC")
      else awaitAnswer d (buf ++ read) rest := by
  rw [awaitAnswer, scanned]
  rfl

section
variable (dec : Rc4) (select : Nat) (padB padD more : Bytes)

/-- Everything behind the public key of the responder. -/
def outbound : Bytes := padB ++ ((answerFlight dec select padD).1 ++ more)

/-- The byte at which the answer ends. -/
def answerEnd : Nat := padB.length + (MSE_RESP_HDR + padD.length)

theorem header_answer (select_fits : select < 2 ^ 32) (padD_fits : padD.length ≤ MAX_PAD_B) :
    (header dec (outbound dec select padB padD more) padB.length).take 8 = VC ∧
      u32At (header dec (outbound dec select padB padD more) padB.length) 8 = select ∧
      u16At (header dec (outbound dec select padB padD more) padB.length) 12 = padD.length := by
  have size := answerFlight_length dec select padD
  have plain : header dec (outbound dec select padB padD more) padB.length =
      (answerPlain select padD).take MSE_RESP_HDR := by
    rw [header, outbound, List.drop_left' rfl, List.take_append_of_le_length (by omega), answerFlight,
      cryptInplace_take]
    exact congrArg _ (StreamCipher.crypt_crypt Rc4.next dec _)
  rw [plain]
  refine ⟨?_, ?_, ?_⟩
  · rw [take_take_eight, answerPlain]
    exact List.take_left' rfl
  · rw [u32At_take_at _ _ _ (by decide), answerPlain, u32At_append _ _ 8 rfl]
    exact u32At_toBeBytes select _ select_fits
  · rw [u16At_take _ _ _ (by decide), answerPlain, ← List.append_assoc, u16At_append _ _ 12 rfl]
    refine u16At_u16Bytes _ _ ?_
    unfold MAX_PAD_B at padD_fits
    omega

/-- What the scan finds in the bytes that have arrived. -/
theorem scan_arrived (select_fits : select < 2 ^ 32) (padB_fits : padB.length ≤ MAX_PAD_B)
    (padD_fits : padD.length ≤ MAX_PAD_B)
    (absent : ∀ off, off ≤ MAX_PAD_B → off ≠ padB.length →
      off + MSE_RESP_HDR ≤ (outbound dec select padB padD more).length →
      (header dec (outbound dec select padB padD more) off).take 8 ≠ VC)
    (buf rest : Bytes) (whole : buf ++ rest = outbound dec select padB padD more) :
    initiatorScanResponse dec buf =
      if buf.length < answerEnd padB padD then .ok (.needMore, dec)
      else .ok (.found select (answerEnd padB padD), (answerFlight dec select padD).2) := by
  have refused : ∀ off, off ≤ MAX_PAD_B → off ≠ padB.length → off + MSE_RESP_HDR ≤ buf.length →
      ¬Accepts dec buf off := by
    intro off near apart arrived accepts
    apply absent off near apart
    · rw [← whole, List.length_append]
      omega
    · rw [← whole, ← header_arrived dec buf rest off arrived]
      exact accepts.1
  rw [initiatorScanResponse]
  by_cases tiny : buf.length < MSE_RESP_HDR
  · rw [if_pos tiny, if_pos]
    unfold answerEnd
    omega
  · rw [if_neg tiny]
    by_cases before : buf.length < padB.length + MSE_RESP_HDR
    · have none : ∀ off ∈ List.range (min (buf.length - MSE_RESP_HDR) MAX_PAD_B + 1), ¬Accepts dec buf off := by
        intro off member
        have below := List.mem_range.1 member
        exact refused off (by omega) (by omega) (by omega)
      have looped := scanLoop_refused dec buf _ [] false none
      rw [List.append_nil] at looped
      rw [looped, scanLoop, if_neg Bool.false_ne_true, if_neg, if_pos]
      · unfold answerEnd
        omega
      · unfold MAX_PAD_B at padB_fits ⊢
        omega
    · have header_eq := header_arrived dec buf rest padB.length (Nat.not_lt.1 before)
      rw [whole] at header_eq
      obtain ⟨vc, selected, padding⟩ := header_answer dec select padB padD more select_fits padD_fits
      rw [← header_eq] at vc selected padding
      have accepts : Accepts dec buf padB.length := ⟨vc, padding ▸ padD_fits⟩
      have ends : need dec buf padB.length = answerEnd padB padD := by
        rw [need, padding, answerEnd, Nat.add_assoc]
      have offsets : List.range (min (buf.length - MSE_RESP_HDR) MAX_PAD_B + 1) =
          List.range padB.length ++ (padB.length :: (List.range
            (min (buf.length - MSE_RESP_HDR) MAX_PAD_B - padB.length)).map (padB.length + 1 + ·)) := by
        have count : min (buf.length - MSE_RESP_HDR) MAX_PAD_B + 1 =
            padB.length + (min (buf.length - MSE_RESP_HDR) MAX_PAD_B - padB.length + 1) := by omega
        rw [count, List.range_add, List.range_succ_eq_map, List.map_cons, List.map_map]
        congr 3
        funext i
        show padB.length + (i + 1) = padB.length + 1 + i
        omega
      have first : ∀ off ∈ List.range padB.length, ¬Accepts dec buf off := by
        intro off member
        have below := List.mem_range.1 member
        exact refused off (by omega) (by omega) (by omega)
      rw [offsets, scanLoop_refused dec buf _ _ false first]
      by_cases short : buf.length < answerEnd padB padD
      · rw [if_pos short, scanLoop_incomplete dec buf _ _ false accepts (ends ▸ short)]
        have others : ∀ off ∈ (List.range (min (buf.length - MSE_RESP_HDR) MAX_PAD_B - padB.length)).map
            (padB.length + 1 + ·), ¬Accepts dec buf off := by
          intro off member
          obtain ⟨i, inside, rfl⟩ := List.mem_map.1 member
          have below := List.mem_range.1 inside
          exact refused _ (by omega) (by omega) (by omega)
        have looped := scanLoop_refused dec buf _ [] true others
        rw [List.append_nil] at looped
        rw [looped, scanLoop, if_pos rfl]
      · rw [if_neg short, scanLoop_found dec buf _ _ false accepts (ends ▸ Nat.not_lt.1 short), selected, ends]
        have size := answerFlight_length dec select padD
        have answer : (buf.take (answerEnd padB padD)).drop padB.length = (answerFlight dec select padD).1 := by
          have front : buf.take (answerEnd padB padD) = padB ++ (answerFlight dec select padD).1 := by
            have start : (buf ++ rest).take (answerEnd padB padD) = buf.take (answerEnd padB padD) :=
              List.take_append_of_le_length (Nat.not_lt.1 short)
            rw [← start, whole, outbound, ← List.append_assoc]
            exact List.take_left' (by rw [List.length_append, size, answerEnd])
          rw [front, List.drop_left' rfl]
        rw [answer, Rc4.cryptInplace, StreamCipher.crypt_state, size, answerFlight, Rc4.cryptInplace,
          StreamCipher.crypt_state, answerPlain_length]

/-- The initiator knows the method and has read nothing behind the answer. -/
def InitiatorInStep (result : Except Error (Nat × Rc4 × List Bytes)) : Prop :=
  ∃ rest, result = .ok (select, (answerFlight dec select padD).2, rest) ∧ rest.flatten = more

/-- An answer that is found is taken only where the buffer ends with it. -/
theorem inStep_found (buf : Bytes) (left : List Bytes)
    (whole : buf ++ left.flatten = outbound dec select padB padD more)
    (scanned : initiatorScanResponse dec buf =
      .ok (.found select (answerEnd padB padD), (answerFlight dec select padD).2)) :
    InitiatorInStep dec select padD more (awaitAnswer dec buf left) ↔
      buf.length = answerEnd padB padD := by
  have size := answerFlight_length dec select padD
  rw [awaitAnswer_found dec _ buf left select _ scanned]
  by_cases exact' : answerEnd padB padD = buf.length
  · rw [if_pos exact']
    refine ⟨fun _ => exact'.symm, fun _ => ⟨left, rfl, ?_⟩⟩
    rw [outbound, ← List.append_assoc] at whole
    refine (List.append_inj whole ?_).2
    rw [← exact', List.length_append, size, answerEnd]
  · rw [if_neg exact']
    refine ⟨?_, fun same => absurd same.symm exact'⟩
    rintro ⟨_, failed, _⟩
    cases failed

theorem awaitAnswer_spec (select_fits : select < 2 ^ 32) (padB_fits : padB.length ≤ MAX_PAD_B)
    (padD_fits : padD.length ≤ MAX_PAD_B)
    (absent : ∀ off, off ≤ MAX_PAD_B → off ≠ padB.length →
      off + MSE_RESP_HDR ≤ (outbound dec select padB padD more).length →
      (header dec (outbound dec select padB padD more) off).take 8 ≠ VC)
    (reads : List Bytes) (buf : Bytes)
    (whole : buf ++ reads.flatten = outbound dec select padB padD more) :
    InitiatorInStep dec select padD more (awaitAnswer dec buf reads) ↔
      EndsAt reads buf.length (answerEnd padB padD) := by
  have past : ∀ (buf : Bytes) (left : List Bytes), answerEnd padB padD ≤ buf.length →
      (EndsAt left buf.length (answerEnd padB padD) ↔ buf.length = answerEnd padB padD) := by
    intro buf left there
    refine ⟨fun ends => Nat.le_antisymm (endsAt_le _ _ _ ends) there, ?_⟩
    intro same
    rw [← same]
    exact endsAt_self left buf.length
  induction reads generalizing buf with
  | nil =>
    have scanned := scan_arrived dec select padB padD more select_fits padB_fits padD_fits absent buf _ whole
    split_ifs at scanned with short
    · rw [awaitAnswer_eof dec dec buf scanned, endsAt_nil]
      refine ⟨?_, fun same => absurd same (Nat.ne_of_lt short)⟩
      rintro ⟨_, failed, _⟩
      cases failed
    · exact (inStep_found dec select padB padD more buf [] whole scanned).trans
        (past buf [] (Nat.not_lt.1 short)).symm
  | cons read rest ih =>
    have scanned := scan_arrived dec select padB padD more select_fits padB_fits padD_fits absent buf _ whole
    split_ifs at scanned with short
    · have room : ¬MAX_PAD_B + MSE_RESP_HDR + MAX_PAD_B ≤ buf.length := by
        unfold answerEnd at short
        omega
      have later := ih (buf ++ read) (by rw [List.append_assoc]; exact whole)
      rw [List.length_append] at later
      rw [awaitAnswer_more dec dec buf read rest scanned, if_neg room]
      exact later.trans (endsAt_later read rest buf.length _ short).symm
    · exact (inStep_found dec select padB padD more buf _ whole scanned).trans
        (past buf _ (Nat.not_lt.1 short)).symm

end

/-! ### In step -/

/-- Where the receiver finds the sync hash and the torrent and the initiator the header at no other place,
the receiver is in step exactly if a read ends with the initiator's message and, for a message above the
limit, none ends in it behind the torrent hash; the initiator exactly if a read ends with the answer. -/
theorem handshake_in_step (sha1 : Bytes → Digest) (secret : Bytes) (torrent : HotTorrent) :
    (∀ (registry : HotRegistry) (provide : Nat) (padA padC ia more : Bytes) (segments : List Bytes),
      provide < 2 ^ 32 → padC.length ≤ 512 → ia.length ≤ 65535 → padA.length ≤ 512 →
      matchReq2 sha1 registry (hashReq2 sha1 torrent.infohash).1 = some torrent →
      (∀ i, i < padA.length →
        ¬(hashReq1 sha1 secret).1 <+: (inbound sha1 torrent secret provide padA padC ia more).drop i) →
      segments.flatten = inbound sha1 torrent secret provide padA padC ia more →
      (ReceiverInStep sha1 torrent secret provide padC ia more (receiveSync sha1 registry secret segments) ↔
        Ends sha1 torrent secret provide padA padC ia (reads 4096 segments) 0)) ∧
    ∀ (select : Nat) (padB padD more : Bytes) (segments : List Bytes),
      select < 2 ^ 32 → padB.length ≤ 512 → padD.length ≤ 512 →
      (∀ off, off ≤ 512 → off ≠ padB.length →
        off + MSE_RESP_HDR ≤ (outbound (rc4KeyB sha1 secret torrent.infohash) select padB padD more).length →
        (header (rc4KeyB sha1 secret torrent.infohash)
          (outbound (rc4KeyB sha1 secret torrent.infohash) select padB padD more) off).take 8 ≠ VC) →
      segments.flatten = outbound (rc4KeyB sha1 secret torrent.infohash) select padB padD more →
      (InitiatorInStep (rc4KeyB sha1 secret torrent.infohash) select padD more
          (awaitAnswer (rc4KeyB sha1 secret torrent.infohash) [] (reads 256 segments)) ↔
        EndsAt (reads 256 segments) 0 (answerEnd padB padD)) := by
  constructor
  · intro registry provide padA padC ia more segments provide_fits padC_fits ia_fits near known absent sent
    exact receiveSync_spec sha1 registry torrent secret provide padA padC ia more provide_fits (by omega)
      (by omega) near known absent segments sent
  · intro select padB padD more segments select_fits padB_fits padD_fits absent sent
    exact awaitAnswer_spec _ select padB padD more select_fits padB_fits padD_fits absent (reads 256 segments) []
      ((reads_flatten 256 segments).trans sent)

/-- Both private keys are 1. -/
def smallSecret : Bytes := List.replicate 95 0 ++ [2]

def ones : HotTorrent := ⟨1, List.replicate 20 1⟩

/-- SHA-1 on the inputs of a handshake with this secret and this torrent. -/
def sha1Table (input : Bytes) : Digest :=
  if input = salt 'r' 'e' 'q' '1' ++ smallSecret then
    ⟨[55, 136, 124, 87, 242, 100, 19, 10, 106, 173, 214, 8, 113, 219, 66, 74, 72, 41, 228, 145], rfl⟩
  else if input = salt 'r' 'e' 'q' '2' ++ ones.infohash then
    ⟨[169, 30, 2, 52, 13, 62, 48, 41, 23, 91, 186, 167, 46, 221, 210, 219, 35, 137, 2, 176], rfl⟩
  else if input = salt 'r' 'e' 'q' '3' ++ smallSecret then
    ⟨[156, 6, 147, 146, 35, 220, 152, 127, 79, 57, 210, 85, 217, 193, 167, 243, 207, 229, 177, 105], rfl⟩
  else if input = salt 'k' 'e' 'y' 'A' ++ smallSecret ++ ones.infohash then
    ⟨[125, 28, 116, 248, 61, 44, 77, 211, 160, 102, 177, 100, 51, 38, 216, 80, 115, 185, 146, 202], rfl⟩
  else
    ⟨[69, 52, 54, 232, 196, 83, 19, 85, 126, 59, 110, 186, 75, 105, 51, 37, 91, 222, 228, 12], rfl⟩

/-- What the initiator sends behind two bytes of padding, with four bytes of initial payload. -/
def smallInbound : Bytes := inbound sha1Table ones smallSecret 3 [7, 8] [] [1, 2, 3, 4] []

def smallOutbound : Bytes := outbound (rc4KeyB sha1Table smallSecret ones.infohash) 2 [] [] []

theorem handshake_in_step_small :
    ReceiverInStep sha1Table ones smallSecret 3 [] [1, 2, 3, 4] []
        (receiveSync sha1Table [ones] smallSecret [smallInbound.take 30, smallInbound.drop 30]) ∧
      InitiatorInStep (rc4KeyB sha1Table smallSecret ones.infohash) 2 [] []
        (awaitAnswer (rc4KeyB sha1Table smallSecret ones.infohash) []
          (reads 256 [smallOutbound.take 5, smallOutbound.drop 5])) := by
  have parted : ∀ (n : Nat) (bytes : Bytes), [bytes.take n, bytes.drop n].flatten = bytes := by
    intro n bytes
    rw [List.flatten_cons, List.flatten_singleton, List.take_append_drop]
  constructor
  · have receiver := (handshake_in_step sha1Table smallSecret ones).1 [ones] 3 [7, 8] [] [1, 2, 3, 4] []
      [smallInbound.take 30, smallInbound.drop 30] (by decide) (by decide) (by decide) (by decide)
      (by decide +kernel) (by decide +kernel) (parted 30 smallInbound)
    exact receiver.2 ⟨⟨2, by decide +kernel⟩, Or.inl (by decide +kernel)⟩
  · refine ((handshake_in_step sha1Table smallSecret ones).2 2 [] [] [] [smallOutbound.take 5, smallOutbound.drop 5]
      (by decide) (by decide) (by decide) ?_ (parted 5 smallOutbound)).2 ⟨2, by decide +kernel⟩
    intro off _ apart room
    rw [outbound, List.nil_append, List.append_nil, answerFlight_length] at room
    exact absurd (Nat.le_zero.1 (Nat.le_of_add_le_add_right room)) apart

/-- A byte of payload in the segment of the initiator's message is lost. -/
theorem coalesced_byte_lost :
    ¬∃ sha1 : Bytes → Digest, ∀ (registry : HotRegistry) (torrent : HotTorrent) (secret : Bytes) (provide : Nat)
      (padA padC ia more : Bytes) (segments : List Bytes),
      provide < 2 ^ 32 → padC.length ≤ 512 → ia.length ≤ 65535 → padA.length ≤ 512 →
      matchReq2 sha1 registry (hashReq2 sha1 torrent.infohash).1 = some torrent →
      (∀ i, i < padA.length →
        ¬(hashReq1 sha1 secret).1 <+: (inbound sha1 torrent secret provide padA padC ia more).drop i) →
      segments.flatten = inbound sha1 torrent secret provide padA padC ia more →
      ReceiverInStep sha1 torrent secret provide padC ia more (receiveSync sha1 registry secret segments) := by
  rintro ⟨sha1, always⟩
  have known : matchReq2 sha1 [ones] (hashReq2 sha1 ones.infohash).1 = some ones := by
    rw [matchReq2, List.find?_cons, decide_eq_true rfl]
  have size : (inbound sha1 ones smallSecret 3 [] [] [] [19]).length = 57 := by
    rw [inbound, syncWire, List.nil_append, List.length_append, syncFlight_length]
    rfl
  have sent : [inbound sha1 ones smallSecret 3 [] [] [] [19]].flatten =
      inbound sha1 ones smallSecret 3 [] [] [] [19] := List.flatten_singleton
  have nothing : ∀ i, i < ([] : Bytes).length →
      ¬(hashReq1 sha1 smallSecret).1 <+: (inbound sha1 ones smallSecret 3 [] [] [] [19]).drop i :=
    fun i inside => absurd inside (Nat.not_lt_zero i)
  have inStep := always [ones] ones smallSecret 3 [] [] [] [19]
    [inbound sha1 ones smallSecret 3 [] [] [] [19]] (by decide) (by decide) (by decide) (by decide) known
    nothing sent
  have ends := (receiveSync_spec sha1 [ones] ones smallSecret 3 [] [] [] [19] (by decide) (by decide)
    (by decide) (by decide) known nothing _ sent).1 inStep
  have one : reads 4096 [inbound sha1 ones smallSecret 3 [] [] [] [19]] =
      [inbound sha1 ones smallSecret 3 [] [] [] [19]] := by
    rw [reads, List.flatMap_cons, List.flatMap_nil, List.append_nil, size, splitLoop, size,
      if_pos (by decide)]
  have at' := ends.1
  rw [one, endsAt_cons, endsAt_nil, size, syncEnd, syncFlight_length] at at'
  rcases at' with clash | clash <;> cases clash

end Seedchamp.Peer.HandshakeSync
