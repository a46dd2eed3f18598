import Mathlib.Tactic.SplitIfs
import Seedchamp.Wire.Messages

/-!
The inbound side of the peer wire protocol: one frame parsed off the front of the read buffer, and
its agreement with the encoder on every message, suffix and truncation.
-/

namespace Seedchamp.Wire.Parse
open Wire.Messages

/-- A longer declared length is refused before its frame is buffered. -/
def MAX_MESSAGE_LENGTH : Nat := 2 ^ 20

/-- A parsed frame: the body of a PIECE stays a slice of the read buffer. -/
inductive ParsedMessage where
  | msg (message : Message)
  | piece (index begin' : Nat) (block : Bytes)
  deriving DecidableEq, Repr

/-- `u32::from_be_bytes(bytes[at..at + 4])`. -/
def u32At (bytes : Bytes) (at' : Nat) : Nat :=
  ((bytes.drop at').take 4).foldl (fun word byte => word * 256 + byte.toNat) 0

/-- The table of ids in `parse_message`, over the payload of a complete frame. -/
def parsePayload (id : UInt8) (payload : Bytes) : Except String ParsedMessage :=
  if id = MSG_PIECE then
    if payload.length < 8 then .error "bad PIECE"
    else .ok (.piece (u32At payload 0) (u32At payload 4) (payload.drop 8))
  else if id = MSG_CHOKE then .ok (.msg .choke)
  else if id = MSG_UNCHOKE then .ok (.msg .unchoke)
  else if id = MSG_INTERESTED then .ok (.msg .interested)
  else if id = MSG_NOT_INTERESTED then .ok (.msg .notInterested)
  else if id = MSG_HAVE then
    if payload.length ≠ 4 then .error "bad HAVE" else .ok (.msg (.have_ (u32At payload 0)))
  else if id = MSG_BITFIELD then .ok (.msg (.bitfield payload))
  else if id = MSG_REQUEST then
    if payload.length ≠ 12 then .error "bad REQUEST"
    else .ok (.msg (.request (u32At payload 0) (u32At payload 4) (u32At payload 8)))
  else if id = MSG_CANCEL then
    if payload.length ≠ 12 then .error "bad CANCEL"
    else .ok (.msg (.cancel (u32At payload 0) (u32At payload 4) (u32At payload 8)))
  else if id = MSG_SUGGEST then
    if payload.length ≠ 4 then .error "bad SUGGEST"
    else .ok (.msg (.suggestPiece (u32At payload 0)))
  else if id = MSG_HAVE_ALL then
    if payload.isEmpty then .ok (.msg .haveAll) else .error "bad HAVE_ALL"
  else if id = MSG_HAVE_NONE then
    if payload.isEmpty then .ok (.msg .haveNone) else .error "bad HAVE_NONE"
  else if id = MSG_REJECT then
    if payload.length ≠ 12 then .error "bad REJECT"
    else .ok (.msg (.rejectRequest (u32At payload 0) (u32At payload 4) (u32At payload 8)))
  else if id = MSG_ALLOWED_FAST then
    if payload.length ≠ 4 then .error "bad ALLOWED_FAST"
    else .ok (.msg (.allowedFast (u32At payload 0)))
  else if id = MSG_EXTENDED then
    match payload with
    | [] => .error "bad EXTENDED"
    | extId :: rest => .ok (.msg (.extended extId rest))
  else .ok (.msg (.unknown id payload))

/-- One inbound frame and the bytes it consumes; nothing while the frame is incomplete. -/
def parseMessage (buf : Bytes) : Except String (Option (ParsedMessage × Nat)) :=
  if buf.length < 4 then .ok none
  else
    let len := u32At buf 0
    if len = 0 then .ok (some (.msg .keepAlive, 4))
    else if MAX_MESSAGE_LENGTH < len then
      .error s!"BT message length {len} exceeds max {MAX_MESSAGE_LENGTH}"
    else if buf.length < 4 + len then .ok none
    else
      match parsePayload (buf.getD 4 0) ((buf.take (4 + len)).drop 5) with
      | .error problem => .error problem
      | .ok frame => .ok (some (frame, 4 + len))

theorem u32At_toBeBytes (n : Nat) (rest : Bytes) (fits : n < 2 ^ 32) :
    u32At (toBeBytes n ++ rest) 0 = n := by
  simp only [u32At, toBeBytes, List.drop_zero, List.cons_append, List.take_succ_cons,
    List.take_zero, List.foldl_cons, List.foldl_nil, UInt8.toNat_ofNat']
  omega

@[simp] theorem toBeBytes_length (n : Nat) : (toBeBytes n).length = 4 := rfl

@[simp] theorem encodeId_length (id : UInt8) (payload : Bytes) :
    (encodeId id payload).length = 5 + payload.length := by
  simp only [encodeId, List.length_append, toBeBytes_length, List.length_cons]
  omega

/-- Reading behind a prefix is reading from the start of what follows it. -/
theorem u32At_append (front rest : Bytes) (at' : Nat) (same : front.length = at') :
    u32At (front ++ rest) at' = u32At rest 0 := by
  subst same
  rw [u32At, u32At, List.drop_left, List.drop_zero]

theorem u32At_take_at (bytes : Bytes) (k at' : Nat) (inside : at' + 4 ≤ k) :
    u32At (bytes.take k) at' = u32At bytes at' := by
  rw [u32At, u32At, List.drop_take, List.take_take, Nat.min_eq_left (by omega)]

theorem u32At_take (buf : Bytes) (k : Nat) (enough : 4 ≤ k) :
    u32At (buf.take k) 0 = u32At buf 0 :=
  u32At_take_at buf k 0 (by omega)

/-- The length prefix of an encoded frame. -/
theorem u32At_encodeId (id : UInt8) (payload suffix : Bytes) (fits : 1 + payload.length < 2 ^ 32) :
    u32At (encodeId id payload ++ suffix) 0 = 1 + payload.length := by
  rw [encodeId, List.append_assoc]
  exact u32At_toBeBytes _ _ fits

/-- A whole frame at the front of the buffer is parsed by its payload alone. -/
theorem parseMessage_encodeId (id : UInt8) (payload suffix : Bytes) (frame : ParsedMessage)
    (fits : payload.length + 1 ≤ MAX_MESSAGE_LENGTH)
    (parsed : parsePayload id payload = .ok frame) :
    parseMessage (encodeId id payload ++ suffix) =
      .ok (some (frame, (encodeId id payload).length)) := by
  have bounded : 1 + payload.length < 2 ^ 32 := by
    rw [MAX_MESSAGE_LENGTH] at fits
    omega
  have len := u32At_encodeId id payload suffix bounded
  have size : (encodeId id payload ++ suffix).length = 5 + payload.length + suffix.length := by
    rw [List.length_append, encodeId_length]
  have first : (encodeId id payload ++ suffix).getD 4 0 = id := rfl
  have body : ((encodeId id payload ++ suffix).take (4 + (1 + payload.length))).drop 5 = payload := by
    have whole : 4 + (1 + payload.length) = (encodeId id payload).length := by
      rw [encodeId_length]
      omega
    rw [whole, List.take_left]
    rfl
  rw [parseMessage]
  dsimp only
  rw [len, size, if_neg (by omega), if_neg (by omega), if_neg (by omega), if_neg (by omega), first,
    body, parsed, encodeId_length]
  dsimp only
  rw [show 4 + (1 + payload.length) = 5 + payload.length by omega]

/-- A buffer that ends inside the frame its length prefix declares is incomplete. -/
theorem parseMessage_short (buf : Bytes) (positive : 0 < u32At buf 0)
    (fits : u32At buf 0 ≤ MAX_MESSAGE_LENGTH) (short : buf.length < 4 + u32At buf 0) :
    parseMessage buf = .ok none := by
  rw [parseMessage]
  dsimp only
  split_ifs
  · rfl
  · omega
  · omega
  · rfl

theorem parseMessage_encodeId_take (id : UInt8) (payload : Bytes) (k : Nat)
    (fits : payload.length + 1 ≤ MAX_MESSAGE_LENGTH) (short : k < (encodeId id payload).length) :
    parseMessage ((encodeId id payload).take k) = .ok none := by
  have bounded : 1 + payload.length < 2 ^ 32 := by
    rw [MAX_MESSAGE_LENGTH] at fits
    omega
  have size : ((encodeId id payload).take k).length = k := by
    rw [List.length_take]
    omega
  rw [encodeId_length] at short
  by_cases header : k < 4
  · rw [parseMessage, if_pos (by omega)]
  · have len : u32At ((encodeId id payload).take k) 0 = 1 + payload.length := by
      have whole := u32At_encodeId id payload [] bounded
      rw [List.append_nil] at whole
      rw [u32At_take _ k (by omega), whole]
    apply parseMessage_short
    · omega
    · omega
    · omega

/-- The ids the parser's table knows. -/
def knownIds : List UInt8 :=
  [MSG_CHOKE, MSG_UNCHOKE, MSG_INTERESTED, MSG_NOT_INTERESTED, MSG_HAVE, MSG_BITFIELD, MSG_REQUEST,
    MSG_PIECE, MSG_CANCEL, MSG_SUGGEST, MSG_HAVE_ALL, MSG_HAVE_NONE, MSG_REJECT, MSG_ALLOWED_FAST,
    MSG_EXTENDED]

/-- The integer fields of a message are of type `u32`. -/
def FieldsFit : Message → Prop
  | .have_ index | .suggestPiece index | .allowedFast index => index < 2 ^ 32
  | .request index begin' length | .cancel index begin' length | .rejectRequest index begin' length =>
    index < 2 ^ 32 ∧ begin' < 2 ^ 32 ∧ length < 2 ^ 32
  | .piece index begin' _ => index < 2 ^ 32 ∧ begin' < 2 ^ 32
  | _ => True

/-- A message whose encoding the parser has to accept: the frame is not longer than the cap, and
an unknown message does not carry the id of a known one. -/
structure Admissible (message : Message) : Prop where
  fields : FieldsFit message
  length : (encodeMessage message).length ≤ 4 + MAX_MESSAGE_LENGTH
  unknown : ∀ id payload, message = .unknown id payload → id ∉ knownIds

/-- What the parser returns for a message. -/
def parsedAs : Message → ParsedMessage
  | .piece index begin' block => .piece index begin' block
  | message => .msg message

theorem parsePayload_word (word : Nat) (fits : word < 2 ^ 32) :
    u32At (toBeBytes word) 0 = word := by
  have read := u32At_toBeBytes word [] fits
  rwa [List.append_nil] at read

theorem blockFields_length (index begin' length : Nat) :
    (blockFields index begin' length).length = 12 := rfl

/-- The three words of the block messages are read back. -/
theorem u32At_blockFields (index begin' length : Nat) (index_fits : index < 2 ^ 32)
    (begin_fits : begin' < 2 ^ 32) (length_fits : length < 2 ^ 32) :
    u32At (blockFields index begin' length) 0 = index ∧
      u32At (blockFields index begin' length) 4 = begin' ∧
      u32At (blockFields index begin' length) 8 = length := by
  rw [blockFields]
  constructor
  · rw [List.append_assoc]
    exact u32At_toBeBytes index _ index_fits
  constructor
  · rw [List.append_assoc, u32At_append _ _ 4 rfl]
    exact u32At_toBeBytes begin' _ begin_fits
  · rw [u32At_append _ _ 8 rfl]
    exact parsePayload_word length length_fits

theorem parsePayload_unknown (id : UInt8) (payload : Bytes) (unknown : id ∉ knownIds) :
    parsePayload id payload = .ok (.msg (.unknown id payload)) := by
  simp only [knownIds, List.mem_cons, List.not_mem_nil, or_false, not_or] at unknown
  simp only [parsePayload, unknown, if_false]

/-- Every message but the keep-alive is a frame of an id and a payload that the table of ids reads
back as the message. -/
theorem encodeMessage_framed (message : Message) (admissible : Admissible message) :
    message = .keepAlive ∨ ∃ id payload,
      encodeMessage message = encodeId id payload ∧ parsePayload id payload = .ok (parsedAs message) := by
  have fields := admissible.fields
  cases message with
  | keepAlive => exact Or.inl rfl
  | choke => exact Or.inr ⟨MSG_CHOKE, [], rfl, rfl⟩
  | unchoke => exact Or.inr ⟨MSG_UNCHOKE, [], rfl, rfl⟩
  | interested => exact Or.inr ⟨MSG_INTERESTED, [], rfl, rfl⟩
  | notInterested => exact Or.inr ⟨MSG_NOT_INTERESTED, [], rfl, rfl⟩
  | have_ index =>
    have word := parsePayload_word index fields
    refine Or.inr ⟨MSG_HAVE, _, rfl, ?_⟩
    simp [parsePayload, parsedAs, word, MSG_HAVE, MSG_PIECE, MSG_CHOKE, MSG_UNCHOKE, MSG_INTERESTED,
      MSG_NOT_INTERESTED]
  | bitfield bits => exact Or.inr ⟨MSG_BITFIELD, bits, rfl, rfl⟩
  | request index begin' length =>
    obtain ⟨first, second, third⟩ :=
      u32At_blockFields index begin' length fields.1 fields.2.1 fields.2.2
    refine Or.inr ⟨MSG_REQUEST, _, rfl, ?_⟩
    simp [parsePayload, parsedAs, first, second, third, blockFields_length, MSG_HAVE, MSG_PIECE,
      MSG_CHOKE, MSG_UNCHOKE, MSG_INTERESTED, MSG_NOT_INTERESTED, MSG_BITFIELD, MSG_REQUEST]
  | piece index begin' block =>
    refine Or.inr ⟨MSG_PIECE, _, rfl, ?_⟩
    have first : u32At (toBeBytes index ++ toBeBytes begin' ++ block) 0 = index := by
      rw [List.append_assoc]
      exact u32At_toBeBytes index _ fields.1
    have second : u32At (toBeBytes index ++ toBeBytes begin' ++ block) 4 = begin' := by
      rw [List.append_assoc, u32At_append _ _ 4 rfl]
      exact u32At_toBeBytes begin' _ fields.2
    have body : (toBeBytes index ++ toBeBytes begin' ++ block).drop 8 = block := rfl
    have long : ¬ (toBeBytes index ++ toBeBytes begin' ++ block).length < 8 := by
      rw [List.length_append, List.length_append, toBeBytes_length, toBeBytes_length]
      omega
    rw [parsePayload.eq_def, if_pos rfl, if_neg long, first, second, body]
    rfl
  | cancel index begin' length =>
    obtain ⟨first, second, third⟩ :=
      u32At_blockFields index begin' length fields.1 fields.2.1 fields.2.2
    refine Or.inr ⟨MSG_CANCEL, _, rfl, ?_⟩
    simp [parsePayload, parsedAs, first, second, third, blockFields_length, MSG_HAVE, MSG_PIECE,
      MSG_CHOKE, MSG_UNCHOKE, MSG_INTERESTED, MSG_NOT_INTERESTED, MSG_BITFIELD, MSG_REQUEST,
      MSG_CANCEL]
  | suggestPiece index =>
    have word := parsePayload_word index fields
    refine Or.inr ⟨MSG_SUGGEST, _, rfl, ?_⟩
    simp [parsePayload, parsedAs, word, MSG_HAVE, MSG_PIECE, MSG_CHOKE, MSG_UNCHOKE, MSG_INTERESTED,
      MSG_NOT_INTERESTED, MSG_BITFIELD, MSG_REQUEST, MSG_CANCEL, MSG_SUGGEST]
  | haveAll => exact Or.inr ⟨MSG_HAVE_ALL, [], rfl, rfl⟩
  | haveNone => exact Or.inr ⟨MSG_HAVE_NONE, [], rfl, rfl⟩
  | rejectRequest index begin' length =>
    obtain ⟨first, second, third⟩ :=
      u32At_blockFields index begin' length fields.1 fields.2.1 fields.2.2
    refine Or.inr ⟨MSG_REJECT, _, rfl, ?_⟩
    simp [parsePayload, parsedAs, first, second, third, blockFields_length, MSG_HAVE, MSG_PIECE,
      MSG_CHOKE, MSG_UNCHOKE, MSG_INTERESTED, MSG_NOT_INTERESTED, MSG_BITFIELD, MSG_REQUEST,
      MSG_CANCEL, MSG_SUGGEST, MSG_HAVE_ALL, MSG_HAVE_NONE, MSG_REJECT]
  | allowedFast index =>
    have word := parsePayload_word index fields
    refine Or.inr ⟨MSG_ALLOWED_FAST, _, rfl, ?_⟩
    simp [parsePayload, parsedAs, word, MSG_HAVE, MSG_PIECE, MSG_CHOKE, MSG_UNCHOKE, MSG_INTERESTED,
      MSG_NOT_INTERESTED, MSG_BITFIELD, MSG_REQUEST, MSG_CANCEL, MSG_SUGGEST, MSG_HAVE_ALL,
      MSG_HAVE_NONE, MSG_REJECT, MSG_ALLOWED_FAST]
  | extended extId payload => exact Or.inr ⟨MSG_EXTENDED, extId :: payload, rfl, rfl⟩
  | unknown id payload =>
    exact Or.inr ⟨id, payload, rfl, parsePayload_unknown id payload (admissible.unknown id payload rfl)⟩

theorem parseMessage_keepAlive (suffix : Bytes) :
    parseMessage (encodeMessage .keepAlive ++ suffix) = .ok (some (.msg .keepAlive, 4)) := by
  have size : (encodeMessage .keepAlive ++ suffix).length = 4 + suffix.length := by
    rw [List.length_append]
    rfl
  have declared : u32At (encodeMessage .keepAlive ++ suffix) 0 = 0 := rfl
  rw [parseMessage]
  dsimp only
  rw [if_neg (by omega), declared, if_pos rfl]

/-- The parser reads back every message whatever follows it, and waits on every part of one. -/
theorem parseMessage_encodeMessage (message : Message) (admissible : Admissible message) :
    (∀ suffix, parseMessage (encodeMessage message ++ suffix) =
      .ok (some (parsedAs message, (encodeMessage message).length))) ∧
    (∀ part, part <+: encodeMessage message → part ≠ encodeMessage message →
      parseMessage part = .ok none) := by
  rcases encodeMessage_framed message admissible with alive | ⟨id, payload, framed, parsed⟩
  · subst alive
    constructor
    · exact parseMessage_keepAlive
    · intro part inside different
      have short : part.length < 4 := by
        by_contra long
        exact different (inside.eq_of_length_le (by
          change 4 ≤ part.length
          omega))
      rw [parseMessage, if_pos short]
  · have fits := admissible.length
    rw [framed, encodeId_length] at fits
    constructor
    · intro suffix
      rw [framed]
      exact parseMessage_encodeId id payload suffix _ (by omega) parsed
    · intro part inside different
      rw [framed] at inside different
      have short : part.length < (encodeId id payload).length := by
        by_contra long
        exact different (inside.eq_of_length_le (by omega))
      rw [List.prefix_iff_eq_take.1 inside]
      exact parseMessage_encodeId_take id payload part.length (by omega) short

theorem parseMessage_encodeMessage_piece :
    parseMessage (encodeMessage (.piece 1 16384 [7, 8]) ++ [0]) =
        .ok (some (.piece 1 16384 [7, 8], 15)) ∧
      parseMessage ((encodeMessage (.piece 1 16384 [7, 8])).take 14) = .ok none := by
  have admissible : Admissible (.piece 1 16384 [7, 8]) :=
    ⟨⟨by decide, by decide⟩, by decide, nofun⟩
  exact ⟨(parseMessage_encodeMessage _ admissible).1 [0],
    (parseMessage_encodeMessage _ admissible).2 _ (List.take_prefix 14 _) (by decide)⟩

end Seedchamp.Wire.Parse
