import Seedchamp.Crypto.PayloadCipher
import Seedchamp.Foundation.Framing
import Seedchamp.Wire.Parse

/-!
The receive buffer of a connection: reads are appended, decrypted in place and parsed behind a
consume cursor. What is parsed depends on the bytes received alone, and the frame recognisers of the
read loop agree with the parser on every buffer.
-/

namespace Seedchamp.Net.Inbound
open Foundation.Framing Crypto.PayloadCipher Wire.Messages Wire.Parse

/-- A read buffer with a consume cursor. -/
structure ReadCursor where
  buf : Bytes
  pos : Nat
  inside : pos ≤ buf.length
  deriving DecidableEq

/-- A cursor this far into its buffer is compacted. -/
def THRESH : Nat := 16 * 1024

/-- Append a socket read, decrypting the new bytes in place. -/
def appendWireRead (readBuf read : Bytes) (decrypt : Option Rc4) : Bytes × Option Rc4 :=
  if read.isEmpty then (readBuf, decrypt)
  else
    let start := readBuf.length
    let extended := readBuf ++ read
    (extended.take start ++ (cryptOpt decrypt (extended.drop start)).1,
      (cryptOpt decrypt (extended.drop start)).2)

theorem appendWireRead_eq (readBuf read : Bytes) (decrypt : Option Rc4) :
    appendWireRead readBuf read decrypt =
      (readBuf ++ (cryptOpt decrypt read).1, (cryptOpt decrypt read).2) := by
  rw [appendWireRead]
  split_ifs with blank
  · rw [List.isEmpty_iff.1 blank, cryptOpt_nil, List.append_nil]
  · dsimp only
    rw [List.take_left, List.drop_left]

theorem length_le_appendWireRead (readBuf read : Bytes) (decrypt : Option Rc4) :
    readBuf.length ≤ (appendWireRead readBuf read decrypt).1.length := by
  rw [appendWireRead_eq, List.length_append]
  omega

namespace ReadCursor

def fromVec (buf : Bytes) : ReadCursor := ⟨buf, 0, Nat.zero_le _⟩

def unparsed (cursor : ReadCursor) : Bytes := cursor.buf.drop cursor.pos

def advance (cursor : ReadCursor) (n : Nat) : ReadCursor :=
  ⟨cursor.buf, min (cursor.pos + n) cursor.buf.length, Nat.min_le_right _ _⟩

def compactIfNeeded (cursor : ReadCursor) : ReadCursor :=
  if cursor.pos = 0 then cursor
  else if THRESH ≤ cursor.pos ∨ cursor.buf.length ≤ cursor.pos * 2 then
    fromVec (cursor.buf.drop cursor.pos)
  else cursor

def append (cursor : ReadCursor) (read : Bytes) (decrypt : Option Rc4) : ReadCursor × Option Rc4 :=
  let compacted := cursor.compactIfNeeded
  let appended := appendWireRead compacted.buf read decrypt
  (⟨appended.1, compacted.pos, compacted.inside.trans (length_le_appendWireRead ..)⟩, appended.2)

/-- Bytes still missing from the current frame, once its length is present and admissible. -/
def frameRemaining (cursor : ReadCursor) : Option Nat :=
  let u := cursor.unparsed
  if u.length < 4 then none
  else
    let msgLen := u32At u 0
    if MAX_MESSAGE_LENGTH < msgLen then none else some (4 + msgLen - u.length)

def hasCompleteFrame (cursor : ReadCursor) : Bool := cursor.frameRemaining == some 0

end ReadCursor
open ReadCursor

/-- What a pass of the parse loop took, the cursor behind it, and the error that stopped it. -/
structure Parsed where
  frames : List (ParsedMessage × Nat)
  cursor : ReadCursor
  problem : Option String
  deriving DecidableEq

/-- The loop of `parse_available_messages`; a frame takes at least one byte. -/
def parseLoop : Nat → ReadCursor → Parsed
  | 0, cursor => ⟨[], cursor, none⟩
  | fuel + 1, cursor =>
    match parseMessage cursor.unparsed with
    | .error problem => ⟨[], cursor, some problem⟩
    | .ok none => ⟨[], cursor, none⟩
    | .ok (some (frame, used)) =>
      let rest := parseLoop fuel (cursor.advance used)
      ⟨(frame, used) :: rest.frames, rest.cursor, rest.problem⟩

def parseAvailableMessages (cursor : ReadCursor) : Parsed :=
  parseLoop cursor.unparsed.length cursor

/-- The turn of the read loop that finds a whole frame buffered and does not read. -/
def bufferedTurn (cursor : ReadCursor) : Parsed :=
  if cursor.hasCompleteFrame then
    let parsed := parseAvailableMessages cursor
    { parsed with cursor := parsed.cursor.compactIfNeeded }
  else ⟨[], cursor, none⟩

/-- The read loop over the reads of a connection; an empty read is the end of the stream. -/
def readerLoop (decrypt : Option Rc4) (cursor : ReadCursor) : List Bytes → Parsed
  | [] => ⟨[], cursor, none⟩
  | read :: reads =>
    let held := bufferedTurn cursor
    if held.problem.isSome ∨ read.isEmpty then held
    else
      let appended := held.cursor.append read decrypt
      let parsed := parseAvailableMessages appended.1
      if parsed.problem.isSome then { parsed with frames := held.frames ++ parsed.frames }
      else
        let later := readerLoop appended.2 parsed.cursor.compactIfNeeded reads
        { later with frames := held.frames ++ parsed.frames ++ later.frames }

/-- A connection from the bytes its handshake left over. -/
def inbound (decrypt : Option Rc4) (initialPlain : Bytes) (reads : List Bytes) : Parsed :=
  let first := parseAvailableMessages (fromVec initialPlain)
  if first.problem.isSome then first
  else
    let later := readerLoop decrypt first.cursor reads
    { later with frames := first.frames ++ later.frames }

/-- The stream a connection received before its end. -/
def received (reads : List Bytes) : Bytes := (reads.takeWhile (fun read => !read.isEmpty)).flatten

/-- What a pass amounts to: the frames, and the bytes that wait or the error. -/
def Parsed.drained (parsed : Parsed) : Drained UInt8 ParsedMessage String :=
  ⟨parsed.frames, match parsed.problem with
    | some problem => .error problem
    | none => .ok parsed.cursor.unparsed⟩

@[simp] theorem unparsed_fromVec (buf : Bytes) : (fromVec buf).unparsed = buf := rfl

@[simp] theorem unparsed_advance (cursor : ReadCursor) (n : Nat) :
    (cursor.advance n).unparsed = cursor.unparsed.drop n := by
  rw [unparsed, unparsed, List.drop_drop]
  change cursor.buf.drop (min (cursor.pos + n) cursor.buf.length) = _
  by_cases past : cursor.pos + n ≤ cursor.buf.length
  · rw [Nat.min_eq_left past]
  · rw [Nat.min_eq_right (by omega), List.drop_length, List.drop_eq_nil_of_le (by omega)]

@[simp] theorem unparsed_compactIfNeeded (cursor : ReadCursor) :
    cursor.compactIfNeeded.unparsed = cursor.unparsed := by
  rw [compactIfNeeded]
  split_ifs
  · rfl
  · rfl
  · rfl

theorem append_eq (cursor : ReadCursor) (read : Bytes) (decrypt : Option Rc4) :
    (cursor.append read decrypt).1.unparsed = cursor.unparsed ++ (cryptOpt decrypt read).1 ∧
      (cursor.append read decrypt).2 = (cryptOpt decrypt read).2 := by
  have within := cursor.compactIfNeeded.inside
  have grown := appendWireRead_eq cursor.compactIfNeeded.buf read decrypt
  constructor
  · rw [← unparsed_compactIfNeeded cursor]
    change (appendWireRead cursor.compactIfNeeded.buf read decrypt).1.drop cursor.compactIfNeeded.pos = _
    rw [grown]
    exact List.drop_append_of_le_length within
  · exact congrArg Prod.snd grown

/-- A frame lies within the bytes it was parsed from. -/
theorem parseMessage_progress (buf : Bytes) (frame : ParsedMessage) (used : Nat)
    (parsed : parseMessage buf = .ok (some (frame, used))) : 0 < used ∧ used ≤ buf.length := by
  rw [parseMessage] at parsed
  dsimp only at parsed
  split at parsed
  · cases parsed
  · split at parsed
    · cases parsed
      omega
    · split at parsed
      · cases parsed
      · split at parsed
        · cases parsed
        · split at parsed
          · cases parsed
          · cases parsed
            omega

/-- Bytes behind a complete header do not change the declared length. -/
theorem u32At_append_left (buf more : Bytes) (header : 4 ≤ buf.length) :
    u32At (buf ++ more) 0 = u32At buf 0 := by
  rw [← u32At_take (buf ++ more) 4 (Nat.le_refl 4), ← u32At_take buf 4 (Nat.le_refl 4),
    List.take_append_of_le_length header]

/-- Once the parser has answered, bytes that arrive later do not change the answer. -/
theorem parseMessage_stable (buf more : Bytes) (answered : parseMessage buf ≠ .ok none) :
    parseMessage (buf ++ more) = parseMessage buf := by
  by_cases header : buf.length < 4
  · exact absurd (by rw [parseMessage, if_pos header]) answered
  · have len := u32At_append_left buf more (by omega)
    have size : (buf ++ more).length = buf.length + more.length := List.length_append
    by_cases whole : u32At buf 0 ≤ MAX_MESSAGE_LENGTH ∧ buf.length < 4 + u32At buf 0
    · by_cases zero : u32At buf 0 = 0
      · omega
      · exact absurd (parseMessage_short buf (by omega) whole.1 whole.2) answered
    · rw [parseMessage, parseMessage]
      dsimp only
      rw [len, size, if_neg header, if_neg (by omega)]
      by_cases zero : u32At buf 0 = 0
      · rw [if_pos zero, if_pos zero]
      · rw [if_neg zero, if_neg zero]
        by_cases big : MAX_MESSAGE_LENGTH < u32At buf 0
        · rw [if_pos big, if_pos big]
        · have first : (buf ++ more).getD 4 0 = buf.getD 4 0 := by
            rw [List.getD_eq_getElem?_getD, List.getD_eq_getElem?_getD,
              List.getElem?_append_left (by omega)]
          rw [if_neg big, if_neg big, if_neg (by omega), if_neg (by omega), first,
            List.take_append_of_le_length (by omega)]

/-- The peer wire protocol as a framing of the byte stream. -/
def framer : Framer UInt8 ParsedMessage String where
  parse := parseMessage
  quiet := rfl
  progress := parseMessage_progress
  stable := parseMessage_stable

theorem parseLoop_drained (fuel : Nat) (cursor : ReadCursor) :
    (parseLoop fuel cursor).drained = framer.drainLoop fuel cursor.unparsed := by
  induction fuel generalizing cursor with
  | zero => rfl
  | succ fuel ih =>
    have same : framer.parse cursor.unparsed = parseMessage cursor.unparsed := rfl
    rw [parseLoop, Framer.drainLoop, same]
    cases parseMessage cursor.unparsed with
    | error problem => rfl
    | ok answer =>
      cases answer with
      | none => rfl
      | some taken =>
        have rest := ih (cursor.advance taken.2)
        rw [unparsed_advance] at rest
        dsimp only
        rw [← rest]
        rfl

theorem parseAvailableMessages_drained (cursor : ReadCursor) :
    (parseAvailableMessages cursor).drained = framer.drain cursor.unparsed :=
  parseLoop_drained _ cursor

/-- A buffered frame never waits for a read: after a pass of the parse loop none is whole. -/
theorem hasCompleteFrame_iff (cursor : ReadCursor) :
    cursor.hasCompleteFrame = true ↔
      (4 ≤ cursor.unparsed.length ∧ u32At cursor.unparsed 0 ≤ MAX_MESSAGE_LENGTH) ∧
        parseMessage cursor.unparsed ≠ .ok none := by
  rw [hasCompleteFrame, beq_iff_eq, frameRemaining]
  dsimp only
  by_cases header : cursor.unparsed.length < 4
  · rw [if_pos header]
    constructor
    · intro clash
      cases clash
    · intro declared
      omega
  · rw [if_neg header]
    by_cases big : MAX_MESSAGE_LENGTH < u32At cursor.unparsed 0
    · rw [if_pos big]
      constructor
      · intro clash
        cases clash
      · intro declared
        omega
    · rw [if_neg big, Option.some.injEq]
      constructor
      · intro whole
        refine ⟨by omega, ?_⟩
        rw [parseMessage]
        dsimp only
        rw [if_neg header]
        split_ifs
        · intro clash
          cases clash
        · omega
        · split
          · intro clash
            cases clash
          · intro clash
            cases clash
      · intro declared
        by_contra missing
        by_cases zero : u32At cursor.unparsed 0 = 0
        · omega
        · exact declared.2 (parseMessage_short _ (by omega) (by omega) (by omega))

/-- The remaining count is present exactly when the declared length is, and is then the number of
bytes without which the parser keeps waiting and with which it answers. -/
theorem frameRemaining_exact (cursor : ReadCursor) :
    (cursor.frameRemaining = none ↔
      ¬ (4 ≤ cursor.unparsed.length ∧ u32At cursor.unparsed 0 ≤ MAX_MESSAGE_LENGTH)) ∧
      ∀ n, cursor.frameRemaining = some n →
        ∀ more, parseMessage (cursor.unparsed ++ more) = .ok none ↔ more.length < n := by
  rw [frameRemaining]
  dsimp only
  by_cases header : cursor.unparsed.length < 4
  · rw [if_pos header]
    constructor
    · constructor
      · intro _ declared
        omega
      · intro _
        rfl
    · nofun
  · rw [if_neg header]
    by_cases big : MAX_MESSAGE_LENGTH < u32At cursor.unparsed 0
    · rw [if_pos big]
      constructor
      · constructor
        · intro _ declared
          omega
        · intro _
          rfl
      · nofun
    · rw [if_neg big]
      constructor
      · constructor
        · nofun
        · intro undeclared
          omega
      · intro n counted more
        have len := u32At_append_left cursor.unparsed more (by omega)
        have size : (cursor.unparsed ++ more).length = cursor.unparsed.length + more.length :=
          List.length_append
        have whole := hasCompleteFrame_iff (fromVec (cursor.unparsed ++ more))
        rw [unparsed_fromVec, len, size, hasCompleteFrame, beq_iff_eq, frameRemaining] at whole
        dsimp only at whole
        rw [unparsed_fromVec, len, size, if_neg (by omega), if_neg big, Option.some.injEq] at whole
        cases counted
        constructor
        · intro waits
          by_contra enough
          exact (whole.1 (by omega)).2 waits
        · intro short
          by_contra answered
          have complete := whole.2 ⟨by omega, answered⟩
          omega

theorem bufferedTurn_idle (cursor : ReadCursor) (waits : parseMessage cursor.unparsed = .ok none) :
    bufferedTurn cursor = ⟨[], cursor, none⟩ := by
  have incomplete : ¬ cursor.hasCompleteFrame = true := by
    intro complete
    exact ((hasCompleteFrame_iff cursor).1 complete).2 waits
  rw [bufferedTurn, if_neg incomplete]

theorem received_cons (read : Bytes) (reads : List Bytes) :
    received (read :: reads) = if read.isEmpty then [] else read ++ received reads := by
  rw [received, List.takeWhile_cons]
  cases read with
  | _ => rfl

/-- A pass that met no error leaves the bytes of an incomplete frame. -/
theorem drained_ok (parsed : Parsed) (clean : parsed.problem = none) :
    parsed.drained = ⟨parsed.frames, .ok parsed.cursor.unparsed⟩ := by
  rw [Parsed.drained, clean]

theorem drained_error (parsed : Parsed) (problem : String) (failed : parsed.problem = some problem) :
    parsed.drained = ⟨parsed.frames, .error problem⟩ := by
  rw [Parsed.drained, failed]

theorem parseAvailableMessages_waits (cursor : ReadCursor)
    (clean : (parseAvailableMessages cursor).problem = none) :
    parseMessage (parseAvailableMessages cursor).cursor.unparsed = .ok none := by
  have whole := parseAvailableMessages_drained cursor
  rw [drained_ok _ clean] at whole
  exact framer.drain_tail_waits cursor.unparsed _ (congrArg Drained.tail whole).symm

/-- The read loop frames the decrypted stream behind the bytes that wait. -/
theorem readerLoop_drained (decrypt : Option Rc4) (cursor : ReadCursor) (reads : List Bytes)
    (waits : parseMessage cursor.unparsed = .ok none) :
    (readerLoop decrypt cursor reads).drained =
      framer.drain (cursor.unparsed ++ (cryptOpt decrypt (received reads)).1) := by
  have alone : framer.drain cursor.unparsed = ⟨[], .ok cursor.unparsed⟩ :=
    framer.drain_waiting cursor.unparsed waits
  induction reads generalizing decrypt cursor with
  | nil =>
    rw [received, List.takeWhile_nil, List.flatten_nil, cryptOpt_nil, List.append_nil, alone]
    rfl
  | cons read reads ih =>
    rw [readerLoop, bufferedTurn_idle cursor waits, received_cons]
    dsimp only
    by_cases ended : read.isEmpty = true
    · rw [if_pos (Or.inr ended), if_pos ended, cryptOpt_nil, List.append_nil, alone]
      rfl
    · have going : ¬ ((none : Option String).isSome = true ∨ read.isEmpty = true) := by
        intro stopped
        rcases stopped with failed | blank
        · cases failed
        · exact ended blank
      obtain ⟨grown, cipher⟩ := append_eq cursor read decrypt
      have passed := parseAvailableMessages_drained (cursor.append read decrypt).1
      rw [if_neg going, if_neg ended, cryptOpt_append, ← List.append_assoc, ← grown, ← cipher,
        framer.drain_append, ← passed]
      cases stopped : (parseAvailableMessages (cursor.append read decrypt).1).problem with
      | some problem =>
        rw [drained_error _ problem stopped]
        rfl
      | none =>
        have rested := parseAvailableMessages_waits _ stopped
        rw [← unparsed_compactIfNeeded] at rested
        have later := ih (cursor.append read decrypt).2
          (parseAvailableMessages (cursor.append read decrypt).1).cursor.compactIfNeeded rested
          (framer.drain_waiting _ rested)
        rw [unparsed_compactIfNeeded] at later
        rw [drained_ok _ stopped]
        dsimp only
        rw [← later]
        rfl

/-- A connection frames its decrypted stream, whatever the reads it came in. -/
theorem inbound_drained (decrypt : Option Rc4) (initialPlain : Bytes) (reads : List Bytes) :
    (inbound decrypt initialPlain reads).drained =
      framer.drain (initialPlain ++ (cryptOpt decrypt (received reads)).1) := by
  have passed := parseAvailableMessages_drained (fromVec initialPlain)
  rw [unparsed_fromVec] at passed
  rw [inbound, framer.drain_append, ← passed]
  dsimp only
  cases stopped : (parseAvailableMessages (fromVec initialPlain)).problem with
  | some problem =>
    rw [drained_error _ problem stopped]
    dsimp only [Option.isSome_some]
    rw [if_pos rfl, drained_error _ problem stopped]
  | none =>
    have rested := parseAvailableMessages_waits _ stopped
    have later := readerLoop_drained decrypt (parseAvailableMessages (fromVec initialPlain)).cursor
      reads rested
    rw [drained_ok _ stopped]
    dsimp only
    rw [← later]
    rfl

/-- Inbound parsing does not depend on how the stream was cut into reads: two connections that
received the same bytes took the same frames and stopped with the same error at the same position.
On every buffer the frame recognisers of the read loop agree with the parser. -/
theorem segmentation_irrelevant (decrypt : Option Rc4) (initialPlain : Bytes) (reads other : List Bytes)
    (same : received reads = received other) :
    (inbound decrypt initialPlain reads).drained = (inbound decrypt initialPlain other).drained ∧
      (inbound decrypt initialPlain reads).drained.position =
        (inbound decrypt initialPlain other).drained.position ∧
      (∀ cursor : ReadCursor, cursor.hasCompleteFrame = true ↔
        (4 ≤ cursor.unparsed.length ∧ u32At cursor.unparsed 0 ≤ MAX_MESSAGE_LENGTH) ∧
          parseMessage cursor.unparsed ≠ .ok none) ∧
      ∀ cursor : ReadCursor, (cursor.frameRemaining = none ↔
          ¬ (4 ≤ cursor.unparsed.length ∧ u32At cursor.unparsed 0 ≤ MAX_MESSAGE_LENGTH)) ∧
        ∀ n, cursor.frameRemaining = some n →
          ∀ more, parseMessage (cursor.unparsed ++ more) = .ok none ↔ more.length < n := by
  have drained : (inbound decrypt initialPlain reads).drained =
      (inbound decrypt initialPlain other).drained := by
    rw [inbound_drained, inbound_drained, same]
  exact ⟨drained, congrArg Drained.position drained, hasCompleteFrame_iff, frameRemaining_exact⟩

theorem segmentation_irrelevant_cut :
    (inbound none [0, 0] [[0, 1], [2, 0], [0, 0, 9, 4, 7], []]).drained =
      (inbound none [0, 0] [[0, 1, 2, 0, 0, 0, 9, 4, 7]]).drained :=
  (segmentation_irrelevant none [0, 0] [[0, 1], [2, 0], [0, 0, 9, 4, 7], []]
    [[0, 1, 2, 0, 0, 0, 9, 4, 7]] rfl).1

end Seedchamp.Net.Inbound
