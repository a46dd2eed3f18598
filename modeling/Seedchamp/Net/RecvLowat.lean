import Seedchamp.Net.Inbound
import Seedchamp.Staging.Pool

/-!
The receive watermark of a parked connection. It is the rest of the buffered frame, or a speculative
estimate of the bytes that answer the outstanding requests; the estimate leaves out what short blocks
lack and what of an answer is buffered already.
-/

namespace Seedchamp.Net.RecvLowat
open Net.Inbound Wire.Messages Wire.Parse Staging.Pool

def WIRE_READ_CHUNK : Nat := 256 * 1024

/-- The watermark is not raised for less. -/
def RCVLOWAT_MIN : Nat := 4 * 1024

def PIPELINE_LOWAT_CAP : Nat := 256 * 1024

/-- The bytes that so many whole blocks bring, within the caps. -/
def estimate (outstanding block rcvbuf : Nat) : Nat :=
  min (min (min (outstanding * block) (2 ^ 64 - 1)) (rcvbuf / 2)) PIPELINE_LOWAT_CAP

def pipelineLowat (outstanding block rcvbuf : Nat) : Option Nat :=
  if outstanding = 0 ∨ rcvbuf < 2 ∨ block = 0 then none
  else if estimate outstanding block rcvbuf < RCVLOWAT_MIN then none
  else some (estimate outstanding block rcvbuf)

/-- The rest of the current frame only. -/
def recvLowat (cursor : ReadCursor) : Option Nat :=
  cursor.frameRemaining.bind fun need =>
    if need < RCVLOWAT_MIN then none else some (min need WIRE_READ_CHUNK)

/-- The watermark of a park: the larger of the two. -/
def recvLowatPark (cursor : ReadCursor) (outstanding block rcvbuf : Nat)
    (speculative downloading : Bool) : Option Nat :=
  if downloading = false then none
  else
    let spec := if speculative then pipelineLowat outstanding block rcvbuf else none
    match recvLowat cursor, spec with
    | some a, some b => some (max a b)
    | some a, none => some a
    | none, spec => spec

/-! ### What the peer still has to send -/

/-- The frame of which the buffer holds the start. -/
inductive Head where
  | idle
  | other (frame : Bytes)
  | answer (request : Request) (payload : Bytes)

namespace Head

def frame : Head → Bytes
  | idle => []
  | other frame => frame
  | answer request payload => encodeMessage (.piece request.1 request.2.1 payload)

/-- A whole frame behind its length; an answer carries the block of an outstanding request. -/
def Formed (requests : List Request) : Head → Prop
  | idle => True
  | other frame => 4 + u32At frame 0 = frame.length
  | answer request payload =>
    request ∈ requests ∧ payload.length = request.2.2 ∧ 9 + payload.length < 2 ^ 32

/-- The requests of whose answer nothing is buffered. -/
def unbegun (requests : List Request) : Head → List Request
  | idle => requests
  | other _ => requests
  | answer request _ => requests.erase request

end Head

/-- The buffer holds the start of a frame. -/
structure Parked (cursor : ReadCursor) (requests : List Request) (head : Head) : Prop where
  formed : head.Formed requests
  part : cursor.unparsed <+: head.frame

/-- A PIECE frame: its header and the block. -/
def answerLen (request : Request) : Nat := 13 + request.2.2

/-- What is left of the buffered frame. -/
def restOfFrame (cursor : ReadCursor) (head : Head) : Nat := head.frame.length - cursor.unparsed.length

def bytesToCome (cursor : ReadCursor) (requests : List Request) (head : Head) : Nat :=
  restOfFrame cursor head + ((head.unbegun requests).map answerLen).sum

/-- What the outstanding blocks lack to whole ones, and what of an answer is buffered already. -/
def lacking (cursor : ReadCursor) (requests : List Request) (block : Nat) : Head → Nat
  | .idle => (requests.map fun request => block - request.2.2).sum
  | .other _ => (requests.map fun request => block - request.2.2).sum
  | .answer _ _ => (requests.map fun request => block - request.2.2).sum + cursor.unparsed.length

/-- The headers of the answers, and the rest of a frame that is none. -/
def spare (cursor : ReadCursor) (requests : List Request) : Head → Nat
  | .idle => 13 * requests.length
  | .other frame => 13 * requests.length + restOfFrame cursor (.other frame)
  | .answer _ _ => 13 * requests.length

/-! ### The rest of the frame -/

theorem answer_length (request : Request) (payload : Bytes) :
    (Head.answer request payload).frame.length = 13 + payload.length := by
  simp only [Head.frame, encodeMessage, encodeId, List.length_append, List.length_cons]
  have field : ∀ n, (toBeBytes n).length = 4 := fun _ => rfl
  rw [field, field, field]
  omega

theorem frame_whole (requests : List Request) (head : Head) (formed : head.Formed requests)
    (begun : head ≠ .idle) : 4 + u32At head.frame 0 = head.frame.length := by
  cases head with
  | idle => exact absurd rfl begun
  | other frame => exact formed
  | answer request payload =>
    obtain ⟨-, -, fits⟩ := formed
    have fields : (toBeBytes request.1 ++ toBeBytes request.2.1 ++ payload).length = 8 + payload.length := by
      simp only [List.length_append]
      rfl
    have prefix_ := u32At_encodeId MSG_PIECE (toBeBytes request.1 ++ toBeBytes request.2.1 ++ payload) []
      (by omega)
    rw [List.append_nil, fields] at prefix_
    rw [answer_length]
    change 4 + u32At (encodeId MSG_PIECE _) 0 = _
    omega

/-- The recogniser of the read loop counts what is left of the buffered frame. -/
theorem frameRemaining_rest (cursor : ReadCursor) (requests : List Request) (head : Head)
    (parked : Parked cursor requests head) (need : Nat) (counted : cursor.frameRemaining = some need) :
    need = restOfFrame cursor head := by
  unfold ReadCursor.frameRemaining at counted
  dsimp only at counted
  split_ifs at counted with short wide
  cases counted
  obtain ⟨rest, whole⟩ := parked.part
  have begun : head ≠ .idle := by
    rintro rfl
    have blank := congrArg List.length whole
    rw [List.length_append, Head.frame, List.length_nil] at blank
    omega
  have length := frame_whole requests head parked.formed begun
  have header := u32At_append_left cursor.unparsed rest (Nat.not_lt.1 short)
  rw [whole] at header
  rw [restOfFrame, ← length, header]

theorem recvLowat_le (cursor : ReadCursor) (requests : List Request) (head : Head)
    (parked : Parked cursor requests head) (value : Nat) (raised : recvLowat cursor = some value) :
    value ≤ restOfFrame cursor head := by
  obtain ⟨need, counted, enough⟩ := Option.bind_eq_some_iff.1 raised
  split_ifs at enough
  cases enough
  rw [← frameRemaining_rest cursor requests head parked need counted]
  exact Nat.min_le_left _ _

/-! ### The estimate -/

theorem pipelineLowat_eq (outstanding block rcvbuf : Nat) :
    pipelineLowat outstanding block rcvbuf =
      if estimate outstanding block rcvbuf < RCVLOWAT_MIN then none
      else some (estimate outstanding block rcvbuf) := by
  unfold pipelineLowat
  by_cases idle : outstanding = 0 ∨ rcvbuf < 2 ∨ block = 0
  · have nothing : estimate outstanding block rcvbuf = 0 := by
      unfold estimate
      rcases idle with none' | small | blank
      · rw [none', Nat.zero_mul, Nat.zero_min, Nat.zero_min, Nat.zero_min]
      · omega
      · rw [blank, Nat.mul_zero, Nat.zero_min, Nat.zero_min, Nat.zero_min]
    rw [if_pos idle, nothing, if_pos (by decide)]
  · rw [if_neg idle]

/-- Whole blocks are the blocks and what they lack. -/
theorem whole_blocks (requests : List Request) (block : Nat)
    (fits : ∀ request ∈ requests, request.2.2 ≤ block) :
    requests.length * block + 13 * requests.length =
      (requests.map answerLen).sum + (requests.map fun request => block - request.2.2).sum := by
  induction requests with
  | nil => rw [List.length_nil, Nat.zero_mul, Nat.mul_zero, List.map_nil, List.map_nil, List.sum_nil]
  | cons request rest ih =>
    rw [List.forall_mem_cons] at fits
    have tail := ih fits.2
    rw [List.length_cons, List.map_cons, List.map_cons, List.sum_cons, List.sum_cons, answerLen,
      Nat.add_one_mul]
    omega

/-- The whole blocks fit in what is to come just when the headers make up for what is lacking. -/
theorem blocks_fit_iff (cursor : ReadCursor) (requests : List Request) (block : Nat) (head : Head)
    (fits : ∀ request ∈ requests, request.2.2 ≤ block) (parked : Parked cursor requests head) :
    requests.length * block ≤ bytesToCome cursor requests head ↔
      lacking cursor requests block head ≤ spare cursor requests head := by
  have whole := whole_blocks requests block fits
  have part := parked.part.length_le
  cases head with
  | idle =>
    have nothing : restOfFrame cursor .idle = 0 := Nat.zero_sub _
    rw [bytesToCome, nothing, Head.unbegun, lacking, spare]
    omega
  | other frame =>
    rw [bytesToCome, Head.unbegun, lacking, spare]
    omega
  | answer request payload =>
    obtain ⟨member, length, -⟩ := parked.formed
    have split := ((List.perm_cons_erase member).map answerLen).sum_nat
    rw [List.map_cons, List.sum_cons, answerLen] at split
    rw [answer_length] at part
    rw [bytesToCome, restOfFrame, answer_length, Head.unbegun, lacking, spare]
    omega

theorem estimate_le_iff (outstanding block rcvbuf bound : Nat) :
    estimate outstanding block rcvbuf ≤ bound ↔
      min (rcvbuf / 2) PIPELINE_LOWAT_CAP ≤ bound ∨ outstanding * block ≤ bound := by
  unfold estimate PIPELINE_LOWAT_CAP
  omega

/-- A bound on the rest of the frame bounds the watermark just when it bounds the estimate in use. -/
theorem park_within_iff (cursor : ReadCursor) (outstanding block rcvbuf : Nat)
    (speculative downloading : Bool) (bound : Nat) (rest : ∀ a, recvLowat cursor = some a → a ≤ bound) :
    (∀ value, recvLowatPark cursor outstanding block rcvbuf speculative downloading = some value →
      value ≤ bound) ↔
      downloading = false ∨ speculative = false ∨
        ∀ b, pipelineLowat outstanding block rcvbuf = some b → b ≤ bound := by
  unfold recvLowatPark
  cases downloading with
  | false => exact ⟨fun _ => Or.inl rfl, fun _ value raised => by cases raised⟩
  | true =>
    cases speculative with
    | false =>
      refine ⟨fun _ => Or.inr (Or.inl rfl), fun _ value raised => rest value ?_⟩
      cases frame : recvLowat cursor with
      | none =>
        simp only [frame] at raised
        cases raised
      | some a =>
        simp only [frame] at raised
        exact raised
    | true =>
      simp only [Bool.true_eq_false, if_false, if_true, false_or]
      cases frame : recvLowat cursor with
      | none => exact Iff.rfl
      | some a =>
        have below := rest a frame
        cases spec : pipelineLowat outstanding block rcvbuf with
        | none =>
          refine ⟨fun _ b clash => (by cases clash), fun _ value raised => ?_⟩
          cases raised
          exact below
        | some b =>
          constructor
          · intro within b' same
            cases same
            exact (Nat.le_max_right a b).trans (within _ rfl)
          · intro within value raised
            cases raised
            exact Nat.max_le.2 ⟨below, within b rfl⟩

/-- The watermark of a park is within what is to come: there is no estimate, it is too small to count,
it is cut off, or the headers make up for what is lacking. -/
def Covered (cursor : ReadCursor) (requests : List Request) (head : Head) (block rcvbuf : Nat)
    (speculative downloading : Bool) : Prop :=
  downloading = false ∨ speculative = false ∨
  estimate requests.length block rcvbuf < RCVLOWAT_MIN ∨
  min (rcvbuf / 2) PIPELINE_LOWAT_CAP ≤ bytesToCome cursor requests head ∨
  lacking cursor requests block head ≤ spare cursor requests head

/-- The reader wakes before the peer has sent its last answer just when the park is covered. -/
theorem lowat_within_iff (cursor : ReadCursor) (requests : List Request) (head : Head) (block rcvbuf : Nat)
    (speculative downloading : Bool) (fits : ∀ request ∈ requests, request.2.2 ≤ block)
    (parked : Parked cursor requests head) :
    (∀ value, recvLowatPark cursor requests.length block rcvbuf speculative downloading = some value →
      value ≤ bytesToCome cursor requests head) ↔
      Covered cursor requests head block rcvbuf speculative downloading := by
  have rest : ∀ value, recvLowat cursor = some value → value ≤ bytesToCome cursor requests head :=
    fun value raised => (recvLowat_le cursor requests head parked value raised).trans (Nat.le_add_right _ _)
  rw [park_within_iff cursor _ block rcvbuf speculative downloading _ rest, pipelineLowat_eq, Covered,
    ← blocks_fit_iff cursor requests block head fits parked, ← estimate_le_iff]
  refine or_congr Iff.rfl (or_congr Iff.rfl ?_)
  split_ifs with small
  · exact ⟨fun _ => Or.inl small, fun _ b clash => by cases clash⟩
  · constructor
    · intro within
      exact Or.inr (within _ rfl)
    · rintro (clash | within) b same
      · exact absurd clash small
      · cases same
        exact within

/-- The last block of a torrent, of which 14 bytes are buffered. -/
def lastBlock : Request := (0, 0, 16384)

def lastAnswer : Head := .answer lastBlock (List.replicate 16384 0)

def fourteenBytes : ReadCursor := .fromVec (lastAnswer.frame.take 14)

theorem fourteenBytes_parked : Parked fourteenBytes [lastBlock] lastAnswer := by
  refine ⟨⟨List.mem_singleton_self _, List.length_replicate, ?_⟩, List.take_prefix 14 _⟩
  rw [List.length_replicate]
  decide

/-- Behind a stall the park does not speculate. -/
theorem lowat_within_stalled :
    Parked fourteenBytes [lastBlock] lastAnswer ∧
    ∀ value, recvLowatPark fourteenBytes 1 16384 131072 false true = some value →
      value ≤ bytesToCome fourteenBytes [lastBlock] lastAnswer := by
  have iff := lowat_within_iff fourteenBytes [lastBlock] lastAnswer 16384 131072 false true
    (by decide) fourteenBytes_parked
  exact ⟨fourteenBytes_parked, iff.2 (Or.inr (Or.inl rfl))⟩

/-- The estimate is one byte more than is left to send. -/
theorem lowat_beyond_last :
    ¬ ∀ cursor requests head block rcvbuf speculative downloading value,
      (∀ request ∈ requests, request.2.2 ≤ block) → Parked cursor requests head →
      recvLowatPark cursor requests.length block rcvbuf speculative downloading = some value →
      value ≤ bytesToCome cursor requests head := by
  intro always
  have within := always fourteenBytes [lastBlock] lastAnswer 16384 131072 true true 16384 (by decide)
    fourteenBytes_parked (by decide +kernel)
  have buffered : fourteenBytes.unparsed.length = 14 := by decide +kernel
  rw [bytesToCome, restOfFrame, buffered, lastAnswer, answer_length, List.length_replicate] at within
  exact absurd within (by decide)

end Seedchamp.Net.RecvLowat
