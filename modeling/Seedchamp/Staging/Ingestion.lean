import Seedchamp.Staging.Progress

/-!
How the bytes of a piece come together. Ingestion is modelled with every index, slice and sum
checked and with the state that each exit leaves behind; the books note what it accepted, and every
slot agrees with them after any calls.
-/

namespace Seedchamp.Staging.Ingestion
open Foundation.Machine Disk.Spans Staging.PiecePool Staging.Pool Staging.Assembly Staging.Progress
open Staging.Conservation (resize_length)

/-! ### Checked ingestion -/

/-- A sum on `u32`; `none` is the panic of a build with overflow checks. -/
def addU32 (a b : Nat) : Option Nat := if a + b < 2 ^ 32 then some (a + b) else none

def subU32 (a b : Nat) : Option Nat := if b ≤ a then some (a - b) else none

def mulU32 (a b : Nat) : Option Nat := if a * b < 2 ^ 32 then some (a * b) else none

def addUsize (a b : Nat) : Option Nat := if a + b < 2 ^ 64 then some (a + b) else none

def blockLenChecked (pieceLen blockIndex : Nat) : Option Nat := do
  let begin' ← mulU32 blockIndex BLOCK_SIZE
  if pieceLen ≤ begin' then return 0
  else
    let rest ← subU32 pieceLen begin'
    return min rest BLOCK_SIZE

/-- The guard of data that starts inside a block and goes on behind it. -/
def crossesBlocks (piece : ActivePiece) (begin' length : Nat) : Option Bool :=
  if begin' % BLOCK_SIZE = 0 then some false
  else do
    let stop ← addU32 begin' length
    if stop = piece.length then return false
    else
      let last ← subU32 stop 1
      return decide (begin' / BLOCK_SIZE ≠ last / BLOCK_SIZE)

def withHave (piece : ActivePiece) (flags : List Bool) (same : flags.length = piece.have_.length) :
    ActivePiece :=
  { piece with
    have_ := flags
    paired := by rw [same, piece.paired] }

/-- `self.have[i] = true`. -/
def setHave (piece : ActivePiece) (i : Nat) : Option ActivePiece :=
  if i < piece.have_.length then some (withHave piece (piece.have_.set i true) List.length_set)
  else none

/-- The `for i in start_b..` loop over so many blocks. -/
def markLoop (begin' stop : Nat) : Nat → Nat → ActivePiece → Option ActivePiece
  | 0, _, piece => some piece
  | turns + 1, i, piece => do
    let b0 ← mulU32 (asU32 i) BLOCK_SIZE
    let len ← blockLenChecked piece.length (asU32 i)
    let b1 ← addU32 b0 len
    if begin' ≤ b0 ∧ b1 ≤ stop then
      let piece ← setHave piece i
      markLoop begin' stop turns (i + 1) piece
    else markLoop begin' stop turns (i + 1) piece

def markRangeHaveChecked (piece : ActivePiece) (begin' length bufLen : Nat) :
    Option (Except Error Unit × ActivePiece) :=
  if length = 0 then some (.ok (), piece)
  else do
    let crosses ← crossesBlocks piece begin' length
    if crosses then return (.error (.msg "unaligned multi-block piece data"), piece)
    else if piece.have_.length ≤ begin' / BLOCK_SIZE then
      return (.error (.msg "block begin past piece"), piece)
    else
      let stop ← addU32 begin' length
      if piece.length < stop ∨ bufLen < stop then
        return (.error (.msg "block past piece end"), piece)
      else
        let startB := begin' / BLOCK_SIZE
        let endB := min (numBlocks stop) piece.have_.length
        let piece ← markLoop begin' stop (endB - startB) startB piece
        return (.ok (), piece)

/-- `buf[begin..stop].copy_from_slice(data)`. -/
def copyInto (buf : Buffer) (begin' stop : Nat) (data : Buffer) : Option Buffer :=
  if begin' ≤ stop ∧ stop ≤ buf.length ∧ data.length = stop - begin' then
    some (buf.take begin' ++ data ++ buf.drop stop)
  else none

/-- `ActivePiece::ingest`: the answer, and the piece and the buffer as it leaves them. -/
def ingestChecked (piece : ActivePiece) (buf : Buffer) (begin' : Nat) (data : Buffer) :
    Option (Except Error Bool × ActivePiece × Buffer) := do
  let endOff ← addUsize begin' data.length
  if buf.length < endOff ∨ piece.length < endOff then
    return (.error (.msg "block overflows piece buffer"), piece, buf)
  else
    let marked ← markRangeHaveChecked piece begin' (asU32 data.length) (asU32 buf.length)
    match marked with
    | (.error problem, piece) => return (.error problem, piece, buf)
    | (.ok (), piece) =>
      let buf ← copyInto buf begin' endOff data
      return (.ok piece.isComplete, piece, buf)

/-- `ingest_if_staged`: the answer, and the pool as it leaves it. -/
def ingestStaged (staging : StagingPool) (index begin' : Nat) (data : Buffer) :
    Option (Except Error (Option Bool) × StagingPool) :=
  match staging.findAssembling index with
  | none => some (.ok none, staging)
  | some (piece, buf) =>
    (ingestChecked piece buf begin' data).map fun left =>
      (left.1.map some, staging.withPiece index left.2.1 left.2.2)

/-! ### Calls and books -/

/-- A call on the pool of one peer. The freelist is as the call finds it: other peers share it. -/
inductive Call where
  | start (index length : Nat) (shared : Option PieceBufferPool)
  | ingest (index begin' : Nat) (data : Buffer)

/-- The arguments are `u32`s and a slice, and the freelist is that of the pool. -/
def Call.Fits (size : Nat) : Call → Prop
  | .start index length shared =>
    index < 2 ^ 32 ∧ length < 2 ^ 32 ∧ ∀ pool, shared = some pool → pool.pieceLength = size
  | .ingest index begin' data => index < 2 ^ 32 ∧ begin' < 2 ^ 32 ∧ data.length < 2 ^ 63

/-- An accepted ingest. -/
structure Receipt where
  index : Nat
  begin' : Nat
  data : Buffer
  deriving DecidableEq, Repr

/-- The pool, and the ingests it accepted, the newest first. -/
structure Books where
  staging : StagingPool
  accepted : List Receipt

def Books.note (books : Books) (index begin' : Nat) (data : Buffer) :
    Except Error (Option Bool) × StagingPool → Books
  | (.ok (some _), staging) => ⟨staging, ⟨index, begin', data⟩ :: books.accepted⟩
  | (_, staging) => ⟨staging, books.accepted⟩

def Books.apply (books : Books) : Call → Option Books
  | .start index length shared =>
    some ⟨(books.staging.tryStart shared index length).2.1, books.accepted⟩
  | .ingest index begin' data =>
    (ingestStaged books.staging index begin' data).map (books.note index begin' data)

def run : List Call → Books → Option Books
  | [], books => some books
  | call :: rest, books => (books.apply call).bind (run rest)

/-- A pool as `empty` and `from_pool` make it. -/
structure Fresh (staging : StagingPool) : Prop where
  slots : staging.slots = []
  maxBlocks : staging.maxBlocks = numBlocks staging.pieceLength
  small : staging.pieceLength < 2 ^ 32

/-- The ingest covers every byte of the block. -/
def Receipt.CoversBlock (receipt : Receipt) (length i : Nat) : Prop :=
  receipt.begin' ≤ i * BLOCK_SIZE ∧
    i * BLOCK_SIZE + blockLen length i ≤ receipt.begin' + receipt.data.length

/-- The byte that an ingest supplies at an offset of a piece. -/
def Receipt.byteAt (index offset : Nat) (receipt : Receipt) : Option UInt8 :=
  if receipt.index = index ∧ receipt.begin' ≤ offset then receipt.data[offset - receipt.begin']?
  else none

/-- The byte accepted last for an offset. -/
def lastByte (accepted : List Receipt) (index offset : Nat) : Option UInt8 :=
  accepted.findSome? (Receipt.byteAt index offset)

/-- Data that the piece takes: inside the piece, and from the start of a block, to the end of the
piece or within one block. -/
def Acceptable (piece : ActivePiece) (begin' length : Nat) : Prop :=
  begin' + length ≤ piece.length ∧
    (length = 0 ∨ begin' % BLOCK_SIZE = 0 ∨ begin' + length = piece.length ∨
      begin' / BLOCK_SIZE = (begin' + length - 1) / BLOCK_SIZE)

/-! ### The checked code is the plain one -/

theorem numBlocks_le_iff (length i : Nat) : i < numBlocks length ↔ i * BLOCK_SIZE < length := by
  unfold numBlocks BLOCK_SIZE
  omega

theorem blockLen_end (length i : Nat) (inside : i < numBlocks length) :
    0 < blockLen length i ∧ i * BLOCK_SIZE + blockLen length i ≤ length := by
  rw [numBlocks_le_iff] at inside
  rw [blockLen, if_neg (by omega)]
  have positive : 0 < BLOCK_SIZE := by decide
  omega

theorem blockLenChecked_eq (length i : Nat) (small : i * BLOCK_SIZE < 2 ^ 32) :
    blockLenChecked length i = some (blockLen length i) := by
  unfold blockLenChecked blockLen mulU32 subU32
  rw [if_pos small]
  change (if length ≤ i * BLOCK_SIZE then some 0 else _) = _
  by_cases past : length ≤ i * BLOCK_SIZE
  · rw [if_pos past, if_pos past]
  · rw [if_neg past, if_neg past, if_pos (by omega)]
    rfl

/-- What a turn of the loop tests for a block. -/
def marks (length begin' stop i : Nat) : Bool :=
  decide (begin' ≤ i * BLOCK_SIZE ∧ i * BLOCK_SIZE + blockLen length i ≤ stop)

/-- The flags with the blocks from `first` on received, so many of them, where the test holds. -/
def markFlags (flags : List Bool) (length begin' stop first turns : Nat) : List Bool :=
  flags.mapIdx fun i got => got || (decide (first ≤ i ∧ i < first + turns) && marks length begin' stop i)

@[simp] theorem markFlags_length (flags : List Bool) (length begin' stop first turns : Nat) :
    (markFlags flags length begin' stop first turns).length = flags.length := List.length_mapIdx

theorem withHave_congr (piece : ActivePiece) (flags flags' : List Bool)
    (same : flags.length = piece.have_.length) (same' : flags'.length = piece.have_.length)
    (equal : flags = flags') : withHave piece flags same = withHave piece flags' same' := by
  subst equal
  rfl

theorem markFlags_none (flags : List Bool) (length begin' stop first : Nat) :
    markFlags flags length begin' stop first 0 = flags := by
  apply List.ext_getElem?
  intro j
  have never : ¬ (first ≤ j ∧ j < first + 0) := by omega
  rw [markFlags, List.getElem?_mapIdx, decide_eq_false never]
  cases flags[j]? with
  | none => rfl
  | some got => rw [Option.map_some, Bool.false_and, Bool.or_false]

/-- One turn more at the front. -/
theorem markFlags_succ (flags : List Bool) (length begin' stop first turns : Nat) :
    markFlags flags length begin' stop first (turns + 1) =
      markFlags (if marks length begin' stop first then flags.set first true else flags)
        length begin' stop (first + 1) turns := by
  apply List.ext_getElem?
  intro j
  rw [markFlags, markFlags, List.getElem?_mapIdx, List.getElem?_mapIdx]
  by_cases here : j = first
  · subst here
    have now : j ≤ j ∧ j < j + (turns + 1) := by omega
    have passed : ¬ (j + 1 ≤ j ∧ j < j + 1 + turns) := by omega
    rw [decide_eq_true now, decide_eq_false passed]
    cases marked : marks length begin' stop j with
    | true =>
      rw [if_pos rfl]
      by_cases inside : j < flags.length
      · rw [List.getElem?_set_self inside, List.getElem?_eq_getElem inside]
        simp only [Option.map_some, Bool.and_self, Bool.or_true, Bool.true_or]
      · rw [List.getElem?_eq_none (by omega), List.getElem?_eq_none (by rw [List.length_set]; omega)]
        rfl
    | false =>
      rw [if_neg Bool.false_ne_true]
      rfl
  · have other : (if marks length begin' stop first = true then flags.set first true else flags)[j]? =
        flags[j]? := by
      split_ifs
      · exact List.getElem?_set_ne (fun same => here same.symm)
      · rfl
    have range : (first ≤ j ∧ j < first + (turns + 1)) = (first + 1 ≤ j ∧ j < first + 1 + turns) := by
      apply propext
      omega
    rw [other]
    simp only [range]

theorem markLoop_eq (begin' stop turns i : Nat) (piece : ActivePiece)
    (sized : piece.have_.length = numBlocks piece.length) (small : piece.length < 2 ^ 32)
    (inside : i + turns ≤ piece.have_.length) :
    markLoop begin' stop turns i piece =
      some (withHave piece (markFlags piece.have_ piece.length begin' stop i turns)
        (markFlags_length _ _ _ _ _ _)) := by
  induction turns generalizing i piece with
  | zero =>
    rw [markLoop]
    exact congrArg some (withHave_congr piece _ _ rfl _ (markFlags_none _ _ _ _ _).symm)
  | succ turns ih =>
    have here : i < numBlocks piece.length := by omega
    have block := blockLen_end piece.length i here
    have start := (numBlocks_le_iff piece.length i).1 here
    have narrow : asU32 i = i := asU32_of_lt i (by unfold BLOCK_SIZE at start; omega)
    rw [markLoop, narrow, mulU32, if_pos (by omega), blockLenChecked_eq _ _ (by omega)]
    simp only [Option.bind_eq_bind, Option.bind_some, addU32]
    rw [if_pos (by omega), Option.bind_some]
    have step := markFlags_succ piece.have_ piece.length begin' stop i turns
    by_cases covered : begin' ≤ i * BLOCK_SIZE ∧ i * BLOCK_SIZE + blockLen piece.length i ≤ stop
    · have marked : marks piece.length begin' stop i = true := decide_eq_true covered
      have later := ih (i + 1) (withHave piece (piece.have_.set i true) List.length_set)
        (List.length_set.trans sized) small (le_of_le_of_eq (by omega) List.length_set.symm)
      rw [if_pos marked] at step
      rw [if_pos covered, setHave, if_pos (by omega), Option.bind_some, later]
      exact congrArg some (withHave_congr piece _ _
        ((markFlags_length _ _ _ _ _ _).trans List.length_set) _ step.symm)
    · have unmarked : marks piece.length begin' stop i = false := decide_eq_false covered
      rw [unmarked, if_neg Bool.false_ne_true] at step
      rw [if_neg covered, ih (i + 1) piece sized small (by omega)]
      exact congrArg some (withHave_congr piece _ _ _ _ step.symm)

/-- What the slot of a staged piece always looks like. -/
structure Shaped (piece : ActivePiece) (buf : Buffer) : Prop where
  sized : piece.have_.length = numBlocks piece.length
  positive : 0 < piece.length
  room : piece.length ≤ buf.length
  small : buf.length < 2 ^ 32

/-- The flags behind accepted data of so many bytes. -/
def received (piece : ActivePiece) (begin' length : Nat) : List Bool :=
  if length = 0 then piece.have_
  else
    markFlags piece.have_ piece.length begin' (begin' + length) (begin' / BLOCK_SIZE)
      (min (numBlocks (begin' + length)) piece.have_.length - begin' / BLOCK_SIZE)

theorem received_length (piece : ActivePiece) (begin' length : Nat) :
    (received piece begin' length).length = piece.have_.length := by
  unfold received
  split_ifs
  · rfl
  · exact markFlags_length _ _ _ _ _ _

theorem crossesBlocks_eq (piece : ActivePiece) (begin' length : Nat) (some_byte : length ≠ 0)
    (fits : begin' + length < 2 ^ 32) :
    crossesBlocks piece begin' length = some (decide (begin' % BLOCK_SIZE ≠ 0 ∧
      begin' + length ≠ piece.length ∧
        begin' / BLOCK_SIZE ≠ (begin' + length - 1) / BLOCK_SIZE)) := by
  unfold crossesBlocks addU32 subU32
  by_cases aligned : begin' % BLOCK_SIZE = 0
  · rw [if_pos aligned, decide_eq_false (fun crosses => crosses.1 aligned)]
  · rw [if_neg aligned, if_pos fits]
    change (if begin' + length = piece.length then some false else _) = _
    by_cases ends : begin' + length = piece.length
    · rw [if_pos ends, decide_eq_false (fun crosses => crosses.2.1 ends)]
    · rw [if_neg ends, if_pos (by omega)]
      change some (decide _) = some (decide _)
      simp only [aligned, ends, ne_eq, not_false_eq_true, true_and]

/-- The flags as the plain model writes them. -/
theorem received_plain (piece : ActivePiece) (begin' length : Nat) (some_byte : length ≠ 0) :
    (piece.have_.mapIdx fun i got =>
      got || decide (begin' ≤ i * BLOCK_SIZE ∧
        i * BLOCK_SIZE + blockLen piece.length i ≤ begin' + length ∧
        begin' / BLOCK_SIZE ≤ i ∧ i < numBlocks (begin' + length))) =
      received piece begin' length := by
  rw [received, if_neg some_byte]
  apply List.ext_getElem?
  intro i
  rw [markFlags, List.getElem?_mapIdx, List.getElem?_mapIdx]
  by_cases inside : i < piece.have_.length
  · have range : (begin' ≤ i * BLOCK_SIZE ∧
        i * BLOCK_SIZE + blockLen piece.length i ≤ begin' + length ∧
        begin' / BLOCK_SIZE ≤ i ∧ i < numBlocks (begin' + length)) =
        ((begin' / BLOCK_SIZE ≤ i ∧ i < begin' / BLOCK_SIZE +
          (min (numBlocks (begin' + length)) piece.have_.length - begin' / BLOCK_SIZE)) ∧
        begin' ≤ i * BLOCK_SIZE ∧ i * BLOCK_SIZE + blockLen piece.length i ≤ begin' + length) := by
      apply propext
      omega
    simp only [range, marks, Bool.decide_and]
  · rw [List.getElem?_eq_none (by omega)]
    rfl

/-- Every exit of `ingest`: nothing overflows, an error leaves the piece and the buffer alone, and
the plain model has the same result. -/
theorem ingestChecked_cases (piece : ActivePiece) (buf : Buffer) (shaped : Shaped piece buf)
    (begin' : Nat) (data : Buffer) (narrow : begin' < 2 ^ 32) (slice : data.length < 2 ^ 63) :
    (¬ Acceptable piece begin' data.length ∧
      ∃ problem, ingestChecked piece buf begin' data = some (.error problem, piece, buf) ∧
        piece.ingest buf begin' data = .error problem) ∨
    (Acceptable piece begin' data.length ∧
      ingestChecked piece buf begin' data =
        some (.ok (withHave piece (received piece begin' data.length)
            (received_length piece begin' data.length)).isComplete,
          withHave piece (received piece begin' data.length) (received_length piece begin' data.length),
          buf.take begin' ++ data ++ buf.drop (begin' + data.length)) ∧
      piece.ingest buf begin' data =
        .ok (withHave piece (received piece begin' data.length)
            (received_length piece begin' data.length),
          buf.take begin' ++ data ++ buf.drop (begin' + data.length),
          (withHave piece (received piece begin' data.length)
            (received_length piece begin' data.length)).isComplete)) := by
  have room := shaped.room
  have small := shaped.small
  have sized := shaped.sized
  have positive : 0 < BLOCK_SIZE := by decide
  unfold ingestChecked addUsize ActivePiece.ingest ActivePiece.markRangeHave
  rw [if_pos (by omega)]
  simp only [Option.bind_eq_bind, Option.bind_some]
  by_cases past : buf.length < begin' + data.length ∨ piece.length < begin' + data.length
  · rw [if_pos past, if_pos past]
    refine Or.inl ⟨?_, _, rfl, rfl⟩
    intro acceptable
    have inside := acceptable.1
    omega
  · have copied : copyInto buf begin' (begin' + data.length) data =
        some (buf.take begin' ++ data ++ buf.drop (begin' + data.length)) := by
      rw [copyInto, if_pos (by omega)]
    rw [if_neg past, if_neg past, asU32_of_lt _ (by omega), asU32_of_lt _ small,
      markRangeHaveChecked]
    by_cases blank : data.length = 0
    · rw [if_pos blank, if_pos blank, Option.bind_some]
      dsimp only
      rw [copied]
      refine Or.inr ⟨⟨by omega, Or.inl blank⟩, ?_⟩
      have same : withHave piece (received piece begin' data.length)
          (received_length piece begin' data.length) = piece := by
        refine (withHave_congr piece _ piece.have_ _ rfl ?_).trans rfl
        rw [received, if_pos blank]
      rw [same]
      exact ⟨rfl, rfl⟩
    · rw [if_neg blank, if_neg blank, crossesBlocks_eq piece begin' data.length blank (by omega)]
      simp only [Option.bind_eq_bind, Option.bind_some]
      by_cases crosses : begin' % BLOCK_SIZE ≠ 0 ∧ begin' + data.length ≠ piece.length ∧
          begin' / BLOCK_SIZE ≠ (begin' + data.length - 1) / BLOCK_SIZE
      · rw [decide_eq_true crosses, if_pos rfl, if_pos crosses]
        refine Or.inl ⟨?_, _, rfl, rfl⟩
        rintro ⟨_, none' | aligned | ends | within⟩
        · exact blank none'
        · exact crosses.1 aligned
        · exact crosses.2.1 ends
        · exact crosses.2.2 within
      · have first : begin' / BLOCK_SIZE < numBlocks piece.length := by
          rw [numBlocks_le_iff]
          have low := Nat.div_mul_le_self begin' BLOCK_SIZE
          omega
        have begins : ¬ piece.have_.length ≤ begin' / BLOCK_SIZE := by omega
        have ends : ¬ (piece.length < begin' + data.length ∨ buf.length < begin' + data.length) := by
          omega
        rw [decide_eq_false crosses, if_neg Bool.false_ne_true, if_neg begins, addU32,
          if_pos (by omega), Option.bind_some, if_neg ends, if_neg crosses, if_neg begins, if_neg ends]
        have looped := markLoop_eq begin' (begin' + data.length)
          (min (numBlocks (begin' + data.length)) piece.have_.length - begin' / BLOCK_SIZE)
          (begin' / BLOCK_SIZE) piece sized (by omega) (by omega)
        rw [looped]
        simp only [Option.bind_some]
        have same : withHave piece _ (markFlags_length piece.have_ piece.length begin'
              (begin' + data.length) (begin' / BLOCK_SIZE)
              (min (numBlocks (begin' + data.length)) piece.have_.length - begin' / BLOCK_SIZE)) =
            withHave piece (received piece begin' data.length)
              (received_length piece begin' data.length) := by
          apply withHave_congr
          rw [received, if_neg blank]
        rw [same]
        simp only [Option.pure_def, Option.bind_some]
        rw [copied]
        have plain := withHave_congr piece _ _ List.length_mapIdx
          (received_length piece begin' data.length) (received_plain piece begin' data.length blank)
        have acceptable : data.length = 0 ∨ begin' % BLOCK_SIZE = 0 ∨
            begin' + data.length = piece.length ∨
              begin' / BLOCK_SIZE = (begin' + data.length - 1) / BLOCK_SIZE := by
          by_contra refused
          rw [not_or, not_or, not_or] at refused
          exact crosses refused.2
        exact Or.inr ⟨⟨by omega, acceptable⟩, rfl,
          congrArg (fun left : ActivePiece => Except.ok (left,
            buf.take begin' ++ data ++ buf.drop (begin' + data.length), left.isComplete)) plain⟩

/-! ### The slots of the pool -/

theorem findSome_replaceFirst (index other : Nat) (piece : ActivePiece) (buf : Buffer)
    (named : piece.index = index) (slots : List Slot) :
    (StagingPool.replaceFirst index (.assembling piece buf) slots).findSome? (Slot.piece other) =
      if other = index then (slots.findSome? (Slot.piece index)).map fun _ => (piece, buf)
      else slots.findSome? (Slot.piece other) := by
  induction slots with
  | nil =>
    split_ifs
    · rfl
    · rfl
  | cons first rest ih =>
    rw [StagingPool.replaceFirst]
    cases first with
    | assembling piece' buf' =>
      by_cases here : piece'.index = index
      · rw [Slot.assembles, decide_eq_true here, if_pos rfl, List.findSome?_cons, List.findSome?_cons,
          List.findSome?_cons, Slot.piece, Slot.piece, Slot.piece]
        by_cases same : other = index
        · rw [if_pos (named.trans same.symm), if_pos same, if_pos here]
          rfl
        · rw [if_neg (fun equal => same (equal.symm.trans named)), if_neg same,
            if_neg (fun equal => same (equal.symm.trans here))]
      · rw [Slot.assembles, decide_eq_false here, if_neg Bool.false_ne_true, List.findSome?_cons,
          List.findSome?_cons, List.findSome?_cons, ih, Slot.piece, Slot.piece, if_neg here]
        by_cases same : other = index
        · rw [if_pos same, if_pos same, if_neg (fun equal => here (equal.trans same))]
        · rw [if_neg same, if_neg same]
    | hashing other' =>
      rw [Slot.assembles, if_neg Bool.false_ne_true, List.findSome?_cons, List.findSome?_cons,
        List.findSome?_cons, ih]
      rfl

theorem findAssembling_withPiece (staging : StagingPool) (index other : Nat) (piece piece' : ActivePiece)
    (buf buf' : Buffer) (named : piece'.index = index)
    (found : staging.findAssembling index = some (piece, buf)) :
    (staging.withPiece index piece' buf').findAssembling other =
      if other = index then some (piece', buf') else staging.findAssembling other := by
  rw [StagingPool.findAssembling] at found
  have replaced := findSome_replaceFirst index other piece' buf' named staging.slots
  rw [found] at replaced
  exact replaced

/-- Writing a slot back as it was. -/
theorem withPiece_self (staging : StagingPool) (index : Nat) (piece : ActivePiece) (buf : Buffer)
    (found : staging.findAssembling index = some (piece, buf)) :
    staging.withPiece index piece buf = staging := by
  obtain ⟨front, back, split, _, replaced⟩ := split_first index piece buf staging.slots found
  have slots := (replaced (.assembling piece buf)).trans split.symm
  cases staging
  exact congrArg (fun slots => StagingPool.mk slots _ _ _) slots

/-- What a start does: nothing, or a new slot with a buffer of the freelist behind the others. -/
theorem tryStart_appends (staging : StagingPool) (shared : Option PieceBufferPool)
    (index length : Nat) :
    (staging.tryStart shared index length).2.1 = staging ∨
    (staging.contains index = false ∧ 0 < length ∧ length ≤ staging.pieceLength ∧
      ∃ pool buf, shared = some pool ∧ buf.length = pool.pieceLength ∧
        (staging.tryStart shared index length).2.1 = { staging with
          slots := staging.slots ++
            [.assembling (ActivePiece.open' index length staging.maxBlocks) buf] }) := by
  unfold StagingPool.tryStart
  cases contained : staging.contains index with
  | true => exact Or.inl rfl
  | false =>
    rw [if_neg Bool.false_ne_true]
    split_ifs with outside
    · exact Or.inl rfl
    · cases shared with
      | none => exact Or.inl rfl
      | some pool =>
        cases acquired : pool.tryAcquire with
        | none =>
          dsimp only
          rw [acquired]
          exact Or.inl rfl
        | some taken =>
          dsimp only
          rw [acquired]
          refine Or.inr ⟨rfl, by omega, by omega, pool, taken.1, rfl, ?_, rfl⟩
          unfold PieceBufferPool.tryAcquire at acquired
          split at acquired
          · cases acquired
            exact resize_length _ _
          · split_ifs at acquired
            cases acquired
            exact List.length_replicate

theorem findAssembling_append (staging : StagingPool) (index : Nat) (piece : ActivePiece) (buf : Buffer)
    (absent : staging.contains index = false) (named : piece.index = index) (other : Nat) :
    ({ staging with slots := staging.slots ++ [.assembling piece buf] } : StagingPool).findAssembling
        other =
      if other = index then some (piece, buf) else staging.findAssembling other := by
  rw [StagingPool.findAssembling, List.findSome?_append, List.findSome?_singleton, Slot.piece, named]
  by_cases same : other = index
  · subst same
    have before : staging.slots.findSome? (Slot.piece other) = none :=
      List.findSome?_eq_none_iff.2 (not_assembles_of_absent staging other absent)
    rw [before, if_pos rfl, if_pos rfl, Option.none_or]
  · rw [if_neg (fun equal => same equal.symm), if_neg same, Option.or_none]
    rfl

/-! ### What the books say about a slot -/

/-- A slot agrees with the accepted ingests of its piece. -/
structure Agrees (accepted : List Receipt) (index : Nat) (piece : ActivePiece) (buf : Buffer) :
    Prop where
  named : piece.index = index
  shaped : Shaped piece buf
  received : ∀ i, i < numBlocks piece.length →
    (piece.have_.getD i false = true ↔
      ∃ receipt ∈ accepted, receipt.index = index ∧ receipt.CoversBlock piece.length i)
  bytes : ∀ offset byte, lastByte accepted index offset = some byte → buf[offset]? = some byte

structure Kept (size : Nat) (books : Books) : Prop where
  pieceLength : books.staging.pieceLength = size
  maxBlocks : books.staging.maxBlocks = numBlocks size
  small : size < 2 ^ 32
  slots : ∀ index piece buf, books.staging.findAssembling index = some (piece, buf) →
    Agrees books.accepted index piece buf
  known : ∀ receipt ∈ books.accepted, ∃ found, books.staging.findAssembling receipt.index = some found

theorem getD_markFlags (flags : List Bool) (length begin' stop first turns i : Nat)
    (inside : i < flags.length) :
    (markFlags flags length begin' stop first turns).getD i false = true ↔
      flags.getD i false = true ∨
        (first ≤ i ∧ i < first + turns) ∧ marks length begin' stop i = true := by
  rw [markFlags, List.getD_eq_getElem?_getD, List.getElem?_mapIdx, List.getD_eq_getElem?_getD,
    List.getElem?_eq_getElem inside]
  simp only [Option.map_some, Option.getD_some, Bool.or_eq_true, Bool.and_eq_true, decide_eq_true_eq]

/-- Accepted data adds exactly the blocks that it covers. -/
theorem getD_received (piece : ActivePiece) (sized : piece.have_.length = numBlocks piece.length)
    (receipt : Receipt) (i : Nat) (inside : i < numBlocks piece.length) :
    (received piece receipt.begin' receipt.data.length).getD i false = true ↔
      piece.have_.getD i false = true ∨ receipt.CoversBlock piece.length i := by
  have block := blockLen_end piece.length i inside
  unfold received Receipt.CoversBlock
  by_cases blank : receipt.data.length = 0
  · rw [if_pos blank, blank]
    have nothing : ¬ (receipt.begin' ≤ i * BLOCK_SIZE ∧
        i * BLOCK_SIZE + blockLen piece.length i ≤ receipt.begin' + 0) := by omega
    simp only [nothing, or_false]
  · rw [if_neg blank, getD_markFlags _ _ _ _ _ _ _ (by omega), marks, decide_eq_true_eq]
    apply or_congr_right
    constructor
    · exact fun marked => marked.2
    · intro covers
      have low : receipt.begin' / BLOCK_SIZE ≤ i := by
        rw [Nat.div_le_iff_le_mul_add_pred (by decide), Nat.mul_comm]
        omega
      have high : i < numBlocks (receipt.begin' + receipt.data.length) := by
        rw [numBlocks_le_iff]
        omega
      exact ⟨by omega, covers⟩

/-- The bytes of the buffer behind a copy. -/
theorem getElem?_copied (buf data : Buffer) (begin' offset : Nat)
    (room : begin' + data.length ≤ buf.length) :
    (buf.take begin' ++ data ++ buf.drop (begin' + data.length))[offset]? =
      if begin' ≤ offset ∧ offset < begin' + data.length then data[offset - begin']?
      else buf[offset]? := by
  have front : (buf.take begin').length = begin' := by
    rw [List.length_take]
    omega
  rw [List.append_assoc]
  by_cases before : offset < begin'
  · rw [List.getElem?_append_left (by omega), List.getElem?_take_of_lt before, if_neg (by omega)]
  · rw [List.getElem?_append_right (by omega), front]
    by_cases inside : offset < begin' + data.length
    · rw [if_pos (by omega), List.getElem?_append_left (by omega)]
    · rw [if_neg (by omega), List.getElem?_append_right (by omega), List.getElem?_drop]
      congr 1
      omega

theorem lastByte_cons (receipt : Receipt) (accepted : List Receipt) (index offset : Nat) :
    lastByte (receipt :: accepted) index offset =
      (receipt.byteAt index offset).or (lastByte accepted index offset) := by
  rw [lastByte, List.findSome?_cons]
  cases receipt.byteAt index offset with
  | _ => rfl

theorem byteAt_other (receipt : Receipt) (index offset : Nat) (other : receipt.index ≠ index) :
    receipt.byteAt index offset = none := by
  rw [Receipt.byteAt, if_neg (fun both => other both.1)]

/-- The slot of another piece does not notice an ingest. -/
theorem agrees_other (accepted : List Receipt) (index : Nat) (piece : ActivePiece) (buf : Buffer)
    (agrees : Agrees accepted index piece buf) (receipt : Receipt) (other : receipt.index ≠ index) :
    Agrees (receipt :: accepted) index piece buf where
  named := agrees.named
  shaped := agrees.shaped
  received := by
    intro i inside
    rw [agrees.received i inside, List.exists_mem_cons_iff]
    simp only [other, false_and, false_or]
  bytes := by
    intro offset byte last
    rw [lastByte_cons, byteAt_other receipt index offset other, Option.none_or] at last
    exact agrees.bytes offset byte last

/-- The slot of the piece with the accepted data in it. -/
theorem agrees_accept (accepted : List Receipt) (piece : ActivePiece) (buf : Buffer)
    (receipt : Receipt) (agrees : Agrees accepted receipt.index piece buf)
    (inside : receipt.begin' + receipt.data.length ≤ piece.length) :
    Agrees (receipt :: accepted) receipt.index
      (withHave piece (received piece receipt.begin' receipt.data.length) (received_length _ _ _))
      (buf.take receipt.begin' ++ receipt.data ++ buf.drop (receipt.begin' + receipt.data.length)) where
  named := agrees.named
  shaped := by
    have room := agrees.shaped.room
    have length : (buf.take receipt.begin' ++ receipt.data ++
        buf.drop (receipt.begin' + receipt.data.length)).length = buf.length := by
      rw [List.length_append, List.length_append, List.length_take, List.length_drop]
      omega
    refine ⟨(received_length _ _ _).trans agrees.shaped.sized, agrees.shaped.positive, ?_, ?_⟩
    · rw [length]
      exact room
    · rw [length]
      exact agrees.shaped.small
  received := by
    intro i below
    rw [List.exists_mem_cons_iff]
    refine (getD_received piece agrees.shaped.sized receipt i below).trans ?_
    rw [agrees.received i below, or_comm]
    apply or_congr_left
    exact ⟨fun covers => ⟨rfl, covers⟩, fun both => both.2⟩
  bytes := by
    intro offset byte last
    have room := agrees.shaped.room
    rw [getElem?_copied buf receipt.data receipt.begin' offset (by omega)]
    rw [lastByte_cons, Receipt.byteAt] at last
    by_cases within : receipt.begin' ≤ offset ∧ offset < receipt.begin' + receipt.data.length
    · rw [if_pos within]
      rw [if_pos ⟨rfl, within.1⟩, List.getElem?_eq_getElem (by omega), Option.some_or] at last
      rw [← last, List.getElem?_eq_getElem (by omega)]
    · rw [if_neg within]
      apply agrees.bytes offset byte
      by_cases from' : receipt.begin' ≤ offset
      · rw [if_pos ⟨rfl, from'⟩, List.getElem?_eq_none (by omega), Option.none_or] at last
        exact last
      · rw [if_neg (fun both => from' both.2), Option.none_or] at last
        exact last

/-- A new slot, of a piece that nothing was accepted for. -/
theorem agrees_open (accepted : List Receipt) (index length size : Nat) (buf : Buffer)
    (some_byte : 0 < length) (fits : length ≤ size) (sized : buf.length = size) (small : size < 2 ^ 32)
    (unknown : ∀ receipt ∈ accepted, receipt.index ≠ index) :
    Agrees accepted index (ActivePiece.open' index length (numBlocks size)) buf where
  named := rfl
  shaped := by
    refine ⟨?_, some_byte, le_of_le_of_eq fits sized.symm, by omega⟩
    change ((List.replicate (numBlocks size) false).take (numBlocks length)).length = numBlocks length
    rw [List.length_take, List.length_replicate]
    unfold numBlocks BLOCK_SIZE
    omega
  received := by
    intro i below
    have clear : (ActivePiece.open' index length (numBlocks size)).have_.getD i false = false := by
      rw [ActivePiece.open', List.getD_eq_getElem?_getD]
      cases found : ((List.replicate (numBlocks size) false).take (numBlocks length))[i]? with
      | none => rfl
      | some flag =>
        have member := List.mem_of_mem_take (List.mem_of_getElem? found)
        exact List.eq_of_mem_replicate member
    rw [clear]
    constructor
    · intro impossible
      cases impossible
    · rintro ⟨receipt, member, same, _⟩
      exact absurd same (unknown receipt member)
  bytes := by
    intro offset byte last
    obtain ⟨receipt, member, supplied⟩ := List.exists_of_findSome?_eq_some last
    rw [byteAt_other receipt index offset (unknown receipt member)] at supplied
    cases supplied

/-! ### Calls -/

section
variable {size : Nat} (books : Books) (kept : Kept size books)
include kept

/-- A start opens a slot for a piece that nothing was accepted for, or does nothing. -/
theorem kept_start (index length : Nat) (shared : Option PieceBufferPool)
    (fits : Call.Fits size (.start index length shared)) :
    Kept size ⟨(books.staging.tryStart shared index length).2.1, books.accepted⟩ := by
  rcases tryStart_appends books.staging shared index length with
    unchanged | ⟨absent, some_byte, short, pool, buf, given, sized, appended⟩
  · rw [unchanged]
    exact kept
  · have lookup := findAssembling_append books.staging index
      (ActivePiece.open' index length books.staging.maxBlocks) buf absent rfl
    have unknown : ∀ receipt ∈ books.accepted, receipt.index ≠ index := by
      intro receipt member same
      obtain ⟨found, located⟩ := kept.known receipt member
      rw [same] at located
      have held := contains_of_mem books.staging index
        (findAssembling_some books.staging index found.1 found.2 located).2
      rw [absent] at held
      cases held
    rw [appended]
    refine ⟨kept.pieceLength, kept.maxBlocks, kept.small, ?_, ?_⟩
    · intro other piece held found
      rw [lookup] at found
      by_cases same : other = index
      · rw [if_pos same] at found
        cases found
        rw [same, kept.maxBlocks]
        have width := kept.pieceLength
        exact agrees_open books.accepted index length size buf some_byte (by omega)
          (sized.trans (fits.2.2 pool given)) kept.small unknown
      · rw [if_neg same] at found
        exact kept.slots other piece held found
    · intro receipt member
      obtain ⟨found, located⟩ := kept.known receipt member
      refine ⟨found, ?_⟩
      rw [lookup, if_neg (unknown receipt member), located]

/-- An ingest is rejected and leaves the pool alone, or it is accepted into the slot of its piece. -/
theorem ingestStaged_cases (index begin' : Nat) (data : Buffer)
    (fits : Call.Fits size (.ingest index begin' data)) :
    (∃ answer, ingestStaged books.staging index begin' data = some (answer, books.staging) ∧
      (∀ complete, answer ≠ .ok (some complete)) ∧
      ∀ piece buf, books.staging.findAssembling index = some (piece, buf) →
        ¬ Acceptable piece begin' data.length) ∨
    ∃ piece buf piece' buf', books.staging.findAssembling index = some (piece, buf) ∧
      Acceptable piece begin' data.length ∧
      ingestStaged books.staging index begin' data =
        some (.ok (some piece'.isComplete), books.staging.withPiece index piece' buf') ∧
      Agrees (⟨index, begin', data⟩ :: books.accepted) index piece' buf' := by
  unfold ingestStaged
  cases found : books.staging.findAssembling index with
  | none =>
    refine Or.inl ⟨_, rfl, fun complete impossible => ?_, fun piece buf impossible => ?_⟩
    · cases impossible
    · cases impossible
  | some slot =>
    obtain ⟨piece, buf⟩ := slot
    have agrees := kept.slots index piece buf found
    rcases ingestChecked_cases piece buf agrees.shaped begin' data fits.2.1 fits.2.2 with
      ⟨refused, problem, failed, _⟩ | ⟨acceptable, taken, _⟩
    · dsimp only
      rw [failed]
      refine Or.inl ⟨.error problem, ?_, fun complete impossible => ?_, ?_⟩
      · exact congrArg (fun left => some (Except.error problem, left))
          (withPiece_self books.staging index piece buf found)
      · cases impossible
      · intro piece' buf' same
        cases same
        exact refused
    · dsimp only
      rw [taken]
      refine Or.inr ⟨piece, buf, _, _, rfl, acceptable, rfl, ?_⟩
      exact agrees_accept books.accepted piece buf ⟨index, begin', data⟩ agrees acceptable.1

/-- The plain model of the pool has the same answers and leaves the same pool. -/
theorem ingestStaged_plain (index begin' : Nat) (data : Buffer)
    (fits : Call.Fits size (.ingest index begin' data)) :
    ingestStaged books.staging index begin' data =
      some (match books.staging.ingestIfStaged index begin' data with
        | .error problem => (.error problem, books.staging)
        | .ok none => (.ok none, books.staging)
        | .ok (some (complete, after)) => (.ok (some complete), after)) := by
  unfold ingestStaged StagingPool.ingestIfStaged
  cases found : books.staging.findAssembling index with
  | none => rfl
  | some slot =>
    obtain ⟨piece, buf⟩ := slot
    have agrees := kept.slots index piece buf found
    dsimp only
    rcases ingestChecked_cases piece buf agrees.shaped begin' data fits.2.1 fits.2.2 with
      ⟨_, problem, failed, plain⟩ | ⟨_, taken, plain⟩
    · rw [failed, plain]
      exact congrArg (fun left => some (Except.error problem, left))
        (withPiece_self books.staging index piece buf found)
    · rw [taken, plain]
      rfl

/-- The books after an accepted ingest. -/
theorem kept_accept (index begin' : Nat) (data : Buffer) (piece piece' : ActivePiece)
    (buf buf' : Buffer) (found : books.staging.findAssembling index = some (piece, buf))
    (agrees : Agrees (⟨index, begin', data⟩ :: books.accepted) index piece' buf') :
    Kept size ⟨books.staging.withPiece index piece' buf', ⟨index, begin', data⟩ :: books.accepted⟩ := by
  have lookup := fun other => findAssembling_withPiece books.staging index other piece piece' buf buf'
    agrees.named found
  refine ⟨kept.pieceLength, kept.maxBlocks, kept.small, ?_, ?_⟩
  · intro other kept_piece kept_buf located
    rw [lookup] at located
    by_cases same : other = index
    · rw [if_pos same] at located
      cases located
      rw [same]
      exact agrees
    · rw [if_neg same] at located
      exact agrees_other _ _ _ _ (kept.slots other kept_piece kept_buf located) _
        (fun equal => same equal.symm)
  · intro receipt member
    rw [lookup]
    rcases List.mem_cons.1 member with newest | older
    · rw [newest, if_pos rfl]
      exact ⟨_, rfl⟩
    · by_cases same : receipt.index = index
      · rw [if_pos same]
        exact ⟨_, rfl⟩
      · rw [if_neg same]
        exact kept.known receipt older

/-- One call: it does not panic, and the books keep agreeing with the slots. -/
theorem kept_apply (call : Call) (fits : call.Fits size) :
    ∃ after, books.apply call = some after ∧ Kept size after := by
  cases call with
  | start index length shared => exact ⟨_, rfl, kept_start books kept index length shared fits⟩
  | ingest index begin' data =>
    rw [Books.apply]
    rcases ingestStaged_cases books kept index begin' data fits with
      ⟨answer, rejected, no_answer, _⟩ | ⟨piece, buf, piece', buf', found, _, taken, agrees⟩
    · rw [rejected]
      refine ⟨_, rfl, ?_⟩
      cases answer with
      | error problem => exact kept
      | ok reported =>
        cases reported with
        | none => exact kept
        | some complete => exact absurd rfl (no_answer complete)
    · rw [taken]
      exact ⟨_, rfl, kept_accept books kept index begin' data piece piece' buf buf' found agrees⟩

end

theorem kept_run {size : Nat} (calls : List Call) (fits : ∀ call ∈ calls, call.Fits size) (books : Books)
    (kept : Kept size books) : ∃ after, run calls books = some after ∧ Kept size after := by
  induction calls generalizing books with
  | nil => exact ⟨books, rfl, kept⟩
  | cons call rest ih =>
    obtain ⟨next, applied, stays⟩ := kept_apply books kept call (fits call List.mem_cons_self)
    obtain ⟨after, ran, ends⟩ := ih (fun later member => fits later (List.mem_cons_of_mem _ member))
      next stays
    refine ⟨after, ?_, ends⟩
    rw [run, applied]
    exact ran

theorem kept_fresh (staging : StagingPool) (fresh : Fresh staging) :
    Kept staging.pieceLength ⟨staging, []⟩ := by
  refine ⟨rfl, fresh.maxBlocks, fresh.small, ?_, fun _ none' => absurd none' List.not_mem_nil⟩
  intro index piece buf found
  rw [StagingPool.findAssembling, fresh.slots] at found
  cases found

theorem fresh_fromPool (name : Nat) (pool : PieceBufferPool) (small : pool.pieceLength < 2 ^ 32) :
    Fresh (StagingPool.fromPool name pool) := ⟨rfl, rfl, small⟩

/-! ### Complete pieces -/

theorem isComplete_iff (piece : ActivePiece) (sized : piece.have_.length = numBlocks piece.length) :
    piece.isComplete = true ↔
      ∀ i, i < numBlocks piece.length → piece.have_.getD i false = true := by
  rw [ActivePiece.isComplete, List.all_eq_true, ← sized]
  constructor
  · intro all i inside
    rw [List.getD_eq_getElem?_getD, List.getElem?_eq_getElem inside]
    exact all _ (List.getElem_mem inside)
  · intro all flag member
    obtain ⟨i, inside, rfl⟩ := List.getElem_of_mem member
    have set' := all i inside
    rwa [List.getD_eq_getElem?_getD, List.getElem?_eq_getElem inside] at set'

/-- A byte that some accepted ingest covers was accepted last by one of them. -/
theorem lastByte_of_covered (accepted : List Receipt) (receipt : Receipt) (member : receipt ∈ accepted)
    (offset : Nat) (low : receipt.begin' ≤ offset)
    (high : offset < receipt.begin' + receipt.data.length) :
    ∃ byte, lastByte accepted receipt.index offset = some byte := by
  have supplied : (receipt.byteAt receipt.index offset).isSome = true := by
    rw [Receipt.byteAt, if_pos ⟨rfl, low⟩, List.getElem?_eq_getElem (by omega)]
    rfl
  exact Option.isSome_iff_exists.1 (List.findSome?_isSome_iff.2 ⟨receipt, member, supplied⟩)

/-- Every byte of a complete piece was supplied, and the buffer holds it. -/
theorem complete_supplied (accepted : List Receipt) (index : Nat) (piece : ActivePiece) (buf : Buffer)
    (agrees : Agrees accepted index piece buf) (complete : piece.isComplete = true) (offset : Nat)
    (inside : offset < piece.length) :
    ∃ byte, lastByte accepted index offset = some byte ∧ buf[offset]? = some byte := by
  have all := (isComplete_iff piece agrees.shaped.sized).1 complete
  have low := Nat.div_mul_le_self offset BLOCK_SIZE
  have above : offset < offset / BLOCK_SIZE * BLOCK_SIZE + BLOCK_SIZE := by
    rw [← Nat.succ_mul, Nat.mul_comm]
    exact Nat.lt_mul_div_succ offset (by decide)
  have block : offset / BLOCK_SIZE < numBlocks piece.length := by
    rw [numBlocks_le_iff]
    omega
  obtain ⟨receipt, member, named, covers⟩ :=
    (agrees.received (offset / BLOCK_SIZE) block).1 (all _ block)
  have reach : offset < offset / BLOCK_SIZE * BLOCK_SIZE + blockLen piece.length (offset / BLOCK_SIZE) := by
    rw [blockLen, if_neg (by omega)]
    omega
  have lower := covers.1
  have upper := covers.2
  obtain ⟨byte, last⟩ := lastByte_of_covered accepted receipt member offset (by omega) (by omega)
  rw [named] at last
  exact ⟨byte, last, agrees.bytes offset byte last⟩

/-- Staging assembly is correct, after every sequence of starts and ingests. -/
theorem staging_assembles (staging : StagingPool) (fresh : Fresh staging) (calls : List Call)
    (fits : ∀ call ∈ calls, call.Fits staging.pieceLength) :
    ∃ books, run calls ⟨staging, []⟩ = some books ∧
      (∀ index piece buf, books.staging.findAssembling index = some (piece, buf) →
        (∀ i, i < numBlocks piece.length →
          (piece.have_.getD i false = true ↔
            ∃ receipt ∈ books.accepted, receipt.index = index ∧
              receipt.CoversBlock piece.length i)) ∧
        (∀ offset byte, lastByte books.accepted index offset = some byte →
          buf[offset]? = some byte) ∧
        (piece.isComplete = true → ∀ offset, offset < piece.length →
          ∃ byte, lastByte books.accepted index offset = some byte ∧ buf[offset]? = some byte)) ∧
      ∀ index begin' data, Call.Fits staging.pieceLength (.ingest index begin' data) →
        ∃ answer after, ingestStaged books.staging index begin' data = some (answer, after) ∧
          ((∃ complete, answer = .ok (some complete)) ↔
            ∃ piece buf, books.staging.findAssembling index = some (piece, buf) ∧
              Acceptable piece begin' data.length) ∧
          ((∀ complete, answer ≠ .ok (some complete)) → after = books.staging) ∧
          ∀ complete, answer = .ok (some complete) →
            ∃ piece buf, after.findAssembling index = some (piece, buf) ∧
              (complete = true ↔
                ∀ i, i < numBlocks piece.length → piece.have_.getD i false = true) := by
  obtain ⟨books, ran, kept⟩ := kept_run calls fits ⟨staging, []⟩ (kept_fresh staging fresh)
  refine ⟨books, ran, ?_, ?_⟩
  · intro index piece buf found
    have agrees := kept.slots index piece buf found
    exact ⟨agrees.received, agrees.bytes,
      complete_supplied books.accepted index piece buf agrees⟩
  · intro index begin' data arguments
    rcases ingestStaged_cases books kept index begin' data arguments with
      ⟨answer, rejected, no_answer, refused⟩ | ⟨piece, buf, piece', buf', found, acceptable, taken, agrees⟩
    · refine ⟨answer, _, rejected, ⟨?_, ?_⟩, fun _ => rfl, ?_⟩
      · rintro ⟨complete, accepted⟩
        exact absurd accepted (no_answer complete)
      · rintro ⟨piece, buf, found, acceptable⟩
        exact absurd acceptable (refused piece buf found)
      · intro complete accepted
        exact absurd accepted (no_answer complete)
    · refine ⟨_, _, taken, ⟨fun _ => ⟨piece, buf, found, acceptable⟩, fun _ => ⟨_, rfl⟩⟩, ?_, ?_⟩
      · intro none_complete
        exact absurd rfl (none_complete piece'.isComplete)
      · intro complete reported
        cases reported
        have lookup := findAssembling_withPiece books.staging index index piece piece' buf buf'
          agrees.named found
        rw [if_pos rfl] at lookup
        exact ⟨piece', buf', lookup, isComplete_iff piece' agrees.shaped.sized⟩

/-- One piece of four bytes, in two parts that overlap. -/
def twoParts : List Call :=
  [.start 0 4 (some (PieceBufferPool.new 4 0)), .ingest 0 1 [7, 8, 9], .ingest 0 0 [1, 2, 3, 4]]

theorem twoParts_fits : ∀ call ∈ twoParts, call.Fits 4 := by
  intro call member
  simp only [twoParts, List.mem_cons, List.not_mem_nil, or_false] at member
  rcases member with rfl | rfl | rfl
  · refine ⟨by decide, by decide, ?_⟩
    intro pool same
    cases same
    rfl
  · exact ⟨by decide, by decide, by decide⟩
  · exact ⟨by decide, by decide, by decide⟩

example : (run twoParts ⟨StagingPool.fromPool 0 (PieceBufferPool.new 4 0), []⟩).map
    (fun books => (books.accepted.length, books.staging.findAssembling 0 |>.map Prod.snd)) =
      some (2, some [1, 2, 3, 4]) := by decide

theorem staging_assembles_twoParts :
    ∃ books, run twoParts ⟨StagingPool.fromPool 0 (PieceBufferPool.new 4 0), []⟩ = some books ∧
      ∀ piece buf, books.staging.findAssembling 0 = some (piece, buf) →
        piece.isComplete = true → 2 < piece.length →
          ∃ byte, lastByte books.accepted 0 2 = some byte ∧ buf[2]? = some byte := by
  obtain ⟨books, ran, slots, _⟩ := staging_assembles
    (StagingPool.fromPool 0 (PieceBufferPool.new 4 0)) (fresh_fromPool 0 _ (by decide)) twoParts
    twoParts_fits
  exact ⟨books, ran, fun piece buf found complete inside =>
    (slots 0 piece buf found).2.2 complete 2 inside⟩

end Seedchamp.Staging.Ingestion
