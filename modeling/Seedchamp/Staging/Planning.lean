import Seedchamp.Staging.Ingestion
import Mathlib.Data.List.Nodup

/-!
The planning of requests. One call of `take_requests` fills the pieces that are staged, claims and
stages further ones, and stops at one of four limits; whatever the surroundings answer, what it hands
out is what became outstanding, and every claim is staged or given back.
-/

namespace Seedchamp.Staging.Planning
open Staging.PiecePool Staging.Pool Staging.Assembly Staging.Progress Staging.Ingestion

/-! ### One call -/

/-- What a call of `take_requests` meets. The freelist is read twice a turn, before `start_piece` and
in `try_start`, and other peers use it in between; `start_piece` may answer differently each turn. -/
structure Surroundings where
  capacity : Nat
  atCheck : Nat → Option PieceBufferPool
  atStart : Nat → Option PieceBufferPool
  startPiece : Nat → StagingPool → Option (Nat × Nat)
  mayRequestPiece : Nat → Bool

/-- The pool as the call leaves it, the requests it returns, and in order the pieces that
`start_piece` claimed and that were staged, with the lengths it gave, and those that `abort_start`
gave back; `last` is the turn in which the call returned. -/
structure Plan where
  staging : StagingPool
  out : List Request
  claimed : List (Nat × Nat)
  started : List (Nat × Nat)
  aborted : List Nat
  last : Nat
  deriving DecidableEq

/-- What the rest of a call adds to what its first turn did. -/
def Plan.after (plan : Plan) (out : List Request) (piece : Nat × Nat) : Plan :=
  { plan with
    out := out ++ plan.out
    claimed := piece :: plan.claimed
    started := piece :: plan.started }

/-- `free_slots`; `can_start_more` asks whether it is positive. -/
def freeSlots (shared : Option PieceBufferPool) : Nat := (shared.map PieceBufferPool.available).getD 0

/-- How a turn of the outer loop ends: the call returns, or it goes on behind a piece it staged. -/
inductive Turn where
  | returns (plan : Plan)
  | goesOn (staging : StagingPool) (out : List Request) (piece : Nat × Nat)

/-- The end of a turn that `start_piece` gave a piece: stage it, and request its first block unless
the turn requested blocks before. -/
def stagePiece (shared : Option PieceBufferPool) (turn : Nat) (filled : List Request × StagingPool)
    (index plen : Nat) : Turn :=
  if filled.2.contains index then .returns ⟨filled.2, filled.1, [(index, plen)], [], [], turn⟩
  else
    let started := filled.2.tryStart shared index plen
    if started.1 = false then .returns ⟨started.2.1, filled.1, [(index, plen)], [], [index], turn⟩
    else if filled.1.isEmpty = false then .goesOn started.2.1 filled.1 (index, plen)
    else
      match started.2.1.requestNext index with
      | none => .returns ⟨started.2.1, filled.1, [(index, plen)], [(index, plen)], [], turn⟩
      | some (request, next) => .goesOn next (filled.1 ++ [request]) (index, plen)

/-- A turn from the pass over the staged pieces on. -/
def claimPiece (around : Surroundings) (pipeline maxPieces turn : Nat)
    (filled : List Request × StagingPool) : Turn :=
  if pipeline ≤ filled.2.totalOutstanding then .returns ⟨filled.2, filled.1, [], [], [], turn⟩
  else if freeSlots (around.atCheck turn) = 0 ∨ maxPieces ≤ filled.2.len then
    .returns ⟨filled.2, filled.1, [], [], [], turn⟩
  else
    match around.startPiece turn filled.2 with
    | none => .returns ⟨filled.2, filled.1, [], [], [], turn⟩
    | some (index, plen) => stagePiece (around.atStart turn) turn filled index plen

def planTurn (around : Surroundings) (pipeline maxPieces turn : Nat) (staging : StagingPool) : Turn :=
  if pipeline ≤ staging.totalOutstanding then .returns ⟨staging, [], [], [], [], turn⟩
  else
    claimPiece around pipeline maxPieces turn
      (staging.fillExisting pipeline around.mayRequestPiece staging.indices)

/-- The outer loop of `take_requests`, with so many turns left. -/
def planLoop (around : Surroundings) (pipeline maxPieces : Nat) : Nat → Nat → StagingPool → Plan
  | 0, turn, staging => ⟨staging, [], [], [], [], turn⟩
  | left + 1, turn, staging =>
    match planTurn around pipeline maxPieces turn staging with
    | .returns plan => plan
    | .goesOn next out piece =>
      (planLoop around pipeline maxPieces left (turn + 1) next).after out piece

def PIPE_REFILL_DIV : Nat := 2

/-- The largest allocation in bytes, and the size of one `(u32, u32, u32)`. -/
def isizeMax : Nat := 2 ^ 63 - 1
def requestSize : Nat := 12

/-- Queue block requests until `pipeline` are outstanding; `none` where the list of requests cannot
be allocated or the bound of the loop overflows. -/
def takeRequests (around : Surroundings) (staging : StagingPool) (pipeline : Nat) (endgame : Bool) :
    Option Plan :=
  let pipeline := max pipeline 1
  let lowWater := max (pipeline / PIPE_REFILL_DIV) 1
  if endgame = false ∧ lowWater < staging.totalOutstanding then some ⟨staging, [], [], [], [], 0⟩
  else
    let maxPieces := maxAssemblingPieces pipeline staging.pieceLength around.capacity
    if isizeMax < (pipeline - staging.totalOutstanding) * requestSize then none
    else if 2 ^ 64 ≤ pipeline * 4 + staging.slots.length + 8 then none
    else some (planLoop around pipeline maxPieces (pipeline * 4 + staging.slots.length + 8) 0 staging)

/-! ### What is outstanding and what was received -/

/-- The blocks of a piece for which the test on (received, requested) holds. -/
def blocksWhere (test : Bool → Bool → Bool) (piece : ActivePiece) : List (Nat × Nat) :=
  ((List.range piece.have_.length).filter fun i =>
      test (piece.have_.getD i false) (piece.requested.getD i false)).map fun i =>
    (i * BLOCK_SIZE, blockLen piece.length i)

def slotBlocks (test : Bool → Bool → Bool) : Slot → List Request
  | .assembling piece _ => (blocksWhere test piece).map fun block => (piece.index, block)
  | .hashing _ => []

def outstanding (got asked : Bool) : Bool := !got && asked

def arrived (got _asked : Bool) : Bool := got

/-- The blocks that are requested and have not arrived. -/
def outstandingList (staging : StagingPool) : List Request := staging.slots.flatMap (slotBlocks outstanding)

/-- The blocks that arrived. -/
def receivedList (staging : StagingPool) : List Request := staging.slots.flatMap (slotBlocks arrived)

/-- The pieces being assembled, with their lengths. -/
def slotPiece : Slot → Option (Nat × Nat)
  | .assembling piece _ => some (piece.index, piece.length)
  | .hashing _ => none

def pieceList (staging : StagingPool) : List (Nat × Nat) := staging.slots.filterMap slotPiece

/-- The block of a request, without its length. -/
def blockOf (request : Request) : Nat × Nat := (request.1, request.2.1)

/-! ### Reachable pools -/

/-- The pools of a session, through every operation on them. -/
inductive Reachable : StagingPool → Prop where
  | empty (pieceLength : Nat) : Reachable (StagingPool.empty pieceLength)
  | fromPool (name : Nat) (shared : PieceBufferPool) : Reachable (StagingPool.fromPool name shared)
  | start (staging : StagingPool) (shared : Option PieceBufferPool) (index length : Nat)
      (before : Reachable staging) : Reachable (staging.tryStart shared index length).2.1
  | ingest (staging staging' : StagingPool) (index begin' : Nat) (data : Buffer) (complete : Bool)
      (before : Reachable staging)
      (taken : staging.ingestIfStaged index begin' data = .ok (some (complete, staging'))) :
      Reachable staging'
  | handOver (staging staging' : StagingPool) (shared shared' : Option PieceBufferPool) (index : Nat)
      (data : Buffer) (before : Reachable staging)
      (taken : staging.takeForHash shared index = some (data, staging', shared')) : Reachable staging'
  | reclaim (staging : StagingPool) (shared : Option PieceBufferPool) (index : Nat) (data : Buffer)
      (before : Reachable staging) : Reachable (staging.reclaim shared index data).1
  | clear (staging : StagingPool) (shared : Option PieceBufferPool) (before : Reachable staging) :
      Reachable (staging.clear shared).1
  | enableEndgame (staging : StagingPool) (before : Reachable staging) : Reachable staging.enableEndgame
  | requeueTimedOut (staging : StagingPool) (before : Reachable staging) :
      Reachable staging.requeueTimedOut
  | clearRequest (staging : StagingPool) (index begin' length : Nat) (before : Reachable staging) :
      Reachable (staging.clearRequest index begin' length)
  | takeRequests (around : Surroundings) (staging : StagingPool) (pipeline : Nat) (endgame : Bool)
      (plan : Plan) (before : Reachable staging)
      (planned : takeRequests around staging pipeline endgame = some plan) : Reachable plan.staging

/-- A piece has as many blocks as its length needs, and its length is that of a piece. -/
def SlotFormed (size : Nat) : Slot → Prop
  | .assembling piece _ =>
    piece.have_.length = numBlocks piece.length ∧ 0 < piece.length ∧ piece.length ≤ size
  | .hashing _ => True

structure Formed (staging : StagingPool) : Prop where
  maxBlocks : staging.maxBlocks = numBlocks staging.pieceLength
  slots : ∀ slot ∈ staging.slots, SlotFormed staging.pieceLength slot
  distinct : staging.indices.Nodup

/-! ### The lists of blocks -/

theorem zip_eq_map_range (have_ requested : List Bool) (paired : requested.length = have_.length) :
    have_.zip requested =
      (List.range have_.length).map fun i => (have_.getD i false, requested.getD i false) := by
  apply List.ext_getElem
  · rw [List.length_zip, List.length_map, List.length_range, paired, Nat.min_self]
  · intro i inside inside'
    rw [List.length_map, List.length_range] at inside'
    rw [List.getElem_zip, List.getElem_map, List.getElem_range, List.getD_eq_getElem?_getD,
      List.getD_eq_getElem?_getD, List.getElem?_eq_getElem inside',
      List.getElem?_eq_getElem (by omega)]
    rfl

theorem outstandingRequests_eq (piece : ActivePiece) :
    piece.outstandingRequests = (blocksWhere outstanding piece).length := by
  rw [ActivePiece.outstandingRequests, zip_eq_map_range piece.have_ piece.requested piece.paired,
    List.filter_map, List.length_map, blocksWhere, List.length_map]
  rfl

/-- `total_outstanding` counts the outstanding blocks. -/
theorem totalOutstanding_eq (staging : StagingPool) :
    staging.totalOutstanding = (outstandingList staging).length := by
  rw [StagingPool.totalOutstanding, outstandingList, List.length_flatMap]
  apply congrArg List.sum
  apply List.map_congr_left
  intro slot _
  cases slot with
  | assembling piece buf =>
    dsimp only
    rw [outstandingRequests_eq, slotBlocks, List.length_map]
  | hashing index => rfl

theorem mem_slotBlocks (test : Bool → Bool → Bool) (slot : Slot) (request : Request) :
    request ∈ slotBlocks test slot ↔ ∃ piece buf i, slot = .assembling piece buf ∧
      i < piece.have_.length ∧ test (piece.have_.getD i false) (piece.requested.getD i false) = true ∧
      request = (piece.index, i * BLOCK_SIZE, blockLen piece.length i) := by
  cases slot with
  | assembling piece buf =>
    simp only [slotBlocks, blocksWhere, List.map_map, List.mem_map, List.mem_filter, List.mem_range,
      Function.comp_apply]
    constructor
    · rintro ⟨i, ⟨inside, tested⟩, rfl⟩
      exact ⟨piece, buf, i, rfl, inside, tested, rfl⟩
    · rintro ⟨piece', buf', i, same, inside, tested, named⟩
      cases same
      exact ⟨i, ⟨inside, tested⟩, named.symm⟩
  | hashing index =>
    constructor
    · intro member
      cases member
    · rintro ⟨piece, buf, i, same, _⟩
      cases same

/-- A piece in a slot is the one that a lookup finds, where no index is assembled twice. -/
theorem find_of_mem (slots : List Slot) (distinct : (slots.filterMap slotIndex).Nodup)
    (piece : ActivePiece) (buf : Buffer) (member : .assembling piece buf ∈ slots) :
    slots.findSome? (Slot.piece piece.index) = some (piece, buf) := by
  induction slots with
  | nil => cases member
  | cons first rest ih =>
    rw [List.findSome?_cons]
    rcases List.mem_cons.1 member with here | later
    · rw [← here, Slot.piece, if_pos rfl]
    · cases first with
      | assembling other held =>
        rw [List.filterMap_cons] at distinct
        have split := List.nodup_cons.1 distinct
        have apart : other.index ≠ piece.index := by
          intro same
          apply split.1
          rw [List.mem_filterMap]
          exact ⟨_, later, congrArg some same.symm⟩
        rw [Slot.piece, if_neg apart]
        exact ih split.2 later
      | hashing index =>
        rw [List.filterMap_cons] at distinct
        exact ih distinct later

theorem range_filter_nodup (n : Nat) (p : Nat → Bool) : ((List.range n).filter p).Nodup :=
  List.nodup_range.filter p

theorem slotBlocks_nodup (test : Bool → Bool → Bool) (slot : Slot) :
    ((slotBlocks test slot).map blockOf).Nodup := by
  cases slot with
  | assembling piece buf =>
    rw [slotBlocks, blocksWhere, List.map_map, List.map_map]
    apply (range_filter_nodup _ _).map
    intro i j same
    have begins : i * BLOCK_SIZE = j * BLOCK_SIZE := (Prod.mk.injEq _ _ _ _ ▸ same).2
    exact Nat.eq_of_mul_eq_mul_right (by decide) begins
  | hashing index => exact List.nodup_nil

/-- No block is listed twice. -/
theorem blocks_nodup (test : Bool → Bool → Bool) (staging : StagingPool)
    (distinct : staging.indices.Nodup) :
    ((staging.slots.flatMap (slotBlocks test)).map blockOf).Nodup := by
  rw [List.map_flatMap, List.nodup_flatMap]
  refine ⟨fun slot _ => slotBlocks_nodup test slot, ?_⟩
  rw [indices_eq] at distinct
  refine (List.pairwise_filterMap.1 distinct).imp ?_
  intro first second apart block inFirst inSecond
  obtain ⟨one, oneIn, rfl⟩ := List.mem_map.1 inFirst
  obtain ⟨other, otherIn, same⟩ := List.mem_map.1 inSecond
  obtain ⟨piece, buf, i, rfl, _, _, rfl⟩ := (mem_slotBlocks test first one).1 oneIn
  obtain ⟨piece', buf', j, rfl, _, _, rfl⟩ := (mem_slotBlocks test second other).1 otherIn
  have indices : piece'.index = piece.index := congrArg Prod.fst same
  exact apart piece.index rfl piece'.index rfl indices.symm

/-- A block that arrived is not outstanding. -/
theorem arrived_not_outstanding (staging : StagingPool) (distinct : staging.indices.Nodup)
    (got asked : Request) (gotIn : got ∈ receivedList staging) (askedIn : asked ∈ outstandingList staging) :
    blockOf got ≠ blockOf asked := by
  intro same
  obtain ⟨slot, member, listed⟩ := List.mem_flatMap.1 gotIn
  obtain ⟨slot', member', listed'⟩ := List.mem_flatMap.1 askedIn
  obtain ⟨piece, buf, i, rfl, _, has, rfl⟩ := (mem_slotBlocks _ _ _).1 listed
  obtain ⟨piece', buf', j, rfl, _, lacks, rfl⟩ := (mem_slotBlocks _ _ _).1 listed'
  have indices : piece.index = piece'.index := congrArg Prod.fst same
  have begins : i * BLOCK_SIZE = j * BLOCK_SIZE := congrArg Prod.snd same
  have blocks := Nat.eq_of_mul_eq_mul_right (by decide) begins
  have first := find_of_mem staging.slots distinct piece buf member
  have second := find_of_mem staging.slots distinct piece' buf' member'
  rw [indices, second] at first
  cases first
  subst blocks
  rw [arrived] at has
  rw [outstanding, has] at lacks
  cases lacks

/-- The pool that a turn leaves is formed. -/
def Turn.FormedEnd : Turn → Prop
  | .returns plan => Formed plan.staging
  | .goesOn staging _ _ => Formed staging

/-! ### Every operation keeps pools formed -/

theorem numBlocks_mono (length size : Nat) (fits : length ≤ size) : numBlocks length ≤ numBlocks size := by
  unfold numBlocks BLOCK_SIZE
  omega

theorem formed_open (index length size : Nat) (buf : Buffer) (some_byte : 0 < length)
    (fits : length ≤ size) :
    SlotFormed size (.assembling (ActivePiece.open' index length (numBlocks size)) buf) := by
  refine ⟨?_, some_byte, fits⟩
  have fewer := numBlocks_mono length size fits
  change ((List.replicate (numBlocks size) false).take (numBlocks length)).length = numBlocks length
  rw [List.length_take, List.length_replicate]
  omega

/-- What an update of a piece keeps. -/
structure Alike (piece piece' : ActivePiece) : Prop where
  index : piece'.index = piece.index
  length : piece'.length = piece.length
  blocks : piece'.have_.length = piece.have_.length

theorem alike_clearRequest (piece : ActivePiece) (begin' length : Nat) :
    Alike piece (piece.clearRequest begin' length).2 := by
  unfold ActivePiece.clearRequest
  dsimp only
  split_ifs <;> exact ⟨rfl, rfl, rfl⟩

theorem alike_ingest (piece piece' : ActivePiece) (buf buf' : Buffer) (begin' : Nat) (data : Buffer)
    (complete : Bool) (ok : piece.ingest buf begin' data = .ok (piece', buf', complete)) :
    Alike piece piece' := by
  unfold ActivePiece.ingest ActivePiece.markRangeHave at ok
  split_ifs at ok
  all_goals cases ok
  all_goals exact ⟨rfl, rfl, by simp only [List.length_mapIdx]⟩

theorem alike_nextRequest (piece piece' : ActivePiece) (request : Nat × Nat)
    (next : piece.nextRequest = some (request, piece')) : Alike piece piece' := by
  obtain ⟨block, _, same⟩ := Option.map_eq_some_iff.1 next
  cases same
  exact ⟨rfl, rfl, rfl⟩

theorem formed_empty (pieceLength : Nat) : Formed (StagingPool.empty pieceLength) :=
  ⟨rfl, fun _ none' => absurd none' List.not_mem_nil, List.nodup_nil⟩

theorem formed_fromPool (name : Nat) (shared : PieceBufferPool) :
    Formed (StagingPool.fromPool name shared) :=
  ⟨rfl, fun _ none' => absurd none' List.not_mem_nil, List.nodup_nil⟩

section
variable (staging : StagingPool) (formed : Formed staging)
include formed

theorem formed_withPiece (index : Nat) (piece piece' : ActivePiece) (buf buf' : Buffer)
    (found : staging.findAssembling index = some (piece, buf)) (alike : Alike piece piece') :
    Formed (staging.withPiece index piece' buf') := by
  have named := (findAssembling_some staging index piece buf found).1
  refine ⟨formed.maxBlocks, ?_, ?_⟩
  · intro slot member
    rcases mem_replaceFirst index slot _ staging.slots member with new | old
    · obtain ⟨sized, positive, short⟩ := formed.slots _ (findAssembling_mem staging index piece buf found)
      rw [new]
      refine ⟨?_, ?_, ?_⟩
      · rw [alike.blocks, alike.length, sized]
      · rw [alike.length]
        exact positive
      · rw [alike.length]
        exact short
    · exact formed.slots slot old
  · rw [indices_withPiece staging index piece' buf' (alike.index.trans named)]
    exact formed.distinct

theorem formed_mapPieces (update : ActivePiece → ActivePiece) (alike : ∀ piece, Alike piece (update piece)) :
    Formed (staging.mapPieces update) := by
  refine ⟨formed.maxBlocks, ?_, ?_⟩
  · intro slot member
    obtain ⟨old, inside, rfl⟩ := List.mem_map.1 member
    have before := formed.slots old inside
    cases old with
    | assembling piece buf =>
      obtain ⟨sized, positive, short⟩ := before
      change (update piece).have_.length = numBlocks (update piece).length ∧ 0 < (update piece).length ∧
        (update piece).length ≤ staging.pieceLength
      rw [(alike piece).blocks, (alike piece).length]
      exact ⟨sized, positive, short⟩
    | hashing index => trivial
  · rw [indices_mapPieces staging update fun piece => (alike piece).index]
    exact formed.distinct

/-- A slot list that is a part of the old one. -/
theorem formed_filter (keep : Slot → Bool) :
    Formed { staging with slots := staging.slots.filter keep } := by
  refine ⟨formed.maxBlocks, fun slot member => formed.slots slot (List.mem_of_mem_filter member), ?_⟩
  have sublist := (List.filter_sublist (p := keep) (l := staging.slots)).filterMap slotIndex
  exact formed.distinct.sublist sublist

theorem formed_tryStart (shared : Option PieceBufferPool) (index length : Nat) :
    Formed (staging.tryStart shared index length).2.1 := by
  rcases tryStart_appends staging shared index length with
    unchanged | ⟨absent, some_byte, fits, pool, buf, _, _, appended⟩
  · rw [unchanged]
    exact formed
  · rw [appended]
    refine ⟨formed.maxBlocks, ?_, ?_⟩
    · intro slot member
      rcases List.mem_append.1 member with old | new
      · exact formed.slots slot old
      · rw [List.mem_singleton.1 new, formed.maxBlocks]
        exact formed_open index length staging.pieceLength buf some_byte fits
    · rw [indices_eq, List.filterMap_append]
      change (staging.indices ++ [index]).Nodup
      rw [List.nodup_append]
      refine ⟨formed.distinct, List.nodup_singleton index, ?_⟩
      intro old member new single
      rw [List.mem_singleton.1 single]
      intro same
      have held := contains_of_mem staging index (same ▸ member)
      rw [absent] at held
      cases held

theorem formed_ingest (staging' : StagingPool) (index begin' : Nat) (data : Buffer) (complete : Bool)
    (taken : staging.ingestIfStaged index begin' data = .ok (some (complete, staging'))) :
    Formed staging' := by
  unfold StagingPool.ingestIfStaged at taken
  split at taken
  · cases taken
  · rename_i piece buf found
    split at taken
    · cases taken
    · rename_i piece' buf' complete' ingested
      cases taken
      exact formed_withPiece staging formed index piece piece' buf buf' found
        (alike_ingest piece piece' buf buf' begin' data _ ingested)

theorem formed_handOver (staging' : StagingPool) (shared shared' : Option PieceBufferPool)
    (index : Nat) (data : Buffer)
    (taken : staging.takeForHash shared index = some (data, staging', shared')) : Formed staging' := by
  unfold StagingPool.takeForHash at taken
  split at taken
  · rename_i position piece buf located found
    cases taken
    obtain ⟨inside, assembles⟩ := List.findIdx?_eq_some_iff_getElem.1 located
    have here : staging.slots[position]? = some staging.slots[position] := List.getElem?_eq_getElem inside
    have moved := (Conservation.swapRemove_perm staging.slots position _ here).filterMap slotIndex
    refine ⟨formed.maxBlocks, ?_, ?_⟩
    · intro slot member
      rcases List.mem_append.1 member with old | new
      · exact formed.slots slot (mem_swapRemove _ _ _ old)
      · rw [List.mem_singleton.1 new]
        trivial
    · rw [indices_eq, List.filterMap_append]
      change ((swapRemove staging.slots position).filterMap slotIndex ++ []).Nodup
      rw [List.append_nil]
      have kept := formed.distinct
      rw [indices_eq, moved.nodup_iff, List.filterMap_cons,
        (assembles_iff _ index).1 assembles.1] at kept
      exact (List.nodup_cons.1 kept).2
  · cases taken

theorem formed_requestNext (staging' : StagingPool) (index : Nat) (request : Request)
    (next : staging.requestNext index = some (request, staging')) : Formed staging' := by
  unfold StagingPool.requestNext at next
  split at next
  · cases next
  · rename_i piece buf found
    obtain ⟨⟨block, piece'⟩, ask, result⟩ := Option.map_eq_some_iff.1 next
    cases result
    exact formed_withPiece staging formed index piece piece' buf buf found
      (alike_nextRequest piece piece' block ask)

theorem formed_clearRequest (index begin' length : Nat) :
    Formed (staging.clearRequest index begin' length) := by
  unfold StagingPool.clearRequest
  split
  · rename_i piece buf found
    exact formed_withPiece staging formed index piece _ buf buf found
      (alike_clearRequest piece begin' length)
  · exact formed

theorem formed_fillPiece (pipeline index fuel : Nat) :
    Formed (StagingPool.fillPiece pipeline index fuel staging).2 := by
  induction fuel generalizing staging with
  | zero => exact formed
  | succ fuel ih =>
    rw [StagingPool.fillPiece]
    split_ifs
    · split
      · exact formed
      · rename_i request next found
        exact ih next (formed_requestNext staging formed next index request found)
    · exact formed

theorem formed_fillExisting (pipeline : Nat) (mayRequestPiece : Nat → Bool) (order : List Nat) :
    Formed (StagingPool.fillExisting pipeline mayRequestPiece order staging).2 := by
  induction order generalizing staging with
  | nil => exact formed
  | cons index rest ih =>
    rw [StagingPool.fillExisting]
    dsimp only
    split_ifs
    · exact formed_fillPiece staging formed pipeline index pipeline
    · exact ih _ (formed_fillPiece staging formed pipeline index pipeline)
    · exact ih staging formed

theorem formed_stagePiece (shared : Option PieceBufferPool) (turn : Nat) (out : List Request)
    (index plen : Nat) : Turn.FormedEnd (stagePiece shared turn (out, staging) index plen) := by
  have started := formed_tryStart staging formed shared index plen
  rw [stagePiece]
  dsimp only
  split_ifs
  · exact formed
  · exact started
  · exact started
  · split
    · exact started
    · rename_i request next found
      exact formed_requestNext _ started next index request found

theorem formed_planTurn (around : Surroundings) (pipeline maxPieces turn : Nat) :
    Turn.FormedEnd (planTurn around pipeline maxPieces turn staging) := by
  have filled := formed_fillExisting staging formed pipeline around.mayRequestPiece staging.indices
  rw [planTurn]
  split_ifs
  · exact formed
  · rw [claimPiece]
    split_ifs
    · exact filled
    · exact filled
    · split
      · exact filled
      · rename_i index plen _
        exact formed_stagePiece _ filled (around.atStart turn) turn _ index plen

theorem formed_planLoop (around : Surroundings) (pipeline maxPieces left turn : Nat) :
    Formed (planLoop around pipeline maxPieces left turn staging).staging := by
  induction left generalizing turn staging with
  | zero => exact formed
  | succ left ih =>
    have ends := formed_planTurn staging formed around pipeline maxPieces turn
    rw [planLoop]
    cases turned : planTurn around pipeline maxPieces turn staging with
    | returns plan =>
      rw [turned] at ends
      exact ends
    | goesOn next out index =>
      rw [turned] at ends
      exact ih next ends (turn + 1)

theorem formed_takeRequests (around : Surroundings) (pipeline : Nat) (endgame : Bool) (plan : Plan)
    (planned : takeRequests around staging pipeline endgame = some plan) : Formed plan.staging := by
  unfold takeRequests at planned
  dsimp only at planned
  split_ifs at planned
  · cases planned
    exact formed
  · cases planned
    exact formed_planLoop staging formed around _ _ _ _

end

theorem reachable_formed (staging : StagingPool) (reachable : Reachable staging) : Formed staging := by
  induction reachable with
  | empty pieceLength => exact formed_empty pieceLength
  | fromPool name shared => exact formed_fromPool name shared
  | start staging shared index length _ ih => exact formed_tryStart staging ih shared index length
  | ingest staging staging' index begin' data complete _ taken ih =>
    exact formed_ingest staging ih staging' index begin' data complete taken
  | handOver staging staging' shared shared' index data _ taken ih =>
    exact formed_handOver staging ih staging' shared shared' index data taken
  | reclaim staging shared index data _ ih => exact formed_filter staging ih _
  | clear staging shared _ ih => exact formed_filter staging ih _
  | enableEndgame staging _ ih => exact formed_mapPieces staging ih _ fun _ => ⟨rfl, rfl, rfl⟩
  | requeueTimedOut staging _ ih => exact formed_mapPieces staging ih _ fun _ => ⟨rfl, rfl, rfl⟩
  | clearRequest staging index begin' length _ ih =>
    exact formed_clearRequest staging ih index begin' length
  | takeRequests around staging pipeline endgame plan _ planned ih =>
    exact formed_takeRequests staging ih around pipeline endgame plan planned

/-! ### What a fill does -/

/-- Requests that are handed out: just the blocks that became outstanding, of allowed pieces. -/
structure Plans (may : Nat → Bool) (before : StagingPool) (out : List Request) (after : StagingPool) :
    Prop where
  received : receivedList after = receivedList before
  outstanding : (outstandingList after).Perm (outstandingList before ++ out)
  allowed : ∀ request ∈ out, may request.1 = true

theorem plans_refl (may : Nat → Bool) (staging : StagingPool) : Plans may staging [] staging :=
  ⟨rfl, by rw [List.append_nil], fun _ none' => absurd none' List.not_mem_nil⟩

theorem plans_trans (may : Nat → Bool) (first second third : StagingPool) (out more : List Request)
    (one : Plans may first out second) (two : Plans may second more third) :
    Plans may first (out ++ more) third where
  received := two.received.trans one.received
  outstanding := by
    rw [← List.append_assoc]
    exact two.outstanding.trans (one.outstanding.append_right more)
  allowed := by
    intro request member
    rcases List.mem_append.1 member with early | late
    · exact one.allowed request early
    · exact two.allowed request late

theorem plans_total (may : Nat → Bool) (before after : StagingPool) (out : List Request)
    (plans : Plans may before out after) :
    after.totalOutstanding = before.totalOutstanding + out.length := by
  rw [totalOutstanding_eq, totalOutstanding_eq, plans.outstanding.length_eq, List.length_append]

/-- One index more passes the test. -/
theorem filter_range_insert (n i : Nat) (p p' : Nat → Bool) (inside : i < n) (fresh : p i = false)
    (now : p' i = true) (others : ∀ j, j ≠ i → p' j = p j) :
    ((List.range n).filter p').Perm ((List.range n).filter p ++ [i]) := by
  rw [List.perm_ext_iff_of_nodup (range_filter_nodup n p')]
  · intro j
    rw [List.mem_append, List.mem_singleton, List.mem_filter, List.mem_filter, List.mem_range]
    by_cases same : j = i
    · subst same
      simp only [inside, now, true_and, or_true]
    · rw [others j same]
      simp only [same, or_false]
  · rw [List.nodup_append]
    refine ⟨range_filter_nodup n p, List.nodup_singleton i, ?_⟩
    intro j member k single
    rw [List.mem_singleton.1 single]
    intro same
    rw [same, List.mem_filter, fresh] at member
    exact absurd member.2 Bool.false_ne_true

/-- The piece behind one request: one block more is outstanding, none has arrived. -/
theorem nextRequest_blocks (piece piece' : ActivePiece) (buf : Buffer) (block : Nat × Nat)
    (next : piece.nextRequest = some (block, piece')) :
    (slotBlocks outstanding (.assembling piece' buf)).Perm
        (slotBlocks outstanding (.assembling piece buf) ++ [(piece.index, block)]) ∧
      slotBlocks arrived (.assembling piece' buf) = slotBlocks arrived (.assembling piece buf) := by
  unfold ActivePiece.nextRequest ActivePiece.nextBlock at next
  obtain ⟨i, found, same⟩ := Option.map_eq_some_iff.1 next
  have free := List.find?_some found
  have inside := List.mem_range.1 (List.mem_of_find?_eq_some found)
  rw [Bool.and_eq_true, Bool.not_eq_true', Bool.not_eq_true'] at free
  cases same
  refine ⟨?_, rfl⟩
  have grown := filter_range_insert piece.have_.length i
    (fun j => outstanding (piece.have_.getD j false) (piece.requested.getD j false))
    (fun j => outstanding (piece.have_.getD j false) ((piece.requested.set i true).getD j false))
    inside (by rw [outstanding, free.2, Bool.and_false])
    (by
      have room : i < piece.requested.length := by
        rw [piece.paired]
        exact inside
      rw [outstanding, free.1, List.getD_eq_getElem?_getD, List.getElem?_set_self room]
      rfl)
    (by
      intro j apart
      have untouched : (piece.requested.set i true).getD j false = piece.requested.getD j false := by
        rw [List.getD_eq_getElem?_getD, List.getElem?_set_ne (fun equal => apart equal.symm),
          List.getD_eq_getElem?_getD]
      rw [untouched])
  have named := (grown.map fun j => (j * BLOCK_SIZE, blockLen piece.length j)).map
    fun block => (piece.index, block)
  rw [List.map_append, List.map_append] at named
  exact named

theorem requestNext_plans (may : Nat → Bool) (staging staging' : StagingPool) (index : Nat)
    (request : Request) (allowed : may index = true)
    (next : staging.requestNext index = some (request, staging')) :
    Plans may staging [request] staging' := by
  have named := (requestNext_some staging staging' index request next).1
  unfold StagingPool.requestNext at next
  split at next
  · cases next
  · rename_i piece buf found
    obtain ⟨⟨⟨begin', len⟩, piece'⟩, ask, result⟩ := Option.map_eq_some_iff.1 next
    have same := (findAssembling_some staging index piece buf found).1
    cases result
    obtain ⟨front, back, split, _, replaced⟩ := split_first index piece buf staging.slots found
    obtain ⟨more, unchanged⟩ := nextRequest_blocks piece piece' buf (begin', len) ask
    have slots : (staging.withPiece index piece' buf).slots = front ++ .assembling piece' buf :: back :=
      replaced _
    refine ⟨?_, ?_, ?_⟩
    · rw [receivedList, receivedList, slots, split, List.flatMap_append, List.flatMap_append,
        List.flatMap_cons, List.flatMap_cons, unchanged]
    · rw [outstandingList, outstandingList, slots, split, List.flatMap_append, List.flatMap_append,
        List.flatMap_cons, List.flatMap_cons, ← same]
      rw [List.perm_iff_count]
      intro one
      have counted := more.count_eq one
      simp only [List.count_append] at counted ⊢
      omega
    · intro one member
      rw [List.mem_singleton.1 member]
      exact allowed

/-- A piece that was just opened adds no block to either list. -/
theorem slotBlocks_open (test : Bool → Bool → Bool) (quiet : test false false = false)
    (index length maxBlocks : Nat) (buf : Buffer) :
    slotBlocks test (.assembling (ActivePiece.open' index length maxBlocks) buf) = [] := by
  have clear : ∀ i, ((List.replicate maxBlocks false).take (numBlocks length)).getD i false = false := by
    intro i
    rw [List.getD_eq_getElem?_getD]
    cases found : ((List.replicate maxBlocks false).take (numBlocks length))[i]? with
    | none => rfl
    | some flag => exact List.eq_of_mem_replicate (List.mem_of_mem_take (List.mem_of_getElem? found))
  rw [slotBlocks, blocksWhere, List.map_eq_nil_iff, List.map_eq_nil_iff, List.filter_eq_nil_iff]
  intro i _ tested
  change test (((List.replicate maxBlocks false).take (numBlocks length)).getD i false)
    (((List.replicate maxBlocks false).take (numBlocks length)).getD i false) = true at tested
  rw [clear i, quiet] at tested
  cases tested

theorem tryStart_plans (may : Nat → Bool) (staging : StagingPool) (shared : Option PieceBufferPool)
    (index length : Nat) : Plans may staging [] (staging.tryStart shared index length).2.1 := by
  rcases tryStart_appends staging shared index length with
    unchanged | ⟨_, _, _, pool, buf, _, _, appended⟩
  · rw [unchanged]
    exact plans_refl may staging
  · rw [appended]
    refine ⟨?_, ?_, fun _ none' => absurd none' List.not_mem_nil⟩
    · rw [receivedList, receivedList, List.flatMap_append, List.flatMap_singleton,
        slotBlocks_open arrived rfl, List.append_nil]
    · rw [outstandingList, outstandingList, List.flatMap_append, List.flatMap_singleton,
        slotBlocks_open outstanding rfl]

theorem fillPiece_plans (may : Nat → Bool) (pipeline index fuel : Nat) (allowed : may index = true)
    (staging : StagingPool) :
    Plans may staging (StagingPool.fillPiece pipeline index fuel staging).1
      (StagingPool.fillPiece pipeline index fuel staging).2 := by
  induction fuel generalizing staging with
  | zero => exact plans_refl may staging
  | succ fuel ih =>
    rw [StagingPool.fillPiece]
    split_ifs
    · split
      · exact plans_refl may staging
      · rename_i request next found
        exact plans_trans may staging next _ [request] _
          (requestNext_plans may staging next index request allowed found) (ih next)
    · exact plans_refl may staging

theorem fillExisting_plans (may : Nat → Bool) (pipeline : Nat) (order : List Nat)
    (staging : StagingPool) :
    Plans may staging (StagingPool.fillExisting pipeline may order staging).1
      (StagingPool.fillExisting pipeline may order staging).2 := by
  induction order generalizing staging with
  | nil => exact plans_refl may staging
  | cons index rest ih =>
    rw [StagingPool.fillExisting]
    dsimp only
    split_ifs with allowed
    · exact fillPiece_plans may pipeline index pipeline allowed staging
    · exact plans_trans may staging _ _ _ _
        (fillPiece_plans may pipeline index pipeline allowed staging) (ih _)
    · exact ih staging

theorem fillPiece_bounded (pipeline index fuel : Nat) (staging : StagingPool) :
    (StagingPool.fillPiece pipeline index fuel staging).2.totalOutstanding ≤
      max staging.totalOutstanding pipeline := by
  induction fuel generalizing staging with
  | zero => exact Nat.le_max_left _ _
  | succ fuel ih =>
    rw [StagingPool.fillPiece]
    split_ifs with room
    · split
      · exact Nat.le_max_left _ _
      · rename_i request next found
        have grown := requestNext_outstanding staging next index request found
        have later := ih next
        dsimp only
        omega
    · exact Nat.le_max_left _ _

theorem fillExisting_bounded (may : Nat → Bool) (pipeline : Nat) (order : List Nat)
    (staging : StagingPool) :
    (StagingPool.fillExisting pipeline may order staging).2.totalOutstanding ≤
      max staging.totalOutstanding pipeline := by
  induction order generalizing staging with
  | nil => exact Nat.le_max_left _ _
  | cons index rest ih =>
    rw [StagingPool.fillExisting]
    dsimp only
    have one := fillPiece_bounded pipeline index pipeline staging
    split_ifs
    · exact one
    · have more := ih (StagingPool.fillPiece pipeline index pipeline staging).2
      dsimp only
      omega
    · exact ih staging

/-! ### Pieces that have nothing left to request -/

/-- A request for another piece leaves a finished one finished. -/
theorem requestNext_none_stays (staging staging' : StagingPool) (index other : Nat) (request : Request)
    (stuck : staging.requestNext index = none)
    (next : staging.requestNext other = some (request, staging')) :
    staging'.requestNext index = none := by
  have apart : index ≠ other := by
    intro same
    rw [same, next] at stuck
    cases stuck
  unfold StagingPool.requestNext at next
  split at next
  · cases next
  · rename_i piece buf found
    obtain ⟨⟨block, piece'⟩, ask, result⟩ := Option.map_eq_some_iff.1 next
    cases result
    have named := (alike_nextRequest piece piece' block ask).index.trans
      (findAssembling_some staging other piece buf found).1
    have lookup := findAssembling_withPiece staging other index piece piece' buf buf named found
    rw [if_neg apart] at lookup
    rw [StagingPool.requestNext] at stuck ⊢
    rw [lookup]
    cases located : staging.findAssembling index with
    | none => rfl
    | some slot =>
      rw [located] at stuck
      obtain ⟨piece, buf⟩ := slot
      dsimp only at stuck ⊢
      rw [Option.map_eq_none_iff] at stuck
      rw [stuck]
      rfl

theorem fillPiece_none_stays (pipeline index other fuel : Nat) (staging : StagingPool)
    (stuck : staging.requestNext index = none) :
    (StagingPool.fillPiece pipeline other fuel staging).2.requestNext index = none := by
  induction fuel generalizing staging with
  | zero => exact stuck
  | succ fuel ih =>
    rw [StagingPool.fillPiece]
    split_ifs
    · split
      · exact stuck
      · rename_i request next found
        exact ih next (requestNext_none_stays staging next index other request stuck found)
    · exact stuck

theorem fillExisting_none_stays (may : Nat → Bool) (pipeline index : Nat) (order : List Nat)
    (staging : StagingPool) (stuck : staging.requestNext index = none) :
    (StagingPool.fillExisting pipeline may order staging).2.requestNext index = none := by
  induction order generalizing staging with
  | nil => exact stuck
  | cons other rest ih =>
    have one := fillPiece_none_stays pipeline index other pipeline staging stuck
    rw [StagingPool.fillExisting]
    dsimp only
    split_ifs
    · exact one
    · exact ih _ one
    · exact ih staging stuck

/-- Where the pipeline is not full behind the pass, every allowed piece has nothing left. -/
theorem fillExisting_ends (may : Nat → Bool) (pipeline : Nat) (order : List Nat)
    (staging : StagingPool)
    (room : (StagingPool.fillExisting pipeline may order staging).2.totalOutstanding < pipeline)
    (index : Nat) (member : index ∈ order) (allowed : may index = true) :
    (StagingPool.fillExisting pipeline may order staging).2.requestNext index = none := by
  induction order generalizing staging with
  | nil => cases member
  | cons first rest ih =>
    rw [StagingPool.fillExisting] at room ⊢
    dsimp only at room ⊢
    by_cases firstAllowed : may first = true
    · rw [if_pos firstAllowed] at room ⊢
      by_cases full : pipeline ≤
          (StagingPool.fillPiece pipeline first pipeline staging).2.totalOutstanding
      · rw [if_pos full] at room
        omega
      · rw [if_neg full] at room ⊢
        rcases List.mem_cons.1 member with here | later
        · subst here
          rcases fillPiece_ends pipeline index pipeline staging (by omega) with filled | stuck
          · exact absurd filled full
          · exact fillExisting_none_stays may pipeline index rest _ stuck
        · exact ih _ room later
    · rw [if_neg firstAllowed] at room ⊢
      rcases List.mem_cons.1 member with here | later
      · exact absurd (here ▸ allowed) firstAllowed
      · exact ih staging room later

/-- Every allowed block of a staged piece that did not arrive is requested. -/
def AllRequested (may : Nat → Bool) (staging : StagingPool) : Prop :=
  ∀ piece buf, .assembling piece buf ∈ staging.slots → may piece.index = true →
    ∀ i, i < piece.have_.length → piece.have_.getD i false = false →
      piece.requested.getD i false = true

theorem allRequested_of_stuck (may : Nat → Bool) (staging : StagingPool)
    (distinct : staging.indices.Nodup)
    (stuck : ∀ index ∈ staging.indices, may index = true → staging.requestNext index = none) :
    AllRequested may staging := by
  intro piece buf member allowed i inside missing
  have found : staging.findAssembling piece.index = some (piece, buf) :=
    find_of_mem staging.slots distinct piece buf member
  have nothing := stuck piece.index (findAssembling_some staging _ piece buf found).2 allowed
  rw [StagingPool.requestNext, found] at nothing
  dsimp only at nothing
  unfold ActivePiece.nextRequest ActivePiece.nextBlock at nothing
  rw [Option.map_eq_none_iff, Option.map_eq_none_iff, List.find?_eq_none] at nothing
  have asked := nothing i (List.mem_range.2 inside)
  rw [missing, Bool.not_false, Bool.true_and, Bool.not_eq_true, Bool.not_eq_false'] at asked
  exact asked

/-! ### The pieces and their lengths -/

theorem indices_pieceList (staging : StagingPool) :
    staging.indices = (pieceList staging).map Prod.fst := by
  rw [indices_eq, pieceList, List.map_filterMap]
  congr 1
  funext slot
  cases slot with
  | _ => rfl

theorem pieceList_requestNext (staging staging' : StagingPool) (index : Nat) (request : Request)
    (next : staging.requestNext index = some (request, staging')) :
    pieceList staging' = pieceList staging := by
  unfold StagingPool.requestNext at next
  split at next
  · cases next
  · rename_i piece buf found
    obtain ⟨⟨block, piece'⟩, ask, result⟩ := Option.map_eq_some_iff.1 next
    have alike := alike_nextRequest piece piece' block ask
    cases result
    obtain ⟨front, back, split, _, replaced⟩ := split_first index piece buf staging.slots found
    have slots : (staging.withPiece index piece' buf).slots = front ++ .assembling piece' buf :: back :=
      replaced _
    have same : slotPiece (.assembling piece' buf) = slotPiece (.assembling piece buf) := by
      rw [slotPiece, slotPiece, alike.index, alike.length]
    rw [pieceList, pieceList, slots, split, List.filterMap_append, List.filterMap_append,
      List.filterMap_cons, List.filterMap_cons, same]

theorem pieceList_fillPiece (pipeline index fuel : Nat) (staging : StagingPool) :
    pieceList (StagingPool.fillPiece pipeline index fuel staging).2 = pieceList staging := by
  induction fuel generalizing staging with
  | zero => rfl
  | succ fuel ih =>
    rw [StagingPool.fillPiece]
    split_ifs
    · split
      · rfl
      · rename_i request next found
        exact (ih next).trans (pieceList_requestNext staging next index request found)
    · rfl

theorem pieceList_fillExisting (may : Nat → Bool) (pipeline : Nat) (order : List Nat)
    (staging : StagingPool) :
    pieceList (StagingPool.fillExisting pipeline may order staging).2 = pieceList staging := by
  induction order generalizing staging with
  | nil => rfl
  | cons index rest ih =>
    have one := pieceList_fillPiece pipeline index pipeline staging
    rw [StagingPool.fillExisting]
    dsimp only
    split_ifs
    · exact one
    · exact (ih _).trans one
    · exact ih staging

theorem pieceList_tryStart (staging : StagingPool) (shared : Option PieceBufferPool)
    (index length : Nat) (absent : staging.contains index = false)
    (started : (staging.tryStart shared index length).1 = true) :
    pieceList (staging.tryStart shared index length).2.1 = pieceList staging ++ [(index, length)] := by
  rcases tryStart_appends staging shared index length with
    unchanged | ⟨_, _, _, pool, buf, _, _, appended⟩
  · rcases tryStart_cases staging shared index length absent with ⟨_, grown, _⟩ | ⟨refused, _⟩
    · rw [unchanged] at grown
      have longer := congrArg List.length grown
      rw [List.length_append, List.length_singleton] at longer
      omega
    · rw [started] at refused
      cases refused
  · rw [appended, pieceList, List.filterMap_append]
    rfl

/-! ### The turns of the loop -/

/-- `start_piece` returns only pieces that are not staged and may be requested. -/
def Honest (around : Surroundings) : Prop :=
  ∀ turn staging index plen, around.startPiece turn staging = some (index, plen) →
    staging.contains index = false ∧ around.mayRequestPiece index = true

/-- Nothing further can be started: no buffer, the slot limit, `start_piece` has nothing, or its
piece was refused (an unusable length, or a freelist that other peers emptied) and given back. -/
def NothingStarts (around : Surroundings) (maxPieces : Nat) (plan : Plan) : Prop :=
  freeSlots (around.atCheck plan.last) = 0 ∨ maxPieces ≤ plan.staging.len ∨
  around.startPiece plan.last plan.staging = none ∨
  ∃ index plen, around.startPiece plan.last plan.staging = some (index, plen) ∧
    plan.aborted = [index] ∧
    (plen = 0 ∨ plan.staging.pieceLength < plen ∨
      (around.atStart plan.last).bind PieceBufferPool.tryAcquire = none)

/-- The laws of a call that went into its loop. -/
structure Lawful (around : Surroundings) (pipeline maxPieces : Nat) (before : StagingPool) (plan : Plan) :
    Prop where
  plans : Plans around.mayRequestPiece before plan.out plan.staging
  bounded : plan.staging.totalOutstanding ≤ max before.totalOutstanding pipeline
  pieces : pieceList plan.staging = pieceList before ++ plan.started
  limited : plan.started ≠ [] → plan.staging.len ≤ maxPieces
  claims : ∃ refused, plan.claimed = plan.started ++ refused ∧ refused.map Prod.fst = plan.aborted
  aborted : plan.aborted.length ≤ 1 ∧ ∀ index ∈ plan.aborted, plan.staging.contains index = false
  ends : pipeline ≤ plan.staging.totalOutstanding ∨
    AllRequested around.mayRequestPiece plan.staging ∧ NothingStarts around maxPieces plan

/-- A call that returns behind a pass over the staged pieces, without a claim. -/
theorem lawful_filled (around : Surroundings) (pipeline maxPieces turn : Nat) (before after : StagingPool)
    (out : List Request) (plans : Plans around.mayRequestPiece before out after)
    (bounded : after.totalOutstanding ≤ max before.totalOutstanding pipeline)
    (pieces : pieceList after = pieceList before)
    (ends : pipeline ≤ after.totalOutstanding ∨ AllRequested around.mayRequestPiece after ∧
      NothingStarts around maxPieces ⟨after, out, [], [], [], turn⟩) :
    Lawful around pipeline maxPieces before ⟨after, out, [], [], [], turn⟩ where
  plans := plans
  bounded := bounded
  pieces := by
    rw [List.append_nil]
    exact pieces
  limited := fun some_start => absurd rfl some_start
  claims := ⟨[], rfl, rfl⟩
  aborted := ⟨Nat.zero_le _, fun _ none' => absurd none' List.not_mem_nil⟩
  ends := ends

/-- Why a start is refused. -/
theorem tryStart_refused (staging : StagingPool) (shared : Option PieceBufferPool) (index length : Nat)
    (absent : staging.contains index = false)
    (refused : (staging.tryStart shared index length).1 = false) :
    length = 0 ∨ staging.pieceLength < length ∨ shared.bind PieceBufferPool.tryAcquire = none := by
  unfold StagingPool.tryStart at refused
  rw [absent, if_neg Bool.false_ne_true] at refused
  split_ifs at refused with unusable
  · exact unusable.imp id Or.inl
  · refine Or.inr (Or.inr ?_)
    cases shared with
    | none => rfl
    | some pool =>
      dsimp only at refused
      rw [Option.bind_some]
      cases acquired : pool.tryAcquire with
      | none => rfl
      | some taken =>
        rw [acquired] at refused
        cases refused

/-- A piece that was just staged has a block to request. -/
theorem requestNext_staged (staging : StagingPool) (shared : Option PieceBufferPool)
    (index length : Nat) (maxBlocks : staging.maxBlocks = numBlocks staging.pieceLength)
    (absent : staging.contains index = false)
    (started : (staging.tryStart shared index length).1 = true) :
    ∃ request next, (staging.tryStart shared index length).2.1.requestNext index = some (request, next) := by
  rcases tryStart_appends staging shared index length with
    unchanged | ⟨_, some_byte, fits, pool, buf, _, _, appended⟩
  · rcases tryStart_cases staging shared index length absent with ⟨_, grown, _⟩ | ⟨refused, _⟩
    · rw [unchanged] at grown
      have longer := congrArg List.length grown
      rw [List.length_append, List.length_singleton] at longer
      omega
    · rw [started] at refused
      cases refused
  · have found := findAssembling_append staging index
      (ActivePiece.open' index length staging.maxBlocks) buf absent rfl index
    rw [if_pos rfl] at found
    rw [appended, StagingPool.requestNext, found]
    dsimp only
    cases next : (ActivePiece.open' index length staging.maxBlocks).nextRequest with
    | some request => exact ⟨_, _, rfl⟩
    | none =>
      rw [maxBlocks] at next
      have asked := outstanding_of_stuck _ (unfinished_open index length staging.pieceLength some_byte fits)
        next
      rw [outstanding_open] at asked
      cases asked

/-- What the rest of a call adds to a turn that staged a piece. -/
theorem lawful_after (around : Surroundings) (pipeline maxPieces : Nat) (before next : StagingPool)
    (out : List Request) (piece : Nat × Nat) (plan : Plan)
    (plans : Plans around.mayRequestPiece before out next)
    (bounded : next.totalOutstanding ≤ max before.totalOutstanding pipeline)
    (pieces : pieceList next = pieceList before ++ [piece]) (limited : next.len ≤ maxPieces)
    (rest : Lawful around pipeline maxPieces next plan) :
    Lawful around pipeline maxPieces before (plan.after out piece) where
  plans := plans_trans _ _ _ _ _ _ plans rest.plans
  bounded := by
    have later := rest.bounded
    change plan.staging.totalOutstanding ≤ _
    omega
  pieces := by
    change pieceList plan.staging = pieceList before ++ piece :: plan.started
    rw [rest.pieces, pieces, List.append_assoc, List.singleton_append]
  limited := by
    intro _
    by_cases further : plan.started = []
    · have same := rest.pieces
      rw [further, List.append_nil] at same
      change plan.staging.len ≤ maxPieces
      rw [StagingPool.len, indices_pieceList, same, ← indices_pieceList]
      exact limited
    · exact rest.limited further
  claims := by
    obtain ⟨refused, claimed, given⟩ := rest.claims
    refine ⟨refused, ?_, given⟩
    change piece :: plan.claimed = piece :: plan.started ++ refused
    rw [claimed, List.cons_append]
  aborted := rest.aborted
  ends := rest.ends

/-- What a turn leaves: a lawful return, or a pool with one piece and at least one block more. -/
def TurnLaws (around : Surroundings) (pipeline maxPieces : Nat) (before : StagingPool) : Turn → Prop
  | .returns plan => Lawful around pipeline maxPieces before plan
  | .goesOn next out piece =>
    Plans around.mayRequestPiece before out next ∧ out ≠ [] ∧
      next.totalOutstanding ≤ max before.totalOutstanding pipeline ∧
      pieceList next = pieceList before ++ [piece] ∧ next.len ≤ maxPieces

section
variable (around : Surroundings) (honest : Honest around) (pipeline maxPieces turn : Nat)
variable (before after : StagingPool) (out : List Request) (formed : Formed after)
variable (plans : Plans around.mayRequestPiece before out after)
variable (bounded : after.totalOutstanding ≤ max before.totalOutstanding pipeline)
variable (pieces : pieceList after = pieceList before) (room : after.totalOutstanding < pipeline)
variable (all : AllRequested around.mayRequestPiece after)
include honest formed plans bounded pieces room all

theorem stagePiece_laws (index plen : Nat) (limited : after.len < maxPieces)
    (claimed : around.startPiece turn after = some (index, plen)) :
    TurnLaws around pipeline maxPieces before
      (stagePiece (around.atStart turn) turn (out, after) index plen) := by
  obtain ⟨absent, allowed⟩ := honest turn after index plen claimed
  rw [stagePiece]
  dsimp only
  rw [absent, if_neg Bool.false_ne_true]
  rcases tryStart_cases after (around.atStart turn) index plen absent with
    ⟨started, grown, _⟩ | ⟨refused, unchanged⟩
  · have opened := tryStart_plans around.mayRequestPiece after (around.atStart turn) index plen
    have staged := plans_trans _ _ _ _ _ _ plans opened
    rw [List.append_nil] at staged
    have same := plans_total _ _ _ _ opened
    rw [List.length_nil, Nat.add_zero] at same
    have listed := pieceList_tryStart after (around.atStart turn) index plen absent started
    have longer : (after.tryStart (around.atStart turn) index plen).2.1.len = after.len + 1 := by
      rw [StagingPool.len, grown, List.length_append]
      rfl
    rw [started, if_neg (by decide)]
    by_cases queued : out.isEmpty = false
    · rw [if_pos queued]
      refine ⟨staged, ?_, by omega, by rw [listed, pieces], by omega⟩
      intro blank
      rw [blank] at queued
      cases queued
    · rw [if_neg queued]
      obtain ⟨request, next, asked⟩ := requestNext_staged after (around.atStart turn) index plen
        formed.maxBlocks absent started
      have requested := requestNext_plans around.mayRequestPiece _ next index request allowed asked
      have more := plans_total _ _ _ _ requested
      rw [List.length_singleton] at more
      obtain ⟨_, _, kept, _⟩ := requestNext_some _ next index request asked
      rw [asked]
      refine ⟨plans_trans _ _ _ _ _ _ staged requested, ?_, by omega, ?_, ?_⟩
      · exact List.append_ne_nil_of_right_ne_nil _ (List.cons_ne_nil _ _)
      · rw [pieceList_requestNext _ next index request asked, listed, pieces]
      · rw [StagingPool.len, kept]
        exact (le_of_eq longer).trans limited
  · rw [refused, if_pos rfl, unchanged]
    refine ⟨plans, bounded, ?_, fun some_start => absurd rfl some_start, ⟨[(index, plen)], rfl, rfl⟩,
      ⟨le_rfl, ?_⟩, Or.inr ⟨all, ?_⟩⟩
    · rw [List.append_nil]
      exact pieces
    · intro other member
      rw [List.mem_singleton.1 member]
      exact absent
    · exact Or.inr (Or.inr (Or.inr ⟨index, plen, claimed, rfl,
        tryStart_refused after (around.atStart turn) index plen absent refused⟩))

omit room all in
theorem claimPiece_laws
    (ends : after.totalOutstanding < pipeline → AllRequested around.mayRequestPiece after) :
    TurnLaws around pipeline maxPieces before
      (claimPiece around pipeline maxPieces turn (out, after)) := by
  rw [claimPiece]
  dsimp only
  by_cases full : pipeline ≤ after.totalOutstanding
  · rw [if_pos full]
    exact lawful_filled around pipeline maxPieces turn before after out plans bounded pieces (Or.inl full)
  · rw [if_neg full]
    have all := ends (by omega)
    by_cases none_room : freeSlots (around.atCheck turn) = 0 ∨ maxPieces ≤ after.len
    · rw [if_pos none_room]
      refine lawful_filled around pipeline maxPieces turn before after out plans bounded pieces
        (Or.inr ⟨all, ?_⟩)
      exact none_room.imp id Or.inl
    · rw [if_neg none_room]
      cases claimed : around.startPiece turn after with
      | none =>
        exact lawful_filled around pipeline maxPieces turn before after out plans bounded pieces
          (Or.inr ⟨all, Or.inr (Or.inr (Or.inl claimed))⟩)
      | some found =>
        obtain ⟨index, plen⟩ := found
        exact stagePiece_laws around honest pipeline maxPieces turn before after out formed plans bounded
          pieces (by omega) all index plen (by omega) claimed

end

theorem planTurn_laws (around : Surroundings) (honest : Honest around) (pipeline maxPieces turn : Nat)
    (staging : StagingPool) (formed : Formed staging) :
    TurnLaws around pipeline maxPieces staging
      (planTurn around pipeline maxPieces turn staging) := by
  rw [planTurn]
  by_cases full : pipeline ≤ staging.totalOutstanding
  · rw [if_pos full]
    exact lawful_filled around pipeline maxPieces turn staging staging [] (plans_refl _ staging)
      (Nat.le_max_left _ _) rfl (Or.inl full)
  · rw [if_neg full]
    have filled := formed_fillExisting staging formed pipeline around.mayRequestPiece staging.indices
    have kept := (fillExisting_fills pipeline around.mayRequestPiece staging.indices staging).indices
    refine claimPiece_laws around honest pipeline maxPieces turn staging _ _ filled
      (fillExisting_plans around.mayRequestPiece pipeline staging.indices staging)
      (fillExisting_bounded around.mayRequestPiece pipeline staging.indices staging)
      (pieceList_fillExisting around.mayRequestPiece pipeline staging.indices staging) ?_
    intro room
    apply allRequested_of_stuck around.mayRequestPiece _ filled.distinct
    rw [kept]
    exact fillExisting_ends around.mayRequestPiece pipeline staging.indices staging room

/-- The bound of the loop is never the reason to return: every turn that goes on makes a block
outstanding. -/
theorem planLoop_lawful (around : Surroundings) (honest : Honest around)
    (pipeline maxPieces left turn : Nat) (staging : StagingPool) (formed : Formed staging)
    (enough : pipeline ≤ left + staging.totalOutstanding) :
    Lawful around pipeline maxPieces staging (planLoop around pipeline maxPieces left turn staging) := by
  induction left generalizing turn staging with
  | zero =>
    exact lawful_filled around pipeline maxPieces turn staging staging [] (plans_refl _ staging)
      (Nat.le_max_left _ _) rfl (Or.inl (by omega))
  | succ left ih =>
    have laws := planTurn_laws around honest pipeline maxPieces turn staging formed
    have ends := formed_planTurn staging formed around pipeline maxPieces turn
    rw [planLoop]
    cases turned : planTurn around pipeline maxPieces turn staging with
    | returns plan =>
      rw [turned] at laws
      exact laws
    | goesOn next out piece =>
      rw [turned] at laws ends
      obtain ⟨plans, some_request, bounded, pieces, limited⟩ := laws
      have grown := plans_total _ _ _ _ plans
      have one := List.length_pos_of_ne_nil some_request
      exact lawful_after around pipeline maxPieces staging next out piece _ plans bounded pieces limited
        (ih (turn + 1) next ends (by omega))

/-! ### The call -/

/-- The request is a block of a piece that is being assembled: it starts at a block inside the piece
and is a whole block, or what is left of the piece. -/
def BlockOfPiece (staging : StagingPool) (request : Request) : Prop :=
  ∃ piece buf i, .assembling piece buf ∈ staging.slots ∧ i * BLOCK_SIZE < piece.length ∧
    request = (piece.index, i * BLOCK_SIZE, min (piece.length - i * BLOCK_SIZE) BLOCK_SIZE)

theorem blockOfPiece_outstanding (staging : StagingPool) (formed : Formed staging) (request : Request)
    (member : request ∈ outstandingList staging) : BlockOfPiece staging request := by
  obtain ⟨slot, inside, listed⟩ := List.mem_flatMap.1 member
  obtain ⟨piece, buf, i, rfl, below, _, rfl⟩ := (mem_slotBlocks _ _ _).1 listed
  have sized := (formed.slots _ inside).1
  have start : i * BLOCK_SIZE < piece.length := by
    rw [← numBlocks_le_iff, ← sized]
    exact below
  refine ⟨piece, buf, i, inside, start, ?_⟩
  rw [blockLen, if_neg (by omega)]

/-- What is handed out is new: it had not arrived, it was not outstanding, and it is named once. -/
theorem plans_new (may : Nat → Bool) (before after : StagingPool) (out : List Request)
    (distinct : after.indices.Nodup) (plans : Plans may before out after) :
    (out.map blockOf).Nodup ∧ ∀ request ∈ out,
      ∀ known, known ∈ receivedList before ∨ known ∈ outstandingList before →
        blockOf known ≠ blockOf request := by
  have listed := blocks_nodup outstanding after distinct
  change ((outstandingList after).map blockOf).Nodup at listed
  rw [(plans.outstanding.map blockOf).nodup_iff, List.map_append, List.nodup_append] at listed
  refine ⟨listed.2.1, ?_⟩
  intro request member known either
  rcases either with got | asked
  · rw [← plans.received] at got
    refine arrived_not_outstanding after distinct known request got ?_
    exact plans.outstanding.mem_iff.2 (List.mem_append_right _ member)
  · exact listed.2.2 _ (List.mem_map_of_mem asked) _ (List.mem_map_of_mem member)

/-- Every claim is staged or given back, once. -/
theorem claims_once (staging after : StagingPool) (started : List (Nat × Nat)) (aborted : List Nat)
    (distinct : after.indices.Nodup) (pieces : pieceList after = pieceList staging ++ started)
    (few : aborted.length ≤ 1) (outside : ∀ index ∈ aborted, after.contains index = false) :
    (started.map Prod.fst ++ aborted).Nodup := by
  have indices : after.indices = staging.indices ++ started.map Prod.fst := by
    rw [indices_pieceList, indices_pieceList, pieces, List.map_append]
  rw [indices, List.nodup_append] at distinct
  rw [List.nodup_append]
  refine ⟨distinct.2.1, ?_, ?_⟩
  · match aborted, few with
    | [], _ => exact List.nodup_nil
    | [index], _ => exact List.nodup_singleton index
  · intro index member other given same
    have held : index ∈ after.indices := by
      rw [indices]
      exact List.mem_append_right _ member
    have free := outside other given
    rw [← same, contains_of_mem after index held] at free
    cases free

/-- Request planning, with the pipeline read as at least one block. -/
theorem requests_planned (staging : StagingPool) (reachable : Reachable staging) (around : Surroundings)
    (honest : Honest around) (pipeline : Nat) (endgame : Bool)
    (allocatable : max pipeline 1 * requestSize ≤ isizeMax)
    (inMemory : staging.slots.length ≤ isizeMax) :
    ∃ plan, takeRequests around staging pipeline endgame = some plan ∧
      (∀ request ∈ plan.out,
        (∀ known, known ∈ receivedList staging ∨ known ∈ outstandingList staging →
          blockOf known ≠ blockOf request) ∧
        around.mayRequestPiece request.1 = true ∧ BlockOfPiece plan.staging request) ∧
      (plan.out.map blockOf).Nodup ∧ receivedList plan.staging = receivedList staging ∧
      (outstandingList plan.staging).Perm (outstandingList staging ++ plan.out) ∧
      plan.staging.totalOutstanding ≤ max staging.totalOutstanding (max pipeline 1) ∧
      (plan.started ≠ [] → plan.staging.len ≤
        maxAssemblingPieces (max pipeline 1) staging.pieceLength around.capacity) ∧
      pieceList plan.staging = pieceList staging ++ plan.started ∧
      (∃ refused, plan.claimed = plan.started ++ refused ∧ refused.map Prod.fst = plan.aborted) ∧
      (plan.claimed.map Prod.fst).Nodup ∧
      (∀ index ∈ plan.aborted, plan.staging.contains index = false) ∧
      ((endgame = false ∧ max (max pipeline 1 / PIPE_REFILL_DIV) 1 < staging.totalOutstanding ∧
          plan.out = [] ∧ plan.staging = staging) ∨
        max pipeline 1 ≤ plan.staging.totalOutstanding ∨
        AllRequested around.mayRequestPiece plan.staging ∧
          NothingStarts around
            (maxAssemblingPieces (max pipeline 1) staging.pieceLength around.capacity) plan) := by
  have formed := reachable_formed staging reachable
  by_cases cut : endgame = false ∧
      max (max pipeline 1 / PIPE_REFILL_DIV) 1 < staging.totalOutstanding
  · refine ⟨⟨staging, [], [], [], [], 0⟩, ?_, fun _ none' => absurd none' List.not_mem_nil,
      List.nodup_nil, rfl, ?_, Nat.le_max_left _ _, fun some_start => absurd rfl some_start, ?_,
      ⟨[], rfl, rfl⟩, List.nodup_nil, fun _ none' => absurd none' List.not_mem_nil, Or.inl ⟨cut.1, cut.2, rfl, rfl⟩⟩
    · rw [takeRequests]
      dsimp only
      rw [if_pos cut]
    · rw [List.append_nil]
    · rw [List.append_nil]
  · have planned : takeRequests around staging pipeline endgame =
        some (planLoop around (max pipeline 1)
          (maxAssemblingPieces (max pipeline 1) staging.pieceLength around.capacity)
          (max pipeline 1 * 4 + staging.slots.length + 8) 0 staging) := by
      have enough : (max pipeline 1 - staging.totalOutstanding) * requestSize ≤ isizeMax :=
        (Nat.mul_le_mul_right _ (Nat.sub_le _ _)).trans allocatable
      have bounded : max pipeline 1 * 4 + staging.slots.length + 8 < 2 ^ 64 := by
        unfold requestSize isizeMax at allocatable
        unfold isizeMax at inMemory
        omega
      rw [takeRequests]
      dsimp only
      rw [if_neg cut, if_neg (by omega), if_neg (by omega)]
    have laws := planLoop_lawful around honest (max pipeline 1)
      (maxAssemblingPieces (max pipeline 1) staging.pieceLength around.capacity)
      (max pipeline 1 * 4 + staging.slots.length + 8) 0 staging formed (by omega)
    have ends := formed_planLoop staging formed around (max pipeline 1)
      (maxAssemblingPieces (max pipeline 1) staging.pieceLength around.capacity)
      (max pipeline 1 * 4 + staging.slots.length + 8) 0
    generalize planLoop around (max pipeline 1)
      (maxAssemblingPieces (max pipeline 1) staging.pieceLength around.capacity)
      (max pipeline 1 * 4 + staging.slots.length + 8) 0 staging = plan at planned laws ends
    obtain ⟨once, fresh⟩ := plans_new around.mayRequestPiece staging plan.staging plan.out ends.distinct
      laws.plans
    refine ⟨plan, planned, ?_, once, laws.plans.received, laws.plans.outstanding, laws.bounded,
      laws.limited, laws.pieces, laws.claims, ?_, laws.aborted.2, Or.inr laws.ends⟩
    · intro request member
      refine ⟨fresh request member, laws.plans.allowed request member, ?_⟩
      exact blockOfPiece_outstanding plan.staging ends request
        (laws.plans.outstanding.mem_iff.2 (List.mem_append_right _ member))
    · obtain ⟨refused, claimed, given⟩ := laws.claims
      rw [claimed, List.map_append, given]
      exact claims_once staging plan.staging plan.started plan.aborted ends.distinct laws.pieces
        laws.aborted.1 laws.aborted.2

/-- One piece of one byte to fetch, and a freelist with room for it. -/
def oneOffered : Surroundings where
  capacity := 2
  atCheck := fun _ => some (PieceBufferPool.new 1 2)
  atStart := fun _ => some (PieceBufferPool.new 1 2)
  startPiece := fun _ staging => if staging.contains 0 then none else some (0, 1)
  mayRequestPiece := fun _ => true

theorem oneOffered_honest : Honest oneOffered := by
  intro turn staging index plen claimed
  unfold oneOffered at claimed
  dsimp only at claimed
  split_ifs at claimed with absent
  cases claimed
  exact ⟨Bool.eq_false_of_not_eq_true absent, rfl⟩

def freshPool : StagingPool := StagingPool.fromPool 0 (PieceBufferPool.new 1 2)

theorem requests_planned_onePiece :
    ∃ plan, takeRequests oneOffered freshPool 4 true = some plan ∧
      pieceList plan.staging = pieceList freshPool ++ plan.started ∧
      (plan.claimed.map Prod.fst).Nodup := by
  obtain ⟨plan, planned, _, _, _, _, _, _, pieces, _, once, _⟩ := requests_planned freshPool
    (.fromPool 0 _) oneOffered oneOffered_honest 4 true (by decide) (by decide)
  exact ⟨plan, planned, pieces, once⟩

/-- An empty pipeline is read as one block, and a list of requests that is too long for an allocation
ends the call. -/
theorem empty_pipeline_requests :
    (¬ ∀ staging, Reachable staging → ∀ around, Honest around → ∀ pipeline endgame plan,
      takeRequests around staging pipeline endgame = some plan →
        plan.staging.totalOutstanding ≤ max staging.totalOutstanding pipeline) ∧
    takeRequests oneOffered freshPool (2 ^ 62) true = none := by
  refine ⟨?_, by decide +kernel⟩
  intro always
  have one : (takeRequests oneOffered freshPool 0 true).map (fun plan => plan.staging.totalOutstanding) =
      some 1 := by decide +kernel
  obtain ⟨plan, planned, total⟩ := Option.map_eq_some_iff.1 one
  have bound := always freshPool (.fromPool 0 _) oneOffered oneOffered_honest 0 true plan planned
  rw [total] at bound
  exact absurd bound (by decide +kernel)

end Seedchamp.Staging.Planning
