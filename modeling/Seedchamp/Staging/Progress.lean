import Seedchamp.Staging.Exchange
import Mathlib.Algebra.Order.BigOperators.Group.List
import Mathlib.Algebra.Order.Group.Nat

/-!
Pieces that are being assembled miss a block. From this: a fill that meets a piece leaves a request
outstanding, and so does a piece that is opened.
-/

namespace Seedchamp.Staging.Progress
open Staging.PiecePool Staging.Pool Staging.Assembly
open Disk.Spans (Error)

/-- A block of the piece has not arrived. -/
def Unfinished (piece : ActivePiece) : Prop := ∃ i, i < piece.have_.length ∧ piece.have_.getD i false = false

def SlotSane : Slot → Prop
  | .assembling piece _ => Unfinished piece
  | .hashing _ => True

/-- What every operation keeps: pieces miss a block, and the sizes are those of the torrent. -/
structure Sane (size : Nat) (staging : StagingPool) : Prop where
  slots : ∀ slot ∈ staging.slots, SlotSane slot
  pieceLength : staging.pieceLength = size
  maxBlocks : staging.maxBlocks = numBlocks size

theorem numBlocks_pos (length : Nat) (some' : 0 < length) : 0 < numBlocks length := by
  unfold numBlocks BLOCK_SIZE
  omega

theorem unfinished_of_have (piece piece' : ActivePiece) (same : piece'.have_ = piece.have_)
    (unfinished : Unfinished piece) : Unfinished piece' := by
  unfold Unfinished
  rw [same]
  exact unfinished

theorem unfinished_of_incomplete (piece : ActivePiece) (incomplete : piece.isComplete = false) :
    Unfinished piece := by
  rw [ActivePiece.isComplete, List.all_eq_false] at incomplete
  obtain ⟨got, member, missing⟩ := incomplete
  obtain ⟨i, inside, rfl⟩ := List.getElem_of_mem member
  refine ⟨i, inside, ?_⟩
  rw [List.getD_eq_getElem?_getD, List.getElem?_eq_getElem inside]
  exact Bool.eq_false_of_not_eq_true missing

theorem unfinished_open (index length size : Nat) (some' : 0 < length) (fits : length ≤ size) :
    Unfinished (ActivePiece.open' index length (numBlocks size)) := by
  have first := numBlocks_pos length some'
  have room := numBlocks_pos size (by omega)
  refine ⟨0, ?_, ?_⟩
  · rw [ActivePiece.open', List.length_take, List.length_replicate]
    omega
  · rw [ActivePiece.open', List.getD_eq_getElem?_getD, List.getElem?_take_of_lt first,
      List.getElem?_replicate_of_lt room]
    rfl

/-! ### The operations -/

theorem mem_replaceFirst (index : Nat) (slot new : Slot) (slots : List Slot)
    (member : slot ∈ StagingPool.replaceFirst index new slots) : slot = new ∨ slot ∈ slots := by
  induction slots with
  | nil => cases member
  | cons first rest ih =>
    rw [StagingPool.replaceFirst] at member
    split_ifs at member
    · rcases List.mem_cons.1 member with here | later
      · exact Or.inl here
      · exact Or.inr (List.mem_cons_of_mem _ later)
    · rcases List.mem_cons.1 member with here | later
      · exact Or.inr (here ▸ List.mem_cons_self)
      · exact (ih later).imp id (List.mem_cons_of_mem _)

theorem findAssembling_mem (staging : StagingPool) (index : Nat) (piece : ActivePiece) (buf : Buffer)
    (found : staging.findAssembling index = some (piece, buf)) : .assembling piece buf ∈ staging.slots := by
  obtain ⟨slot, member, matched⟩ := List.exists_of_findSome?_eq_some found
  cases slot with
  | assembling piece' buf' =>
    rw [Slot.piece] at matched
    split_ifs at matched
    cases matched
    exact member
  | hashing other => cases matched

section
variable {size : Nat} (staging : StagingPool) (sane : Sane size staging)
include sane

theorem sane_found (index : Nat) (piece : ActivePiece) (buf : Buffer)
    (found : staging.findAssembling index = some (piece, buf)) : Unfinished piece :=
  sane.slots _ (findAssembling_mem staging index piece buf found)

theorem sane_withPiece (index : Nat) (piece : ActivePiece) (buf : Buffer) (unfinished : Unfinished piece) :
    Sane size (staging.withPiece index piece buf) := by
  refine ⟨?_, sane.pieceLength, sane.maxBlocks⟩
  intro slot member
  rcases mem_replaceFirst index slot _ staging.slots member with new | old
  · rw [new]
    exact unfinished
  · exact sane.slots slot old

theorem sane_mapPieces (update : ActivePiece → ActivePiece) (same : ∀ piece, (update piece).have_ = piece.have_) :
    Sane size (staging.mapPieces update) := by
  refine ⟨?_, sane.pieceLength, sane.maxBlocks⟩
  intro slot member
  obtain ⟨old, inside, rfl⟩ := List.mem_map.1 member
  have before := sane.slots old inside
  cases old with
  | assembling piece buf => exact unfinished_of_have piece _ (same piece) before
  | hashing index => trivial

theorem sane_enableEndgame : Sane size staging.enableEndgame := sane_mapPieces staging sane _ (fun _ => rfl)

theorem sane_requeueTimedOut : Sane size staging.requeueTimedOut := sane_mapPieces staging sane _ (fun _ => rfl)

theorem sane_clearRequest (index begin' length : Nat) : Sane size (staging.clearRequest index begin' length) := by
  unfold StagingPool.clearRequest
  split
  · rename_i piece buf found
    apply sane_withPiece staging sane
    apply unfinished_of_have piece _ _ (sane_found staging sane index piece buf found)
    unfold ActivePiece.clearRequest
    dsimp only
    split_ifs <;> rfl
  · exact sane

theorem sane_requestNext (staging' : StagingPool) (index : Nat) (request : Request)
    (next : staging.requestNext index = some (request, staging')) : Sane size staging' := by
  unfold StagingPool.requestNext at next
  split at next
  · cases next
  · rename_i piece buf found
    obtain ⟨⟨block, piece'⟩, ask, result⟩ := Option.map_eq_some_iff.1 next
    cases result
    apply sane_withPiece staging sane
    obtain ⟨i, _, same⟩ := Option.map_eq_some_iff.1 ask
    cases same
    exact unfinished_of_have piece _ rfl (sane_found staging sane index piece buf found)

theorem sane_fillPiece (pipeline index fuel : Nat) :
    Sane size (StagingPool.fillPiece pipeline index fuel staging).2 := by
  induction fuel generalizing staging with
  | zero => exact sane
  | succ fuel ih =>
    rw [StagingPool.fillPiece]
    split_ifs
    · split
      · exact sane
      · rename_i request next found
        exact ih next (sane_requestNext staging sane next index request found)
    · exact sane

theorem sane_fillExisting (pipeline : Nat) (mayRequestPiece : Nat → Bool) (order : List Nat) :
    Sane size (StagingPool.fillExisting pipeline mayRequestPiece order staging).2 := by
  induction order generalizing staging with
  | nil => exact sane
  | cons index rest ih =>
    rw [StagingPool.fillExisting]
    dsimp only
    split_ifs
    · exact sane_fillPiece staging sane pipeline index pipeline
    · exact ih _ (sane_fillPiece staging sane pipeline index pipeline)
    · exact ih staging sane

theorem sane_tryStart (shared : Option PieceBufferPool) (index length : Nat) :
    Sane size (staging.tryStart shared index length).2.1 := by
  unfold StagingPool.tryStart
  split_ifs with _ outside
  · exact sane
  · exact sane
  · split
    · exact sane
    · split
      · exact sane
      · refine ⟨?_, sane.pieceLength, sane.maxBlocks⟩
        intro slot member
        rcases List.mem_append.1 member with old | new
        · exact sane.slots slot old
        · rw [List.mem_singleton.1 new, sane.maxBlocks]
          have size' := sane.pieceLength
          exact unfinished_open index length size (by omega) (by omega)

theorem sane_reclaim (shared : Option PieceBufferPool) (index : Nat) (data : Buffer) :
    Sane size (staging.reclaim shared index data).1 := by
  refine ⟨?_, sane.pieceLength, sane.maxBlocks⟩
  intro slot member
  exact sane.slots slot (List.mem_of_mem_filter member)

theorem sane_clear (shared : Option PieceBufferPool) : Sane size (staging.clear shared).1 := by
  refine ⟨?_, sane.pieceLength, sane.maxBlocks⟩
  intro slot member
  exact sane.slots slot (List.mem_of_mem_filter member)

/-- A block that leaves its piece incomplete. -/
theorem sane_ingest (staging' : StagingPool) (index begin' : Nat) (data : Buffer)
    (ingested : staging.ingestIfStaged index begin' data = .ok (some (false, staging'))) : Sane size staging' := by
  unfold StagingPool.ingestIfStaged at ingested
  split at ingested
  · cases ingested
  · split at ingested
    · cases ingested
    · rename_i piece buf complete taken
      cases ingested
      apply sane_withPiece staging sane
      apply unfinished_of_incomplete
      unfold ActivePiece.ingest at taken
      split_ifs at taken
      split at taken
      · cases taken
      · rw [Except.ok.injEq, Prod.mk.injEq, Prod.mk.injEq] at taken
        obtain ⟨rfl, rfl, incomplete⟩ := taken
        exact incomplete

end

/-! ### The hand-over of a complete piece -/

/-- The first slot of a piece, which the lookups and the replacement agree on. -/
theorem split_first (index : Nat) (piece : ActivePiece) (buf : Buffer) (slots : List Slot)
    (found : slots.findSome? (Slot.piece index) = some (piece, buf)) : ∃ front back,
    slots = front ++ .assembling piece buf :: back ∧ (∀ slot ∈ front, slot.assembles index = false) ∧
      ∀ new, StagingPool.replaceFirst index new slots = front ++ new :: back := by
  induction slots with
  | nil => cases found
  | cons first rest ih =>
    rw [List.findSome?_cons] at found
    cases matched : Slot.piece index first with
    | some one =>
      rw [matched] at found
      cases found
      cases first with
      | assembling piece' buf' =>
        rw [Slot.piece] at matched
        split_ifs at matched with same
        cases matched
        refine ⟨[], rest, rfl, fun _ none' => absurd none' List.not_mem_nil, ?_⟩
        intro new
        rw [StagingPool.replaceFirst, Slot.assembles, decide_eq_true same, if_pos rfl, List.nil_append]
      | hashing other => cases matched
    | none =>
      rw [matched] at found
      obtain ⟨front, back, split, skipped, replaced⟩ := ih found
      have other : first.assembles index = false := by
        cases first with
        | assembling piece' buf' =>
          rw [Slot.piece] at matched
          split_ifs at matched with same
          exact decide_eq_false same
        | hashing other => rfl
      refine ⟨first :: front, back, by rw [split, List.cons_append], ?_, ?_⟩
      · intro slot member
        rcases List.mem_cons.1 member with here | later
        · rw [here]
          exact other
        · exact skipped slot later
      · intro new
        rw [StagingPool.replaceFirst, other, if_neg Bool.false_ne_true, replaced new, List.cons_append]

/-- A complete piece is handed over, and the others stay. -/
theorem sane_handOver {size : Nat} (staging staging' : StagingPool) (sane : Sane size staging)
    (shared : Option PieceBufferPool) (index begin' : Nat) (data : Buffer)
    (ingested : staging.ingestIfStaged index begin' data = .ok (some (true, staging'))) :
    ∃ taken, staging'.takeForHash shared index = some taken ∧ Sane size taken.2.1 := by
  unfold StagingPool.ingestIfStaged at ingested
  split at ingested
  · cases ingested
  · rename_i piece buf found
    split at ingested
    · cases ingested
    · rename_i piece' buf' complete taken
      cases ingested
      have named : piece'.index = index := by
        rw [ingest_index piece piece' buf buf' begin' data _ taken]
        exact (findAssembling_some staging index piece buf found).1
      obtain ⟨front, back, split, skipped, replaced⟩ := split_first index piece buf staging.slots found
      have slots : (staging.withPiece index piece' buf').slots = front ++ .assembling piece' buf' :: back :=
        replaced _
      have assembles : (Slot.assembling piece' buf').assembles index = true := decide_eq_true named
      have located : (staging.withPiece index piece' buf').slots.findIdx? (·.assembles index) =
          some front.length := by
        rw [slots, List.findIdx?_append, List.findIdx?_cons, if_pos assembles]
        rw [List.findIdx?_eq_none_iff.2 skipped, Option.none_or, Option.map_some, Nat.zero_add]
      have first : (staging.withPiece index piece' buf').findAssembling index = some (piece', buf') := by
        rw [StagingPool.findAssembling, slots, List.findSome?_append, List.findSome?_cons, Slot.piece,
          if_pos named]
        have none' : front.findSome? (Slot.piece index) = none := by
          rw [List.findSome?_eq_none_iff]
          intro slot member
          have other := skipped slot member
          cases slot with
          | assembling piece'' buf'' => rw [Slot.piece, if_neg (of_decide_eq_false other)]
          | hashing other => rfl
        rw [none', Option.none_or]
      refine ⟨_, by rw [StagingPool.takeForHash, located, first], ?_, sane.pieceLength, sane.maxBlocks⟩
      intro slot member
      rcases List.mem_append.1 member with kept | hashing
      · have moved := Conservation.swapRemove_perm (front ++ .assembling piece' buf' :: back) front.length
          (.assembling piece' buf') (by rw [List.getElem?_append_right le_rfl, Nat.sub_self]; rfl)
        have rest := (List.perm_cons _).1 (moved.symm.trans List.perm_middle)
        rw [slots] at kept
        apply sane.slots
        rw [split]
        rcases List.mem_append.1 (rest.mem_iff.1 kept) with before | after
        · exact List.mem_append_left _ before
        · exact List.mem_append_right _ (List.mem_cons_of_mem _ after)
      · rw [List.mem_singleton.1 hashing]
        trivial

/-! ### Outstanding requests -/

/-- A piece whose missing blocks are all requested has a request outstanding. -/
theorem outstanding_of_stuck (piece : ActivePiece) (unfinished : Unfinished piece)
    (stuck : piece.nextRequest = none) : 1 ≤ piece.outstandingRequests := by
  obtain ⟨i, inside, missing⟩ := unfinished
  unfold ActivePiece.nextRequest ActivePiece.nextBlock at stuck
  rw [Option.map_eq_none_iff, List.find?_eq_none] at stuck
  have asked := stuck i (List.mem_range.2 inside)
  rw [missing, Bool.not_false, Bool.true_and, Bool.not_eq_true, Bool.not_eq_false'] at asked
  have room : i < piece.requested.length := by
    rw [piece.paired]
    exact inside
  rw [List.getD_eq_getElem?_getD, List.getElem?_eq_getElem room, Option.getD_some] at asked
  rw [List.getD_eq_getElem?_getD, List.getElem?_eq_getElem inside, Option.getD_some] at missing
  rw [ActivePiece.outstandingRequests]
  apply List.length_pos_of_mem (a := (false, true))
  rw [List.mem_filter]
  refine ⟨?_, rfl⟩
  have zipped : i < (piece.have_.zip piece.requested).length := by
    rw [List.length_zip]
    omega
  have pair : (piece.have_.zip piece.requested)[i] = (false, true) := by
    rw [List.getElem_zip, missing, asked]
  rw [← pair]
  exact List.getElem_mem _

theorem le_totalOutstanding (staging : StagingPool) (piece : ActivePiece) (buf : Buffer)
    (member : .assembling piece buf ∈ staging.slots) : piece.outstandingRequests ≤ staging.totalOutstanding :=
  List.single_le_sum (fun _ _ => Nat.zero_le _) _ (List.mem_map.2 ⟨_, member, rfl⟩)

theorem fillPiece_grows (pipeline index fuel : Nat) (staging : StagingPool) :
    staging.totalOutstanding + (StagingPool.fillPiece pipeline index fuel staging).1.length =
      (StagingPool.fillPiece pipeline index fuel staging).2.totalOutstanding := by
  induction fuel generalizing staging with
  | zero => rfl
  | succ fuel ih =>
    rw [StagingPool.fillPiece]
    split_ifs
    · split
      · rfl
      · rename_i request next found
        have grown := requestNext_outstanding staging next index request found
        have later := ih next
        dsimp only
        rw [List.length_cons]
        omega
    · rfl

/-- Every request that a fill hands out is outstanding behind it. -/
theorem fillExisting_grows (pipeline : Nat) (mayRequestPiece : Nat → Bool) (order : List Nat)
    (staging : StagingPool) :
    staging.totalOutstanding + (StagingPool.fillExisting pipeline mayRequestPiece order staging).1.length =
      (StagingPool.fillExisting pipeline mayRequestPiece order staging).2.totalOutstanding := by
  induction order generalizing staging with
  | nil => rfl
  | cons index rest ih =>
    rw [StagingPool.fillExisting]
    dsimp only
    have one := fillPiece_grows pipeline index pipeline staging
    split_ifs
    · exact one
    · have more := ih (StagingPool.fillPiece pipeline index pipeline staging).2
      dsimp only
      rw [List.length_append]
      omega
    · exact ih staging

theorem findAssembling_of_mem (staging : StagingPool) (index : Nat) (member : index ∈ staging.indices) :
    ∃ piece buf, staging.findAssembling index = some (piece, buf) := by
  rw [indices_eq, List.mem_filterMap] at member
  obtain ⟨slot, inside, same⟩ := member
  have found : (staging.slots.findSome? (Slot.piece index)).isSome = true := by
    rw [List.findSome?_isSome_iff]
    cases slot with
    | assembling piece buf =>
      refine ⟨_, inside, ?_⟩
      rw [Slot.piece, if_pos (Option.some.inj same)]
      rfl
    | hashing other => cases same
  obtain ⟨⟨piece, buf⟩, located⟩ := Option.isSome_iff_exists.1 found
  exact ⟨piece, buf, located⟩

/-- A fill that meets a piece leaves a request outstanding. -/
theorem fillExisting_outstanding {size : Nat} (staging : StagingPool) (sane : Sane size staging)
    (pipeline index : Nat) (mayRequestPiece : Nat → Bool) (rest : List Nat) (some' : 1 ≤ pipeline)
    (may : mayRequestPiece index = true) (member : index ∈ staging.indices) :
    1 ≤ (StagingPool.fillExisting pipeline mayRequestPiece (index :: rest) staging).2.totalOutstanding := by
  have filled := sane_fillPiece staging sane pipeline index pipeline
  have first : 1 ≤ (StagingPool.fillPiece pipeline index pipeline staging).2.totalOutstanding := by
    rcases fillPiece_ends pipeline index pipeline staging (by omega) with full | stuck
    · omega
    · have kept := (fillPiece_fills pipeline index pipeline staging).indices
      obtain ⟨piece, buf, found⟩ := findAssembling_of_mem _ index (kept ▸ member)
      rw [StagingPool.requestNext, found] at stuck
      have asked := outstanding_of_stuck piece (sane_found _ filled index piece buf found)
        (Option.map_eq_none_iff.1 stuck)
      exact asked.trans (le_totalOutstanding _ piece buf (findAssembling_mem _ index piece buf found))
  rw [StagingPool.fillExisting, if_pos may]
  dsimp only
  split_ifs
  · exact first
  · have grown := fillExisting_grows pipeline mayRequestPiece rest
      (StagingPool.fillPiece pipeline index pipeline staging).2
    dsimp only
    omega

theorem outstanding_open (index length maxBlocks : Nat) :
    (ActivePiece.open' index length maxBlocks).outstandingRequests = 0 := by
  rw [ActivePiece.outstandingRequests, List.length_eq_zero_iff, List.filter_eq_nil_iff]
  intro block member
  have asked := List.mem_of_mem_take (List.of_mem_zip member).2
  rw [List.eq_of_mem_replicate asked, Bool.and_false]
  exact Bool.false_ne_true

theorem not_assembles_of_absent (staging : StagingPool) (index : Nat) (absent : staging.contains index = false)
    (slot : Slot) (member : slot ∈ staging.slots) : Slot.piece index slot = none := by
  have other := List.any_eq_false.1 absent slot member
  cases slot with
  | assembling piece buf =>
    rw [Slot.piece, if_neg]
    intro same
    exact other (decide_eq_true same)
  | hashing other => rfl

/-- A piece that was just opened has a block to request. -/
theorem requestNext_opened {size : Nat} (staging : StagingPool) (sane : Sane size staging)
    (shared : Option PieceBufferPool) (index length : Nat) (absent : staging.contains index = false)
    (started : (staging.tryStart shared index length).1 = true) :
    ((staging.tryStart shared index length).2.1.requestNext index).isSome = true := by
  have kept := sane_tryStart staging sane shared index length
  obtain ⟨buf, found⟩ : ∃ buf, (staging.tryStart shared index length).2.1.findAssembling index =
      some (ActivePiece.open' index length staging.maxBlocks, buf) := by
    unfold StagingPool.tryStart at started ⊢
    rw [absent, if_neg Bool.false_ne_true] at started ⊢
    split_ifs at started ⊢
    split at started
    · cases started
    · split at started
      · cases started
      · rename_i buf pool _
        refine ⟨buf, ?_⟩
        have before : staging.slots.findSome? (Slot.piece index) = none :=
          List.findSome?_eq_none_iff.2 (not_assembles_of_absent staging index absent)
        dsimp only
        have named : (ActivePiece.open' index length staging.maxBlocks).index = index := rfl
        rw [StagingPool.findAssembling, List.findSome?_append, before, Option.none_or, List.findSome?_cons,
          Slot.piece, if_pos named]
  rw [StagingPool.requestNext, found]
  dsimp only
  rw [Option.isSome_map]
  cases next : (ActivePiece.open' index length staging.maxBlocks).nextRequest with
  | some request => rfl
  | none =>
    have asked := outstanding_of_stuck _ (sane_found _ kept index _ buf found) next
    rw [outstanding_open] at asked
    cases asked

end Seedchamp.Staging.Progress
