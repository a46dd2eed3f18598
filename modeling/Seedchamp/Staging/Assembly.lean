import Seedchamp.Staging.Pool

/-!
Which pieces a peer assembles, through every operation of the staging pool.
-/

namespace Seedchamp.Staging.Assembly
open Staging.PiecePool Staging.Pool

/-- The piece a slot assembles. -/
def slotIndex : Slot → Option Nat
  | .assembling piece _ => some piece.index
  | .hashing _ => none

theorem indices_eq (staging : StagingPool) : staging.indices = staging.slots.filterMap slotIndex := rfl

theorem assembles_iff (slot : Slot) (index : Nat) :
    slot.assembles index = true ↔ slotIndex slot = some index := by
  cases slot <;> simp [Slot.assembles, slotIndex]

theorem filterMap_replaceFirst (index : Nat) (slot : Slot) (slots : List Slot)
    (same : slotIndex slot = some index) :
    (StagingPool.replaceFirst index slot slots).filterMap slotIndex = slots.filterMap slotIndex := by
  induction slots with
  | nil => rfl
  | cons first rest ih =>
    rw [StagingPool.replaceFirst]
    split_ifs with assembles
    · rw [assembles_iff] at assembles
      simp only [List.filterMap_cons, same, assembles]
    · simp only [List.filterMap_cons, ih]

@[simp] theorem indices_withPiece (staging : StagingPool) (index : Nat) (piece : ActivePiece)
    (buf : Buffer) (same : piece.index = index) :
    (staging.withPiece index piece buf).indices = staging.indices := by
  rw [indices_eq, indices_eq]
  exact filterMap_replaceFirst index _ staging.slots (congrArg some same)

theorem findAssembling_some (staging : StagingPool) (index : Nat) (piece : ActivePiece) (buf : Buffer)
    (found : staging.findAssembling index = some (piece, buf)) :
    piece.index = index ∧ index ∈ staging.indices := by
  obtain ⟨slot, member, matched⟩ := List.exists_of_findSome?_eq_some found
  cases slot with
  | assembling piece' buf' =>
    rw [Slot.piece] at matched
    split_ifs at matched with same
    cases matched
    refine ⟨same, ?_⟩
    rw [indices_eq, List.mem_filterMap]
    exact ⟨_, member, congrArg some same⟩
  | hashing other => cases matched

theorem indices_mapPieces (staging : StagingPool) (update : ActivePiece → ActivePiece)
    (same : ∀ piece, (update piece).index = piece.index) :
    (staging.mapPieces update).indices = staging.indices := by
  rw [indices_eq, indices_eq, StagingPool.mapPieces, List.filterMap_map]
  congr 1
  funext slot
  cases slot with
  | assembling piece buf => exact congrArg some (same piece)
  | hashing index => rfl

@[simp] theorem indices_enableEndgame (staging : StagingPool) :
    staging.enableEndgame.indices = staging.indices := indices_mapPieces staging _ (fun _ => rfl)

@[simp] theorem indices_requeueTimedOut (staging : StagingPool) :
    staging.requeueTimedOut.indices = staging.indices := indices_mapPieces staging _ (fun _ => rfl)

theorem clearRequest_index (piece : ActivePiece) (begin' length : Nat) :
    (piece.clearRequest begin' length).2.index = piece.index := by
  unfold ActivePiece.clearRequest
  dsimp only
  split_ifs <;> rfl

@[simp] theorem indices_clearRequest (staging : StagingPool) (index begin' length : Nat) :
    (staging.clearRequest index begin' length).indices = staging.indices := by
  unfold StagingPool.clearRequest
  split
  · rename_i piece buf found
    apply indices_withPiece
    rw [clearRequest_index]
    exact (findAssembling_some staging index piece buf found).1
  · rfl

/-- A started piece joins the assembled ones; a refused one changes nothing. -/
theorem tryStart_cases (staging : StagingPool) (shared : Option PieceBufferPool) (index length : Nat)
    (absent : staging.contains index = false) :
    ((staging.tryStart shared index length).1 = true ∧
      (staging.tryStart shared index length).2.1.indices = staging.indices ++ [index] ∧
      (staging.tryStart shared index length).2.1.pool = staging.pool) ∨
    ((staging.tryStart shared index length).1 = false ∧
      (staging.tryStart shared index length).2.1 = staging) := by
  unfold StagingPool.tryStart
  rw [absent, if_neg Bool.false_ne_true]
  split_ifs
  · exact Or.inr ⟨rfl, rfl⟩
  · split
    · exact Or.inr ⟨rfl, rfl⟩
    · split
      · exact Or.inr ⟨rfl, rfl⟩
      · refine Or.inl ⟨rfl, ?_, rfl⟩
        rw [indices_eq, indices_eq, List.filterMap_append]
        rfl

theorem ingest_index (piece piece' : ActivePiece) (buf buf' : Buffer) (begin' : Nat) (data : Buffer)
    (complete : Bool) (ok : piece.ingest buf begin' data = .ok (piece', buf', complete)) :
    piece'.index = piece.index := by
  unfold ActivePiece.ingest ActivePiece.markRangeHave at ok
  split_ifs at ok
  all_goals cases ok
  all_goals rfl

theorem ingestIfStaged_some (staging staging' : StagingPool) (index begin' : Nat) (data : Buffer)
    (complete : Bool)
    (ok : staging.ingestIfStaged index begin' data = .ok (some (complete, staging'))) :
    index ∈ staging.indices ∧ staging'.indices = staging.indices ∧ staging'.pool = staging.pool := by
  unfold StagingPool.ingestIfStaged at ok
  split at ok
  · cases ok
  · rename_i piece buf found
    obtain ⟨same, member⟩ := findAssembling_some staging index piece buf found
    split at ok
    · cases ok
    · rename_i piece' buf' complete' ingested
      cases ok
      refine ⟨member, indices_withPiece staging index piece' buf' ?_, rfl⟩
      rw [ingest_index piece piece' buf buf' begin' data _ ingested, same]

theorem mem_swapRemove (slots : List Slot) (position : Nat) (slot : Slot)
    (member : slot ∈ swapRemove slots position) : slot ∈ slots := by
  unfold swapRemove at member
  split at member
  · rename_i last found
    rcases List.mem_or_eq_of_mem_set (List.mem_of_mem_dropLast member) with old | new
    · exact old
    · rw [new]
      exact List.mem_of_getLast? found
  · exact member

theorem takeForHash_some (staging staging' : StagingPool) (shared shared' : Option PieceBufferPool)
    (index : Nat) (data : Buffer)
    (taken : staging.takeForHash shared index = some (data, staging', shared')) :
    index ∈ staging.indices ∧ (∀ i, i ∈ staging'.indices → i ∈ staging.indices) ∧
      staging'.pool = staging.pool := by
  unfold StagingPool.takeForHash at taken
  split at taken
  · rename_i position piece buf _ found
    cases taken
    refine ⟨(findAssembling_some staging index piece _ found).2, ?_, rfl⟩
    intro i member
    rw [indices_eq, List.mem_filterMap] at member ⊢
    obtain ⟨slot, inside, same⟩ := member
    rcases List.mem_append.1 inside with old | new
    · exact ⟨slot, mem_swapRemove _ _ _ old, same⟩
    · rw [List.mem_singleton.1 new] at same
      cases same
  · cases taken

@[simp] theorem indices_reclaim (staging : StagingPool) (shared : Option PieceBufferPool) (index : Nat)
    (data : Buffer) : (staging.reclaim shared index data).1.indices = staging.indices := by
  rw [indices_eq, indices_eq, StagingPool.reclaim, List.filterMap_filter]
  congr 1
  funext slot
  cases slot with
  | assembling piece buf => rfl
  | hashing other =>
    dsimp only [slotIndex]
    split_ifs <;> rfl

@[simp] theorem indices_clear (staging : StagingPool) (shared : Option PieceBufferPool) :
    (staging.clear shared).1.indices = [] := by
  rw [indices_eq, StagingPool.clear, List.filterMap_filter, List.filterMap_eq_nil_iff]
  intro slot _
  cases slot <;> rfl

theorem nextRequest_index (piece piece' : ActivePiece) (request : Nat × Nat)
    (next : piece.nextRequest = some (request, piece')) : piece'.index = piece.index := by
  unfold ActivePiece.nextRequest at next
  obtain ⟨block, _, same⟩ := Option.map_eq_some_iff.1 next
  cases same
  rfl

theorem requestNext_some (staging staging' : StagingPool) (index : Nat) (request : Request)
    (next : staging.requestNext index = some (request, staging')) :
    request.1 = index ∧ index ∈ staging.indices ∧ staging'.indices = staging.indices ∧
      staging'.pool = staging.pool := by
  unfold StagingPool.requestNext at next
  split at next
  · cases next
  · rename_i piece buf found
    obtain ⟨same, member⟩ := findAssembling_some staging index piece buf found
    obtain ⟨⟨block, piece'⟩, ask, result⟩ := Option.map_eq_some_iff.1 next
    cases result
    refine ⟨rfl, member, indices_withPiece staging index piece' buf ?_, rfl⟩
    rw [nextRequest_index piece piece' block ask, same]

/-- What a fill hands out belongs to pieces that are being assembled, and the pieces stay. -/
structure Fills (staging : StagingPool) (filled : List Request × StagingPool) : Prop where
  indices : filled.2.indices = staging.indices
  pool : filled.2.pool = staging.pool
  asked : ∀ request ∈ filled.1, request.1 ∈ staging.indices

theorem fillPiece_fills (pipeline index fuel : Nat) (staging : StagingPool) :
    Fills staging (StagingPool.fillPiece pipeline index fuel staging) := by
  induction fuel generalizing staging with
  | zero => exact ⟨rfl, rfl, fun _ none' => absurd none' List.not_mem_nil⟩
  | succ fuel ih =>
    rw [StagingPool.fillPiece]
    split_ifs
    · split
      · exact ⟨rfl, rfl, fun _ none' => absurd none' List.not_mem_nil⟩
      · rename_i request next found
        obtain ⟨named, member, indices, pool⟩ := requestNext_some staging next index request found
        have later := ih next
        refine ⟨later.indices.trans indices, later.pool.trans pool, ?_⟩
        intro other asked
        rcases List.mem_cons.1 asked with first | rest
        · rw [first, named]
          exact member
        · rw [← indices]
          exact later.asked other rest
    · exact ⟨rfl, rfl, fun _ none' => absurd none' List.not_mem_nil⟩

theorem outstanding_set (have_ requested : List Bool) (i : Nat)
    (paired : requested.length = have_.length) (inside : i < have_.length)
    (missing : have_.getD i false = false) (unasked : requested.getD i false = false) :
    ((have_.zip (requested.set i true)).filter (fun block => !block.1 && block.2)).length =
      ((have_.zip requested).filter (fun block => !block.1 && block.2)).length + 1 := by
  induction have_ generalizing requested i with
  | nil => cases inside
  | cons got rest ih =>
    cases requested with
    | nil => cases paired
    | cons asked others =>
      cases i with
      | zero =>
        simp only [List.getD_cons_zero] at missing unasked
        simp [missing, unasked]
      | succ i =>
        simp only [List.getD_cons_succ] at missing unasked
        have later := ih others i (Nat.succ.inj paired) (Nat.lt_of_succ_lt_succ inside) missing unasked
        simp only [List.set_cons_succ, List.zip_cons_cons, List.filter_cons]
        split_ifs
        · simp only [List.length_cons, later]
        · exact later

theorem nextRequest_outstanding (piece piece' : ActivePiece) (request : Nat × Nat)
    (next : piece.nextRequest = some (request, piece')) :
    piece'.outstandingRequests = piece.outstandingRequests + 1 := by
  unfold ActivePiece.nextRequest ActivePiece.nextBlock at next
  obtain ⟨i, found, same⟩ := Option.map_eq_some_iff.1 next
  have open' := List.find?_some found
  have inside := List.mem_range.1 (List.mem_of_find?_eq_some found)
  rw [Bool.and_eq_true, Bool.not_eq_true', Bool.not_eq_true'] at open'
  cases same
  exact outstanding_set piece.have_ piece.requested i piece.paired inside open'.1 open'.2

def slotOutstanding : Slot → Nat
  | .assembling piece _ => piece.outstandingRequests
  | .hashing _ => 0

theorem outstanding_replaceFirst (index : Nat) (piece piece' : ActivePiece) (buf : Buffer)
    (slots : List Slot)
    (found : slots.findSome? (Slot.piece index) = some (piece, buf))
    (more : piece'.outstandingRequests = piece.outstandingRequests + 1) :
    ((StagingPool.replaceFirst index (.assembling piece' buf) slots).map slotOutstanding).sum =
      (slots.map slotOutstanding).sum + 1 := by
  induction slots with
  | nil => cases found
  | cons first rest ih =>
    rw [List.findSome?_cons] at found
    rw [StagingPool.replaceFirst]
    cases first with
    | assembling other held =>
      by_cases same : other.index = index
      · rw [Slot.piece, if_pos same] at found
        cases found
        simp only [Slot.assembles, same, decide_true, if_true, List.map_cons, List.sum_cons,
          slotOutstanding, more]
        omega
      · rw [Slot.piece, if_neg same] at found
        simp only [Slot.assembles, same, decide_false, Bool.false_eq_true, if_false, List.map_cons,
          List.sum_cons, ih found]
        omega
    | hashing other =>
      simp only [Slot.assembles, Bool.false_eq_true, if_false, List.map_cons, List.sum_cons, ih found]
      omega

/-- Every request adds one outstanding block. -/
theorem requestNext_outstanding (staging staging' : StagingPool) (index : Nat) (request : Request)
    (next : staging.requestNext index = some (request, staging')) :
    staging'.totalOutstanding = staging.totalOutstanding + 1 := by
  unfold StagingPool.requestNext at next
  split at next
  · cases next
  · rename_i piece buf found
    obtain ⟨⟨block, piece'⟩, ask, result⟩ := Option.map_eq_some_iff.1 next
    cases result
    exact outstanding_replaceFirst index piece piece' buf staging.slots found
      (nextRequest_outstanding piece piece' block ask)

/-- The fuel of `fillPiece` is never the reason it stops. -/
theorem fillPiece_ends (pipeline index fuel : Nat) (staging : StagingPool)
    (enough : pipeline ≤ fuel + staging.totalOutstanding) :
    pipeline ≤ (StagingPool.fillPiece pipeline index fuel staging).2.totalOutstanding ∨
      (StagingPool.fillPiece pipeline index fuel staging).2.requestNext index = none := by
  induction fuel generalizing staging with
  | zero => exact Or.inl (by simpa [StagingPool.fillPiece] using enough)
  | succ fuel ih =>
    rw [StagingPool.fillPiece]
    split_ifs with room
    · split
      · rename_i stuck
        exact Or.inr stuck
      · rename_i request next found
        have grown := requestNext_outstanding staging next index request found
        exact ih next (by omega)
    · exact Or.inl (Nat.not_lt.1 room)

theorem fillExisting_fills (pipeline : Nat) (mayRequestPiece : Nat → Bool) (order : List Nat)
    (staging : StagingPool) :
    Fills staging (StagingPool.fillExisting pipeline mayRequestPiece order staging) := by
  induction order generalizing staging with
  | nil => exact ⟨rfl, rfl, fun _ none' => absurd none' List.not_mem_nil⟩
  | cons index rest ih =>
    rw [StagingPool.fillExisting]
    dsimp only
    have one := fillPiece_fills pipeline index pipeline staging
    split_ifs
    · exact one
    · have more := ih (StagingPool.fillPiece pipeline index pipeline staging).2
      refine ⟨more.indices.trans one.indices, more.pool.trans one.pool, ?_⟩
      intro request asked
      rcases List.mem_append.1 asked with first | later
      · exact one.asked request first
      · rw [← one.indices]
        exact more.asked request later
    · exact ih staging

theorem contains_of_mem (staging : StagingPool) (index : Nat) (member : index ∈ staging.indices) :
    staging.contains index = true := by
  rw [indices_eq, List.mem_filterMap] at member
  obtain ⟨slot, inside, same⟩ := member
  unfold StagingPool.contains
  rw [List.any_eq_true]
  refine ⟨slot, inside, ?_⟩
  cases slot with
  | assembling piece buf => exact decide_eq_true (Option.some.inj same)
  | hashing other => cases same

end Seedchamp.Staging.Assembly
