import Seedchamp.Peer.StagingBudget
import Mathlib.Data.Prod.Lex

/-!
A call of `issue_requests` that runs alone: it ends, and where the session has a freelist with a free
buffer and a piece that it may open, a request is outstanding at its end.
-/

namespace Seedchamp.Peer.RequestProgress
open Foundation.TransitionSystem Hot.Torrent Hot.Torrent.HotTorrent Staging.PiecePool Staging.Pool
open Staging.Assembly Staging.Progress Peer.Download

/-! ### A call that runs alone -/

/-- A piece that the pick can claim. -/
def pickable (w : Swarm) (s : Nat) (snapshot : Snapshot) : Bool :=
  decide (∃ index < w.torrent.pieceCount,
    (w.sessions s).dl.eligible snapshot index = true ∧ w.torrent.hasPiece index = false)

/-- A step of the call; the pick gives up only when no candidate is left. -/
def callStep (s : Nat) (w : Swarm) (event : Inner) : Option Swarm :=
  match (w.sessions s).pc, event with
  | .picking _ snapshot, .giveUp => if pickable w s snapshot then none else stepInner w s .giveUp
  | _, event => stepInner w s event

/-- A wanted piece that the session may open. -/
structure Candidate (w : Swarm) (s index : Nat) : Prop where
  inside : index < w.torrent.pieceCount
  wanted : w.torrent.wantsPiece index = true
  missing : w.torrent.hasPiece index = false
  unstarted : (w.sessions s).dl.unstarted index = true
  free : (w.sessions s).dl.endgame = true ∨ index ∉ w.torrent.inFlight

/-- The session can take a buffer, and may request. -/
structure Stocked (size : Nat) (w : Swarm) (s : Nat) : Prop where
  unchoked : (w.sessions s).dl.peerChoking = false
  sane : Sane size (w.sessions s).dl.staging
  room : ∃ shared, sharedPool w.torrent (w.sessions s).dl.staging = some shared ∧ 0 < shared.available
  solid : ∀ index < w.torrent.pieceCount, ∃ length, w.torrent.layout.pieceSize index = .ok length ∧
    0 < length ∧ length ≤ size

def snapshotOf (t : HotTorrent) : Snapshot := ⟨t.pieces.complete, t.pieces.bitfield, t.wantedBf, t.inFlight⟩

/-- What the call relies on between two of its steps, as long as it has opened nothing. -/
def Opening (w : Swarm) (s : Nat) : Prop :=
  match (w.sessions s).pc with
  | .round call => 1 ≤ call.turns ∧ 1 ≤ call.pipeline ∧ 1 ≤ call.maxPieces ∧ ∃ index, Candidate w s index
  | .suggest call => call.queued = false ∧ ∃ index, Candidate w s index
  | .picking call snapshot => call.queued = false ∧ snapshot = snapshotOf w.torrent ∧ ∃ index, Candidate w s index
  | .claiming call snapshot index => call.queued = false ∧ index < w.torrent.pieceCount ∧
    (∀ known, snapshot = some known → known = snapshotOf w.torrent) ∧
    (w.sessions s).dl.staging.contains index = false ∧ ∃ other, Candidate w s other
  | .opening call index length => call.queued = false ∧ (w.sessions s).dl.staging.contains index = false ∧
    0 < length ∧ length ≤ (w.sessions s).dl.staging.pieceLength
  | _ => False

/-- A request is outstanding, or the call is on its way to one. -/
def Underway (size : Nat) (w : Swarm) (s : Nat) : Prop :=
  1 ≤ (w.sessions s).dl.staging.totalOutstanding ∨ (Stocked size w s ∧ Opening w s)

/-! ### Sessions after a step -/

@[simp] theorem setPc_self (w : Swarm) (s : Nat) (pc : Pc) :
    (w.setPc s pc).sessions s = { w.sessions s with pc := pc } := Function.update_self ..

@[simp] theorem setDl_self (w : Swarm) (s : Nat) (dl : PeerDownload) :
    (w.setDl s dl).sessions s = { w.sessions s with dl := dl } := Function.update_self ..

@[simp] theorem finish_self (w : Swarm) (s : Nat) (out : List Request) :
    (w.finish s out).sessions s = { w.sessions s with pc := .idle } := Function.update_self ..

@[simp] theorem setSession_self (w : Swarm) (s : Nat) (x : Session) : (w.setSession s x).sessions s = x :=
  Function.update_self ..

theorem maxAssemblingPieces_pos (pipeline pieceLength capacity : Nat) (some' : 0 < capacity) :
    1 ≤ maxAssemblingPieces pipeline pieceLength capacity := by
  unfold maxAssemblingPieces
  rw [if_neg (by omega)]
  dsimp only
  split_ifs
  · omega
  · omega

theorem tryAcquire_available (pool : PieceBufferPool) (some' : 0 < pool.available) :
    pool.tryAcquire.isSome = true := by
  unfold PieceBufferPool.available at some'
  unfold PieceBufferPool.tryAcquire
  split
  · rfl
  · rw [if_neg (by omega)]
    rfl

theorem tryStart_started (staging : StagingPool) (shared : PieceBufferPool) (index length : Nat)
    (absent : staging.contains index = false) (some' : 0 < length) (fits : length ≤ staging.pieceLength)
    (room : 0 < shared.available) : (staging.tryStart (some shared) index length).1 = true := by
  unfold StagingPool.tryStart
  rw [absent, if_neg Bool.false_ne_true, if_neg (by omega)]
  obtain ⟨⟨buf, pool⟩, acquired⟩ := Option.isSome_iff_exists.1 (tryAcquire_available shared room)
  dsimp only
  rw [acquired]

theorem tryStart_outstanding (staging : StagingPool) (shared : Option PieceBufferPool) (index length : Nat) :
    staging.totalOutstanding ≤ (staging.tryStart shared index length).2.1.totalOutstanding := by
  unfold StagingPool.tryStart
  split_ifs
  · exact le_rfl
  · exact le_rfl
  · split
    · exact le_rfl
    · split
      · exact le_rfl
      · unfold StagingPool.totalOutstanding
        rw [List.map_append, List.sum_append]
        exact Nat.le_add_right _ _

theorem release_staging (w : Swarm) (s index : Nat) :
    ((w.release s index).sessions s).dl.staging = (w.sessions s).dl.staging := by
  simp only [Swarm.release, Swarm.setSession, Function.update_self]

/-! ### Requests stay outstanding -/

theorem round_outstanding (w : Swarm) (s : Nat) (call : Call) :
    (w.sessions s).dl.staging.totalOutstanding ≤ ((w.round s call).sessions s).dl.staging.totalOutstanding := by
  have grown := fillExisting_grows call.pipeline (w.sessions s).dl.may (w.sessions s).dl.staging.indices
    (w.sessions s).dl.staging
  unfold Swarm.round
  dsimp only
  split_ifs
  · rw [finish_self]
  · rw [finish_self, setDl_self]
    dsimp only
    omega
  · rw [setPc_self, setDl_self]
    dsimp only
    omega

theorem openPiece_outstanding (w : Swarm) (s index length : Nat) (call : Call) :
    (w.sessions s).dl.staging.totalOutstanding ≤
      ((w.openPiece s call index length).sessions s).dl.staging.totalOutstanding := by
  have started := tryStart_outstanding (w.sessions s).dl.staging (sharedPool w.torrent (w.sessions s).dl.staging)
    index length
  unfold Swarm.openPiece
  dsimp only
  by_cases contained : (w.sessions s).dl.staging.contains index = true
  · rw [if_pos contained, finish_self]
  rw [if_neg contained]
  by_cases ok : ((w.sessions s).dl.staging.tryStart (sharedPool w.torrent (w.sessions s).dl.staging)
      index length).1 = true
  · rw [if_pos ok]
    split_ifs
    · simp only [Swarm.setPc, Swarm.setDl, Swarm.setSession, Function.update_self]
      exact started
    · split
      · rename_i request staging next
        have asked := requestNext_outstanding _ staging index request next
        simp only [Swarm.setPc, Swarm.setDl, Swarm.setSession, Function.update_self]
        omega
      · simp only [Swarm.finish, Swarm.setPc, Swarm.setDl, Swarm.setSession, Function.update_self]
        exact started
  · rw [if_neg ok, finish_self]
    dsimp only
    rw [release_staging]

theorem suggest_staging (w : Swarm) (s : Nat) (call : Call) :
    ((w.suggest s call).sessions s).dl.staging = (w.sessions s).dl.staging := by
  unfold Swarm.suggest
  dsimp only
  split
  · rw [setPc_self]
  · split_ifs
    · rw [setPc_self, setDl_self]
    · rw [setDl_self]

theorem claim_staging (w : Swarm) (s index : Nat) (call : Call) (snapshot : Option Snapshot) :
    ((w.claim s call snapshot index).sessions s).dl.staging = (w.sessions s).dl.staging := by
  unfold Swarm.claim
  dsimp only
  by_cases granted : (insertClaim w.torrent index (w.sessions s).dl.endgame).1 = true
  · rw [if_pos granted]
    split
    · rw [setPc_self, setSession_self]
    · rw [finish_self, setSession_self]
  · rw [if_neg granted, setPc_self]

/-- No step of a call takes a request back. -/
theorem callStep_outstanding (s : Nat) (w w' : Swarm) (event : Inner) (taken : callStep s w event = some w') :
    (w.sessions s).dl.staging.totalOutstanding ≤ (w'.sessions s).dl.staging.totalOutstanding := by
  have inner : ∀ event, stepInner w s event = some w' →
      (w.sessions s).dl.staging.totalOutstanding ≤ (w'.sessions s).dl.staging.totalOutstanding := by
    intro event taken
    unfold stepInner at taken
    split at taken
    · cases taken
      exact round_outstanding w s _
    · cases taken
      rw [suggest_staging]
    · split_ifs at taken
      cases taken
      rw [setPc_self]
    · cases taken
      rw [finish_self]
    · cases taken
      rw [claim_staging]
    · cases taken
      exact openPiece_outstanding w s _ _ _
    · cases taken
      simp only [Swarm.setPc, Swarm.setSession, Function.update_self, le_refl]
    · cases taken
      simp only [Swarm.setPc, Swarm.setSession, Function.update_self, le_refl]
    · cases taken
  unfold callStep at taken
  split at taken
  · split_ifs at taken
    exact inner .giveUp taken
  · exact inner _ taken

/-! ### On the way to a request -/

section
variable {size : Nat} (w : Swarm) (s : Nat)

theorem contains_of_unstarted (index : Nat) (unstarted : (w.sessions s).dl.unstarted index = true) :
    (w.sessions s).dl.staging.contains index = false := by
  rw [PeerDownload.unstarted, Bool.and_eq_true, Bool.and_eq_true, Bool.and_eq_true, Bool.not_eq_true'] at unstarted
  exact unstarted.1.1.1

/-- A candidate is eligible in a snapshot of now. -/
theorem eligible_candidate (index : Nat) (candidate : Candidate w s index) :
    (w.sessions s).dl.eligible (snapshotOf w.torrent) index = true := by
  have missing := candidate.missing
  have wanted := candidate.wanted
  have below := Nat.not_le.2 candidate.inside
  rw [hasPiece, if_neg below] at missing
  rw [wantsPiece, if_neg below] at wanted
  split_ifs at missing with complete
  rw [PeerDownload.eligible, candidate.unstarted, snapshotOf]
  dsimp only
  rw [Bool.eq_false_of_not_eq_true complete, missing, wanted]
  rcases candidate.free with endgame | free
  · rw [endgame]
    rfl
  · rw [decide_eq_true free, Bool.or_true]
    rfl

theorem pickable_candidate (index : Nat) (candidate : Candidate w s index) :
    pickable w s (snapshotOf w.torrent) = true :=
  decide_eq_true ⟨index, candidate.inside, eligible_candidate w s index candidate, candidate.missing⟩

/-- Nothing that the session relies on has changed. -/
theorem stocked_same (w' : Swarm) (stocked : Stocked size w s)
    (choking : (w'.sessions s).dl.peerChoking = (w.sessions s).dl.peerChoking)
    (staging : (w'.sessions s).dl.staging = (w.sessions s).dl.staging)
    (pools : w'.torrent.pools = w.torrent.pools) (layout : w'.torrent.layout = w.torrent.layout)
    (count : w'.torrent.pieceCount = w.torrent.pieceCount) : Stocked size w' s := by
  refine ⟨choking.trans stocked.unchoked, staging ▸ stocked.sane, ?_, ?_⟩
  · rw [sharedPool, staging, pools]
    exact stocked.room
  · rw [layout, count]
    exact stocked.solid

theorem candidate_same (w' : Swarm) (index : Nat) (candidate : Candidate w s index)
    (torrent : w'.torrent = w.torrent) (endgame : (w'.sessions s).dl.endgame = (w.sessions s).dl.endgame)
    (unstarted : (w'.sessions s).dl.unstarted = (w.sessions s).dl.unstarted) : Candidate w' s index := by
  refine ⟨?_, ?_, ?_, ?_, ?_⟩
  · rw [torrent]
    exact candidate.inside
  · rw [torrent]
    exact candidate.wanted
  · rw [torrent]
    exact candidate.missing
  · rw [unstarted]
    exact candidate.unstarted
  · rw [torrent, endgame]
    exact candidate.free

/-- A round of a session that assembles nothing goes on to open a piece. -/
theorem underway_round (call : Call) (stocked : Stocked size w s) (turns : 1 ≤ call.turns)
    (pipeline : 1 ≤ call.pipeline) (maxPieces : 1 ≤ call.maxPieces) (index : Nat)
    (candidate : Candidate w s index)
    (none' : (w.sessions s).dl.staging.totalOutstanding = 0) : Underway size (w.round s call) s := by
  cases assembled : (w.sessions s).dl.staging.indices with
  | cons first rest =>
    left
    have may : (w.sessions s).dl.may first = true := by
      rw [PeerDownload.may, stocked.unchoked]
      rfl
    have filled := fillExisting_outstanding (w.sessions s).dl.staging stocked.sane call.pipeline first
      (w.sessions s).dl.may rest pipeline may (by rw [assembled]; exact List.mem_cons_self)
    unfold Swarm.round
    rw [if_neg (by omega), assembled]
    dsimp only
    split_ifs
    · rw [finish_self, setDl_self]
      exact filled
    · rw [setPc_self, setDl_self]
      exact filled
  | nil =>
    right
    obtain ⟨shared, holds, available⟩ := stocked.room
    have empty : (w.sessions s).dl.staging.len = 0 := by
      rw [StagingPool.len, assembled]
      rfl
    have goes : w.round s call = (w.setDl s (w.sessions s).dl).setPc s (.suggest
        { call with turns := call.turns - 1, queued := false, out := call.out ++ [] }) := by
      unfold Swarm.round
      rw [if_neg (by omega), assembled]
      dsimp only [StagingPool.fillExisting]
      have same : (w.setDl s (w.sessions s).dl).torrent = w.torrent := rfl
      rw [same, holds, Option.map_some, Option.getD_some, if_neg (by omega)]
      rfl
    rw [goes]
    refine ⟨stocked_same w s _ stocked ?_ ?_ rfl rfl rfl, ?_⟩
    · rw [setPc_self, setDl_self]
    · rw [setPc_self, setDl_self]
    · rw [Opening, setPc_self]
      refine ⟨rfl, index, candidate_same w s _ index candidate rfl ?_ ?_⟩
      · rw [setPc_self, setDl_self]
      · rw [setPc_self, setDl_self]

theorem underway_suggest (call : Call) (stocked : Stocked size w s) (queued : call.queued = false) (index : Nat)
    (candidate : Candidate w s index) (at' : (w.sessions s).pc = .suggest call) :
    Underway size (w.suggest s call) s := by
  right
  unfold Swarm.suggest
  dsimp only
  split
  · refine ⟨stocked_same w s _ stocked ?_ ?_ rfl rfl rfl, ?_⟩
    · rw [setPc_self]
    · rw [setPc_self]
    · rw [Opening, setPc_self]
      refine ⟨queued, rfl, index, candidate_same w s _ index candidate rfl ?_ ?_⟩
      · rw [setPc_self]
      · rw [setPc_self]
  · rename_i first rest _
    split_ifs with able
    · refine ⟨stocked_same w s _ stocked ?_ ?_ rfl rfl rfl, ?_⟩
      · rw [setPc_self, setDl_self]
      · rw [setPc_self, setDl_self]
      · rw [Opening, setPc_self]
        refine ⟨queued, able.2.2.2, nofun, ?_, index, candidate_same w s _ index candidate rfl ?_ ?_⟩
        · rw [setDl_self]
          exact contains_of_unstarted w s first able.2.2.1
        · rw [setPc_self, setDl_self]
        · rw [setPc_self, setDl_self]
          rfl
    · refine ⟨stocked_same w s _ stocked ?_ ?_ rfl rfl rfl, ?_⟩
      · rw [setDl_self]
      · rw [setDl_self]
      · rw [Opening, setDl_self]
        dsimp only
        rw [at']
        refine ⟨queued, index, candidate_same w s _ index candidate rfl ?_ ?_⟩
        · rw [setDl_self]
        · rw [setDl_self]
          rfl

theorem underway_pick (call : Call) (snapshot : Snapshot) (picked : Nat) (stocked : Stocked size w s)
    (queued : call.queued = false) (current : snapshot = snapshotOf w.torrent) (index : Nat)
    (candidate : Candidate w s index) (eligible : (w.sessions s).dl.eligible snapshot picked = true)
    (inside : picked < w.torrent.pieceCount) :
    Underway size (w.setPc s (.claiming call (some snapshot) picked)) s := by
  have unstarted : (w.sessions s).dl.unstarted picked = true := by
    rw [PeerDownload.eligible, Bool.and_eq_true, Bool.and_eq_true, Bool.and_eq_true, Bool.and_eq_true] at eligible
    exact eligible.1.1.1.1
  right
  refine ⟨stocked_same w s _ stocked ?_ ?_ rfl rfl rfl, ?_⟩
  · rw [setPc_self]
  · rw [setPc_self]
  · rw [Opening, setPc_self]
    refine ⟨queued, inside, ?_, ?_, index, candidate_same w s _ index candidate rfl ?_ ?_⟩
    · intro known same
      cases same
      exact current
    · exact contains_of_unstarted w s picked unstarted
    · rw [setPc_self]
    · rw [setPc_self]

theorem underway_claim (call : Call) (snapshot : Option Snapshot) (claimed : Nat) (stocked : Stocked size w s)
    (queued : call.queued = false) (inside : claimed < w.torrent.pieceCount)
    (current : ∀ known, snapshot = some known → known = snapshotOf w.torrent)
    (absent : (w.sessions s).dl.staging.contains claimed = false) (index : Nat)
    (candidate : Candidate w s index) : Underway size (w.claim s call snapshot claimed) s := by
  right
  obtain ⟨length, sized, some', fits⟩ := stocked.solid claimed inside
  have staging := claim_staging w s claimed call snapshot
  unfold Swarm.claim insertClaim at staging ⊢
  dsimp only at staging ⊢
  by_cases granted : ((w.sessions s).dl.endgame || decide (claimed ∉ w.torrent.inFlight)) = true
  · rw [if_pos granted] at staging ⊢
    have sized' : ({ w.torrent with inFlight := insert claimed w.torrent.inFlight } : HotTorrent).layout.pieceSize
        claimed = .ok length := sized
    dsimp only [Swarm.setSession] at staging ⊢
    rw [sized'] at staging ⊢
    dsimp only at staging ⊢
    refine ⟨stocked_same w s _ stocked ?_ staging rfl rfl rfl, ?_⟩
    · rw [setPc_self]
      dsimp only
      rw [Function.update_self]
    · rw [Opening, setPc_self]
      dsimp only
      rw [Function.update_self]
      refine ⟨queued, absent, some', ?_⟩
      rw [stocked.sane.pieceLength]
      exact fits
  · rw [if_neg granted] at staging ⊢
    rw [Bool.or_eq_true, decide_eq_true_eq, not_or, not_not] at granted
    have same : insert claimed w.torrent.inFlight = w.torrent.inFlight := Finset.insert_eq_of_mem granted.2
    rw [same] at staging ⊢
    refine ⟨stocked_same w s _ stocked ?_ staging rfl rfl rfl, ?_⟩
    · rw [setPc_self]
    · rw [Opening, setPc_self]
      cases snapshot with
      | none => exact ⟨queued, index, candidate_same w s _ index candidate rfl (by rw [setPc_self]) (by rw [setPc_self])⟩
      | some known =>
        exact ⟨queued, current known rfl, index,
          candidate_same w s _ index candidate rfl (by rw [setPc_self]) (by rw [setPc_self])⟩

/-- The piece is opened, and its first block requested. -/
theorem underway_openPiece (call : Call) (index length : Nat) (stocked : Stocked size w s)
    (queued : call.queued = false) (absent : (w.sessions s).dl.staging.contains index = false)
    (some' : 0 < length) (fits : length ≤ (w.sessions s).dl.staging.pieceLength) :
    Underway size (w.openPiece s call index length) s := by
  left
  obtain ⟨shared, holds, available⟩ := stocked.room
  have started := tryStart_started (w.sessions s).dl.staging shared index length absent some' fits available
  have asks := requestNext_opened (w.sessions s).dl.staging stocked.sane (some shared) index length absent started
  obtain ⟨⟨request, staging⟩, next⟩ := Option.isSome_iff_exists.1 asks
  have grown := requestNext_outstanding _ staging index request next
  unfold Swarm.openPiece
  dsimp only
  rw [absent, if_neg Bool.false_ne_true, holds, if_pos started, queued, if_neg Bool.false_ne_true, next]
  simp only [Swarm.setPc, Swarm.setDl, Swarm.setSession, Function.update_self]
  omega

theorem callStep_underway (w' : Swarm) (event : Inner) (underway : Underway size w s)
    (taken : callStep s w event = some w') : Underway size w' s := by
  rcases underway with asked | ⟨stocked, opening⟩
  · exact Or.inl (asked.trans (callStep_outstanding s w w' event taken))
  by_cases none' : (w.sessions s).dl.staging.totalOutstanding = 0
  · unfold Opening at opening
    cases at' : (w.sessions s).pc with
    | idle =>
      rw [at'] at opening
      exact opening.elim
    | round call =>
      rw [at'] at opening
      obtain ⟨turns, pipeline, maxPieces, index, candidate⟩ := opening
      simp only [callStep, stepInner, at'] at taken
      cases event with
      | round =>
        cases taken
        exact underway_round w s call stocked turns pipeline maxPieces index candidate none'
      | _ => cases taken
    | suggest call =>
      rw [at'] at opening
      obtain ⟨queued, index, candidate⟩ := opening
      simp only [callStep, stepInner, at'] at taken
      cases event with
      | suggest =>
        cases taken
        exact underway_suggest w s call stocked queued index candidate at'
      | _ => cases taken
    | picking call snapshot =>
      rw [at'] at opening
      obtain ⟨queued, current, index, candidate⟩ := opening
      simp only [callStep, stepInner, at'] at taken
      cases event with
      | pick picked =>
        dsimp only at taken
        split_ifs at taken with able
        cases taken
        exact underway_pick w s call snapshot picked stocked queued current index candidate able.1 able.2.1
      | giveUp =>
        dsimp only at taken
        rw [current, pickable_candidate w s index candidate, if_pos rfl] at taken
        cases taken
      | _ => cases taken
    | claiming call snapshot index =>
      rw [at'] at opening
      obtain ⟨queued, inside, current, absent, other, candidate⟩ := opening
      simp only [callStep, stepInner, at'] at taken
      cases event with
      | claim =>
        cases taken
        exact underway_claim w s call snapshot index stocked queued inside current absent other candidate
      | _ => cases taken
    | opening call index length =>
      rw [at'] at opening
      obtain ⟨queued, absent, some', fits⟩ := opening
      simp only [callStep, stepInner, at'] at taken
      cases event with
      | openPiece =>
        cases taken
        exact underway_openPiece w s call index length stocked queued absent some' fits
      | _ => cases taken
    | releasing index =>
      rw [at'] at opening
      exact opening.elim
    | marking index =>
      rw [at'] at opening
      exact opening.elim
  · exact Or.inl ((Nat.one_le_iff_ne_zero.2 none').trans (callStep_outstanding s w w' event taken))

/-- A call begins with a turn to take, and room for a piece. -/
theorem beginIssue_some (dl : PeerDownload) (t : HotTorrent) (grant : Option Nat) (call : Call)
    (room : ∃ shared, sharedPool t dl.staging = some shared ∧ 0 < shared.available)
    (began : dl.beginIssue t grant = some call) : 1 ≤ call.turns ∧ 1 ≤ call.pipeline ∧ 1 ≤ call.maxPieces := by
  obtain ⟨shared, holds, available⟩ := room
  have capacity : 0 < shared.capacity := Nat.lt_of_lt_of_le available (Nat.sub_le _ _)
  unfold PeerDownload.beginIssue at began
  dsimp only at began
  obtain ⟨blocks, _, later⟩ := Option.bind_eq_some_iff.1 began
  split_ifs at later
  cases later
  have pipeline : 1 ≤ max blocks 1 := Nat.le_max_right _ _
  refine ⟨?_, pipeline, ?_⟩
  · dsimp only
    omega
  · rw [holds]
    exact maxAssemblingPieces_pos _ _ _ capacity

/-- A call that does not begin, with tokens for a block, has enough requests outstanding. -/
theorem beginIssue_none (dl : PeerDownload) (t : HotTorrent) (grant : Option Nat)
    (granted : ∀ tokens, grant = some tokens → BLOCK_SIZE ≤ tokens)
    (refused : dl.beginIssue t grant = none) : 1 ≤ dl.staging.totalOutstanding := by
  have low : ∀ blocks, ((if dl.endgame = false ∧ max (max blocks 1 / 2) 1 < dl.staging.totalOutstanding then none
      else some (⟨max blocks 1, maxAssemblingPieces (max blocks 1) dl.staging.pieceLength
        (((sharedPool t dl.staging).map PieceBufferPool.capacity).getD 0),
        max blocks 1 * 4 + dl.staging.slots.length + 8, false, []⟩ : Call)) = none) →
      1 ≤ dl.staging.totalOutstanding := by
    intro blocks refused
    split_ifs at refused with many
    have few : 1 ≤ max (max blocks 1 / 2) 1 := Nat.le_max_right _ _
    omega
  cases grant with
  | none => exact low dl.pipeline refused
  | some tokens =>
    unfold PeerDownload.beginIssue at refused
    dsimp only at refused
    rw [if_neg (Nat.not_lt.2 (granted tokens rfl)), Option.bind_some] at refused
    exact low _ refused

/-- A call of a session that has a buffer and a piece to open. -/
theorem underway_issue (grant : Option Nat) (stocked : Stocked size w s) (index : Nat)
    (candidate : Candidate w s index) (granted : ∀ tokens, grant = some tokens → BLOCK_SIZE ≤ tokens) :
    Underway size (w.issue s grant) s := by
  unfold Swarm.issue
  split
  · rename_i refused
    left
    rw [finish_self]
    exact beginIssue_none _ _ grant granted refused
  · rename_i call began
    obtain ⟨turns, pipeline, maxPieces⟩ := beginIssue_some _ _ grant call stocked.room began
    right
    refine ⟨stocked_same w s _ stocked (by rw [setPc_self]) (by rw [setPc_self]) rfl rfl rfl, ?_⟩
    rw [Opening, setPc_self]
    exact ⟨turns, pipeline, maxPieces, index,
      candidate_same w s _ index candidate rfl (by rw [setPc_self]) (by rw [setPc_self])⟩

theorem outstanding_of_underway (underway : Underway size w s) (idle : (w.sessions s).pc = .idle) :
    1 ≤ (w.sessions s).dl.staging.totalOutstanding := by
  rcases underway with asked | ⟨_, opening⟩
  · exact asked
  · rw [Opening, idle] at opening
    exact opening.elim

/-- At the end of a call that ran alone a request is outstanding. -/
theorem call_requests (grant : Option Nat) (stocked : Stocked size w s) (index : Nat)
    (candidate : Candidate w s index) (granted : ∀ tokens, grant = some tokens → BLOCK_SIZE ≤ tokens)
    (events : List Inner) (w' : Swarm) (ran : exec (callStep s) (w.issue s grant) events = some w')
    (ended : (w'.sessions s).pc = .idle) : 1 ≤ (w'.sessions s).dl.staging.totalOutstanding :=
  outstanding_of_underway w' s (exec_invariant_free (callStep s) (fun w => Underway size w s)
    (fun w event w' underway taken => callStep_underway w s w' event underway taken) _ w' events
    (underway_issue w s grant stocked index candidate granted) ran) ended

end

/-! ### The call ends -/

def turnsOf : Pc → Nat
  | .round call | .suggest call | .picking call _ | .claiming call _ _ | .opening call _ _ => call.turns
  | _ => 0

/-- The order of the steps within one turn. -/
def stage : Pc → Nat
  | .round _ => 1
  | .opening _ _ _ => 2
  | .claiming _ (some _) _ => 3
  | .picking _ _ => 4
  | .suggest _ => 5
  | .claiming _ none _ => 6
  | _ => 0

/-- What is left of a call: its turns, then the suggestions, then the steps of the turn. -/
def remaining (x : Session) : ℕ ×ₗ ℕ ×ₗ ℕ := toLex (turnsOf x.pc, toLex (x.dl.suggested.length, stage x.pc))

/-- The call's copy of the reservations is true, as long as nobody else moves. -/
def Alone (w : Swarm) (s : Nat) : Prop :=
  match (w.sessions s).pc with
  | .picking _ snapshot => snapshot.inFlight = w.torrent.inFlight
  | .claiming _ (some _) index => (w.sessions s).dl.endgame = true ∨ index ∉ w.torrent.inFlight
  | .releasing _ | .marking _ => False
  | _ => True

theorem remaining_lt (x y : Session) (less : turnsOf y.pc < turnsOf x.pc ∨ turnsOf y.pc = turnsOf x.pc ∧
    (y.dl.suggested.length < x.dl.suggested.length ∨
      y.dl.suggested.length = x.dl.suggested.length ∧ stage y.pc < stage x.pc)) : remaining y < remaining x := by
  unfold remaining
  rw [Prod.Lex.toLex_lt_toLex, Prod.Lex.toLex_lt_toLex]
  exact less

theorem remaining_idle (x y : Session) (ended : y.pc = .idle) (running : 0 < stage x.pc)
    (suggested : y.dl.suggested = x.dl.suggested) : remaining y < remaining x := by
  apply remaining_lt
  rw [ended, suggested]
  rcases Nat.eq_zero_or_pos (turnsOf x.pc) with none' | some'
  · exact Or.inr ⟨none'.symm, Or.inr ⟨rfl, running⟩⟩
  · exact Or.inl some'

section
variable (w : Swarm) (s : Nat)

theorem alone_idle (idle : (w.sessions s).pc = .idle) : Alone w s := by
  rw [Alone, idle]
  trivial

theorem round_descends (call : Call) (at' : (w.sessions s).pc = .round call) :
    Alone (w.round s call) s ∧ remaining ((w.round s call).sessions s) < remaining (w.sessions s) := by
  have running : 0 < stage (w.sessions s).pc := by
    rw [at']
    exact Nat.one_pos
  unfold Swarm.round
  dsimp only
  split_ifs with spent full
  · exact ⟨alone_idle _ s (by rw [finish_self]), remaining_idle _ _ (by rw [finish_self]) running (by rw [finish_self])⟩
  · refine ⟨alone_idle _ s (by rw [finish_self]), remaining_idle _ _ (by rw [finish_self]) running ?_⟩
    rw [finish_self, setDl_self]
  · constructor
    · rw [Alone, setPc_self]
      trivial
    · apply remaining_lt
      left
      rw [setPc_self, at']
      dsimp only [turnsOf]
      omega

theorem suggest_descends (call : Call) (at' : (w.sessions s).pc = .suggest call) :
    Alone (w.suggest s call) s ∧ remaining ((w.suggest s call).sessions s) < remaining (w.sessions s) := by
  unfold Swarm.suggest
  dsimp only
  split
  · constructor
    · rw [Alone, setPc_self]
      rfl
    · apply remaining_lt
      rw [setPc_self, at']
      exact Or.inr ⟨rfl, Or.inr ⟨rfl, (by decide : (4 : ℕ) < 5)⟩⟩
  · rename_i first rest suggested
    have shorter : rest.length < (w.sessions s).dl.suggested.length := by
      rw [suggested, List.length_cons]
      exact Nat.lt_succ_self _
    split_ifs
    · constructor
      · rw [Alone, setPc_self]
        trivial
      · apply remaining_lt
        rw [setPc_self, setDl_self, at']
        exact Or.inr ⟨rfl, Or.inl shorter⟩
    · constructor
      · rw [Alone, setDl_self]
        dsimp only
        rw [at']
        trivial
      · apply remaining_lt
        rw [setDl_self, at']
        exact Or.inr ⟨rfl, Or.inl shorter⟩

theorem pick_descends (call : Call) (snapshot : Snapshot) (index : Nat)
    (at' : (w.sessions s).pc = .picking call snapshot) (alone : Alone w s)
    (eligible : (w.sessions s).dl.eligible snapshot index = true) :
    Alone (w.setPc s (.claiming call (some snapshot) index)) s ∧
      remaining ((w.setPc s (.claiming call (some snapshot) index)).sessions s) < remaining (w.sessions s) := by
  rw [Alone, at'] at alone
  rw [PeerDownload.eligible, Bool.and_eq_true, Bool.or_eq_true, decide_eq_true_eq] at eligible
  constructor
  · rw [Alone, setPc_self]
    dsimp only
    have same : (w.setPc s (.claiming call (some snapshot) index)).torrent = w.torrent := rfl
    rw [same, ← alone]
    exact eligible.2
  · apply remaining_lt
    rw [setPc_self, at']
    exact Or.inr ⟨rfl, Or.inr ⟨rfl, (by decide : (3 : ℕ) < 4)⟩⟩

theorem claim_descends (call : Call) (snapshot : Option Snapshot) (index : Nat)
    (at' : (w.sessions s).pc = .claiming call snapshot index) (alone : Alone w s) :
    Alone (w.claim s call snapshot index) s ∧
      remaining ((w.claim s call snapshot index).sessions s) < remaining (w.sessions s) := by
  have running : 0 < stage (w.sessions s).pc := by
    rw [at']
    cases snapshot with
    | none | some _ => exact Nat.succ_pos _
  unfold Swarm.claim insertClaim
  dsimp only
  by_cases granted : ((w.sessions s).dl.endgame || decide (index ∉ w.torrent.inFlight)) = true
  · rw [if_pos granted]
    split
    · constructor
      · rw [Alone, setPc_self]
        trivial
      · apply remaining_lt
        rw [setPc_self, setSession_self, at']
        refine Or.inr ⟨rfl, Or.inr ⟨rfl, ?_⟩⟩
        cases snapshot with
        | none => exact (by decide : (2 : ℕ) < 6)
        | some known => exact (by decide : (2 : ℕ) < 3)
    · refine ⟨alone_idle _ s (by rw [finish_self]), remaining_idle _ _ (by rw [finish_self]) running ?_⟩
      rw [finish_self, setSession_self]
  · rw [if_neg granted]
    cases snapshot with
    | none =>
      constructor
      · rw [Alone, setPc_self]
        trivial
      · apply remaining_lt
        rw [setPc_self, at']
        exact Or.inr ⟨rfl, Or.inr ⟨rfl, (by decide : (5 : ℕ) < 6)⟩⟩
    | some known =>
      rw [Alone, at'] at alone
      rw [Bool.or_eq_true, decide_eq_true_eq] at granted
      exact absurd alone granted

theorem openPiece_descends (call : Call) (index length : Nat) (at' : (w.sessions s).pc = .opening call index length) :
    Alone (w.openPiece s call index length) s ∧
      remaining ((w.openPiece s call index length).sessions s) < remaining (w.sessions s) := by
  have running : 0 < stage (w.sessions s).pc := by
    rw [at']
    exact Nat.succ_pos _
  unfold Swarm.openPiece
  dsimp only
  by_cases contained : (w.sessions s).dl.staging.contains index = true
  · rw [if_pos contained]
    exact ⟨alone_idle _ s (by rw [finish_self]),
      remaining_idle _ _ (by rw [finish_self]) running (by rw [finish_self])⟩
  rw [if_neg contained]
  split_ifs
  · constructor
    · rw [Alone, setPc_self]
      trivial
    · apply remaining_lt
      rw [setPc_self, at']
      refine Or.inr ⟨rfl, Or.inr ⟨?_, (by decide : (1 : ℕ) < 2)⟩⟩
      simp only [Swarm.setDl, Swarm.setSession, Function.update_self]
  · split
    · constructor
      · rw [Alone, setPc_self]
        trivial
      · apply remaining_lt
        rw [setPc_self, at']
        refine Or.inr ⟨rfl, Or.inr ⟨?_, (by decide : (1 : ℕ) < 2)⟩⟩
        simp only [Swarm.setDl, Swarm.setSession, Function.update_self]
    · refine ⟨alone_idle _ s (by rw [finish_self]), remaining_idle _ _ (by rw [finish_self]) running ?_⟩
      rw [finish_self]
      simp only [Swarm.setDl, Swarm.setSession, Function.update_self]
  · refine ⟨alone_idle _ s (by rw [finish_self]), remaining_idle _ _ (by rw [finish_self]) running ?_⟩
    rw [finish_self]
    simp only [Swarm.release, Swarm.setSession, Function.update_self]

/-- A call that runs alone has a next step until it has ended. -/
theorem callStep_progress (alone : Alone w s) (running : ¬(w.sessions s).pc = .idle) :
    ∃ event w', callStep s w event = some w' ∧ Alone w' s ∧
      remaining (w'.sessions s) < remaining (w.sessions s) := by
  cases at' : (w.sessions s).pc with
  | idle => exact absurd at' running
  | round call =>
    refine ⟨.round, w.round s call, ?_, round_descends w s call at'⟩
    simp only [callStep, stepInner, at']
  | suggest call =>
    refine ⟨.suggest, w.suggest s call, ?_, suggest_descends w s call at'⟩
    simp only [callStep, stepInner, at']
  | picking call snapshot =>
    by_cases left : pickable w s snapshot = true
    · obtain ⟨index, inside, eligible, missing⟩ := of_decide_eq_true left
      refine ⟨.pick index, _, ?_, pick_descends w s call snapshot index at' alone eligible⟩
      simp only [callStep, stepInner, at']
      rw [if_pos ⟨eligible, inside, missing⟩]
    · refine ⟨.giveUp, w.finish s call.out, ?_, alone_idle _ s (by rw [finish_self]), ?_⟩
      · simp only [callStep, stepInner, at']
        rw [if_neg left]
      · apply remaining_idle _ _ (by rw [finish_self])
        · rw [at']
          exact Nat.succ_pos _
        · rw [finish_self]
  | claiming call snapshot index =>
    refine ⟨.claim, w.claim s call snapshot index, ?_, claim_descends w s call snapshot index at' alone⟩
    simp only [callStep, stepInner, at']
  | opening call index length =>
    refine ⟨.openPiece, w.openPiece s call index length, ?_, openPiece_descends w s call index length at'⟩
    simp only [callStep, stepInner, at']
  | releasing index =>
    rw [Alone, at'] at alone
    exact alone.elim
  | marking index =>
    rw [Alone, at'] at alone
    exact alone.elim

theorem call_ends (grant : Option Nat) : ∃ events w',
    exec (callStep s) (w.issue s grant) events = some w' ∧ (w'.sessions s).pc = .idle := by
  refine exec_descends (callStep s) (fun w => remaining (w.sessions s)) (fun w => Alone w s)
    (fun w => (w.sessions s).pc = .idle) (fun w alone running => callStep_progress w s alone running) _ ?_
  unfold Swarm.issue
  split
  · exact alone_idle _ s (by rw [finish_self])
  · rw [Alone, setPc_self]
    trivial

end

end Seedchamp.Peer.RequestProgress
