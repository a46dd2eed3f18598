import Seedchamp.Peer.RequestProgress
import Seedchamp.Disk.ReadWrite

/-!
What a session declares to its peer against what it can do: `run_duplex` decides once whether a session gets
the freelist of the torrent, the head of its read loop decides again and again whether it is interested.
-/

namespace Seedchamp.Peer.Interest
open Foundation.TransitionSystem Disk.Spans Disk.ReadWrite Hot.Torrent Hot.Torrent.HotTorrent
open Hot.Possession Staging.PiecePool Staging.Pool Staging.Assembly Peer.Download Peer.Claims
open Peer.StagingBudget Peer.RequestProgress

/-! ### The read loops -/

/-- The part of a session's configuration and of the locals of `reader_loop` that decides its interest.
`canDownload` is `allow_download` with a hash pool; `leaving` is a loop that will not turn again. -/
structure Reader where
  canDownload : Bool
  allowUpload : Bool
  amInterested : Bool
  sentNotInterested : Bool
  leaving : Bool
  deriving DecidableEq

/-- A session between `run_duplex`'s look at the torrent and its first own step. -/
structure Setup where
  canDownload : Bool
  allowUpload : Bool
  wantDownload : Bool
  ensured : Bool
  deriving DecidableEq

structure World where
  swarm : Swarm
  readers : Nat → Reader
  setups : List Setup

inductive Event where
  | connect (canDownload allowUpload : Bool)
  | prepare (setup : Nat)
  | attach (setup : Nat) (pipeline : Nat)
  | turn (s : Nat) (pipeline : Nat)
  | inner (s : Nat) (event : Inner)
  | outer (s : Nat) (event : Outer)
  | setFilePriority (fileIdx : Nat) (priority : Int)
  | ensureStagingPool
  | fillStagingPool
  | releaseStagingPool
  deriving DecidableEq

def World.withSwarm (w : World) (swarm : Swarm) : World := { w with swarm := swarm }

def World.withTorrent (w : World) (t : HotTorrent) : World := w.withSwarm { w.swarm with torrent := t }

/-- `run_duplex` looks whether there is something to download. -/
def connect (w : World) (canDownload allowUpload : Bool) : World :=
  { w with setups := w.setups ++
    [⟨canDownload, allowUpload, canDownload && !w.swarm.torrent.isDownloadComplete, false⟩] }

/-- The session sets the limit of the torrent and ensures the pool. -/
def prepare (limit : Nat) (w : World) (i : Nat) (setup : Setup) : World :=
  { w with
    swarm := { w.swarm with torrent := (w.swarm.torrent.setStagingMemLimit limit).ensureStagingPool }
    setups := w.setups.set i { setup with ensured := true } }

/-- The rest of the session's start. -/
def begin' (w : World) (i : Nat) (setup : Setup) (pipeline : Nat) : World where
  swarm := attach w.swarm setup.wantDownload pipeline
  readers := Function.update w.readers w.swarm.joined
    ⟨setup.canDownload, setup.allowUpload, setup.wantDownload, false, false⟩
  setups := w.setups.eraseIdx i

def downloading (w : World) (s : Nat) : Bool :=
  (w.readers s).canDownload && !w.swarm.torrent.isDownloadComplete

/-- The session sees missing work again. -/
def resume (w : World) (s pipeline : Nat) : World where
  swarm := w.swarm.setDl s { (w.swarm.sessions s).dl with pipeline := pipeline, endgame := false }
  readers := Function.update w.readers s { w.readers s with amInterested := true, sentNotInterested := false }
  setups := w.setups

/-- The session has nothing to download any more. -/
def loseInterest (w : World) (s : Nat) : World where
  swarm := w.swarm.clearStaging s
  readers := Function.update w.readers s { w.readers s with amInterested := false, sentNotInterested := true }
  setups := w.setups

/-- The head of the read loop, up to the requests that it issues. -/
def turn (w : World) (s pipeline : Nat) : World :=
  let resumed := if downloading w s && !(w.readers s).amInterested then resume w s pipeline else w
  let settled :=
    if (resumed.readers s).amInterested && !downloading w s && !(resumed.readers s).sentNotInterested then
      loseInterest resumed s
    else resumed
  { settled with
    readers := Function.update settled.readers s { settled.readers s with
      leaving := !downloading w s && !(settled.readers s).allowUpload } }

def step (limit : Nat) (w : World) : Event → Option World
  | .connect canDownload allowUpload => some (connect w canDownload allowUpload)
  | .prepare i =>
    match w.setups[i]? with
    | some setup => if setup.wantDownload then some (prepare limit w i setup) else none
    | none => none
  | .attach i pipeline =>
    match w.setups[i]? with
    | some setup => if setup.wantDownload = setup.ensured then some (begin' w i setup pipeline) else none
    | none => none
  | .turn s pipeline =>
    if (w.swarm.sessions s).live ∧ (w.swarm.sessions s).pc = .idle ∧ (w.readers s).leaving = false then
      some (turn w s pipeline)
    else none
  | .inner s event => (Download.step w.swarm (.inner s event)).map w.withSwarm
  | .outer s event => (Download.step w.swarm (.outer s event)).map w.withSwarm
  | .setFilePriority fileIdx priority => some (w.withTorrent (w.swarm.torrent.setFilePriority fileIdx priority))
  | .ensureStagingPool => some (w.withTorrent w.swarm.torrent.ensureStagingPool)
  | .fillStagingPool => some (w.withTorrent w.swarm.torrent.fillStagingPool)
  | .releaseStagingPool => some (w.withTorrent w.swarm.torrent.releaseStagingPool)

/-- The torrent as its start leaves it, before any session. -/
def opened (limit : Nat) (t : HotTorrent) : World where
  swarm := initial (t.setStagingMemLimit limit).ensureStagingPool
  readers := fun _ => ⟨false, false, false, false, false⟩
  setups := []

/-- Every session that may download holds the pool of the torrent, or will ask for it. Where the completion
released the pool, no such session is running. -/
def equipped (w : World) : Bool :=
  decide (∀ s < w.swarm.joined, (w.swarm.sessions s).live = true → (w.readers s).canDownload = true →
    (w.swarm.sessions s).dl.staging.pool.isSome = true ∧
      (w.swarm.sessions s).dl.staging.pool = w.swarm.torrent.stagingPool) &&
    w.setups.all (fun setup => !setup.canDownload || setup.wantDownload)

/-- Missing work appears again only while every session is equipped for it, and a pool is released only on
a completion that still holds. -/
def interestGuard (w : World) : Event → Bool
  | .setFilePriority fileIdx priority =>
    !w.swarm.torrent.isDownloadComplete || equipped w ||
      (w.swarm.torrent.setFilePriority fileIdx priority).isDownloadComplete
  | .releaseStagingPool => w.swarm.torrent.isDownloadComplete
  | _ => true

/-! ### What the steps of a session leave alone -/

/-- What interest depends on. -/
def outlook (t : HotTorrent) : Bool × Option Nat × StorageLayout × Nat :=
  (t.isDownloadComplete, t.stagingPool, t.layout, t.pieceCount)

structure Keeps (w w' : Swarm) : Prop where
  joined : w'.joined = w.joined
  torrent : outlook w'.torrent = outlook w.torrent
  sessions : ∀ t, (w'.sessions t).live = true → (w.sessions t).live = true ∧
    (w'.sessions t).dl.staging.pool = (w.sessions t).dl.staging.pool

theorem keeps_trans (w w1 w2 : Swarm) (first : Keeps w w1) (second : Keeps w1 w2) : Keeps w w2 := by
  refine ⟨second.joined.trans first.joined, second.torrent.trans first.torrent, ?_⟩
  intro t live
  obtain ⟨live1, pool1⟩ := second.sessions t live
  obtain ⟨live0, pool0⟩ := first.sessions t live1
  exact ⟨live0, pool1.trans pool0⟩

theorem keeps_moved (w w' : Swarm) (s : Nat) (x : Session) (moved : Moved w w' s x)
    (torrent : outlook w'.torrent = outlook w.torrent)
    (mine : x.live = true → (w.sessions s).live = true ∧ x.dl.staging.pool = (w.sessions s).dl.staging.pool) :
    Keeps w w' := by
  refine ⟨moved.joined, torrent, ?_⟩
  intro t live
  rcases moved_cases w w' s t x moved with ⟨moved', rfl⟩ | ⟨other, _⟩
  · rw [moved'] at live ⊢
    exact mine live
  · rw [other] at live ⊢
    exact ⟨live, rfl⟩

theorem storePool_outlook (t : HotTorrent) (staging : StagingPool) (shared : Option PieceBufferPool) :
    outlook (storePool t staging shared) = outlook t := by
  unfold storePool
  split <;> rfl

section
variable (w : Swarm) (s : Nat)

theorem keeps_refl : Keeps w w := ⟨rfl, rfl, fun _ live => ⟨live, rfl⟩⟩

theorem keeps_torrent (t : HotTorrent) (same : outlook t = outlook w.torrent) :
    Keeps w { w with torrent := t } := ⟨rfl, same, fun _ live => ⟨live, rfl⟩⟩

theorem keeps_setPc (pc : Pc) : Keeps w (w.setPc s pc) :=
  keeps_moved w _ s { w.sessions s with pc := pc } ⟨rfl, rfl⟩ rfl (fun live => ⟨live, rfl⟩)

theorem keeps_finish (out : List Request) : Keeps w (w.finish s out) :=
  keeps_moved w _ s { w.sessions s with pc := .idle } ⟨rfl, rfl⟩ rfl (fun live => ⟨live, rfl⟩)

theorem keeps_setDl (dl : PeerDownload) (same : dl.staging.pool = (w.sessions s).dl.staging.pool) :
    Keeps w (w.setDl s dl) :=
  keeps_moved w _ s { w.sessions s with dl := dl } ⟨rfl, rfl⟩ rfl (fun live => ⟨live, same⟩)

/-- A session that exchanges buffers with its pool. -/
theorem keeps_exchange (dl : PeerDownload) (staging : StagingPool) (shared : Option PieceBufferPool)
    (same : dl.staging.pool = (w.sessions s).dl.staging.pool) :
    Keeps w { w.setDl s dl with torrent := storePool w.torrent staging shared } :=
  keeps_moved w _ s { w.sessions s with dl := dl } ⟨rfl, rfl⟩ (storePool_outlook _ _ _) (fun live => ⟨live, same⟩)

theorem keeps_issue (grant : Option Nat) : Keeps w (w.issue s grant) := by
  unfold Swarm.issue
  split
  · exact keeps_finish w s []
  · exact keeps_setPc w s _

theorem keeps_round (call : Call) : Keeps w (w.round s call) := by
  have filled := fillExisting_fills call.pipeline (w.sessions s).dl.may
    (w.sessions s).dl.staging.indices (w.sessions s).dl.staging
  have refilled := keeps_setDl w s { (w.sessions s).dl with
    staging := (StagingPool.fillExisting call.pipeline (w.sessions s).dl.may (w.sessions s).dl.staging.indices
      (w.sessions s).dl.staging).2 } filled.pool
  unfold Swarm.round
  dsimp only
  split_ifs
  · exact keeps_finish w s _
  · exact keeps_trans _ _ _ refilled (keeps_finish _ s _)
  · exact keeps_trans _ _ _ refilled (keeps_setPc _ s _)

theorem keeps_suggest (call : Call) : Keeps w (w.suggest s call) := by
  unfold Swarm.suggest
  dsimp only
  split
  · exact keeps_setPc w s _
  · rename_i index rest _
    have shorter := keeps_setDl w s { (w.sessions s).dl with suggested := rest } rfl
    split_ifs
    · exact keeps_trans _ _ _ shorter (keeps_setPc _ s _)
    · exact shorter

theorem keeps_claim (call : Call) (snapshot : Option Snapshot) (index : Nat) :
    Keeps w (w.claim s call snapshot index) := by
  have marked := keeps_torrent w (insertClaim w.torrent index (w.sessions s).dl.endgame).2 rfl
  have held : ∀ endgameHeld, Keeps w ({ w with torrent := (insertClaim w.torrent index
      (w.sessions s).dl.endgame).2 }.setSession s { w.sessions s with
        dl := { (w.sessions s).dl with held := insert index (w.sessions s).dl.held }
        endgameHeld := endgameHeld }) := fun endgameHeld =>
    keeps_moved w _ s { w.sessions s with
      dl := { (w.sessions s).dl with held := insert index (w.sessions s).dl.held }
      endgameHeld := endgameHeld } ⟨rfl, rfl⟩ rfl (fun live => ⟨live, rfl⟩)
  unfold Swarm.claim
  dsimp only
  by_cases granted : (insertClaim w.torrent index (w.sessions s).dl.endgame).1 = true
  · rw [if_pos granted]
    split
    · exact keeps_trans _ _ _ (held _) (keeps_setPc _ s _)
    · exact keeps_trans _ _ _ (held _) (keeps_finish _ s _)
  · rw [if_neg granted]
    exact keeps_trans _ _ _ marked (keeps_setPc _ s _)

theorem keeps_release (index : Nat) : Keeps w (w.release s index) := by
  refine keeps_moved w _ s { w.sessions s with
    dl := { (w.sessions s).dl with held := (w.sessions s).dl.held.erase index }
    endgameHeld := (w.sessions s).endgameHeld.erase index } ⟨rfl, rfl⟩ ?_ (fun live => ⟨live, rfl⟩)
  unfold Swarm.release
  dsimp only
  split_ifs <;> rfl

theorem keeps_openPiece (call : Call) (index length : Nat) : Keeps w (w.openPiece s call index length) := by
  unfold Swarm.openPiece
  dsimp only
  by_cases contained : (w.sessions s).dl.staging.contains index = true
  · rw [if_pos contained]
    exact keeps_finish w s _
  rw [if_neg contained]
  rcases tryStart_cases (w.sessions s).dl.staging (sharedPool w.torrent (w.sessions s).dl.staging)
    index length (Bool.eq_false_of_not_eq_true contained) with ⟨started, _, same⟩ | ⟨refused, _⟩
  · rw [if_pos started]
    have opened := keeps_exchange w s { (w.sessions s).dl with
      staging := ((w.sessions s).dl.staging.tryStart (sharedPool w.torrent (w.sessions s).dl.staging)
        index length).2.1 } (w.sessions s).dl.staging ((w.sessions s).dl.staging.tryStart
        (sharedPool w.torrent (w.sessions s).dl.staging) index length).2.2 same
    split_ifs
    · exact keeps_trans _ _ _ opened (keeps_setPc _ s _)
    · split
      · rename_i request staging next
        obtain ⟨_, _, _, pool⟩ := requestNext_some _ staging index request next
        have asked := keeps_setDl { w.setDl s { (w.sessions s).dl with
          staging := ((w.sessions s).dl.staging.tryStart (sharedPool w.torrent (w.sessions s).dl.staging)
            index length).2.1 } with
          torrent := storePool w.torrent (w.sessions s).dl.staging ((w.sessions s).dl.staging.tryStart
            (sharedPool w.torrent (w.sessions s).dl.staging) index length).2.2 } s
          { (w.sessions s).dl with staging := staging }
          (pool.trans (by simp only [Swarm.setDl, Swarm.setSession, Function.update_self]))
        exact keeps_trans _ _ _ opened (keeps_trans _ _ _ asked (keeps_setPc _ s _))
      · exact keeps_trans _ _ _ opened (keeps_finish _ s _)
  · rw [refused, if_neg Bool.false_ne_true]
    exact keeps_trans _ _ _ (keeps_release w s index) (keeps_finish _ s _)

theorem keeps_leave : Keeps w (w.leave s) := by
  refine keeps_moved w _ s absent ⟨rfl, rfl⟩ ?_ nofun
  exact storePool_outlook w.torrent (w.sessions s).dl.staging
    ((w.sessions s).dl.staging.clear (sharedPool w.torrent (w.sessions s).dl.staging)).2

theorem keeps_clearStaging : Keeps w (w.clearStaging s) := keeps_exchange w s _ _ _ rfl

theorem keeps_reclaim (index : Nat) (data : Buffer) : Keeps w (w.reclaim s index data) :=
  keeps_exchange w s (reclaimed w s index data) _ _ rfl

theorem keeps_handlePiece (index begin' : Nat) (block : Buffer) (submitted : Bool) :
    Keeps w (w.handlePiece s index begin' block submitted) := by
  unfold Swarm.handlePiece
  dsimp only
  split_ifs
  · exact keeps_refl w
  · split
    · exact keeps_leave w s
    · exact keeps_refl w
    · rename_i complete staging ingested
      obtain ⟨_, _, pool⟩ := ingestIfStaged_some _ staging index begin' block complete ingested
      split_ifs
      · split
        · exact keeps_setDl w s _ pool
        · rename_i data taken shared tookOut
          have pool' := (takeForHash_some staging taken _ shared index data tookOut).2.2
          have hashing := keeps_exchange w s { (w.sessions s).dl with
            staging := taken, hashing := insert index (w.sessions s).dl.hashing } staging shared (pool'.trans pool)
          split_ifs
          · exact hashing
          · exact keeps_trans _ _ _ hashing (keeps_trans _ _ _ (keeps_reclaim _ s index data) (keeps_leave _ s))
      · exact keeps_setDl w s _ pool

theorem keeps_hashOk (index : Nat) (data : Buffer) : Keeps w (w.hashOk s index data) := by
  have reclaimed := keeps_reclaim w s index data
  unfold Swarm.hashOk
  dsimp only
  split_ifs
  · exact reclaimed
  · exact keeps_trans _ _ _ reclaimed (keeps_setPc _ s _)

theorem keeps_outer (event : Outer) (w' : Swarm) (taken : stepOuter w s event = some w') : Keeps w w' := by
  unfold stepOuter at taken
  cases event with
  | issue grant =>
    cases taken
    exact keeps_issue w s grant
  | block index begin' data submitted =>
    cases taken
    exact keeps_handlePiece w s index begin' data submitted
  | hashOk index data =>
    dsimp only at taken
    split_ifs at taken
    cases taken
    exact keeps_hashOk w s index data
  | hashFail index data =>
    dsimp only at taken
    split_ifs at taken
    cases taken
    exact keeps_trans _ _ _ (keeps_reclaim w s index data) (keeps_torrent _ _ rfl)
  | enterEndgame =>
    cases taken
    unfold Swarm.enterEndgame
    dsimp only
    split_ifs
    · exact keeps_setDl w s _ rfl
    · exact keeps_refl w
  | clearStaging =>
    cases taken
    exact keeps_clearStaging w s
  | reject index begin' length =>
    cases taken
    apply keeps_setDl w s
    dsimp only [StagingPool.clearRequest]
    split <;> rfl
  | leave =>
    cases taken
    exact keeps_leave w s
  | suggestPiece index =>
    cases taken
    apply keeps_setDl w s
    unfold PeerDownload.pushSuggest
    split_ifs <;> rfl
  | stall | resume _ | setPipeline _ | choke _ | allowedFast _ | peerHas _ =>
    cases taken
    exact keeps_setDl w s _ rfl

end

/-! ### The invariant -/

/-- While something is missing, the torrent has a pool, every session that may download holds it, and
every one that is being set up will ask for it. -/
structure Backed (t : HotTorrent) (limit : Nat) (w : World) : Prop where
  budgeted : Budgeted false t.layout.pieceLength limit w.swarm
  geometry : w.swarm.torrent.layout = t.layout ∧ w.swarm.torrent.pieceCount = t.pieceCount
  slot : w.swarm.torrent.isDownloadComplete = false → w.swarm.torrent.stagingPool.isSome = true
  sessions : w.swarm.torrent.isDownloadComplete = false → ∀ s, (w.swarm.sessions s).live = true →
    (w.readers s).canDownload = true → (w.swarm.sessions s).dl.staging.pool = w.swarm.torrent.stagingPool
  setups : w.swarm.torrent.isDownloadComplete = false → ∀ setup ∈ w.setups, setup.canDownload = true →
    setup.wantDownload = true

theorem outlook_fields (t t' : HotTorrent) (same : outlook t' = outlook t) :
    t'.isDownloadComplete = t.isDownloadComplete ∧ t'.stagingPool = t.stagingPool ∧ t'.layout = t.layout ∧
      t'.pieceCount = t.pieceCount := by
  rw [outlook, outlook, Prod.mk.injEq, Prod.mk.injEq, Prod.mk.injEq] at same
  exact same

theorem afterHave_outlook (t : HotTorrent) (index : Nat) (fully : Bool) :
    (t.afterHave index fully).isDownloadComplete = t.isDownloadComplete ∧
      (t.isDownloadComplete = false → outlook (t.afterHave index fully) = outlook t) ∧
      (t.afterHave index fully).layout = t.layout ∧ (t.afterHave index fully).pieceCount = t.pieceCount := by
  have same : ∀ hub hashes, outlook { t with haveHub := hub, pieceHashes := hashes } = outlook t :=
    fun _ _ => rfl
  unfold afterHave dropPieceHashesIfComplete
  dsimp only
  split_ifs with fully' full complete complete complete
  · exact ⟨rfl, fun left => absurd complete (by rw [Bool.not_eq_true]; exact left), rfl, rfl⟩
  · exact ⟨rfl, fun _ => same _ [], rfl, rfl⟩
  · exact ⟨rfl, fun left => absurd complete (by rw [Bool.not_eq_true]; exact left), rfl, rfl⟩
  · exact ⟨rfl, fun _ => same _ t.pieceHashes, rfl, rfl⟩
  · exact ⟨rfl, fun left => absurd complete (by rw [Bool.not_eq_true]; exact left), rfl, rfl⟩
  · exact ⟨rfl, fun _ => same _ t.pieceHashes, rfl, rfl⟩

/-- What is missing after a piece was marked was missing before. -/
theorem settleMark_outlook (t : HotTorrent) (index : Nat) :
    ((settleMark t index).isDownloadComplete = false → outlook (settleMark t index) = outlook t) ∧
      (settleMark t index).layout = t.layout ∧ (settleMark t index).pieceCount = t.pieceCount := by
  unfold settleMark
  by_cases had : (t.pieces.complete || Catalog.Bitfield.bitfieldGet t.pieces.bitfield index) = true
  · rw [if_pos had]
    exact ⟨fun _ => rfl, rfl, rfl⟩
  rw [if_neg had]
  obtain ⟨complete, kept, layout, count⟩ := afterHave_outlook (t.recordHave index).settleHave index
    (t.recordHave index).fullyHad
  have settled : (t.recordHave index).settleHave.layout = t.layout ∧
      (t.recordHave index).settleHave.pieceCount = t.pieceCount := by
    unfold settleHave
    split_ifs <;> exact ⟨rfl, rfl⟩
  refine ⟨?_, layout.trans settled.1, count.trans settled.2⟩
  intro left
  rw [complete] at left
  rw [kept left]
  unfold settleHave at left ⊢
  split_ifs at left ⊢
  · cases left
  · have missing := of_decide_eq_false left
    have before : t.isDownloadComplete = false := by
      apply decide_eq_false
      intro none'
      apply missing
      dsimp only [recordHave]
      rw [none']
      split_ifs <;> rfl
    rw [outlook, outlook, left, before]
    rfl

theorem setFilePriority_outlook (t : HotTorrent) (fileIdx : Nat) (priority : Int) :
    ((t.setFilePriority fileIdx priority).isDownloadComplete = false →
      (t.setFilePriority fileIdx priority).stagingPool.isSome = true ∧
      (t.stagingPool.isSome = true → (t.setFilePriority fileIdx priority).stagingPool = t.stagingPool)) ∧
      (t.setFilePriority fileIdx priority).layout = t.layout ∧
      (t.setFilePriority fileIdx priority).pieceCount = t.pieceCount := by
  have same := (resources_rebuild (t.writePriority fileIdx priority)).trans
    (resources_writePriority t fileIdx priority)
  have count : (t.writePriority fileIdx priority).rebuildWantedAndMissing.pieceCount = t.pieceCount := by
    unfold rebuildWantedAndMissing writePriority
    dsimp only
    split_ifs <;> rfl
  rw [resources, resources, Prod.mk.injEq, Prod.mk.injEq, Prod.mk.injEq] at same
  unfold setFilePriority
  dsimp only
  split_ifs with complete
  · refine ⟨?_, same.2.2.1, count⟩
    intro left
    exact absurd complete (by rw [Bool.not_eq_true]; exact left)
  · unfold ensureStagingPool fillStagingPool
    rw [if_neg complete]
    split_ifs with there
    · exact ⟨fun _ => ⟨there, fun _ => same.2.1⟩, same.2.2.1, count⟩
    · refine ⟨fun _ => ⟨rfl, ?_⟩, same.2.2.1, count⟩
      intro some'
      rw [same.2.1] at there
      exact absurd some' there

theorem fillStagingPool_kept (t : HotTorrent) (some' : t.stagingPool.isSome = true) : t.fillStagingPool = t := by
  rw [fillStagingPool, if_pos some']

section
variable {t : HotTorrent} {limit : Nat} (w : World) (valid : Backed t limit w)
include valid

theorem backed_keeps (swarm : Swarm) (readers : Nat → Reader) (keeps : Keeps w.swarm swarm)
    (budgeted : Budgeted false t.layout.pieceLength limit swarm)
    (same : ∀ s, (readers s).canDownload = (w.readers s).canDownload) :
    Backed t limit ⟨swarm, readers, w.setups⟩ := by
  obtain ⟨complete, slot, layout, count⟩ := outlook_fields _ _ keeps.torrent
  refine ⟨budgeted, ⟨layout.trans valid.geometry.1, count.trans valid.geometry.2⟩, ?_, ?_, ?_⟩
  · dsimp only
    rw [complete, slot]
    exact valid.slot
  · dsimp only
    rw [complete, slot]
    intro left s live able
    rw [same s] at able
    obtain ⟨live', pool⟩ := keeps.sessions s live
    exact pool.trans (valid.sessions left s live' able)
  · dsimp only
    rw [complete]
    exact valid.setups

/-- A call on the torrent's pool that keeps completion, and the pool where there is one. -/
theorem backed_pool (t' : HotTorrent) (budgeted : Budgeted false t.layout.pieceLength limit
      { w.swarm with torrent := t' })
    (complete : t'.isDownloadComplete = w.swarm.torrent.isDownloadComplete)
    (slot : w.swarm.torrent.isDownloadComplete = false → w.swarm.torrent.stagingPool.isSome = true →
      t'.stagingPool = w.swarm.torrent.stagingPool)
    (geometry : t'.layout = w.swarm.torrent.layout ∧ t'.pieceCount = w.swarm.torrent.pieceCount) :
    Backed t limit (w.withTorrent t') := by
  refine ⟨budgeted, ⟨geometry.1.trans valid.geometry.1, geometry.2.trans valid.geometry.2⟩, ?_, ?_, ?_⟩
  · intro left
    change t'.isDownloadComplete = false at left
    rw [complete] at left
    change t'.stagingPool.isSome = true
    rw [slot left (valid.slot left)]
    exact valid.slot left
  · intro left s live able
    change t'.isDownloadComplete = false at left
    rw [complete] at left
    exact (valid.sessions left s live able).trans (slot left (valid.slot left)).symm
  · intro left
    change t'.isDownloadComplete = false at left
    rw [complete] at left
    exact valid.setups left

theorem backed_fill : Backed t limit (w.withTorrent w.swarm.torrent.fillStagingPool) := by
  have same : w.swarm.torrent.fillStagingPool.isDownloadComplete = w.swarm.torrent.isDownloadComplete ∧
      w.swarm.torrent.fillStagingPool.layout = w.swarm.torrent.layout ∧
      w.swarm.torrent.fillStagingPool.pieceCount = w.swarm.torrent.pieceCount := by
    unfold fillStagingPool
    split_ifs <;> exact ⟨rfl, rfl, rfl⟩
  refine backed_pool w valid _ (budgeted_fill w.swarm valid.budgeted nofun) same.1 ?_ same.2
  intro _ some'
  rw [fillStagingPool_kept w.swarm.torrent some']

theorem backed_ensure : Backed t limit (w.withTorrent w.swarm.torrent.ensureStagingPool) := by
  unfold ensureStagingPool
  split_ifs
  · exact valid
  · exact backed_fill w valid

theorem backed_prepare (i : Nat) (setup : Setup) (there : w.setups[i]? = some setup) :
    Backed t limit (prepare limit w i setup) := by
  have limited : Backed t limit (w.withTorrent (w.swarm.torrent.setStagingMemLimit limit)) := by
    have known := valid.budgeted
    refine backed_pool w valid _ ?_ rfl (fun _ _ => rfl) ⟨rfl, rfl⟩
    exact ⟨⟨known.sized.1, rfl⟩, known.beyond, known.unbacked, known.sane, known.fixed, known.counted,
      known.latest, known.slot⟩
  have ensured := backed_ensure _ limited
  refine ⟨ensured.budgeted, ensured.geometry, ensured.slot, ensured.sessions, ?_⟩
  intro left setup' member able
  rcases List.mem_or_eq_of_mem_set member with old | new
  · exact ensured.setups left setup' old able
  · rw [new] at able ⊢
    exact ensured.setups left setup (List.mem_of_getElem? there) able

theorem backed_attach (i pipeline : Nat) (setup : Setup) (there : w.setups[i]? = some setup) :
    Backed t limit (begin' w i setup pipeline) := by
  refine ⟨budgeted_attach w.swarm valid.budgeted setup.wantDownload pipeline, valid.geometry, valid.slot, ?_, ?_⟩
  · intro left s live able
    change w.swarm.torrent.isDownloadComplete = false at left
    dsimp only [begin', attach] at live able ⊢
    by_cases new : s = w.swarm.joined
    · subst new
      rw [Function.update_self] at able ⊢
      have wanted := valid.setups left setup (List.mem_of_getElem? there) able
      obtain ⟨g, slot⟩ := Option.isSome_iff_exists.1 (valid.slot left)
      have inside := (valid.budgeted.slot g slot).1
      dsimp only [PeerDownload.new]
      rw [wanted, sessionStaging, if_pos rfl, slot]
      dsimp only
      rw [List.getElem?_eq_getElem inside]
      rfl
    · rw [Function.update_of_ne new] at live able ⊢
      exact valid.sessions left s live able
  · intro left setup' member able
    exact valid.setups left setup' (List.mem_of_mem_eraseIdx member) able

theorem backed_connect (canDownload allowUpload : Bool) : Backed t limit (connect w canDownload allowUpload) := by
  refine ⟨valid.budgeted, valid.geometry, valid.slot, valid.sessions, ?_⟩
  intro left setup member able
  change w.swarm.torrent.isDownloadComplete = false at left
  rcases List.mem_append.1 member with old | new
  · exact valid.setups left setup old able
  · rw [List.mem_singleton.1 new] at able ⊢
    dsimp only at able ⊢
    rw [able, left]
    rfl

/-- A torrent that is switched on again has its sessions equipped. -/
theorem backed_setFilePriority (fileIdx : Nat) (priority : Int)
    (guard : interestGuard w (.setFilePriority fileIdx priority) = true) :
    Backed t limit (w.withTorrent (w.swarm.torrent.setFilePriority fileIdx priority)) := by
  obtain ⟨slot, layout, count⟩ := setFilePriority_outlook w.swarm.torrent fileIdx priority
  refine ⟨budgeted_setFilePriority w.swarm valid.budgeted fileIdx priority nofun,
    ⟨layout.trans valid.geometry.1, count.trans valid.geometry.2⟩, ?_, ?_, ?_⟩
  · intro left
    exact (slot left).1
  · intro left s live able
    change (w.swarm.torrent.setFilePriority fileIdx priority).isDownloadComplete = false at left
    rw [interestGuard, left, Bool.or_false, Bool.or_eq_true, Bool.not_eq_true'] at guard
    rcases guard with before | equipped'
    · exact (valid.sessions before s live able).trans ((slot left).2 (valid.slot before)).symm
    · rw [equipped, Bool.and_eq_true, decide_eq_true_eq] at equipped'
      obtain ⟨some', same⟩ := equipped'.1 s (live_inside w.swarm valid.budgeted s live) live able
      exact same.trans ((slot left).2 (same ▸ some')).symm
  · intro left setup member able
    change (w.swarm.torrent.setFilePriority fileIdx priority).isDownloadComplete = false at left
    rw [interestGuard, left, Bool.or_false, Bool.or_eq_true, Bool.not_eq_true'] at guard
    rcases guard with before | equipped'
    · exact valid.setups before setup member able
    · rw [equipped, Bool.and_eq_true, List.all_eq_true] at equipped'
      have asks := equipped'.2 setup member
      rw [able] at asks
      exact asks

theorem backed_settleMark (index : Nat) :
    Backed t limit (w.withTorrent (settleMark w.swarm.torrent index)) := by
  obtain ⟨kept, layout, count⟩ := settleMark_outlook w.swarm.torrent index
  refine ⟨budgeted_settleMark w.swarm valid.budgeted index,
    ⟨layout.trans valid.geometry.1, count.trans valid.geometry.2⟩, ?_, ?_, ?_⟩
  · intro left
    obtain ⟨complete, slot, _⟩ := outlook_fields _ _ (kept left)
    change (settleMark w.swarm.torrent index).stagingPool.isSome = true
    rw [slot]
    exact valid.slot (complete.symm.trans left)
  · intro left s live able
    obtain ⟨complete, slot, _⟩ := outlook_fields _ _ (kept left)
    exact (valid.sessions (complete.symm.trans left) s live able).trans slot.symm
  · intro left
    obtain ⟨complete, _⟩ := outlook_fields _ _ (kept left)
    exact valid.setups (complete.symm.trans left)

theorem backed_turn (s pipeline : Nat) (inside : s < w.swarm.joined) :
    Backed t limit (turn w s pipeline) := by
  have reader : ∀ (w : World) (x : Reader), x.canDownload = (w.readers s).canDownload → ∀ t,
      (Function.update w.readers s x t).canDownload = (w.readers t).canDownload := by
    intro w x same t
    by_cases mine : t = s
    · rw [mine, Function.update_self]
      exact same
    · rw [Function.update_of_ne mine]
  have resumed : ∀ w, Backed t limit w → s < w.swarm.joined → Backed t limit (resume w s pipeline) := by
    intro w valid inside
    exact backed_keeps w valid _ _ (keeps_setDl w.swarm s _ rfl)
      (budgeted_setDl w.swarm valid.budgeted s _ inside rfl rfl (valid.budgeted.sane s)) (reader w _ rfl)
  have lost : ∀ w, Backed t limit w → s < w.swarm.joined → Backed t limit (loseInterest w s) := by
    intro w valid inside
    exact backed_keeps w valid _ _ (keeps_clearStaging w.swarm s)
      (budgeted_clearStaging w.swarm valid.budgeted s inside) (reader w _ rfl)
  have settled : ∀ (w : World) (leaving : Bool), Backed t limit w → Backed t limit { w with
      readers := Function.update w.readers s { w.readers s with leaving := leaving } } := by
    intro w leaving valid
    exact backed_keeps w valid _ _ (keeps_refl w.swarm) valid.budgeted (reader w _ rfl)
  unfold turn
  dsimp only
  apply settled
  split_ifs
  · exact lost _ (resumed w valid inside) inside
  · exact resumed w valid inside
  · exact lost w valid inside
  · exact valid

theorem backed_inner (s : Nat) (event : Inner) (swarm : Swarm) (inside : s < w.swarm.joined)
    (taken : stepInner w.swarm s event = some swarm) : Backed t limit (w.withSwarm swarm) := by
  have budgeted := budgeted_inner w.swarm valid.budgeted s event swarm inside taken
  have quiet : Keeps w.swarm swarm → Backed t limit (w.withSwarm swarm) :=
    fun keeps => backed_keeps w valid swarm w.readers keeps budgeted (fun _ => rfl)
  unfold stepInner at taken
  split at taken
  · cases taken
    exact quiet (keeps_round w.swarm s _)
  · cases taken
    exact quiet (keeps_suggest w.swarm s _)
  · split_ifs at taken
    cases taken
    exact quiet (keeps_setPc w.swarm s _)
  · cases taken
    exact quiet (keeps_finish w.swarm s _)
  · cases taken
    exact quiet (keeps_claim w.swarm s _ _ _)
  · cases taken
    exact quiet (keeps_openPiece w.swarm s _ _ _)
  · rename_i index _
    cases taken
    exact quiet (keeps_trans _ _ _ (keeps_torrent w.swarm (w.swarm.torrent.releasePieceClaim index) rfl)
      (keeps_setPc _ s _))
  · rename_i index _
    cases taken
    have marked := backed_settleMark w valid index
    exact backed_keeps _ marked _ w.readers (keeps_setPc _ s .idle)
      (budgeted_setPc _ marked.budgeted s .idle inside) (fun _ => rfl)
  · cases taken

theorem step_backed (event : Event) (w' : World) (guard : interestGuard w event = true)
    (taken : step limit w event = some w') : Backed t limit w' := by
  cases event with
  | connect canDownload allowUpload =>
    cases taken
    exact backed_connect w valid canDownload allowUpload
  | prepare i =>
    unfold step at taken
    dsimp only at taken
    split at taken
    · rename_i setup there
      split_ifs at taken
      cases taken
      exact backed_prepare w valid i setup there
    · cases taken
  | attach i pipeline =>
    unfold step at taken
    dsimp only at taken
    split at taken
    · rename_i setup there
      split_ifs at taken
      cases taken
      exact backed_attach w valid i pipeline setup there
    · cases taken
  | turn s pipeline =>
    rw [step] at taken
    split_ifs at taken with able
    cases taken
    exact backed_turn w valid s pipeline (live_inside w.swarm valid.budgeted s able.1)
  | inner s event =>
    rw [step, Option.map_eq_some_iff] at taken
    obtain ⟨swarm, moved, rfl⟩ := taken
    rw [Download.step] at moved
    split_ifs at moved with live
    exact backed_inner w valid s event swarm (live_inside w.swarm valid.budgeted s live) moved
  | outer s event =>
    rw [step, Option.map_eq_some_iff] at taken
    obtain ⟨swarm, moved, rfl⟩ := taken
    rw [Download.step] at moved
    split_ifs at moved with live
    have inside := live_inside w.swarm valid.budgeted s live.1
    exact backed_keeps w valid swarm w.readers (keeps_outer w.swarm s event swarm moved)
      (budgeted_outer w.swarm valid.budgeted s event swarm live.1 inside moved) (fun _ => rfl)
  | setFilePriority fileIdx priority =>
    cases taken
    exact backed_setFilePriority w valid fileIdx priority guard
  | ensureStagingPool =>
    cases taken
    exact backed_ensure w valid
  | fillStagingPool =>
    cases taken
    exact backed_fill w valid
  | releaseStagingPool =>
    cases taken
    refine backed_pool w valid _ (budgeted_release_pool w.swarm valid.budgeted) rfl ?_ ⟨rfl, rfl⟩
    intro left
    exact absurd guard (by rw [Bool.not_eq_true]; exact left)

end

/-! ### Every run -/

theorem backed_opened (limit : Nat) (t : HotTorrent) (start : Start t) : Backed t limit (opened limit t) := by
  have budgeted := budgeted_ensure (started limit t) (budgeted_started false limit t start) nofun
  have ensured : ∀ t : HotTorrent, t.ensureStagingPool.layout = t.layout ∧
      t.ensureStagingPool.pieceCount = t.pieceCount ∧
      (t.ensureStagingPool.isDownloadComplete = false → t.ensureStagingPool.stagingPool.isSome = true) := by
    intro t
    unfold ensureStagingPool fillStagingPool
    split_ifs with complete there
    · exact ⟨rfl, rfl, fun left => absurd complete (by rw [Bool.not_eq_true]; exact left)⟩
    · exact ⟨rfl, rfl, fun _ => there⟩
    · exact ⟨rfl, rfl, fun _ => rfl⟩
  obtain ⟨layout, count, slot⟩ := ensured (t.setStagingMemLimit limit)
  exact ⟨budgeted, ⟨layout, count⟩, slot, nofun, nofun⟩

/-- Where the pieces cover the payload and no more, each of them has bytes, and at most a piece length. -/
theorem pieceSize_positive (layout : StorageLayout)
    (covered : layout.totalSize = 0 ∨ (layout.pieceCount - 1) * layout.pieceLength < layout.totalSize)
    (index one : Nat) (sized : 0 < layout.pieceBytes one) (inside : index < layout.pieceCount) :
    ∃ length, layout.pieceSize index = .ok length ∧ 0 < length ∧ length ≤ layout.pieceLength := by
  have some' : 0 < layout.totalSize ∧ 0 < layout.pieceLength := by
    unfold StorageLayout.pieceBytes at sized
    split at sized
    · rename_i size known
      have within := pieceSize_within layout one size known sized
      have bounded := pieceSize_le layout one size known
      omega
    · exact absurd sized (Nat.lt_irrefl 0)
  have before : index * layout.pieceLength ≤ (layout.pieceCount - 1) * layout.pieceLength :=
    Nat.mul_le_mul_right _ (by omega)
  unfold StorageLayout.pieceSize
  rw [if_neg (by omega), if_neg (by omega)]
  exact ⟨_, rfl, by omega, by omega⟩

/-- In every run where missing work appears again only while every session is equipped for it: a session
that downloads, whether it has said that it is interested or not, holds the torrent's pool, and when its peer
does not choke it, has a piece to open and a buffer is free, its next call ends with a request outstanding.
The pieces cover the payload, as a metainfo is checked for. -/
theorem interested_can_download (limit : Nat) (t : HotTorrent) (start : Start t)
    (covered : t.layout.totalSize = 0 ∨ (t.layout.pieceCount - 1) * t.layout.pieceLength < t.layout.totalSize)
    (events : List Event) (w : World)
    (kept : Guarded (step limit) (fun w event => interestGuard w event = true) (opened limit t) events)
    (ran : exec (step limit) (opened limit t) events = some w) (s : Nat)
    (live : (w.swarm.sessions s).live = true) (downloads : downloading w s = true) :
    ∃ g shared, w.swarm.torrent.stagingPool = some g ∧ w.swarm.torrent.pools[g]? = some shared ∧
      (w.swarm.sessions s).dl.staging.pool = some g ∧
      ∀ index grant, 0 < shared.available → (w.swarm.sessions s).dl.peerChoking = false →
        Candidate w.swarm s index → 0 < w.swarm.torrent.layout.pieceBytes index →
        (∀ tokens, grant = some tokens → BLOCK_SIZE ≤ tokens) →
        (∃ events w', exec (callStep s) (w.swarm.issue s grant) events = some w' ∧ (w'.sessions s).pc = .idle) ∧
        ∀ events w', exec (callStep s) (w.swarm.issue s grant) events = some w' → (w'.sessions s).pc = .idle →
          1 ≤ (w'.sessions s).dl.staging.totalOutstanding := by
  have valid := exec_invariant (step limit) _ (Backed t limit)
    (fun w event w' valid guard taken => step_backed w valid event w' guard taken) _ w events
    (backed_opened limit t start) kept ran
  rw [downloading, Bool.and_eq_true, Bool.not_eq_true'] at downloads
  obtain ⟨able, left⟩ := downloads
  obtain ⟨g, slot⟩ := Option.isSome_iff_exists.1 (valid.slot left)
  have backed := (valid.sessions left s live able).trans slot
  have inside := (valid.budgeted.slot g slot).1
  have there : w.swarm.torrent.pools[g]? = some w.swarm.torrent.pools[g] := List.getElem?_eq_getElem inside
  refine ⟨g, _, slot, there, backed, ?_⟩
  intro index grant available unchoked candidate sized granted
  have stocked : Stocked (max t.layout.pieceLength 1) w.swarm s := by
    refine ⟨unchoked, valid.budgeted.sane s live, ⟨_, ?_, available⟩, ?_⟩
    · rw [sharedPool, backed, Option.bind_some]
      exact there
    · intro one inside
      rw [valid.geometry.1] at sized ⊢
      rw [valid.geometry.2, ← (balanced_start t start).sameCount] at inside
      obtain ⟨length, known, positive, bounded⟩ := pieceSize_positive t.layout covered one index sized inside
      exact ⟨length, known, positive, bounded.trans (Nat.le_max_left _ _)⟩
  exact ⟨call_ends w.swarm s grant, fun events w' ran ended =>
    call_requests w.swarm s grant stocked index candidate granted events w' ran ended⟩

/-- One piece, in a file that is off. -/
def offFile : StorageLayout := ⟨["data"], 1, 1, 1, [⟨["a"], 1, 0, 0⟩]⟩

def offTorrent : HotTorrent := newEmpty 1 [] offFile (List.replicate 20 0)

/-- A session starts, the file is switched on, the read loop turns. -/
def switchOnLater : List Event :=
  [.connect true true, .attach 0 8, .setFilePriority 0 1, .turn 0 8]

def unbacked : World := (exec (step 1) (opened 1 offTorrent) switchOnLater).getD (opened 1 offTorrent)

/-- The session tells its peer that it is interested, and has no pool to download with. -/
theorem interested_without_pool :
    ¬∀ (limit : Nat) (t : HotTorrent) (events : List Event) (w : World) (s : Nat), Start t →
      exec (step limit) (opened limit t) events = some w → (w.swarm.sessions s).live = true →
      (w.readers s).amInterested = true → downloading w s = true →
      ∃ g, w.swarm.torrent.stagingPool = some g ∧ (w.swarm.sessions s).dl.staging.pool = some g := by
  intro always
  have ran : exec (step 1) (opened 1 offTorrent) switchOnLater = some unbacked :=
    (Option.getD_of_ne_none (Option.isSome_iff_ne_none.1 (by decide +kernel)) _).symm
  obtain ⟨g, _, pool⟩ := always 1 offTorrent switchOnLater unbacked 0 (.empty 1 [] offFile _) ran
    (by decide +kernel) (by decide +kernel) (by decide +kernel)
  have none' : (unbacked.swarm.sessions 0).dl.staging.pool = none := by decide +kernel
  rw [none'] at pool
  cases pool

/-- The same session, when the file was on before it started; its peer has the piece. -/
def joinWanted : List Event :=
  [.setFilePriority 0 1, .connect true true, .prepare 0, .attach 0 8, .turn 0 8, .outer 0 (.choke false),
    .outer 0 (.peerHas [128])]

def ready : World := (exec (step 1) (opened 1 offTorrent) joinWanted).getD (opened 1 offTorrent)

theorem interested_can_download_joinWanted : ∃ events w',
    exec (callStep 0) (ready.swarm.issue 0 (some BLOCK_SIZE)) events = some w' ∧ (w'.sessions 0).pc = .idle ∧
      1 ≤ (w'.sessions 0).dl.staging.totalOutstanding := by
  have ran : exec (step 1) (opened 1 offTorrent) joinWanted = some ready :=
    (Option.getD_of_ne_none (Option.isSome_iff_ne_none.1 (by decide +kernel)) _).symm
  have kept := guarded_of_guardedB (step 1) interestGuard (opened 1 offTorrent) joinWanted (by decide +kernel)
  obtain ⟨g, shared, _, there, _, requests⟩ := interested_can_download 1 offTorrent (.empty 1 [] offFile _)
    (Or.inr (by decide)) joinWanted ready kept ran 0 (by decide +kernel) (by decide +kernel)
  have free : ∀ pool ∈ ready.swarm.torrent.pools, 0 < pool.available := by decide +kernel
  have candidate : Candidate ready.swarm 0 0 := by
    refine ⟨?_, ?_, ?_, ?_, Or.inr ?_⟩ <;> decide +kernel
  obtain ⟨⟨events, w', alone, ended⟩, always⟩ := requests 0 (some BLOCK_SIZE)
    (free shared (List.mem_of_getElem? there)) (by decide +kernel) candidate (by decide +kernel)
    (fun tokens given => le_of_eq (Option.some.inj given))
  exact ⟨events, w', alone, ended, always events w' alone ended⟩

end Seedchamp.Peer.Interest
