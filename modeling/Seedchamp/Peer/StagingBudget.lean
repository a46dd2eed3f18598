import Seedchamp.Peer.Claims
import Seedchamp.Staging.Progress
import Mathlib.Algebra.BigOperators.Group.Finset.Basic
import Mathlib.Algebra.Order.BigOperators.Group.Finset

/-!
The staging memory of a torrent over all its pools: what the live sessions assemble, whatever pool the
buffers come from, against the capacity that one pool derives from the limit.
-/

namespace Seedchamp.Peer.StagingBudget
open Foundation.TransitionSystem Disk.Spans Hot.Torrent Hot.Torrent.HotTorrent Hot.Possession
open Staging.PiecePool Staging.Pool Staging.Assembly Staging.Exchange Staging.Progress Peer.Download
open Peer.Claims

/-! ### Runs -/

/-- The staging pool of a session that starts: whatever pool is there, for one that wants to download. -/
def sessionStaging (t : HotTorrent) (wantDownload : Bool) : StagingPool :=
  if wantDownload then
    match t.stagingPool with
    | some pool =>
      match t.pools[pool]? with
      | some shared => StagingPool.fromPool pool shared
      | none => StagingPool.empty t.layout.pieceLength
    | none => StagingPool.empty t.layout.pieceLength
  else StagingPool.empty t.layout.pieceLength

/-- The part of a session's start behind `ensure_staging_pool`. -/
def attach (w : Swarm) (wantDownload : Bool) (pipeline : Nat) : Swarm :=
  { w with
    sessions := Function.update w.sessions w.joined
      ⟨true, PeerDownload.new (Catalog.Bitfield.emptyBitfield w.torrent.pieceCount)
        (sessionStaging w.torrent wantDownload) (if wantDownload then pipeline else 0), .idle, ∅⟩
    joined := w.joined + 1 }

/-- A start in one step is the two calls and the rest. -/
theorem join_eq (w : Swarm) (wantDownload : Bool) (memLimit pipeline : Nat) :
    w.join wantDownload memLimit pipeline = attach { w with
      torrent := if wantDownload then (w.torrent.setStagingMemLimit memLimit).ensureStagingPool
        else w.torrent } wantDownload pipeline := by
  cases wantDownload <;> rfl

/-- The steps of the sessions, and the calls on the pool of the torrent in any order: by the start of the
torrent, or by a caller whose check of completion is out of date. -/
inductive Event where
  | session (event : Download.Event)
  | attach (wantDownload : Bool) (pipeline : Nat)
  | ensureStagingPool
  | fillStagingPool
  | releaseStagingPool
  deriving DecidableEq

/-- The limit is the same for every session. -/
def constantLimit (limit : Nat) : Download.Event → Bool
  | .join _ memLimit _ => memLimit = limit
  | _ => true

def step (limit : Nat) (w : Swarm) : Event → Option Swarm
  | .session event => if constantLimit limit event then Download.step w event else none
  | .attach wantDownload pipeline => some (attach w wantDownload pipeline)
  | .ensureStagingPool => some { w with torrent := w.torrent.ensureStagingPool }
  | .fillStagingPool => some { w with torrent := w.torrent.fillStagingPool }
  | .releaseStagingPool => some { w with torrent := w.torrent.releaseStagingPool }

/-- A torrent that was started with this limit. -/
def started (limit : Nat) (t : HotTorrent) : Swarm := initial (t.setStagingMemLimit limit)

/-- The buffers that the live sessions assemble pieces in. -/
def assembling (w : Swarm) : Nat := ∑ s ∈ Finset.range w.joined, (w.sessions s).dl.staging.len

/-- The capacity that a pool of this torrent derives from the limit. -/
def budget (limit : Nat) (t : HotTorrent) : Nat := (PieceBufferPool.new t.layout.pieceLength limit).capacity

/-- The event allocates a pool. -/
def creates (w : Swarm) : Event → Bool
  | .session (.join wantDownload _ _) =>
    wantDownload && !w.torrent.isDownloadComplete && w.torrent.stagingPool.isNone
  | .session (.setFilePriority fileIdx priority) =>
    !(w.torrent.writePriority fileIdx priority).rebuildWantedAndMissing.isDownloadComplete &&
      w.torrent.stagingPool.isNone
  | .ensureStagingPool => !w.torrent.isDownloadComplete && w.torrent.stagingPool.isNone
  | .fillStagingPool => w.torrent.stagingPool.isNone
  | _ => false

/-- No session holds a pool. -/
def unheld (w : Swarm) : Bool := decide (∀ s < w.joined, (w.sessions s).dl.staging.pool = none)

/-- A pool is allocated only when no session holds an earlier one. -/
def budgetGuard (w : Swarm) (event : Event) : Bool := !creates w event || unheld w

/-! ### The invariant -/

/-- The buffers of one pool in a session. -/
def heldFrom (g : Nat) (x : Session) : Nat := if x.dl.staging.pool = some g then x.dl.staging.len else 0

/-- What the pools depend on. -/
def Sized (size limit : Nat) (t : HotTorrent) : Prop :=
  t.layout.pieceLength = size ∧ t.stagingMemLimit = effectiveLimit limit

/-- A pool as the limit makes it. -/
def Fitted (size limit : Nat) (pool : PieceBufferPool) : Prop :=
  pool.pieceLength = max size 1 ∧ pool.capacity = (PieceBufferPool.new size limit).capacity ∧ Within pool

/-- A pool that a session may hold, of so many: with `sole`, the one allocated last. -/
def Current (sole : Bool) (g count : Nat) : Prop := g < count ∧ (sole = true → g + 1 = count)

structure Budgeted (sole : Bool) (size limit : Nat) (w : Swarm) : Prop where
  sized : Sized size limit w.torrent
  beyond : ∀ s, w.joined ≤ s → w.sessions s = absent
  unbacked : ∀ s, (w.sessions s).dl.staging.pool = none → (w.sessions s).dl.staging.len = 0
  sane : ∀ s, (w.sessions s).live = true → Sane (max size 1) (w.sessions s).dl.staging
  fixed : ∀ pool ∈ w.torrent.pools, Fitted size limit pool
  counted : ∀ g pool, w.torrent.pools[g]? = some pool →
    pool.outstanding = ∑ s ∈ Finset.range w.joined, heldFrom g (w.sessions s)
  latest : ∀ s g, (w.sessions s).dl.staging.pool = some g → Current sole g w.torrent.pools.length
  slot : ∀ g, w.torrent.stagingPool = some g → Current sole g w.torrent.pools.length

theorem effectiveLimit_effectiveLimit (limit : Nat) : effectiveLimit (effectiveLimit limit) = effectiveLimit limit := by
  unfold effectiveLimit
  split_ifs with zero default
  · exact absurd default (by decide)
  · rfl
  · rfl

theorem new_effectiveLimit (size limit : Nat) :
    PieceBufferPool.new size (effectiveLimit limit) = PieceBufferPool.new size limit := by
  unfold PieceBufferPool.new
  rw [effectiveLimit_effectiveLimit]

/-- The law, from the invariant: all that is held comes from the latest pool. -/
theorem assembling_le (size limit : Nat) (w : Swarm) (valid : Budgeted true size limit w) :
    assembling w ≤ (PieceBufferPool.new size limit).capacity := by
  have from' : ∀ s g, g + 1 = w.torrent.pools.length →
      (w.sessions s).dl.staging.len = heldFrom g (w.sessions s) := by
    intro s g last
    unfold heldFrom
    cases held : (w.sessions s).dl.staging.pool with
    | none =>
      rw [if_neg nofun]
      exact valid.unbacked s held
    | some other =>
      have same := (valid.latest s other held).2 rfl
      rw [if_pos (by rw [Option.some.injEq]; omega)]
  cases pools : w.torrent.pools.length with
  | zero =>
    have nothing : assembling w = 0 := by
      apply Finset.sum_eq_zero
      intro s _
      cases held : (w.sessions s).dl.staging.pool with
      | none => exact valid.unbacked s held
      | some g =>
        have some' := (valid.latest s g held).1
        omega
    rw [nothing]
    exact Nat.zero_le _
  | succ g =>
    obtain ⟨pool, there⟩ : ∃ pool, w.torrent.pools[g]? = some pool :=
      ⟨w.torrent.pools[g], List.getElem?_eq_getElem (by omega)⟩
    obtain ⟨_, capacity, within⟩ := valid.fixed pool (List.mem_of_getElem? there)
    have total : assembling w = pool.outstanding := by
      rw [valid.counted g pool there]
      exact Finset.sum_congr rfl (fun s _ => from' s g pools.symm)
    unfold Within at within
    omega

/-! ### Steps of one session -/

theorem moved_cases (w w' : Swarm) (s t : Nat) (x : Session) (moved : Moved w w' s x) :
    w'.sessions t = x ∧ t = s ∨ w'.sessions t = w.sessions t ∧ t ≠ s := by
  by_cases mine : t = s
  · exact Or.inl ⟨by rw [mine, session_of_moved w w' s x moved], mine⟩
  · exact Or.inr ⟨by rw [moved.sessions, Function.update_of_ne mine], mine⟩

/-- A sum over the sessions after one of them moved. -/
theorem sum_moved (f : Session → Nat) (w w' : Swarm) (s : Nat) (x : Session) (moved : Moved w w' s x)
    (inside : s < w.joined) : (∑ t ∈ Finset.range w'.joined, f (w'.sessions t)) + f (w.sessions s) =
      (∑ t ∈ Finset.range w.joined, f (w.sessions t)) + f x := by
  have member := Finset.mem_range.2 inside
  have others : ∑ t ∈ (Finset.range w.joined).erase s, f (w'.sessions t) =
      ∑ t ∈ (Finset.range w.joined).erase s, f (w.sessions t) := by
    apply Finset.sum_congr rfl
    intro t other
    rw [moved.sessions, Function.update_of_ne (Finset.ne_of_mem_erase other)]
  rw [moved.joined, ← Finset.add_sum_erase _ _ member, ← Finset.add_sum_erase _ (fun t => f (w.sessions t)) member,
    others, session_of_moved w w' s x moved]
  omega

/-- What the budget depends on. -/
def resources (t : HotTorrent) : List PieceBufferPool × Option Nat × StorageLayout × Nat :=
  (t.pools, t.stagingPool, t.layout, t.stagingMemLimit)

theorem pools_of_resources (t t' : HotTorrent) (same : resources t' = resources t) :
    t'.pools = t.pools ∧ t'.stagingPool = t.stagingPool ∧ ∀ size limit, Sized size limit t → Sized size limit t' := by
  rw [resources, resources, Prod.mk.injEq, Prod.mk.injEq, Prod.mk.injEq] at same
  refine ⟨same.1, same.2.1, ?_⟩
  intro size limit sized
  rw [Sized, same.2.2.1, same.2.2.2]
  exact sized

theorem storePool_resources (t : HotTorrent) (staging : StagingPool) (shared : Option PieceBufferPool) :
    (storePool t staging shared).stagingPool = t.stagingPool ∧ (storePool t staging shared).layout = t.layout ∧
      (storePool t staging shared).stagingMemLimit = t.stagingMemLimit := by
  unfold storePool
  split <;> exact ⟨rfl, rfl, rfl⟩

theorem storePool_congr (t : HotTorrent) (staging staging' : StagingPool) (shared : Option PieceBufferPool)
    (same : staging.pool = staging'.pool) : storePool t staging shared = storePool t staging' shared := by
  unfold storePool
  rw [same]

/-- Storing the pool that is there changes nothing. -/
theorem storePool_sharedPool (t : HotTorrent) (staging : StagingPool) :
    resources (storePool t staging (sharedPool t staging)) = resources t := by
  unfold storePool sharedPool
  cases held : staging.pool with
  | none => rfl
  | some g =>
    cases there : t.pools[g]? with
    | none =>
      rw [Option.bind_some, there]
    | some pool =>
      rw [Option.bind_some, there]
      obtain ⟨inside, rfl⟩ := List.getElem?_eq_some_iff.1 there
      dsimp only [resources]
      rw [List.set_getElem_self]

/-- Only the pool that the session holds has changed. -/
def Touches (w w' : Swarm) (s : Nat) (shared : Option PieceBufferPool) : Prop :=
  resources w'.torrent = resources (storePool w.torrent (w.sessions s).dl.staging shared)

theorem touches_pools (w w' : Swarm) (s : Nat) (shared : Option PieceBufferPool) (touches : Touches w w' s shared) :
    w'.torrent.pools = (storePool w.torrent (w.sessions s).dl.staging shared).pools ∧
      w'.torrent.stagingPool = w.torrent.stagingPool ∧
      ∀ size limit, Sized size limit w.torrent → Sized size limit w'.torrent := by
  obtain ⟨pools, slot, sized⟩ := pools_of_resources _ _ touches
  obtain ⟨slot', layout, memLimit⟩ := storePool_resources w.torrent (w.sessions s).dl.staging shared
  refine ⟨pools, slot.trans slot', ?_⟩
  intro size limit valid
  apply sized
  rw [Sized, layout, memLimit]
  exact valid

theorem resources_rebuild (t : HotTorrent) : resources t.rebuildWantedAndMissing = resources t := by
  unfold rebuildWantedAndMissing
  dsimp only
  split_ifs <;> rfl

theorem resources_writePriority (t : HotTorrent) (fileIdx : Nat) (priority : Int) :
    resources (t.writePriority fileIdx priority) = resources t := by
  unfold writePriority
  split_ifs <;> rfl

theorem resources_settleHave (t : HotTorrent) (index : Nat) :
    resources (t.recordHave index).settleHave = resources t := by
  unfold settleHave
  split_ifs <;> rfl

/-- The end of `mark_have` keeps the pools, and may forget the current one. -/
theorem afterHave_cases (t : HotTorrent) (index : Nat) (fully : Bool) : ∃ t', resources t' = resources t ∧
    (t.afterHave index fully = t' ∨ t.afterHave index fully = t'.releaseStagingPool) := by
  unfold afterHave dropPieceHashesIfComplete
  dsimp only
  have same : ∀ hub hashes, resources { t with haveHub := hub, pieceHashes := hashes } = resources t :=
    fun _ _ => rfl
  split_ifs
  · exact ⟨_, same _ [], Or.inr rfl⟩
  · exact ⟨_, same _ [], Or.inl rfl⟩
  · exact ⟨_, same _ t.pieceHashes, Or.inr rfl⟩
  · exact ⟨_, same _ t.pieceHashes, Or.inl rfl⟩
  · exact ⟨_, same _ t.pieceHashes, Or.inr rfl⟩
  · exact ⟨_, same _ t.pieceHashes, Or.inl rfl⟩

section
variable {sole : Bool} {size limit : Nat} (w : Swarm) (valid : Budgeted sole size limit w)
include valid

theorem held_pool (s g : Nat) (held : (w.sessions s).dl.staging.pool = some g) :
    ∃ pool, w.torrent.pools[g]? = some pool ∧ Fitted size limit pool := by
  have last := (valid.latest s g held).1
  have there : w.torrent.pools[g]? = some w.torrent.pools[g] := List.getElem?_eq_getElem (by omega)
  exact ⟨_, there, valid.fixed _ (List.mem_of_getElem? there)⟩

/-- What an exchange leaves as it was, apart from the pools. -/
theorem frame_exchange (w' : Swarm) (s : Nat) (x : Session) (shared : Option PieceBufferPool)
    (inside : s < w.joined) (moved : Moved w w' s x) (touches : Touches w w' s shared) :
    Sized size limit w'.torrent ∧ ∀ t, w'.joined ≤ t → w'.sessions t = absent := by
  constructor
  · exact (touches_pools w w' s shared touches).2.2 size limit valid.sized
  · intro t outside
    rw [moved.joined] at outside
    rw [moved.sessions, Function.update_of_ne (by omega)]
    exact valid.beyond t outside

theorem sane_moved (w' : Swarm) (s : Nat) (x : Session) (moved : Moved w w' s x)
    (sane : x.live = true → Sane (max size 1) x.dl.staging) (t : Nat) (live : (w'.sessions t).live = true) :
    Sane (max size 1) (w'.sessions t).dl.staging := by
  rcases moved_cases w w' s t x moved with ⟨mine, _⟩ | ⟨other, _⟩
  · rw [mine] at live ⊢
    exact sane live
  · rw [other] at live ⊢
    exact valid.sane t live

/-- A session without a pool has none afterwards. -/
theorem budgeted_unbacked (w' : Swarm) (s : Nat) (x : Session) (shared : Option PieceBufferPool)
    (inside : s < w.joined) (moved : Moved w w' s x) (touches : Touches w w' s shared)
    (held : (w.sessions s).dl.staging.pool = none) (same : x.dl.staging.pool = none)
    (empty : x.dl.staging.len = 0) (sane : x.live = true → Sane (max size 1) x.dl.staging) :
    Budgeted sole size limit w' := by
  obtain ⟨sized, beyond⟩ := frame_exchange w valid w' s x shared inside moved touches
  have pools : w'.torrent.pools = w.torrent.pools := by
    rw [(touches_pools w w' s _ touches).1]
    unfold storePool
    rw [held]
  have nothing : ∀ g, heldFrom g x = 0 ∧ heldFrom g (w.sessions s) = 0 := by
    intro g
    unfold heldFrom
    rw [same, held, if_neg nofun, if_neg nofun]
    exact ⟨rfl, rfl⟩
  refine ⟨sized, beyond, ?_, sane_moved w valid w' s x moved sane, ?_, ?_, ?_, ?_⟩
  · intro t unbacked
    rcases moved_cases w w' s t x moved with ⟨mine, _⟩ | ⟨other, _⟩
    · rw [mine]
      exact empty
    · rw [other] at unbacked ⊢
      exact valid.unbacked t unbacked
  · rw [pools]
    exact valid.fixed
  · intro g pool there
    rw [pools] at there
    have sums := sum_moved (heldFrom g) w w' s x moved inside
    rw [(nothing g).1, (nothing g).2] at sums
    rw [valid.counted g pool there]
    omega
  · intro t g holds
    rw [pools]
    rcases moved_cases w w' s t x moved with ⟨mine, _⟩ | ⟨other, _⟩
    · rw [mine, same] at holds
      cases holds
    · rw [other] at holds
      exact valid.latest t g holds
  · rw [pools, (touches_pools w w' s _ touches).2.1]
    exact valid.slot

theorem held_le (s g : Nat) (pool : PieceBufferPool) (inside : s < w.joined)
    (held : (w.sessions s).dl.staging.pool = some g) (there : w.torrent.pools[g]? = some pool) :
    (w.sessions s).dl.staging.len ≤ pool.outstanding := by
  have mine : heldFrom g (w.sessions s) = (w.sessions s).dl.staging.len := by
    rw [heldFrom, if_pos held]
  rw [valid.counted g pool there, ← mine]
  exact Finset.single_le_sum (f := fun t => heldFrom g (w.sessions t)) (fun _ _ => Nat.zero_le _)
    (Finset.mem_range.2 inside)

/-- A session exchanges buffers with the pool that it holds. -/
theorem budgeted_backed (w' : Swarm) (s g : Nat) (x : Session) (pool pool' : PieceBufferPool)
    (inside : s < w.joined) (moved : Moved w w' s x) (touches : Touches w w' s (some pool'))
    (held : (w.sessions s).dl.staging.pool = some g) (same : x.dl.staging.pool = some g)
    (there : w.torrent.pools[g]? = some pool)
    (exchanged : Exchanges pool pool' (w.sessions s).dl.staging.len x.dl.staging.len)
    (sane : x.live = true → Sane (max size 1) x.dl.staging) : Budgeted sole size limit w' := by
  obtain ⟨sized, beyond⟩ := frame_exchange w valid w' s x (some pool') inside moved touches
  have pools : w'.torrent.pools = w.torrent.pools.set g pool' := by
    rw [(touches_pools w w' s _ touches).1]
    unfold storePool
    rw [held]
  have size' : w'.torrent.pools.length = w.torrent.pools.length := by
    rw [pools, List.length_set]
  have before : heldFrom g (w.sessions s) = (w.sessions s).dl.staging.len := by
    rw [heldFrom, if_pos held]
  have after : heldFrom g x = x.dl.staging.len := by
    rw [heldFrom, if_pos same]
  refine ⟨sized, beyond, ?_, sane_moved w valid w' s x moved sane, ?_, ?_, ?_, ?_⟩
  · intro t unbacked
    rcases moved_cases w w' s t x moved with ⟨mine, _⟩ | ⟨other, _⟩
    · rw [mine, same] at unbacked
      cases unbacked
    · rw [other] at unbacked ⊢
      exact valid.unbacked t unbacked
  · intro one member
    rw [pools] at member
    rcases List.mem_or_eq_of_mem_set member with old | new
    · exact valid.fixed one old
    · rw [new]
      have before := valid.fixed pool (List.mem_of_getElem? there)
      exact ⟨exchanged.pieceLength.trans before.1, exchanged.capacity.trans before.2.1, exchanged.within⟩
  · intro k one found
    have sums := sum_moved (heldFrom k) w w' s x moved inside
    rw [pools, List.getElem?_set] at found
    by_cases here : g = k
    · subst here
      rw [if_pos rfl] at found
      split_ifs at found
      cases found
      have counted := valid.counted g pool there
      have balance := exchanged.counted
      omega
    · rw [if_neg here] at found
      have elsewhere : heldFrom k x = 0 ∧ heldFrom k (w.sessions s) = 0 := by
        unfold heldFrom
        rw [same, held, if_neg (fun clash => here (Option.some.inj clash)),
          if_neg (fun clash => here (Option.some.inj clash))]
        exact ⟨rfl, rfl⟩
      have counted := valid.counted k one found
      omega
  · intro t k holds
    rw [size']
    rcases moved_cases w w' s t x moved with ⟨mine, _⟩ | ⟨other, _⟩
    · rw [mine, same] at holds
      cases holds
      exact valid.latest s g held
    · rw [other] at holds
      exact valid.latest t k holds
  · rw [size', (touches_pools w w' s _ touches).2.1]
    exact valid.slot

/-- A session exchanges buffers with its pool, if it has one. -/
theorem budgeted_exchange (w' : Swarm) (s : Nat) (x : Session) (shared : Option PieceBufferPool)
    (inside : s < w.joined) (moved : Moved w w' s x) (touches : Touches w w' s shared)
    (same : x.dl.staging.pool = (w.sessions s).dl.staging.pool)
    (trades : Trades (sharedPool w.torrent (w.sessions s).dl.staging) shared (w.sessions s).dl.staging.len
      x.dl.staging.len) (sane : x.live = true → Sane (max size 1) x.dl.staging) : Budgeted sole size limit w' := by
  cases held : (w.sessions s).dl.staging.pool with
  | none =>
    rw [sharedPool, held, Option.bind_none] at trades
    cases shared with
    | none =>
      exact budgeted_unbacked w valid w' s x none inside moved touches held (same.trans held)
        (trades (valid.unbacked s held)) sane
    | some pool => exact trades.elim
  | some g =>
    obtain ⟨pool, there, _, _, within⟩ := held_pool w valid s g held
    rw [sharedPool, held, Option.bind_some, there] at trades
    cases shared with
    | none => exact trades.elim
    | some pool' =>
      exact budgeted_backed w valid w' s g x pool pool' inside moved touches held (same.trans held) there
        (trades within (held_le w valid s g pool inside held there)) sane

/-- A step that keeps the pieces that the session assembles, and all pools. -/
theorem budgeted_quiet (w' : Swarm) (s : Nat) (x : Session) (inside : s < w.joined) (moved : Moved w w' s x)
    (resources' : resources w'.torrent = resources w.torrent)
    (same : x.dl.staging.pool = (w.sessions s).dl.staging.pool)
    (indices : x.dl.staging.indices = (w.sessions s).dl.staging.indices)
    (sane : x.live = true → Sane (max size 1) x.dl.staging) : Budgeted sole size limit w' := by
  refine budgeted_exchange w valid w' s x _ inside moved
    (resources'.trans (storePool_sharedPool w.torrent (w.sessions s).dl.staging).symm) same ?_ sane
  rw [len_of_indices _ _ indices]
  exact trades_refl _ _

/-- A step of nobody, which keeps all pools. -/
theorem budgeted_resources (w' : Swarm) (sessions : w'.sessions = w.sessions) (joined : w'.joined = w.joined)
    (resources' : resources w'.torrent = resources w.torrent) : Budgeted sole size limit w' := by
  obtain ⟨pools, slot, sized⟩ := pools_of_resources _ _ resources'
  refine ⟨sized size limit valid.sized, ?_, ?_, ?_, ?_, ?_, ?_, ?_⟩
  · rw [sessions, joined]
    exact valid.beyond
  · rw [sessions]
    exact valid.unbacked
  · rw [sessions]
    exact valid.sane
  · rw [pools]
    exact valid.fixed
  · rw [pools, sessions, joined]
    exact valid.counted
  · rw [pools, sessions]
    exact valid.latest
  · rw [pools, slot]
    exact valid.slot

/-! ### Calls of a session -/

theorem budgeted_finish (s : Nat) (out : List Request) (inside : s < w.joined) : Budgeted sole size limit (w.finish s out) :=
  budgeted_quiet w valid _ s { w.sessions s with pc := .idle } inside ⟨rfl, rfl⟩ rfl rfl rfl (valid.sane s)

theorem budgeted_setPc (s : Nat) (pc : Pc) (inside : s < w.joined) : Budgeted sole size limit (w.setPc s pc) :=
  budgeted_quiet w valid _ s { w.sessions s with pc := pc } inside ⟨rfl, rfl⟩ rfl rfl rfl (valid.sane s)

theorem budgeted_setDl (s : Nat) (dl : PeerDownload) (inside : s < w.joined)
    (same : dl.staging.pool = (w.sessions s).dl.staging.pool)
    (indices : dl.staging.indices = (w.sessions s).dl.staging.indices)
    (sane : (w.sessions s).live = true → Sane (max size 1) dl.staging) : Budgeted sole size limit (w.setDl s dl) :=
  budgeted_quiet w valid _ s { w.sessions s with dl := dl } inside ⟨rfl, rfl⟩ rfl same indices sane

theorem budgeted_issue (s : Nat) (grant : Option Nat) (inside : s < w.joined) :
    Budgeted sole size limit (w.issue s grant) := by
  unfold Swarm.issue
  split
  · exact budgeted_finish w valid s [] inside
  · exact budgeted_setPc w valid s _ inside

theorem budgeted_round (s : Nat) (call : Call) (inside : s < w.joined) : Budgeted sole size limit (w.round s call) := by
  have filled := fillExisting_fills call.pipeline (w.sessions s).dl.may
    (w.sessions s).dl.staging.indices (w.sessions s).dl.staging
  have refilled := budgeted_setDl w valid s { (w.sessions s).dl with
    staging := (StagingPool.fillExisting call.pipeline (w.sessions s).dl.may (w.sessions s).dl.staging.indices
      (w.sessions s).dl.staging).2 } inside filled.pool filled.indices
    (fun live => sane_fillExisting _ (valid.sane s live) _ _ _)
  unfold Swarm.round
  dsimp only
  split_ifs
  · exact budgeted_finish w valid s _ inside
  · exact budgeted_finish _ refilled s _ inside
  · exact budgeted_setPc _ refilled s _ inside

theorem budgeted_suggest (s : Nat) (call : Call) (inside : s < w.joined) : Budgeted sole size limit (w.suggest s call) := by
  unfold Swarm.suggest
  dsimp only
  split
  · exact budgeted_setPc w valid s _ inside
  · rename_i index rest _
    have shorter := budgeted_setDl w valid s { (w.sessions s).dl with suggested := rest } inside rfl rfl
      (valid.sane s)
    split_ifs
    · exact budgeted_setPc _ shorter s _ inside
    · exact shorter

theorem budgeted_claim (s index : Nat) (call : Call) (snapshot : Option Snapshot) (inside : s < w.joined) :
    Budgeted sole size limit (w.claim s call snapshot index) := by
  have marked := budgeted_resources w valid { w with torrent := (insertClaim w.torrent index
    (w.sessions s).dl.endgame).2 } rfl rfl rfl
  have held : ∀ endgameHeld, Budgeted sole size limit ({ w with torrent := (insertClaim w.torrent index
      (w.sessions s).dl.endgame).2 }.setSession s { w.sessions s with
        dl := { (w.sessions s).dl with held := insert index (w.sessions s).dl.held }
        endgameHeld := endgameHeld }) := fun endgameHeld =>
    budgeted_quiet w valid _ s { w.sessions s with
      dl := { (w.sessions s).dl with held := insert index (w.sessions s).dl.held }
      endgameHeld := endgameHeld } inside ⟨rfl, rfl⟩ rfl rfl rfl (valid.sane s)
  unfold Swarm.claim
  dsimp only
  by_cases granted : (insertClaim w.torrent index (w.sessions s).dl.endgame).1 = true
  · rw [if_pos granted]
    split
    · exact budgeted_setPc _ (held _) s _ inside
    · exact budgeted_finish _ (held _) s _ inside
  · rw [if_neg granted]
    exact budgeted_setPc _ marked s _ inside

theorem budgeted_release (s index : Nat) (inside : s < w.joined) : Budgeted sole size limit (w.release s index) := by
  refine budgeted_quiet w valid _ s { w.sessions s with
    dl := { (w.sessions s).dl with held := (w.sessions s).dl.held.erase index }
    endgameHeld := (w.sessions s).endgameHeld.erase index } inside ⟨rfl, rfl⟩ ?_ rfl rfl (valid.sane s)
  unfold Swarm.release
  dsimp only
  split_ifs <;> rfl

theorem budgeted_openPiece (s index length : Nat) (call : Call) (inside : s < w.joined) :
    Budgeted sole size limit (w.openPiece s call index length) := by
  unfold Swarm.openPiece
  dsimp only
  by_cases contained : (w.sessions s).dl.staging.contains index = true
  · rw [if_pos contained]
    exact budgeted_finish w valid s _ inside
  rw [if_neg contained]
  have absent' := Bool.eq_false_of_not_eq_true contained
  have trades := tryStart_trades (w.sessions s).dl.staging (sharedPool w.torrent (w.sessions s).dl.staging)
    index length absent'
  rcases tryStart_cases (w.sessions s).dl.staging (sharedPool w.torrent (w.sessions s).dl.staging)
    index length absent' with ⟨started, _, same⟩ | ⟨refused, _⟩
  · rw [if_pos started]
    have opened := budgeted_exchange w valid { w.setDl s { (w.sessions s).dl with
        staging := ((w.sessions s).dl.staging.tryStart (sharedPool w.torrent (w.sessions s).dl.staging)
          index length).2.1 } with
      torrent := storePool w.torrent (w.sessions s).dl.staging ((w.sessions s).dl.staging.tryStart
        (sharedPool w.torrent (w.sessions s).dl.staging) index length).2.2 } s _ _ inside ⟨rfl, rfl⟩ rfl same trades
      (fun live => sane_tryStart _ (valid.sane s live) _ index length)
    split_ifs
    · exact budgeted_setPc _ opened s _ inside
    · split
      · rename_i request staging next
        obtain ⟨_, _, indices, pool⟩ := requestNext_some _ staging index request next
        have asked := budgeted_setDl _ opened s { (w.sessions s).dl with staging := staging } inside
          (pool.trans (by simp only [Swarm.setDl, Swarm.setSession, Function.update_self]))
          (indices.trans (by simp only [Swarm.setDl, Swarm.setSession, Function.update_self]))
          (fun live => sane_requestNext _ (sane_tryStart _ (valid.sane s (by
            simpa only [Swarm.setDl, Swarm.setSession, Function.update_self] using live)) _ index length)
            staging index request next)
        exact budgeted_setPc _ asked s _ inside
      · exact budgeted_finish _ opened s _ inside
  · rw [refused, if_neg Bool.false_ne_true]
    exact budgeted_finish _ (budgeted_release w valid s index inside) s _ inside

/-- A session that assembles nothing any more is gone. -/
theorem budgeted_gone (w' : Swarm) (s : Nat) (inside : s < w.joined) (moved : Moved w w' s absent)
    (empty : (w.sessions s).dl.staging.len = 0) (resources' : resources w'.torrent = resources w.torrent) :
    Budgeted sole size limit w' := by
  obtain ⟨pools, slot, sized⟩ := pools_of_resources _ _ resources'
  refine ⟨sized size limit valid.sized, ?_, ?_, sane_moved w valid w' s absent moved nofun, ?_, ?_, ?_, ?_⟩
  · intro t outside
    rw [moved.joined] at outside
    rw [moved.sessions, Function.update_of_ne (by omega)]
    exact valid.beyond t outside
  · intro t unbacked
    rcases moved_cases w w' s t absent moved with ⟨mine, _⟩ | ⟨other, _⟩
    · rw [mine]
      rfl
    · rw [other] at unbacked ⊢
      exact valid.unbacked t unbacked
  · rw [pools]
    exact valid.fixed
  · intro g pool there
    rw [pools] at there
    have sums := sum_moved (heldFrom g) w w' s absent moved inside
    have before : heldFrom g (w.sessions s) = 0 := by
      unfold heldFrom
      rw [empty, ite_self]
    have after : heldFrom g absent = 0 := rfl
    rw [valid.counted g pool there]
    omega
  · intro t g holds
    rw [pools]
    rcases moved_cases w w' s t absent moved with ⟨mine, _⟩ | ⟨other, _⟩
    · rw [mine] at holds
      cases holds
    · rw [other] at holds
      exact valid.latest t g holds
  · rw [pools, slot]
    exact valid.slot

theorem budgeted_clearStaging (s : Nat) (inside : s < w.joined) : Budgeted sole size limit (w.clearStaging s) := by
  refine budgeted_exchange w valid _ s { w.sessions s with dl := { (w.sessions s).dl with
    staging := ((w.sessions s).dl.staging.clear (sharedPool w.torrent (w.sessions s).dl.staging)).1 } }
    _ inside ⟨rfl, rfl⟩ rfl rfl ?_ (fun live => sane_clear _ (valid.sane s live)
      (sharedPool w.torrent (w.sessions s).dl.staging))
  have empty : ((w.sessions s).dl.staging.clear (sharedPool w.torrent (w.sessions s).dl.staging)).1.len = 0 := by
    rw [StagingPool.len, indices_clear]
    rfl
  dsimp only
  rw [empty]
  exact clear_trades _ _

theorem budgeted_leave (s : Nat) (inside : s < w.joined) : Budgeted sole size limit (w.leave s) := by
  have cleared := budgeted_clearStaging w valid s inside
  refine budgeted_gone _ cleared _ s inside ⟨?_, rfl⟩ ?_ rfl
  · simp only [Swarm.leave, Swarm.clearStaging, Swarm.setDl, Swarm.setSession, Function.update_idem]
    rfl
  · simp only [Swarm.clearStaging, Swarm.setDl, Swarm.setSession, Function.update_self, StagingPool.len,
      indices_clear, List.length_nil]

theorem budgeted_reclaim (s index : Nat) (data : Buffer) (inside : s < w.joined) :
    Budgeted sole size limit (w.reclaim s index data) := by
  refine budgeted_exchange w valid _ s { w.sessions s with dl := reclaimed w s index data }
    ((w.sessions s).dl.staging.reclaim (sharedPool w.torrent (w.sessions s).dl.staging) index data).2 inside
    ⟨rfl, rfl⟩ rfl rfl ?_ (fun live => sane_reclaim _ (valid.sane s live)
      (sharedPool w.torrent (w.sessions s).dl.staging) index data)
  have same : (reclaimed w s index data).staging.len = (w.sessions s).dl.staging.len :=
    len_of_indices _ _ (indices_reclaim _ (sharedPool w.torrent (w.sessions s).dl.staging) index data)
  dsimp only
  rw [same]
  exact reclaim_trades _ _ index _ data

theorem budgeted_handlePiece (s index begin' : Nat) (block : Buffer) (submitted : Bool)
    (live : (w.sessions s).live = true) (inside : s < w.joined) :
    Budgeted sole size limit (w.handlePiece s index begin' block submitted) := by
  unfold Swarm.handlePiece
  dsimp only
  split_ifs
  · exact valid
  · split
    · exact budgeted_leave w valid s inside
    · exact valid
    · rename_i complete staging ingested
      obtain ⟨_, indices, pool⟩ := ingestIfStaged_some _ staging index begin' block complete ingested
      have same : sharedPool w.torrent staging = sharedPool w.torrent (w.sessions s).dl.staging := by
        rw [sharedPool, pool]
        rfl
      split_ifs with done
      · rw [done] at ingested
        obtain ⟨⟨data, taken, shared⟩, tookOut, sane⟩ := sane_handOver _ staging (valid.sane s live)
          (sharedPool w.torrent staging) index begin' block ingested
        have took := (takeForHash_trades staging taken _ shared index data tookOut).2
        have pool' := (takeForHash_some staging taken _ shared index data tookOut).2.2
        rw [same, len_of_indices _ _ indices] at took
        have hashing := budgeted_exchange w valid { w.setDl s { (w.sessions s).dl with
            staging := taken, hashing := insert index (w.sessions s).dl.hashing } with
            torrent := storePool w.torrent staging shared } s _ shared inside ⟨rfl, rfl⟩
          (congrArg resources (storePool_congr w.torrent staging _ shared pool)) (pool'.trans pool) took (fun _ => sane)
        rw [tookOut]
        dsimp only
        split_ifs
        · exact hashing
        · exact budgeted_leave _ (budgeted_reclaim _ hashing s index data inside) s inside
      · rw [Bool.eq_false_of_not_eq_true done] at ingested
        exact budgeted_setDl w valid s _ inside pool indices
          (fun live => sane_ingest _ (valid.sane s live) staging index begin' block ingested)

theorem budgeted_hashOk (s index : Nat) (data : Buffer) (inside : s < w.joined) :
    Budgeted sole size limit (w.hashOk s index data) := by
  have reclaimed := budgeted_reclaim w valid s index data inside
  unfold Swarm.hashOk
  dsimp only
  split_ifs
  · exact reclaimed
  · exact budgeted_setPc _ reclaimed s _ inside

theorem budgeted_hashFail (s index : Nat) (data : Buffer) (inside : s < w.joined) :
    Budgeted sole size limit (w.hashFail s index data) :=
  budgeted_resources _ (budgeted_reclaim w valid s index data inside) _ rfl rfl rfl

theorem budgeted_enterEndgame (s : Nat) (inside : s < w.joined) : Budgeted sole size limit (w.enterEndgame s) := by
  unfold Swarm.enterEndgame
  dsimp only
  split_ifs
  · refine budgeted_setDl w valid s _ inside rfl ?_ (fun live => sane_requeueTimedOut _
      (sane_enableEndgame _ (valid.sane s live)))
    dsimp only
    rw [indices_requeueTimedOut, indices_enableEndgame]
  · exact valid

/-! ### Calls on the torrent -/

theorem budgeted_release_pool : Budgeted sole size limit { w with torrent := w.torrent.releaseStagingPool } := by
  refine ⟨valid.sized, valid.beyond, valid.unbacked, valid.sane, valid.fixed, valid.counted, valid.latest, ?_⟩
  intro g none'
  cases none'

theorem fresh_pool : PieceBufferPool.new w.torrent.layout.pieceLength w.torrent.stagingMemLimit =
    PieceBufferPool.new size limit := by
  rw [valid.sized.1, valid.sized.2, new_effectiveLimit]

/-- Nobody holds buffers of a pool that is not there yet. -/
theorem heldFrom_beyond (s : Nat) : heldFrom w.torrent.pools.length (w.sessions s) = 0 := by
  unfold heldFrom
  split_ifs with held
  · exact absurd (valid.latest s _ held).1 (Nat.lt_irrefl _)
  · rfl

/-- A new pool; with `sole`, while no session holds one. -/
theorem budgeted_fill (free : sole = true → w.torrent.stagingPool.isNone = true → unheld w = true) :
    Budgeted sole size limit { w with torrent := w.torrent.fillStagingPool } := by
  unfold fillStagingPool
  by_cases filled : w.torrent.stagingPool.isSome = true
  · rw [if_pos filled]
    exact valid
  · rw [if_neg filled]
    rw [Option.not_isSome_iff_eq_none] at filled
    refine ⟨valid.sized, valid.beyond, valid.unbacked, valid.sane, ?_, ?_, ?_, ?_⟩
    · intro pool member
      rcases List.mem_append.1 member with old | new
      · exact valid.fixed pool old
      · rw [List.mem_singleton.1 new, fresh_pool w valid]
        exact ⟨rfl, rfl, Nat.zero_le _⟩
    · intro g pool there
      dsimp only at there ⊢
      rw [List.getElem?_append] at there
      split_ifs at there with old
      · exact valid.counted g pool there
      · rw [List.getElem?_singleton] at there
        split_ifs at there with new
        cases there
        have last : g = w.torrent.pools.length := by omega
        subst last
        exact (Finset.sum_eq_zero (fun s _ => heldFrom_beyond w valid s)).symm
    · intro s g holds
      rw [List.length_append, List.length_singleton]
      refine ⟨Nat.lt_succ_of_lt (valid.latest s g holds).1, ?_⟩
      intro only
      have unheld' := free only (filled ▸ rfl)
      rw [unheld, decide_eq_true_eq] at unheld'
      rw [unheld' s (by
        by_contra outside
        dsimp only at holds
        rw [valid.beyond s (Nat.not_lt.1 outside)] at holds
        cases holds)] at holds
      cases holds
    · intro g current
      cases current
      rw [List.length_append, List.length_singleton]
      exact ⟨Nat.lt_succ_self _, fun _ => rfl⟩

theorem budgeted_ensure (free : sole = true → w.torrent.isDownloadComplete = false →
    w.torrent.stagingPool.isNone = true → unheld w = true) :
    Budgeted sole size limit { w with torrent := w.torrent.ensureStagingPool } := by
  unfold ensureStagingPool
  by_cases complete : w.torrent.isDownloadComplete = true
  · rw [if_pos complete]
    exact valid
  · rw [if_neg complete]
    exact budgeted_fill w valid (fun only => free only (Bool.eq_false_of_not_eq_true complete))

theorem sessionStaging_cases (wantDownload : Bool) :
    (sessionStaging w.torrent wantDownload).len = 0 ∧ Sane (max size 1) (sessionStaging w.torrent wantDownload) ∧
      ∀ g, (sessionStaging w.torrent wantDownload).pool = some g → Current sole g w.torrent.pools.length := by
  have seeder : (StagingPool.empty w.torrent.layout.pieceLength).len = 0 ∧
      Sane (max size 1) (StagingPool.empty w.torrent.layout.pieceLength) ∧
      ∀ g, (StagingPool.empty w.torrent.layout.pieceLength).pool = some g →
        Current sole g w.torrent.pools.length := by
    rw [valid.sized.1]
    exact ⟨rfl, ⟨nofun, rfl, rfl⟩, nofun⟩
  unfold sessionStaging
  split_ifs
  · split
    · rename_i pool current
      split
      · rename_i shared there
        have size' := (valid.fixed shared (List.mem_of_getElem? there)).1
        refine ⟨rfl, ⟨nofun, size', congrArg numBlocks size'⟩, ?_⟩
        intro g held
        cases held
        exact valid.slot pool current
      · exact seeder
    · exact seeder
  · exact seeder

theorem budgeted_attach (wantDownload : Bool) (pipeline : Nat) : Budgeted sole size limit (attach w wantDownload pipeline) := by
  obtain ⟨empty, sane, latest⟩ := sessionStaging_cases w valid wantDownload
  have session : ∀ s, ((attach w wantDownload pipeline).sessions s).dl.staging =
      sessionStaging w.torrent wantDownload ∧ s = w.joined ∨
      (attach w wantDownload pipeline).sessions s = w.sessions s ∧ s ≠ w.joined := by
    intro s
    by_cases new : s = w.joined
    · refine Or.inl ⟨?_, new⟩
      rw [new, attach]
      dsimp only
      rw [Function.update_self]
      rfl
    · exact Or.inr ⟨Function.update_of_ne new _ _, new⟩
  have kept : ∀ g, ∑ s ∈ Finset.range (w.joined + 1), heldFrom g ((attach w wantDownload pipeline).sessions s) =
      ∑ s ∈ Finset.range w.joined, heldFrom g (w.sessions s) := by
    intro g
    rw [Finset.sum_range_succ]
    have last : heldFrom g ((attach w wantDownload pipeline).sessions w.joined) = 0 := by
      rcases session w.joined with ⟨new, _⟩ | ⟨_, other⟩
      · rw [heldFrom, new, empty, ite_self]
      · exact absurd rfl other
    rw [last, Nat.add_zero]
    apply Finset.sum_congr rfl
    intro s member
    rcases session s with ⟨_, new⟩ | ⟨old, _⟩
    · exact absurd (Finset.mem_range.1 member) (by omega)
    · rw [old]
  refine ⟨valid.sized, ?_, ?_, ?_, valid.fixed, ?_, ?_, valid.slot⟩
  · intro s outside
    change w.joined + 1 ≤ s at outside
    rcases session s with ⟨_, new⟩ | ⟨old, _⟩
    · omega
    · rw [old]
      exact valid.beyond s (by omega)
  · intro s unbacked
    rcases session s with ⟨new, _⟩ | ⟨old, _⟩
    · rw [new]
      exact empty
    · rw [old] at unbacked ⊢
      exact valid.unbacked s unbacked
  · intro s live
    rcases session s with ⟨new, _⟩ | ⟨old, _⟩
    · rw [new]
      exact sane
    · rw [old] at live ⊢
      exact valid.sane s live
  · intro g pool there
    rw [valid.counted g pool there]
    exact (kept g).symm
  · intro s g holds
    rcases session s with ⟨new, _⟩ | ⟨old, _⟩
    · rw [new] at holds
      exact latest g holds
    · rw [old] at holds
      exact valid.latest s g holds

theorem budgeted_setFilePriority (fileIdx : Nat) (priority : Int)
    (free : sole = true →
      (w.torrent.writePriority fileIdx priority).rebuildWantedAndMissing.isDownloadComplete = false →
      w.torrent.stagingPool.isNone = true → unheld w = true) :
    Budgeted sole size limit { w with torrent := w.torrent.setFilePriority fileIdx priority } := by
  have same := (resources_rebuild (w.torrent.writePriority fileIdx priority)).trans
    (resources_writePriority w.torrent fileIdx priority)
  have rebuilt := budgeted_resources w valid { w with
    torrent := (w.torrent.writePriority fileIdx priority).rebuildWantedAndMissing } rfl rfl same
  unfold setFilePriority
  dsimp only
  split_ifs with complete
  · exact budgeted_release_pool _ rebuilt
  · refine budgeted_ensure _ rebuilt ?_
    intro only wanted empty
    dsimp only at empty
    rw [(pools_of_resources _ _ same).2.1] at empty
    exact free only wanted empty

theorem budgeted_settleMark (index : Nat) : Budgeted sole size limit { w with torrent := settleMark w.torrent index } := by
  unfold settleMark
  split_ifs
  · exact valid
  · obtain ⟨t, same, kept | released⟩ := afterHave_cases (w.torrent.recordHave index).settleHave index
      (w.torrent.recordHave index).fullyHad
    · rw [kept]
      exact budgeted_resources w valid _ rfl rfl (same.trans (resources_settleHave w.torrent index))
    · rw [released]
      have trimmed := budgeted_resources w valid { w with torrent := t } rfl rfl
        (same.trans (resources_settleHave w.torrent index))
      exact budgeted_release_pool _ trimmed

/-! ### Every step -/

theorem live_inside (s : Nat) (live : (w.sessions s).live = true) : s < w.joined := by
  by_contra outside
  rw [valid.beyond s (Nat.not_lt.1 outside)] at live
  cases live

theorem budgeted_inner (s : Nat) (event : Inner) (w' : Swarm) (inside : s < w.joined)
    (taken : stepInner w s event = some w') : Budgeted sole size limit w' := by
  unfold stepInner at taken
  split at taken
  · cases taken
    exact budgeted_round w valid s _ inside
  · cases taken
    exact budgeted_suggest w valid s _ inside
  · split_ifs at taken
    cases taken
    exact budgeted_setPc w valid s _ inside
  · cases taken
    exact budgeted_finish w valid s _ inside
  · cases taken
    exact budgeted_claim w valid s _ _ _ inside
  · cases taken
    exact budgeted_openPiece w valid s _ _ _ inside
  · rename_i index _
    cases taken
    have released := budgeted_resources w valid { w with torrent := w.torrent.releasePieceClaim index } rfl rfl rfl
    exact budgeted_setPc _ released s _ inside
  · cases taken
    exact budgeted_setPc _ (budgeted_settleMark w valid _) s _ inside
  · cases taken

theorem budgeted_outer (s : Nat) (event : Outer) (w' : Swarm) (live : (w.sessions s).live = true)
    (inside : s < w.joined)
    (taken : stepOuter w s event = some w') : Budgeted sole size limit w' := by
  unfold stepOuter at taken
  cases event with
  | issue grant =>
    cases taken
    exact budgeted_issue w valid s grant inside
  | block index begin' data submitted =>
    cases taken
    exact budgeted_handlePiece w valid s index begin' data submitted live inside
  | hashOk index data =>
    dsimp only at taken
    split_ifs at taken
    cases taken
    exact budgeted_hashOk w valid s index data inside
  | hashFail index data =>
    dsimp only at taken
    split_ifs at taken
    cases taken
    exact budgeted_hashFail w valid s index data inside
  | stall =>
    cases taken
    exact budgeted_setDl w valid s _ inside rfl (indices_requeueTimedOut _)
      (fun _ => sane_requeueTimedOut _ (valid.sane s live))
  | enterEndgame =>
    cases taken
    exact budgeted_enterEndgame w valid s inside
  | clearStaging =>
    cases taken
    exact budgeted_clearStaging w valid s inside
  | reject index begin' length =>
    cases taken
    refine budgeted_setDl w valid s _ inside ?_ (indices_clearRequest _ index begin' length)
      (fun _ => sane_clearRequest _ (valid.sane s live) index begin' length)
    dsimp only [StagingPool.clearRequest]
    split <;> rfl
  | leave =>
    cases taken
    exact budgeted_leave w valid s inside
  | suggestPiece index =>
    cases taken
    apply budgeted_setDl w valid s _ inside
    · unfold PeerDownload.pushSuggest
      split_ifs <;> rfl
    · unfold PeerDownload.pushSuggest
      split_ifs <;> rfl
    · intro _
      unfold PeerDownload.pushSuggest
      split_ifs <;> exact valid.sane s live
  | resume _ | setPipeline _ | choke _ | allowedFast _ | peerHas _ =>
    cases taken
    exact budgeted_setDl w valid s _ inside rfl rfl (valid.sane s)

theorem budgeted_join (wantDownload : Bool) (pipeline : Nat)
    (free : sole = true → creates w (.session (.join wantDownload limit pipeline)) = true → unheld w = true) :
    Budgeted sole size limit (w.join wantDownload limit pipeline) := by
  rw [join_eq]
  cases wantDownload with
  | false => exact budgeted_attach w valid false pipeline
  | true =>
    have limited : Budgeted sole size limit { w with torrent := w.torrent.setStagingMemLimit limit } := by
      refine ⟨⟨valid.sized.1, ?_⟩, valid.beyond, valid.unbacked, valid.sane, valid.fixed, valid.counted,
        valid.latest, valid.slot⟩
      rfl
    have ensured := budgeted_ensure _ limited (by
      intro only wanted empty
      apply free only
      rw [creates, Bool.true_and, Bool.and_eq_true, Bool.not_eq_true']
      exact ⟨wanted, empty⟩)
    exact budgeted_attach _ ensured true pipeline

theorem step_budgeted (event : Event) (w' : Swarm) (guard : sole = true → budgetGuard w event = true)
    (taken : step limit w event = some w') : Budgeted sole size limit w' := by
  have free : sole = true → creates w event = true → unheld w = true := by
    intro only made
    have kept := guard only
    rw [budgetGuard, made] at kept
    exact kept
  cases event with
  | session event =>
    rw [step] at taken
    split_ifs at taken with constant
    cases event with
    | join wantDownload memLimit pipeline =>
      cases taken
      cases of_decide_eq_true constant
      exact budgeted_join w valid wantDownload pipeline free
    | inner s event =>
      rw [Download.step] at taken
      split_ifs at taken with live
      exact budgeted_inner w valid s event w' (live_inside w valid s live) taken
    | outer s event =>
      rw [Download.step] at taken
      split_ifs at taken with live
      exact budgeted_outer w valid s event w' live.1 (live_inside w valid s live.1) taken
    | setFilePriority fileIdx priority =>
      cases taken
      apply budgeted_setFilePriority w valid fileIdx priority
      intro only wanted empty
      apply free only
      rw [creates, Bool.and_eq_true, Bool.not_eq_true']
      exact ⟨wanted, empty⟩
  | attach wantDownload pipeline =>
    cases taken
    exact budgeted_attach w valid wantDownload pipeline
  | ensureStagingPool =>
    cases taken
    apply budgeted_ensure w valid
    intro only wanted empty
    apply free only
    rw [creates, Bool.and_eq_true, Bool.not_eq_true']
    exact ⟨wanted, empty⟩
  | fillStagingPool =>
    cases taken
    exact budgeted_fill w valid free
  | releaseStagingPool =>
    cases taken
    exact budgeted_release_pool w valid

end

/-! ### Every run -/

theorem start_bare (t : HotTorrent) (start : Start t) : t.pools = [] ∧ t.stagingPool = none := by
  have finished : ∀ t : HotTorrent, resources t.finishNew = resources t := by
    intro t
    unfold finishNew recountCompletedPayload
    split_ifs <;> exact resources_rebuild t
  have bared : ∀ t bare : HotTorrent, t = bare.finishNew → bare.pools = [] → bare.stagingPool = none →
      t.pools = [] ∧ t.stagingPool = none := by
    intro t bare same pools slot
    obtain ⟨pools', slot', _⟩ := pools_of_resources _ _ (same ▸ finished bare)
    exact ⟨pools'.trans pools, slot'.trans slot⟩
  induction start with
  | empty _ _ _ _ | complete _ _ _ _ => exact bared _ _ rfl rfl rfl
  | loaded layout row allowIncomplete t consistent result =>
    unfold loadFromCatalog at result
    split_ifs at result
    all_goals cases result
    all_goals exact bared _ _ rfl rfl rfl
  | subscribed t before ih => exact ih

theorem budgeted_started (sole : Bool) (limit : Nat) (t : HotTorrent) (start : Start t) :
    Budgeted sole t.layout.pieceLength limit (started limit t) := by
  obtain ⟨pools, slot⟩ := start_bare t start
  have none' : (started limit t).torrent.pools = [] := pools
  refine ⟨⟨rfl, rfl⟩, fun _ _ => rfl, fun _ _ => rfl, nofun, ?_, ?_, ?_, ?_⟩
  · rw [none']
    nofun
  · rw [none']
    nofun
  · intro s g held
    cases held
  · intro g held
    change t.stagingPool = some g at held
    rw [slot] at held
    cases held

/-- The live sessions assemble within the budget, in every run that allocates a pool only while no session
holds an earlier one. -/
theorem budget_holds (limit : Nat) (t : HotTorrent) (start : Start t) (events : List Event) (w : Swarm)
    (kept : Guarded (step limit) (fun w event => budgetGuard w event = true) (started limit t) events)
    (ran : exec (step limit) (started limit t) events = some w) : assembling w ≤ budget limit t :=
  assembling_le t.layout.pieceLength limit w (exec_invariant (step limit) _ (Budgeted true t.layout.pieceLength limit)
    (fun w event w' valid guard taken => step_budgeted w valid event w' (fun _ => guard) taken) _ w events
    (budgeted_started true limit t start) kept ran)

/-- Five pieces of one byte; the first is a file of its own, and the other file is off. -/
def twoFiles : StorageLayout := ⟨["data"], 1, 5, 5, [⟨["a"], 1, 0, 1⟩, ⟨["b"], 4, 1, 0⟩]⟩

def twoEmpty : HotTorrent := newEmpty 1 [] twoFiles (List.replicate 100 0)

/-- A session asks its unchoked peer, which has everything, for a piece. -/
def opens (s index : Nat) : List Download.Event :=
  [.outer s (.choke false), .outer s (.peerHas [248]), .outer s (.issue (some BLOCK_SIZE)), .inner s .round,
    .inner s .suggest, .inner s (.pick index), .inner s .claim, .inner s .openPiece, .inner s .round]

/-- The first session completes what is wanted. -/
def completes : List Download.Event :=
  [.outer 0 (.block 0 0 [7] true), .outer 0 (.hashOk 0 [7]), .inner 0 .releaseClaim, .inner 0 .setHave]

/-- Two sessions join, the wanted file completes, and the other one is turned on. -/
def switchOn : List Download.Event :=
  [.join true 1 8, .join true 1 8] ++ opens 0 0 ++ completes ++ [.setFilePriority 1 1]

/-- Then each of them opens a piece, and so does a session that joins now. -/
def secondPool : List Event :=
  (switchOn ++ opens 0 1 ++ opens 1 2 ++ [Download.Event.join true 1 8] ++ opens 2 3).map .session

def overBudget : Swarm := (exec (step 1) (started 1 twoEmpty) secondPool).getD (started 1 twoEmpty)

/-- The sessions of the first pool and of the second one assemble three pieces with a capacity of two. -/
theorem two_pools_exceed :
    ¬∀ (limit : Nat) (t : HotTorrent) (events : List Event) (w : Swarm), Start t →
      exec (step limit) (started limit t) events = some w → assembling w ≤ budget limit t := by
  intro always
  have ran : exec (step 1) (started 1 twoEmpty) secondPool = some overBudget :=
    (Option.getD_of_ne_none (Option.isSome_iff_ne_none.1 (by decide +kernel)) _).symm
  have within := always 1 twoEmpty secondPool overBudget (.empty 1 [] twoFiles _) ran
  exact absurd within (by decide +kernel)

def openOne : List Event := ([Download.Event.join true 1 8] ++ opens 0 0).map .session

def opened : Swarm := (exec (step 1) (started 1 twoEmpty) openOne).getD (started 1 twoEmpty)

theorem budget_holds_openOne : assembling opened = 1 ∧ assembling opened ≤ budget 1 twoEmpty := by
  have ran : exec (step 1) (started 1 twoEmpty) openOne = some opened :=
    (Option.getD_of_ne_none (Option.isSome_iff_ne_none.1 (by decide +kernel)) _).symm
  have kept := guarded_of_guardedB (step 1) budgetGuard (started 1 twoEmpty) openOne (by decide +kernel)
  exact ⟨by decide +kernel, budget_holds 1 twoEmpty (.empty 1 [] twoFiles _) openOne opened kept ran⟩

end Seedchamp.Peer.StagingBudget
