import Seedchamp.Catalog.Table
import Seedchamp.Session.Announces
import Seedchamp.Session.Counters
import Seedchamp.Session.Lifecycle

/-!
The start of a torrent: the cancel flag, the catalog, the storage, the registry and the announce state,
one after the other, with its early exits. A torrent that is hot already runs through the same tail.
-/

namespace Seedchamp.Session.StartTorrent
open Foundation.KeyedRows Catalog.Table Disk.Spans Hot.Torrent Session.Registry
open Session.Lifecycle (LivePeer)
open Session.Announces (TorrentAnnounce)
open Session.Counters (Bytes mergeSeed ensureByteCounters rawUploaded counter counter_upsert)

/-! ### The session -/

/-- Trackers are told what a torrent moved since these counts. -/
structure AnnounceBaseline where
  uploaded : Nat
  completed : Nat
  incompleteAtStart : Bool
  deriving DecidableEq

/-- A flag is named by the number of its allocation and `raised` lists the set ones; a tracker key of
zero is a missing one. `announces` are the announce tasks spawned so far. -/
structure SessionRuntime where
  catalog : TorrentTable
  trackerKeys : Nat → Nat
  registry : HotRegistry
  torrentCancel : Nat → Option Nat
  raised : Finset Nat
  nextFlag : Nat
  peers : List LivePeer
  torrentBytes : Bytes
  announceBaseline : Nat → Option AnnounceBaseline
  announceSched : Nat → Option TorrentAnnounce
  status : String
  announces : List Nat
  allocated : ∀ id flag, torrentCancel id = some flag → flag < nextFlag
  own : ∀ i j flag, torrentCancel i = some flag → torrentCancel j = some flag → i = j
  held : ∀ p ∈ peers, p.cancel < nextFlag
  known : ∀ flag ∈ raised, flag < nextFlag

/-- What a start meets: failures of SQLite, the disk, the key it would generate and the clock. -/
structure Surroundings where
  wantFails : Option Error
  loadFails : Option Error
  keyFails : Option Error
  statsReadable : Bool
  ensureStorage : StorageLayout → Except Error Unit
  discardWrites : Bool
  stagingMemLimit : Nat
  generated : Nat
  generated_ne : generated ≠ 0
  now : Nat

namespace SessionRuntime

def isHot (s : SessionRuntime) (id : Nat) : Bool := (s.registry.getId id).isSome

/-- The peers whose sessions go on: their flag is down. -/
def running (s : SessionRuntime) : List LivePeer := s.peers.filter (fun p => p.cancel ∉ s.raised)

/-- What a reader of the cancel flag of a torrent sees. -/
def cancelled (s : SessionRuntime) (id : Nat) : Option Bool :=
  (s.torrentCancel id).map (fun flag => decide (flag ∈ s.raised))

def completedBytes (s : SessionRuntime) (id : Nat) : Nat :=
  ((s.registry.getId id).map HotTorrent.completedBytes).getD 0

/-- `announce_transfer_totals`: uploaded and downloaded as a tracker is told. -/
def announceTransferTotals (s : SessionRuntime) (id : Nat) : Nat × Nat :=
  let base := (s.announceBaseline id).getD ⟨0, 0, false⟩
  (rawUploaded s.torrentBytes id - base.uploaded, s.completedBytes id - base.completed)

def pendingCompleted (s : SessionRuntime) (id : Nat) : Bool :=
  ((s.announceSched id).map TorrentAnnounce.pendingCompleted).getD false

def sentCompleted (s : SessionRuntime) (id : Nat) : Bool :=
  ((s.announceSched id).map TorrentAnnounce.sentCompleted).getD false

/-! ### The steps of a start -/

/-- A fresh cancel flag for the torrent; the one it had is raised. -/
def freshCancelFlag (s : SessionRuntime) (id : Nat) : SessionRuntime :=
  { s with
    torrentCancel := Function.update s.torrentCancel id (some s.nextFlag)
    raised := (s.torrentCancel id).toFinset ∪ s.raised
    nextFlag := s.nextFlag + 1
    allocated := by
      intro j flag named
      rw [Function.update_apply] at named
      split_ifs at named
      · cases named
        exact Nat.lt_succ_self _
      · exact Nat.lt_succ_of_lt (s.allocated j flag named)
    own := by
      intro i j flag first second
      rw [Function.update_apply] at first second
      split_ifs at first second with here there there
      · rw [here, there]
      · cases first
        exact absurd (s.allocated j _ second) (Nat.lt_irrefl _)
      · cases second
        exact absurd (s.allocated i _ first) (Nat.lt_irrefl _)
      · exact s.own i j flag first second
    held := fun p member => Nat.lt_succ_of_lt (s.held p member)
    known := by
      intro flag member
      rw [Finset.mem_union, Option.mem_toFinset] at member
      rcases member with named | before
      · exact Nat.lt_succ_of_lt (s.allocated id flag named)
      · exact Nat.lt_succ_of_lt (s.known flag before) }

/-- `set_want_start(id, true)`. -/
def setWantStart (around : Surroundings) (t : TorrentTable) (id : Nat) : Except Error TorrentTable :=
  match around.wantFails with
  | some problem => .error problem
  | none => Catalog.Table.setWantStart t id true

def catalogRow (r : Row) : CatalogRow :=
  let (complete, bitfield, haveCount, _) := r.loadBitfieldState
  ⟨r.id, r.infohash, r.pieceCount, complete, bitfield, haveCount, r.pieceHashes⟩

def loadRow (r : Row) : Except Error HotTorrent :=
  match r.loadStorageLayout with
  | .error problem => .error problem
  | .ok layout => loadFromCatalog layout (catalogRow r) true

/-- What `HotRegistry::load_from_catalog` reads. -/
def load (t : TorrentTable) (id : Nat) : Except Error HotTorrent :=
  match t.find? id with
  | none => .error noRows
  | some r => loadRow r

def ensureTrackerKey (around : Surroundings) (s : SessionRuntime) (id : Nat) : Except Error SessionRuntime :=
  if s.trackerKeys id ≠ 0 then .ok s
  else
    match around.keyFails with
    | some problem => .error problem
    | none => .ok { s with trackerKeys := Function.update s.trackerKeys id around.generated }

/-- The first catalog section of a cold start. Its statements are not one transaction. -/
def wantAndLoad (around : Surroundings) (s : SessionRuntime) (id : Nat) : Except Error HotTorrent × SessionRuntime :=
  match setWantStart around s.catalog id with
  | .error problem => (.error problem, s)
  | .ok wanted =>
    let s := { s with catalog := wanted }
    match around.loadFails with
    | some problem => (.error problem, s)
    | none =>
      match load wanted id with
      | .error problem => (.error problem, s)
      | .ok hot =>
        match ensureTrackerKey around s id with
        | .error problem => (.error problem, s)
        | .ok s => (.ok hot, s)

/-- `ensure_storage`, unless the writes are discarded. -/
def storage (around : Surroundings) (hot : HotTorrent) : Except Error Unit :=
  if around.discardWrites then .ok () else around.ensureStorage hot.layout

def prepared (around : Surroundings) (hot : HotTorrent) : HotTorrent :=
  let hot := hot.setStagingMemLimit around.stagingMemLimit
  if hot.isDownloadComplete then hot else hot.ensureStagingPool

def publish (s : SessionRuntime) (id : Nat) (hot : HotTorrent) : SessionRuntime :=
  if (s.registry.getId id).isNone then { s with registry := s.registry.insert hot } else s

def seedByteCounters (around : Surroundings) (s : SessionRuntime) (id : Nat) : SessionRuntime :=
  { s with
    torrentBytes :=
      mergeSeed s.torrentBytes id (if around.statsReadable then statsUploaded s.catalog id else 0) }

/-- The counts of the torrent as they are now. -/
def resetAnnounceBaseline (s : SessionRuntime) (id : Nat) : SessionRuntime :=
  let bytes := ensureByteCounters s.torrentBytes id
  { s with
    torrentBytes := bytes
    announceBaseline := Function.update s.announceBaseline id (some {
      uploaded := rawUploaded bytes id
      completed := s.completedBytes id
      incompleteAtStart := ((s.registry.getId id).map (fun t => !t.isComplete)).getD false }) }

def kickAnnounceNow (around : Surroundings) (s : SessionRuntime) (id : Nat) : SessionRuntime :=
  if (s.registry.getId id).isNone then s
  else
    let entry := (s.announceSched id).getD (TorrentAnnounce.fresh around.now)
    if entry.inFlight then s
    else
      { s with
        announceSched := Function.update s.announceSched id (some { entry with inFlight := true })
        announces := id :: s.announces }

/-- The tail that a start of a cold and of a hot torrent share. -/
def beginAnnounce (around : Surroundings) (s : SessionRuntime) (id : Nat) : SessionRuntime :=
  let s := (seedByteCounters around s id).resetAnnounceBaseline id
  let s :=
    { s with
      announceSched := Function.update s.announceSched id (some (TorrentAnnounce.fresh around.now))
      status := s!"#{id} starting — announcing…" }
  kickAnnounceNow around s id

def startTorrent (around : Surroundings) (s : SessionRuntime) (id : Nat) : Except Error Unit × SessionRuntime :=
  let s := s.freshCancelFlag id
  if s.isHot id then
    match setWantStart around s.catalog id with
    | .error problem => (.error problem, s)
    | .ok wanted => (.ok (), beginAnnounce around { s with catalog := wanted } id)
  else
    match wantAndLoad around s id with
    | (.error problem, s) => (.error problem, s)
    | (.ok hot, s) =>
      match storage around hot with
      | .error problem => (.error problem, s)
      | .ok () => (.ok (), beginAnnounce around (s.publish id (prepared around hot)) id)

/-! ### What a start does -/

theorem mem_running (s : SessionRuntime) (p : LivePeer) :
    p ∈ s.running ↔ p ∈ s.peers ∧ p.cancel ∉ s.raised := by
  rw [running, List.mem_filter, decide_eq_true_eq]

/-- A fresh flag ends the sessions that hold the old one, and no others. -/
theorem mem_running_freshCancelFlag (s : SessionRuntime) (id : Nat) (p : LivePeer) :
    p ∈ (s.freshCancelFlag id).running ↔ p ∈ s.running ∧ s.torrentCancel id ≠ some p.cancel := by
  rw [mem_running, mem_running, and_assoc]
  refine and_congr_right (fun _ => ?_)
  change p.cancel ∉ (s.torrentCancel id).toFinset ∪ s.raised ↔ _
  rw [Finset.mem_union, not_or, Option.mem_toFinset, Option.mem_def, and_comm]

theorem cancelled_freshCancelFlag (s : SessionRuntime) (id j : Nat) :
    (s.freshCancelFlag id).cancelled j = if j = id then some false else s.cancelled j := by
  change (Function.update s.torrentCancel id (some s.nextFlag) j).map
    (fun flag => decide (flag ∈ (s.torrentCancel id).toFinset ∪ s.raised)) = _
  rw [Function.update_apply]
  split_ifs with here
  · have down : s.nextFlag ∉ (s.torrentCancel id).toFinset ∪ s.raised := by
      rw [Finset.mem_union, Option.mem_toFinset]
      rintro (named | before)
      · exact Nat.lt_irrefl _ (s.allocated id _ named)
      · exact Nat.lt_irrefl _ (s.known _ before)
    rw [Option.map_some, decide_eq_false down]
  · rw [cancelled]
    cases named : s.torrentCancel j with
    | none => rfl
    | some flag =>
      have apart : s.torrentCancel id ≠ some flag := fun same => here (s.own j id flag named same)
      have same : flag ∈ (s.torrentCancel id).toFinset ∪ s.raised ↔ flag ∈ s.raised := by
        rw [Finset.mem_union, Option.mem_toFinset]
        exact ⟨fun either => either.resolve_left apart, Or.inr⟩
      rw [Option.map_some, Option.map_some, decide_eq_decide.2 same]

/-- The catalog once the torrent is wanted. -/
def wanted (t : TorrentTable) (id : Nat) : TorrentTable :=
  Catalog.Table.set t id (fun r => wantColumns r.columns true)

def wantRefused (around : Surroundings) (s : SessionRuntime) (id : Nat) : Bool :=
  around.wantFails.isSome || isDeleted s.catalog id

def loadRefused (around : Surroundings) (s : SessionRuntime) (id : Nat) : Bool :=
  around.loadFails.isSome || !(load s.catalog id).isOk ||
    (s.trackerKeys id = 0 && around.keyFails.isSome)

def storageRefused (around : Surroundings) (s : SessionRuntime) (id : Nat) : Bool :=
  match load s.catalog id with
  | .error _ => false
  | .ok hot => !(storage around hot).isOk

/-- Where a start gives up. -/
inductive Exit where
  | wanting
  | loading
  | storing
  deriving DecidableEq

def exit? (around : Surroundings) (s : SessionRuntime) (id : Nat) : Option Exit :=
  if wantRefused around s id then some .wanting
  else if s.isHot id then none
  else if loadRefused around s id then some .loading
  else if storageRefused around s id then some .storing
  else none

theorem load_wanted (t : TorrentTable) (id : Nat) : load (wanted t id) id = load t id := by
  rw [load, load, wanted, find?_set, if_pos rfl]
  cases t.find? id with
  | none => rfl
  | some r =>
    rw [Option.map_some]
    by_cases deleted : r.columns.deleted = true
    · rw [wantColumns, if_pos deleted]
      rfl
    · rw [wantColumns, if_neg deleted]
      rfl

theorem setWantStart_refused (around : Surroundings) (s : SessionRuntime) (id : Nat)
    (refused : wantRefused around s id = true) :
    ∃ problem, setWantStart around s.catalog id = .error problem := by
  rw [setWantStart]
  cases fails : around.wantFails with
  | some problem => exact ⟨problem, rfl⟩
  | none =>
    rw [wantRefused, fails] at refused
    change isDeleted s.catalog id = true at refused
    refine ⟨.msg s!"torrent #{id} is deleted; cannot start", ?_⟩
    dsimp only
    rw [Catalog.Table.setWantStart, refused]
    rfl

theorem setWantStart_accepted (around : Surroundings) (s : SessionRuntime) (id : Nat)
    (accepted : wantRefused around s id = false) :
    setWantStart around s.catalog id = .ok (wanted s.catalog id) := by
  rw [wantRefused, Bool.or_eq_false_iff, Option.isSome_eq_false_iff, Option.isNone_iff_eq_none] at accepted
  rw [setWantStart, accepted.1]
  dsimp only
  rw [Catalog.Table.setWantStart, accepted.2]
  rfl

def keyed (around : Surroundings) (s : SessionRuntime) (id : Nat) : Nat → Nat :=
  if s.trackerKeys id ≠ 0 then s.trackerKeys
  else Function.update s.trackerKeys id around.generated

/-- What is left behind where a start gives up. -/
def abandoned (around : Surroundings) (s : SessionRuntime) (id : Nat) : Exit → SessionRuntime
  | .wanting => s.freshCancelFlag id
  | .loading => { s.freshCancelFlag id with catalog := wanted s.catalog id }
  | .storing =>
    { s.freshCancelFlag id with
      catalog := wanted s.catalog id
      trackerKeys := keyed around s id }

theorem wantAndLoad_refused (around : Surroundings) (s : SessionRuntime) (id : Nat)
    (accepted : wantRefused around s id = false) (refused : loadRefused around s id = true) :
    ∃ problem, wantAndLoad around s id = (.error problem, { s with catalog := wanted s.catalog id }) := by
  rw [wantAndLoad, setWantStart_accepted around s id accepted]
  dsimp only
  cases fails : around.loadFails with
  | some problem => exact ⟨problem, rfl⟩
  | none =>
    dsimp only
    rw [load_wanted]
    cases loaded : load s.catalog id with
    | error problem => exact ⟨problem, rfl⟩
    | ok hot =>
      have missing : (s.trackerKeys id = 0 && around.keyFails.isSome) = true := by
        rw [loadRefused, fails, loaded] at refused
        exact refused
      rw [Bool.and_eq_true, decide_eq_true_eq] at missing
      obtain ⟨problem, found⟩ := Option.isSome_iff_exists.1 missing.2
      refine ⟨problem, ?_⟩
      dsimp only
      rw [ensureTrackerKey, if_neg (not_not.2 missing.1), found]

theorem wantAndLoad_accepted (around : Surroundings) (s : SessionRuntime) (id : Nat)
    (accepted : wantRefused around s id = false) (loads : loadRefused around s id = false) :
    ∃ hot, load s.catalog id = .ok hot ∧ wantAndLoad around s id =
      (.ok hot, { s with catalog := wanted s.catalog id, trackerKeys := keyed around s id }) := by
  rw [loadRefused, Bool.or_eq_false_iff, Bool.or_eq_false_iff, Option.isSome_eq_false_iff,
    Option.isNone_iff_eq_none] at loads
  obtain ⟨⟨works, read⟩, key⟩ := loads
  rw [wantAndLoad, setWantStart_accepted around s id accepted]
  dsimp only
  rw [works, load_wanted]
  cases loaded : load s.catalog id with
  | error problem =>
    rw [loaded] at read
    cases read
  | ok hot =>
    refine ⟨hot, rfl, ?_⟩
    dsimp only
    rw [ensureTrackerKey, keyed]
    by_cases present : s.trackerKeys id ≠ 0
    · rw [if_pos present, if_pos present]
    · rw [if_neg present, if_neg present]
      rw [not_not.1 present, decide_eq_true rfl, Bool.true_and, Option.isSome_eq_false_iff,
        Option.isNone_iff_eq_none] at key
      rw [key]

/-- A start that gives up. -/
theorem startTorrent_abandoned (around : Surroundings) (s : SessionRuntime) (id : Nat) (exit : Exit)
    (stops : exit? around s id = some exit) :
    ∃ problem, startTorrent around s id = (.error problem, abandoned around s id exit) := by
  have sameWant : wantRefused around (s.freshCancelFlag id) id = wantRefused around s id := rfl
  have sameLoad : loadRefused around (s.freshCancelFlag id) id = loadRefused around s id := rfl
  have sameHot : (s.freshCancelFlag id).isHot id = s.isHot id := rfl
  rw [exit?] at stops
  rw [startTorrent, sameHot]
  by_cases refused : wantRefused around s id = true
  · rw [if_pos refused] at stops
    cases stops
    obtain ⟨problem, failed⟩ :=
      setWantStart_refused around (s.freshCancelFlag id) id (sameWant.trans refused)
    refine ⟨problem, ?_⟩
    rw [wantAndLoad, failed]
    split_ifs
    · rfl
    · rfl
  · have accepted := Bool.not_eq_true _ ▸ refused
    rw [if_neg refused] at stops
    by_cases hot : s.isHot id = true
    · rw [if_pos hot] at stops
      cases stops
    · rw [if_neg hot] at stops ⊢
      by_cases unloaded : loadRefused around s id = true
      · rw [if_pos unloaded] at stops
        cases stops
        obtain ⟨problem, failed⟩ := wantAndLoad_refused around (s.freshCancelFlag id) id
          (sameWant.trans accepted) (sameLoad.trans unloaded)
        refine ⟨problem, ?_⟩
        rw [failed]
        rfl
      · rw [if_neg unloaded] at stops
        obtain ⟨hot, loaded, done⟩ := wantAndLoad_accepted around (s.freshCancelFlag id) id
          (sameWant.trans accepted) (sameLoad.trans (Bool.not_eq_true _ ▸ unloaded))
        by_cases unstored : storageRefused around s id = true
        · rw [if_pos unstored] at stops
          cases stops
          rw [done]
          dsimp only
          rw [storageRefused, show load s.catalog id = .ok hot from loaded] at unstored
          change (!(storage around hot).isOk) = true at unstored
          cases stored : storage around hot with
          | ok _ =>
            rw [stored] at unstored
            cases unstored
          | error problem => exact ⟨problem, rfl⟩
        · rw [if_neg unstored] at stops
          cases stops

/-- A start that goes through. -/
theorem startTorrent_accepted (around : Surroundings) (s : SessionRuntime) (id : Nat)
    (goes : exit? around s id = none) :
    ∃ s', startTorrent around s id = (.ok (), beginAnnounce around s' id) ∧
      (s.isHot id = true → s' = { s.freshCancelFlag id with catalog := wanted s.catalog id }) := by
  have sameWant : wantRefused around (s.freshCancelFlag id) id = wantRefused around s id := rfl
  have sameLoad : loadRefused around (s.freshCancelFlag id) id = loadRefused around s id := rfl
  have sameHot : (s.freshCancelFlag id).isHot id = s.isHot id := rfl
  rw [exit?] at goes
  by_cases refused : wantRefused around s id = true
  · rw [if_pos refused] at goes
    cases goes
  · have accepted := Bool.not_eq_true _ ▸ refused
    rw [if_neg refused] at goes
    rw [startTorrent, sameHot]
    by_cases hot : s.isHot id = true
    · rw [if_pos hot, setWantStart_accepted around (s.freshCancelFlag id) id (sameWant.trans accepted)]
      exact ⟨_, rfl, fun _ => rfl⟩
    · rw [if_neg hot] at goes ⊢
      by_cases unloaded : loadRefused around s id = true
      · rw [if_pos unloaded] at goes
        cases goes
      · rw [if_neg unloaded] at goes
        obtain ⟨torrent, loaded, done⟩ := wantAndLoad_accepted around (s.freshCancelFlag id) id
          (sameWant.trans accepted) (sameLoad.trans (Bool.not_eq_true _ ▸ unloaded))
        by_cases unstored : storageRefused around s id = true
        · rw [if_pos unstored] at goes
          cases goes
        · rw [storageRefused, show load s.catalog id = .ok torrent from loaded] at unstored
          change ¬(!(storage around torrent).isOk) = true at unstored
          rw [done]
          dsimp only
          cases stored : storage around torrent with
          | error problem =>
            rw [stored] at unstored
            exact absurd rfl unstored
          | ok _ => exact ⟨_, rfl, fun same => absurd same hot⟩

/-! ### The announce state -/

theorem kickAnnounceNow_running (around : Surroundings) (s : SessionRuntime) (id : Nat) :
    (kickAnnounceNow around s id).running = s.running := by
  rw [kickAnnounceNow]
  dsimp only
  split_ifs
  · rfl
  · rfl
  · rfl

theorem kickAnnounceNow_totals (around : Surroundings) (s : SessionRuntime) (id : Nat) :
    (kickAnnounceNow around s id).announceTransferTotals id = s.announceTransferTotals id := by
  rw [kickAnnounceNow]
  dsimp only
  split_ifs
  · rfl
  · rfl
  · rfl

/-- A kick only claims the entry. -/
theorem kickAnnounceNow_entry (around : Surroundings) (s : SessionRuntime) (id : Nat)
    (field : TorrentAnnounce → Bool) (claim : ∀ e, field { e with inFlight := true } = field e)
    (entry : TorrentAnnounce) (listed : s.announceSched id = some entry) :
    (((kickAnnounceNow around s id).announceSched id).map field).getD false = field entry := by
  rw [kickAnnounceNow]
  dsimp only
  split_ifs
  · rw [listed]
    rfl
  · rw [listed]
    rfl
  · dsimp only
    rw [Function.update_self, listed]
    exact claim entry

theorem beginAnnounce_running (around : Surroundings) (s : SessionRuntime) (id : Nat) :
    (beginAnnounce around s id).running = s.running := by
  rw [beginAnnounce, kickAnnounceNow_running]
  rfl

/-- The counts start over. -/
theorem beginAnnounce_totals (around : Surroundings) (s : SessionRuntime) (id : Nat) :
    (beginAnnounce around s id).announceTransferTotals id = (0, 0) := by
  rw [beginAnnounce, kickAnnounceNow_totals, announceTransferTotals]
  dsimp only
  rw [resetAnnounceBaseline]
  dsimp only
  rw [Function.update_self, Option.getD_some, Nat.sub_self]
  exact congrArg (Prod.mk 0) (Nat.sub_self _)

/-- The events start over. -/
theorem beginAnnounce_entry (around : Surroundings) (s : SessionRuntime) (id : Nat)
    (field : TorrentAnnounce → Bool) (claim : ∀ e, field { e with inFlight := true } = field e) :
    (((beginAnnounce around s id).announceSched id).map field).getD false =
      field (TorrentAnnounce.fresh around.now) :=
  kickAnnounceNow_entry around _ id field claim _ (Function.update_self _ _ _)

/-! ### Harmless starts -/

/-- What a run has stays. -/
structure Kept (id : Nat) (s s' : SessionRuntime) : Prop where
  sessions : ∀ p ∈ s.running, p.torrentId = id → p ∈ s'.running
  uploaded : (s.announceTransferTotals id).1 ≤ (s'.announceTransferTotals id).1
  downloaded : (s.announceTransferTotals id).2 ≤ (s'.announceTransferTotals id).2
  pending : s.pendingCompleted id = true → s'.pendingCompleted id = true
  sent : s.sentCompleted id = true → s'.sentCompleted id = true

structure Untouched (s s' : SessionRuntime) : Prop where
  catalog : s'.catalog = s.catalog
  trackerKeys : s'.trackerKeys = s.trackerKeys
  hot : s'.registry = s.registry
  flags : ∀ id, s'.cancelled id = s.cancelled id
  sessions : s'.running = s.running

/-- A start of a hot torrent loses nothing, and a failing one changes nothing. -/
def StartsSafely (around : Surroundings) (s : SessionRuntime) (id : Nat) : Prop :=
  (s.isHot id = true → Kept id s (startTorrent around s id).2) ∧
    ∀ problem, (startTorrent around s id).1 = .error problem → Untouched s (startTorrent around s id).2

/-- The states in which a start is safe. -/
structure Harmless (around : Surroundings) (s : SessionRuntime) (id : Nat) : Prop where
  sessions : s.isHot id = true → ∀ p ∈ s.running, p.torrentId = id → s.torrentCancel id ≠ some p.cancel
  totals : s.isHot id = true → exit? around s id = none → s.announceTransferTotals id = (0, 0)
  events : s.isHot id = true → exit? around s id = none →
    s.pendingCompleted id = false ∧ s.sentCompleted id = false
  flag : exit? around s id ≠ none → s.cancelled id = some false
  alone : exit? around s id ≠ none → ∀ p ∈ s.running, s.torrentCancel id ≠ some p.cancel
  started : exit? around s id = some .loading ∨ exit? around s id = some .storing →
    ∀ r, s.catalog.find? id = some r → r.columns.wantStart = true ∧ r.columns.state = .started
  key : exit? around s id = some .storing → s.trackerKeys id ≠ 0

theorem kept_accepted_iff (around : Surroundings) (s s' : SessionRuntime) (id : Nat)
    (same : s' = { s.freshCancelFlag id with catalog := wanted s.catalog id }) :
    Kept id s (beginAnnounce around s' id) ↔
      (∀ p ∈ s.running, p.torrentId = id → s.torrentCancel id ≠ some p.cancel) ∧
      s.announceTransferTotals id = (0, 0) ∧
      s.pendingCompleted id = false ∧ s.sentCompleted id = false := by
  have pending : (beginAnnounce around s' id).pendingCompleted id = false :=
    beginAnnounce_entry around s' id _ (fun _ => rfl)
  have sent : (beginAnnounce around s' id).sentCompleted id = false :=
    beginAnnounce_entry around s' id _ (fun _ => rfl)
  have running : ∀ p, p ∈ (beginAnnounce around s' id).running ↔
      p ∈ s.running ∧ s.torrentCancel id ≠ some p.cancel := by
    intro p
    rw [beginAnnounce_running, same]
    exact mem_running_freshCancelFlag s id p
  constructor
  · intro kept
    have up := kept.uploaded
    have down := kept.downloaded
    rw [beginAnnounce_totals] at up down
    refine ⟨fun p member here => ((running p).1 (kept.sessions p member here)).2, ?_, ?_, ?_⟩
    · exact Prod.ext (Nat.le_zero.1 up) (Nat.le_zero.1 down)
    · rw [← Bool.not_eq_true]
      intro before
      exact Bool.false_ne_true (pending.symm.trans (kept.pending before))
    · rw [← Bool.not_eq_true]
      intro before
      exact Bool.false_ne_true (sent.symm.trans (kept.sent before))
  · rintro ⟨sessions, totals, unpending, unsent⟩
    refine ⟨fun p member here => (running p).2 ⟨member, sessions p member here⟩, ?_, ?_, ?_, ?_⟩
    · rw [totals]
      exact Nat.zero_le _
    · rw [totals]
      exact Nat.zero_le _
    · exact fun before => absurd (unpending.symm.trans before) Bool.false_ne_true
    · exact fun before => absurd (unsent.symm.trans before) Bool.false_ne_true

/-- A hot torrent whose start gives up keeps its counts and events. -/
theorem kept_wanting_iff (s : SessionRuntime) (id : Nat) : Kept id s (s.freshCancelFlag id) ↔
    ∀ p ∈ s.running, p.torrentId = id → s.torrentCancel id ≠ some p.cancel := by
  constructor
  · intro kept p member here
    exact ((mem_running_freshCancelFlag s id p).1 (kept.sessions p member here)).2
  · intro sessions
    exact ⟨fun p member here => (mem_running_freshCancelFlag s id p).2 ⟨member, sessions p member here⟩,
      Nat.le_refl _, Nat.le_refl _, fun before => before, fun before => before⟩

theorem running_freshCancelFlag_iff (s : SessionRuntime) (id : Nat) :
    (s.freshCancelFlag id).running = s.running ↔ ∀ p ∈ s.running, s.torrentCancel id ≠ some p.cancel := by
  constructor
  · intro same p member
    rw [← same] at member
    exact ((mem_running_freshCancelFlag s id p).1 member).2
  · intro alone
    apply List.filter_congr
    intro p member
    rw [decide_eq_decide]
    have both := mem_running_freshCancelFlag s id p
    rw [mem_running, mem_running] at both
    constructor
    · exact fun down => (both.1 ⟨member, down⟩).1.2
    · intro down
      exact (both.2 ⟨⟨member, down⟩, alone p ((mem_running s p).2 ⟨member, down⟩)⟩).2

theorem wanted_iff (t : TorrentTable) (id : Nat) (present : isDeleted t id = false) :
    wanted t id = t ↔
      ∀ r, t.find? id = some r → r.columns.wantStart = true ∧ r.columns.state = .started := by
  have columns : ∀ r, t.find? id = some r →
      wantColumns r.columns true = { r.columns with wantStart := true, state := .started } := by
    intro r found
    rw [isDeleted, found] at present
    rw [wantColumns, if_neg (by rw [show r.columns.deleted = false from present]; exact Bool.false_ne_true),
      if_pos rfl]
  constructor
  · intro same r found
    have after := find?_set t id (fun r => wantColumns r.columns true) id
    rw [show Catalog.Table.set t id _ = t from same, if_pos rfl, found, Option.map_some, Option.some_inj] at after
    have equal := congrArg Row.columns after
    rw [Row.withColumns_columns, columns r found] at equal
    rw [equal]
    exact ⟨rfl, rfl⟩
  · intro started
    calc
      wanted t id = Catalog.Table.set t id Row.columns := by
        apply set_congr
        intro r found
        obtain ⟨want, state⟩ := started r found
        rw [columns r found, ← want, ← state]
      _ = t := set_columns t id

theorem exit_hot (around : Surroundings) (s : SessionRuntime) (id : Nat) (exit : Exit)
    (stops : exit? around s id = some exit) (hot : s.isHot id = true) : exit = .wanting := by
  rw [exit?] at stops
  split_ifs at stops
  · exact (Option.some.inj stops).symm

theorem exit_deleted (around : Surroundings) (s : SessionRuntime) (id : Nat) (exit : Exit)
    (stops : exit? around s id = some exit) (later : exit ≠ .wanting) :
    isDeleted s.catalog id = false := by
  rw [exit?] at stops
  by_cases refused : wantRefused around s id = true
  · rw [if_pos refused] at stops
    exact absurd (Option.some.inj stops).symm later
  · rw [wantRefused, Bool.not_eq_true, Bool.or_eq_false_iff] at refused
    exact refused.2

theorem keyed_iff (around : Surroundings) (s : SessionRuntime) (id : Nat) :
    keyed around s id = s.trackerKeys ↔ s.trackerKeys id ≠ 0 := by
  rw [keyed]
  split_ifs with missing
  · exact ⟨fun _ => missing, fun _ => rfl⟩
  · constructor
    · intro same
      have value := congrFun same id
      rw [Function.update_self, not_not.1 missing] at value
      exact absurd value around.generated_ne
    · exact fun present => absurd present missing

theorem cancelled_freshCancelFlag_iff (s : SessionRuntime) (id : Nat) :
    (∀ j, (s.freshCancelFlag id).cancelled j = s.cancelled j) ↔ s.cancelled id = some false := by
  constructor
  · intro same
    have here := same id
    rw [cancelled_freshCancelFlag, if_pos rfl] at here
    exact here.symm
  · intro lowered j
    rw [cancelled_freshCancelFlag]
    split_ifs with here
    · rw [here, lowered]
    · rfl

/-- Exactly which failing starts change nothing. -/
theorem untouched_abandoned_iff (around : Surroundings) (s : SessionRuntime) (id : Nat) (exit : Exit)
    (stops : exit? around s id = some exit) : Untouched s (abandoned around s id exit) ↔
      s.cancelled id = some false ∧ (∀ p ∈ s.running, s.torrentCancel id ≠ some p.cancel) ∧
      (exit = .loading ∨ exit = .storing →
        ∀ r, s.catalog.find? id = some r → r.columns.wantStart = true ∧ r.columns.state = .started) ∧
      (exit = .storing → s.trackerKeys id ≠ 0) := by
  have flags : (∀ j, (abandoned around s id exit).cancelled j = s.cancelled j) ↔
      s.cancelled id = some false := by
    rw [← cancelled_freshCancelFlag_iff]
    cases exit <;> exact Iff.rfl
  have sessions : (abandoned around s id exit).running = s.running ↔
      ∀ p ∈ s.running, s.torrentCancel id ≠ some p.cancel := by
    rw [← running_freshCancelFlag_iff]
    cases exit <;> exact Iff.rfl
  have hot : (abandoned around s id exit).registry = s.registry := by
    cases exit <;> rfl
  have catalog : (abandoned around s id exit).catalog = s.catalog ↔ (exit = .loading ∨ exit = .storing →
      ∀ r, s.catalog.find? id = some r → r.columns.wantStart = true ∧ r.columns.state = .started) := by
    cases exit with
    | wanting => exact ⟨fun _ later => (later.elim (fun clash => by cases clash) (fun clash => by cases clash)),
        fun _ => rfl⟩
    | loading =>
      exact (wanted_iff s.catalog id (exit_deleted around s id _ stops (fun clash => by cases clash))).trans
        ⟨fun started _ => started, fun started => started (Or.inl rfl)⟩
    | storing =>
      exact (wanted_iff s.catalog id (exit_deleted around s id _ stops (fun clash => by cases clash))).trans
        ⟨fun started _ => started, fun started => started (Or.inr rfl)⟩
  have keys : (abandoned around s id exit).trackerKeys = s.trackerKeys ↔
      (exit = .storing → s.trackerKeys id ≠ 0) := by
    cases exit with
    | wanting | loading => exact ⟨fun _ clash => (by cases clash), fun _ => rfl⟩
    | storing => exact (keyed_iff around s id).trans ⟨fun key _ => key, fun key => key rfl⟩
  constructor
  · intro untouched
    exact ⟨flags.1 untouched.flags, sessions.1 untouched.sessions, catalog.1 untouched.catalog,
      keys.1 untouched.trackerKeys⟩
  · rintro ⟨lowered, alone, started, key⟩
    exact ⟨catalog.2 started, keys.2 key, hot, flags.2 lowered, sessions.2 alone⟩

/-- A start is safe exactly where it finds nothing to lose: no session on the torrent's flag, nothing
moved and no completed event, and, where it fails, the flag, the row and the key it would write. -/
theorem start_safe_iff (around : Surroundings) (s : SessionRuntime) (id : Nat) :
    StartsSafely around s id ↔ Harmless around s id := by
  cases stops : exit? around s id with
  | none =>
    obtain ⟨s', done, same⟩ := startTorrent_accepted around s id stops
    rw [StartsSafely, done]
    constructor
    · rintro ⟨kept, -⟩
      have losses := fun hot => (kept_accepted_iff around s s' id (same hot)).1 (kept hot)
      exact ⟨fun hot => (losses hot).1, fun hot _ => (losses hot).2.1, fun hot _ => (losses hot).2.2,
        fun fails => absurd stops fails, fun fails => absurd stops fails,
        fun later => by
          rw [stops] at later
          exact absurd later (by decide),
        fun storing => absurd (stops.symm.trans storing) (by decide)⟩
    · intro harmless
      refine ⟨fun hot => ?_, fun problem clash => by cases clash⟩
      exact (kept_accepted_iff around s s' id (same hot)).2
        ⟨harmless.sessions hot, harmless.totals hot stops, harmless.events hot stops⟩
  | some exit =>
    obtain ⟨problem, done⟩ := startTorrent_abandoned around s id exit stops
    have failing : exit? around s id ≠ none := by
      rw [stops]
      exact fun clash => by cases clash
    have untouched := untouched_abandoned_iff around s id exit stops
    have kept : s.isHot id = true → (Kept id s (abandoned around s id exit) ↔
        ∀ p ∈ s.running, p.torrentId = id → s.torrentCancel id ≠ some p.cancel) := by
      intro hot
      rw [exit_hot around s id exit stops hot]
      exact kept_wanting_iff s id
    rw [StartsSafely, done]
    constructor
    · rintro ⟨whenHot, unchanged⟩
      obtain ⟨lowered, alone, started, key⟩ := untouched.1 (unchanged problem rfl)
      refine ⟨fun hot => (kept hot).1 (whenHot hot), fun _ goes => absurd goes failing,
        fun _ goes => absurd goes failing, fun _ => lowered, fun _ => alone, ?_, ?_⟩
      · rw [stops, Option.some_inj, Option.some_inj]
        exact started
      · rw [stops, Option.some_inj]
        exact key
    · intro harmless
      refine ⟨fun hot => (kept hot).2 (harmless.sessions hot), fun _ _ => untouched.2
        ⟨harmless.flag failing, harmless.alone failing, ?_, ?_⟩⟩
      · have started := harmless.started
        rw [stops, Option.some_inj, Option.some_inj] at started
        exact started
      · have key := harmless.key
        rw [stops, Option.some_inj] at key
        exact key

end SessionRuntime

open SessionRuntime

/-! ### A second start of a running torrent -/

def stoppedRow : Row where
  id := 1
  infohash := List.replicate 20 7
  pieceLength := 16384
  pieceCount := 1
  totalSize := 1
  pieceHashes := List.replicate 20 0
  columns := {
    state := .stopped
    wantStart := false
    complete := false
    deleted := false
    deletedAt := none
    bitfield := none
    stats := none
    metaPath := some ⟨["dl"], none⟩
    files := [⟨["a"], 1, 0, 1⟩] }

def stopped : SessionRuntime where
  catalog := ⟨[stoppedRow], by decide⟩
  trackerKeys := fun _ => 7
  registry := HotRegistry.new
  torrentCancel := fun _ => none
  raised := ∅
  nextFlag := 0
  peers := []
  torrentBytes := Rows.empty
  announceBaseline := fun _ => none
  announceSched := fun _ => none
  status := ""
  announces := []
  allocated := fun _ _ clash => by cases clash
  own := fun _ _ _ clash => by cases clash
  held := fun _ clash => by cases clash
  known := fun _ clash => by cases clash

def calm : Surroundings where
  wantFails := none
  loadFails := none
  keyFails := none
  statsReadable := true
  ensureStorage := fun _ => .ok ()
  discardWrites := false
  stagingMemLimit := 0
  generated := 1
  generated_ne := by decide
  now := 100

/-- The torrent runs, and one dialled peer holds its flag. -/
def dialled : SessionRuntime :=
  { (startTorrent calm stopped 1).2 with
    peers := [⟨1, 1, 0⟩]
    held := by decide }

/-- A second start ends the session of the peer. -/
theorem restart_ends_session : ¬ ∀ around s id, StartsSafely around s id := by
  intro always
  have hot : dialled.isHot 1 = true := by decide
  obtain ⟨s', done, same⟩ := startTorrent_accepted calm dialled 1 (by decide)
  have kept := (always calm dialled 1).1 hot
  rw [done] at kept
  exact ((kept_accepted_iff calm dialled s' 1 (same hot)).1 kept).1 ⟨1, 1, 0⟩ (by decide) rfl (by decide)

end Seedchamp.Session.StartTorrent
