import Seedchamp.Library.LeechCache
import Mathlib.Algebra.Order.BigOperators.Group.List
import Mathlib.Algebra.Order.Group.Nat

/-!
The soft cap of the leech cache. A placement under the cache leaves room for its own bytes and a margin,
so the cap holds as long as the reservation outgrows no placement by more than the margin before its
insert.
-/

namespace Seedchamp.Library.CacheCap
open Foundation.KeyedRows Foundation.TransitionSystem Catalog.Table Disk.Spans Library.Ingest
open Library.LeechCache

/-! ### The condition -/

/-- What the placement of a torrent leaves free beyond the torrent: the margin, unless the sum saturates. -/
def slack (total : Nat) : Nat := saturatingAdd total freeMarginBytes - total

/-- A row that reserves bytes after this rewrite and did not before. -/
def joins (t : TorrentTable) (id : Nat) (change : Columns → Columns) : Option Row :=
  (t.find? id).filter (fun r => !reserves r.columns && reserves (change r.columns))

/-- The bytes that the next statement of an insert adds to the reservation. -/
def gained (t : TorrentTable) (i : Insert) : Nat :=
  match i.phase with
  | .looking => 0
  | .inserting =>
    if t.list.any (fun r => r.infohash = i.ins.metainfo.infohash) then 0
    else if reserves i.ins.columns then i.ins.metainfo.totalSize else 0
  | .clearing id => ((joins t id (fun c => clearedColumns c i.ins)).map Row.totalSize).getD 0
  | .pathing id => ((joins t id (fun c => pathColumns c i.ins)).map Row.totalSize).getD 0

/-- The placement of the insert counted with this growth. -/
def counted (t : TorrentTable) (i : Insert) : Bool :=
  i.ins.homeRoot.isSome && gained t i ≤ i.ins.metainfo.totalSize &&
    committed t ≤ i.reserved + slack i.ins.metainfo.totalSize

/-- Every statement that adds to the reservation is part of an insert under the cache, and the
reservation has grown by no more than the margin since that insert read it. -/
def accounted (s : State) : Event → Bool
  | .advance k => s.inserts[k]?.all (fun i => gained s.catalog i = 0 || counted s.catalog i)
  | .writeHomeRoot k => s.retargets[k]?.all (fun r =>
      (joins s.catalog r.1 (fun c =>
        { c with metaPath := c.metaPath.map (fun p => { p with homeRoot := some r.2 }) })).isNone)
  | _ => true

/-! ### Sums -/

theorem committed_set (t : TorrentTable) (id : Nat) (change : Columns → Columns) :
    committed (set t id (fun r => change r.columns)) ≤
      committed t + ((joins t id change).map Row.totalSize).getD 0 := by
  have moved := Rows.sum_update t id (fun r => r.withColumns (change r.columns)) (fun _ => rfl)
    Row.reserved
  change committed (set t id (fun r => change r.columns)) + _ = committed t + _ at moved
  cases found : t.find? id with
  | none =>
    rw [found] at moved
    have same : committed (set t id (fun r => change r.columns)) = committed t := moved
    omega
  | some r =>
    rw [found] at moved
    simp only [Option.map_some, Option.getD_some, Row.reserved, Row.withColumns_columns] at moved
    rw [joins, found, Option.filter_some]
    change committed _ + (if reserves r.columns then r.totalSize else 0) =
      committed t + (if reserves (change r.columns) then r.totalSize else 0) at moved
    cases old : reserves r.columns <;> cases new : reserves (change r.columns)
    · simp only [old, new, Bool.false_eq_true, if_false] at moved
      omega
    · simp only [old, new, Bool.false_eq_true, if_false, if_true] at moved
      simp only [Bool.not_false, Bool.and_true, if_true, Option.map_some, Option.getD_some]
      omega
    · simp only [old, new, Bool.false_eq_true, if_false, if_true] at moved
      omega
    · simp only [old, new, if_true] at moved
      omega

/-- A rewrite after which no row reserves that did not before. -/
theorem committed_set_le (t : TorrentTable) (id : Nat) (change : Columns → Columns)
    (kept : ∀ c, reserves (change c) = true → reserves c = true) :
    committed (set t id (fun r => change r.columns)) ≤ committed t := by
  have bound := committed_set t id change
  have none_joins : joins t id change = none := by
    rw [joins, Option.filter_eq_none_iff]
    intro r _ gains
    rw [Bool.and_eq_true, Bool.not_eq_true'] at gains
    rw [kept _ gains.2] at gains
    cases gains.1
  rw [none_joins] at bound
  exact bound

theorem committed_delete_le (t : TorrentTable) (id : Nat) : committed (t.delete id) ≤ committed t :=
  (List.filter_sublist.map Row.reserved).sum_le_sum (fun _ _ => Nat.zero_le _)

theorem committed_removeTorrent_le (t t' : TorrentTable) (id : Nat) (removed : removeTorrent t id = .ok t') :
    committed t' ≤ committed t := by
  rw [removeTorrent] at removed
  cases found : t.find? id with
  | none =>
    rw [found] at removed
    cases removed
  | some r =>
    rw [found] at removed
    dsimp only at removed
    split_ifs at removed
    cases removed
    exact committed_delete_le t id

theorem committed_removeAll_le (ids : List Nat) (t : TorrentTable) :
    committed (removeAll t ids).1 ≤ committed t := by
  induction ids generalizing t with
  | nil => exact Nat.le_refl _
  | cons id rest ih =>
    rw [removeAll]
    cases removed : removeTorrent t id with
    | error problem => exact Nat.le_refl _
    | ok t' => exact Nat.le_trans (ih t') (committed_removeTorrent_le t t' id removed)

theorem committed_purge_le (t : TorrentTable) (days : Nat) (now : Int) :
    committed (purgeSoftDeleted t days now).1 ≤ committed t := by
  rw [purgeSoftDeleted]
  split_ifs
  · exact Nat.le_refl _
  · exact committed_removeAll_le _ t

theorem committed_settled_le (t : TorrentTable) (result : Except Error TorrentTable)
    (bound : ∀ t', result = .ok t' → committed t' ≤ committed t) :
    committed (settled t result) ≤ committed t := by
  cases result with
  | error problem => exact Nat.le_refl _
  | ok t' => exact bound t' rfl

/-! ### Placement -/

theorem saturatingAdd_le (a b c : Nat) (le : a ≤ c) : saturatingAdd a b ≤ saturatingAdd c b := by
  unfold saturatingAdd
  omega

theorem le_saturatingAdd (a b : Nat) (small : a ≤ u64Max) : a ≤ saturatingAdd a b := by
  rw [saturatingAdd, Nat.le_min]
  exact ⟨Nat.le_add_right a b, small⟩

theorem slack_whole (total : Nat) (small : total ≤ u64Max) :
    total + slack total = saturatingAdd total freeMarginBytes :=
  Nat.add_sub_cancel' (le_saturatingAdd total freeMarginBytes small)

theorem sum_sizes (priorities : List Int) (files : List (MetaFile × Nat)) (sum : Nat)
    (wanted : ∀ f ∈ files, priorities.getD f.2 1 ≠ 0) (below : sum ≤ u64Max) :
    files.foldl (fun sum f => if priorities.getD f.2 1 ≠ 0 then saturatingAdd sum f.1.size else sum) sum =
      min (sum + (files.map (fun f => f.1.size)).sum) u64Max := by
  induction files generalizing sum with
  | nil =>
    rw [List.foldl_nil, List.map_nil, List.sum_nil]
    omega
  | cons f rest ih =>
    rw [List.foldl_cons, if_pos (wanted f List.mem_cons_self),
      ih _ (fun other member => wanted other (List.mem_cons_of_mem _ member)),
      List.map_cons, List.sum_cons]
    · unfold saturatingAdd
      omega
    · unfold saturatingAdd
      omega

/-- The check counts with all the bytes that the catalog will reserve. -/
theorem total_le_wanted (m : Parsed) :
    m.metainfo.totalSize ≤ wantedBytesFromMetainfo m.metainfo [] := by
  rw [wantedBytesFromMetainfo]
  split_ifs with empty
  · exact Nat.le_refl _
  · have sizes := sum_sizes [] m.metainfo.files.zipIdx 0 (fun _ _ => (by decide : (1 : Int) ≠ 0))
      (Nat.zero_le _)
    have plain : m.metainfo.files.zipIdx.map (fun f => f.1.size) = m.metainfo.files.map MetaFile.size := by
      rw [← List.zipIdx_map_fst 0 m.metainfo.files, List.map_map]
      simp only [List.zipIdx_map_fst]
      rfl
    simp only [sizes, plain]
    have total := m.total
    have bound := Nat.mod_lt (m.metainfo.files.map MetaFile.size).sum (by decide : 0 < 2 ^ 64)
    have below := Nat.mod_le (m.metainfo.files.map MetaFile.size).sum (2 ^ 64)
    split_ifs
    · exact Nat.le_refl _
    · unfold u64Max
      omega

/-- A placement under the cache: the reservation and all that the torrent needs are within the cap. -/
theorem placeAdd_room (config : Config) (reserved : Nat) (m : Parsed) (permanent : PathBuf)
    (freeSpace : Option Nat) (created : Bool) (capped : 0 < config.leechCacheSize)
    (under : (placeAdd config reserved m.metainfo permanent freeSpace created).homeRoot.isSome = true) :
    reserved + saturatingAdd m.metainfo.totalSize freeMarginBytes ≤ config.leechCacheSize := by
  have needed := saturatingAdd_le m.metainfo.totalSize freeMarginBytes _ (total_le_wanted m)
  have positive : 0 < saturatingAdd (wantedBytesFromMetainfo m.metainfo []) freeMarginBytes := by
    unfold saturatingAdd u64Max freeMarginBytes
    omega
  simp only [placeAdd] at under
  split_ifs at under with failed
  · cases under
  · simp only [choosePlacement] at under
    split_ifs at under
    · cases under
    · cases freeSpace with
      | none => cases under
      | some free =>
        dsimp only at under
        split_ifs at under <;> cases under
    · omega

/-! ### Runs -/

theorem committed_inserted (t : TorrentTable) (ins : TorrentInsert)
    (unknown : ¬t.list.any (fun r => r.infohash = ins.metainfo.infohash) = true) :
    committed (insertTorrent t ins).1 =
      committed t + if reserves ins.columns then ins.metainfo.totalSize else 0 := by
  have new : t.list.find? (fun r => r.infohash = ins.metainfo.infohash) = none := by
    rw [List.find?_eq_none]
    intro r member same
    exact unknown (List.any_eq_true.2 ⟨r, member, same⟩)
  simp only [insertTorrent, new, Rows.append, committed, List.map_append, List.sum_append,
    List.map_cons, List.map_nil, List.sum_cons, List.sum_nil, Row.reserved]
  rfl

theorem committed_advance (t : TorrentTable) (i : Insert) :
    committed (advance t i).1 ≤ committed t + gained t i := by
  rw [advance, gained]
  cases i.phase with
  | looking =>
    dsimp only
    split
    · exact Nat.le_refl _
    · split_ifs <;> exact Nat.le_refl _
  | inserting =>
    dsimp only
    split_ifs with known reserve
    · exact Nat.le_refl _
    · rw [committed_inserted t i.ins known, if_pos reserve]
    · rw [committed_inserted t i.ins known, if_neg reserve]
  | clearing id => exact committed_set t id (fun c => clearedColumns c i.ins)
  | pathing id => exact committed_set t id (fun c => pathColumns c i.ins)

/-- An insert goes on with the placement it was chosen with. -/
theorem advance_same (t : TorrentTable) (i next : Insert) (more : (advance t i).2 = some next) :
    next.ins = i.ins ∧ next.reserved = i.reserved := by
  rw [advance] at more
  cases phase : i.phase with
  | looking =>
    rw [phase] at more
    dsimp only at more
    split at more
    · cases more
      exact ⟨rfl, rfl⟩
    · split_ifs at more
      cases more
      exact ⟨rfl, rfl⟩
  | inserting =>
    rw [phase] at more
    dsimp only at more
    split_ifs at more
  | clearing id =>
    rw [phase] at more
    cases more
    exact ⟨rfl, rfl⟩
  | pathing id =>
    rw [phase] at more
    cases more

/-- An insert under the cache was placed where the cap left room for it. -/
def Roomy (config : Config) (i : Insert) : Prop :=
  i.ins.homeRoot.isSome = true → i.ins.metainfo.totalSize ≤ u64Max ∧
    i.reserved + saturatingAdd i.ins.metainfo.totalSize freeMarginBytes ≤ config.leechCacheSize

structure Sound (config : Config) (s : State) : Prop where
  within : committed s.catalog ≤ config.leechCacheSize
  roomy : ∀ i ∈ s.inserts, Roomy config i

theorem sound_catalog (config : Config) (s : State) (t : TorrentTable) (before : Sound config s)
    (bound : committed t ≤ committed s.catalog) : Sound config { s with catalog := t } :=
  ⟨Nat.le_trans bound before.within, before.roomy⟩

theorem roomy_place (config : Config) (capped : 0 < config.leechCacheSize) (t : TorrentTable) (m : Parsed)
    (permanent : PathBuf) (start readable : Bool) (freeSpace : Option Nat) (created : Bool) :
    Roomy config ⟨addInsert m.metainfo (placeAdd config (reservedBytes config t readable) m.metainfo
      permanent freeSpace created) start, reservedBytes config t readable, .looking⟩ := by
  intro under
  refine ⟨?_, placeAdd_room config _ m permanent freeSpace created capped under⟩
  show m.metainfo.totalSize ≤ u64Max
  have bound := Nat.mod_lt (m.metainfo.files.map MetaFile.size).sum (by decide : 0 < 2 ^ 64)
  have total := m.total
  unfold u64Max
  omega

theorem sound_advance (config : Config) (s s' : State) (k : Nat) (before : Sound config s)
    (guarded : accounted s (.advance k) = true) (taken : step config s (.advance k) = some s') :
    Sound config s' := by
  rw [step] at taken
  obtain ⟨i, running, rfl⟩ := Option.map_eq_some_iff.1 taken
  have listed := List.mem_of_getElem? running
  have grown := committed_advance s.catalog i
  constructor
  · rw [accounted, running, Option.all_some, Bool.or_eq_true, decide_eq_true_eq] at guarded
    have within := before.within
    rcases guarded with idle | fits
    · rw [idle] at grown
      exact Nat.le_trans grown within
    · rw [counted, Bool.and_eq_true, Bool.and_eq_true, decide_eq_true_eq, decide_eq_true_eq] at fits
      obtain ⟨⟨under, size⟩, recent⟩ := fits
      obtain ⟨small, room⟩ := before.roomy i listed under
      have whole := slack_whole i.ins.metainfo.totalSize small
      show committed (advance s.catalog i).1 ≤ _
      omega
  · intro other member
    rcases List.mem_append.1 member with earlier | later
    · rcases List.mem_append.1 earlier with first | next
      · exact before.roomy other (List.mem_of_mem_take first)
      · obtain ⟨same, kept⟩ := advance_same s.catalog i other (Option.mem_toList.1 next)
        intro under
        rw [same, kept]
        rw [same] at under
        exact before.roomy i listed under
    · exact before.roomy other (List.mem_of_mem_drop later)

theorem sound_step (config : Config) (capped : 0 < config.leechCacheSize) (s : State) (event : Event)
    (s' : State) (before : Sound config s) (guarded : accounted s event = true)
    (taken : step config s event = some s') : Sound config s' := by
  cases event with
  | place m permanent start readable freeSpace created =>
    cases taken
    refine ⟨before.within, ?_⟩
    intro i member
    rcases List.mem_append.1 member with old | new
    · exact before.roomy i old
    · rw [List.mem_singleton.1 new]
      exact roomy_place config capped s.catalog m permanent start readable freeSpace created
  | importing m dataRoot resume uploaded downloaded start =>
    cases taken
    refine ⟨before.within, ?_⟩
    intro i member
    rcases List.mem_append.1 member with old | new
    · exact before.roomy i old
    · rw [List.mem_singleton.1 new]
      intro under
      cases under
  | advance k => exact sound_advance config s s' k before guarded taken
  | setWantStart id want =>
    cases taken
    apply sound_catalog config s _ before
    apply committed_settled_le
    intro t' done
    rw [setWantStart] at done
    split_ifs at done
    cases done
    apply committed_set_le s.catalog id (fun c => wantColumns c want)
    intro c reserve
    rw [wantColumns] at reserve
    split_ifs at reserve <;> exact reserve
  | markDeleted id now =>
    cases taken
    apply sound_catalog config s _ before
    apply committed_settled_le
    intro t' done
    rw [markDeleted] at done
    cases found : s.catalog.find? id with
    | none =>
      rw [found] at done
      cases done
    | some r =>
      rw [found] at done
      dsimp only at done
      split_ifs at done
      · cases done
        exact Nat.le_refl _
      · cases done
        apply committed_set_le s.catalog id (fun c => deletedColumns c now)
        intro c reserve
        rw [reserves, Bool.and_eq_true] at reserve
        cases reserve.2
  | remove id =>
    cases taken
    exact sound_catalog config s _ before (committed_settled_le s.catalog _
      (fun t' done => committed_removeTorrent_le s.catalog t' id done))
  | purge days now =>
    cases taken
    exact sound_catalog config s _ before (committed_purge_le s.catalog days now)
  | setFilePriority id index priority =>
    cases taken
    exact sound_catalog config s _ before (committed_set_le s.catalog id (fun c =>
      { c with files := c.files.modify index (fun f => { f with priority := priority }) })
      (fun _ reserve => reserve))
  | setDataRoot id root =>
    cases taken
    apply sound_catalog config s _ before
    apply committed_set_le s.catalog id (fun c =>
      { c with metaPath := c.metaPath.map (fun p => { p with dataRoot := root }) })
    intro c reserve
    rw [reserves, staged] at reserve ⊢
    dsimp only at reserve
    cases root' : c.metaPath <;> rw [root'] at reserve <;> exact reserve
  | clearHomeRoot id =>
    cases taken
    apply sound_catalog config s _ before
    apply committed_set_le s.catalog id (fun c =>
      { c with metaPath := c.metaPath.map (fun p => { p with homeRoot := none }) })
    intro c reserve
    rw [reserves, staged] at reserve
    dsimp only at reserve
    cases root' : c.metaPath <;> rw [root'] at reserve <;> cases reserve
  | retarget id root =>
    rw [step] at taken
    split_ifs at taken
    cases taken
    exact ⟨before.within, before.roomy⟩
  | writeHomeRoot k =>
    rw [step] at taken
    obtain ⟨r, waiting, rfl⟩ := Option.map_eq_some_iff.1 taken
    rw [accounted, waiting, Option.all_some, Option.isNone_iff_eq_none] at guarded
    have bound := committed_set s.catalog r.1 (fun c =>
      { c with metaPath := c.metaPath.map (fun p => { p with homeRoot := some r.2 }) })
    rw [guarded] at bound
    exact ⟨Nat.le_trans bound before.within, before.roomy⟩

/-- The bytes that the catalog answers are at most those that are committed. -/
theorem checkedSum_le (sizes : List Nat) (total answer : Int)
    (summed : checkedSum total (sizes.map asI64) = some answer) : answer ≤ total + sizes.sum := by
  induction sizes generalizing total with
  | nil =>
    cases summed
    simp
  | cons size rest ih =>
    rw [List.map_cons, checkedSum] at summed
    split_ifs at summed
    have later := ih _ summed
    have small : asI64 size ≤ size := by
      rw [asI64, BitVec.toInt_eq_toNat_cond, BitVec.toNat_ofNat]
      have below := Nat.mod_le size (2 ^ 64)
      split_ifs <;> omega
    rw [List.sum_cons, Nat.cast_add]
    omega

theorem leechCacheReservedBytes_le (t : TorrentTable) (bytes : Nat)
    (read : leechCacheReservedBytes t = some bytes) : bytes ≤ committed t := by
  rw [leechCacheReservedBytes, Option.map_eq_some_iff] at read
  obtain ⟨answer, summed, rfl⟩ := read
  rw [show (fun r : Row => asI64 r.totalSize) = asI64 ∘ Row.totalSize from rfl, ← List.map_map] at summed
  have bound := checkedSum_le _ 0 answer summed
  have sums : ((t.list.filter (fun r => reserves r.columns)).map Row.totalSize).sum = committed t := by
    rw [committed]
    generalize t.list = rows
    induction rows with
    | nil => rfl
    | cons r rest ih =>
      rw [List.filter_cons, List.map_cons, List.sum_cons, ← ih, Row.reserved]
      split_ifs
      · rfl
      · exact (Nat.zero_add _).symm
  rw [sums] at bound
  omega

/-- In every run in which each statement that adds to the reservation belongs to an insert under the
cache whose reading of the reserved bytes is out of date by no more than the margin, the committed bytes
stay within the cap, and so does what the catalog answers. -/
theorem cap_holds (config : Config) (capped : 0 < config.leechCacheSize) (catalog : TorrentTable)
    (within : committed catalog ≤ config.leechCacheSize) (events : List Event) (s : State)
    (guarded : Guarded (step config) (fun s event => accounted s event = true) (initial catalog) events)
    (ran : exec (step config) (initial catalog) events = some s) :
    committed s.catalog ≤ config.leechCacheSize ∧
      ∀ bytes, leechCacheReservedBytes s.catalog = some bytes → bytes ≤ config.leechCacheSize := by
  have sound := exec_invariant (step config) _ (Sound config) (sound_step config capped) (initial catalog)
    s events ⟨within, fun _ member => absurd member List.not_mem_nil⟩ guarded ran
  exact ⟨sound.within, fun bytes read => Nat.le_trans (leechCacheReservedBytes_le _ bytes read) sound.within⟩

/-- A torrent with one file, which is its one piece. -/
def oneFile (mark : UInt8) (size : Nat) (small : size < 2 ^ 64) : Parsed where
  metainfo := ⟨List.replicate 20 mark, size, 1, size, List.replicate 20 mark, [⟨["data"], size, 0⟩]⟩
  size_lt := by
    intro f member
    rw [List.mem_singleton.1 member]
    exact small
  total := (Nat.mod_eq_of_lt small).symm

def cache : Config := ⟨["cache"], 590000000⟩

def adding (mark : UInt8) : Event :=
  .place (oneFile mark 300000000 (by decide)) ["home"] false true (some 1000000000000) true

/-- A torrent is deleted, another takes its room and is handed off, and the first comes back. -/
def oneByOne : List Event :=
  [adding 1, .advance 0, .advance 0, .markDeleted 1 5, adding 2, .advance 0, .advance 0, .clearHomeRoot 2,
    adding 1, .advance 0, .advance 0, .advance 0]

def bothPlaced : List Event := [adding 1, adding 2, .advance 0, .advance 0, .advance 0, .advance 0]

theorem cap_holds_oneByOne :
    committed ((exec (step cache) (initial Rows.empty) oneByOne).getD (initial Rows.empty)).catalog ≤ 590000000 ∧
      ∀ bytes, leechCacheReservedBytes
        ((exec (step cache) (initial Rows.empty) oneByOne).getD (initial Rows.empty)).catalog = some bytes →
        bytes ≤ 590000000 :=
  cap_holds cache (by decide) Rows.empty (by decide) oneByOne _
    (guarded_of_guardedB (step cache) accounted _ oneByOne (by decide +kernel))
    (Option.some_get (by decide +kernel)).symm

/-- Two adds that both read the reserved bytes before either inserts. -/
theorem both_placed_exceed :
    ¬∀ (config : Config) (events : List Event) (s : State), 0 < config.leechCacheSize →
      exec (step config) (initial Rows.empty) events = some s →
      committed s.catalog ≤ config.leechCacheSize := by
  intro always
  have within := always cache bothPlaced
    ((exec (step cache) (initial Rows.empty) bothPlaced).get (by decide +kernel)) (by decide)
    (Option.some_get (by decide +kernel)).symm
  exact absurd within (by decide +kernel)

end Seedchamp.Library.CacheCap
