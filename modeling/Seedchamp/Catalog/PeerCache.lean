import Mathlib.Data.List.GetD
import Mathlib.Data.List.Perm.Subperm
import Mathlib.Logic.Function.Basic
import Seedchamp.Foundation.KeyedRows
import Seedchamp.Foundation.TransitionSystem
import Seedchamp.Tracker.Http

/-!
The peer cache of the catalog: addresses in compact form under the torrent they were seen on. After an
announce the oldest are dropped, and the manual peers are put back.
-/

namespace Seedchamp.Catalog.PeerCache
open Foundation.KeyedRows Foundation.TransitionSystem
open Tracker.Http (compact portBytes portOf portOf_portBytes)

/-! ### Addresses -/

structure Ipv6 where
  octets : List UInt8
  sized : octets.length = 16
  deriving DecidableEq

inductive SocketAddr where
  | v4 (addr : Tracker.Http.SocketAddr)
  | v6 (ip : Ipv6) (port : UInt16) (flowinfo scopeId : UInt32)
  deriving DecidableEq

def encodePeerAddr : SocketAddr → List UInt8
  | .v4 addr => compact addr
  | .v6 ip port _ _ => ip.octets ++ portBytes port

def decodePeerAddr (blob : List UInt8) : Option SocketAddr :=
  if blob.length = 6 then
    some (.v4 ⟨(blob.getD 0 0, blob.getD 1 0, blob.getD 2 0, blob.getD 3 0),
      portOf (blob.getD 4 0) (blob.getD 5 0)⟩)
  else if large : blob.length = 18 then
    some (.v6 ⟨blob.take 16, by rw [List.length_take, large]; rfl⟩
      (portOf (blob.getD 16 0) (blob.getD 17 0)) 0 0)
  else none

/-- The address without what the compact form has no room for. -/
def SocketAddr.plain : SocketAddr → SocketAddr
  | .v4 addr => .v4 addr
  | .v6 ip port _ _ => .v6 ip port 0 0

/-- An address survives the catalog, but for the scope of an IPv6 address. -/
theorem decodePeerAddr_encodePeerAddr (a : SocketAddr) :
    decodePeerAddr (encodePeerAddr a) = some a.plain := by
  cases a with
  | v4 addr =>
    obtain ⟨⟨a, b, c, d⟩, port⟩ := addr
    have six : (encodePeerAddr (.v4 ⟨(a, b, c, d), port⟩)).length = 6 := rfl
    rw [decodePeerAddr, if_pos six]
    simp only [encodePeerAddr, compact, SocketAddr.plain, List.getD_cons_zero, List.getD_cons_succ,
      portOf_portBytes]
  | v6 ip port flowinfo scopeId =>
    obtain ⟨octets, sized⟩ := ip
    have length : (encodePeerAddr (.v6 ⟨octets, sized⟩ port flowinfo scopeId)).length = 18 := by
      simp [encodePeerAddr, portBytes, sized]
    have front : (octets ++ portBytes port).take 16 = octets := by
      rw [← sized, List.take_left]
    have high : (octets ++ portBytes port).getD 16 0 = UInt8.ofNat (port.toNat / 256) := by
      rw [List.getD_append_right _ _ _ _ (Nat.le_of_eq sized), sized]
      rfl
    have low : (octets ++ portBytes port).getD 17 0 = UInt8.ofNat port.toNat := by
      rw [List.getD_append_right _ _ _ _ (by omega), sized]
      rfl
    rw [decodePeerAddr, if_neg (by omega), dif_pos length]
    simp only [encodePeerAddr, SocketAddr.plain, front, high, low, portOf_portBytes]

/-! ### The table -/

structure PeerRow where
  torrentId : Nat
  addr : List UInt8
  lastSeen : Int
  flags : Int
  deriving DecidableEq

def PeerRow.key (r : PeerRow) : Nat × List UInt8 := (r.torrentId, r.addr)

abbrev PeerTable := Rows PeerRow.key

def seen (now : Int) (r : PeerRow) : PeerRow := { r with lastSeen := now }

theorem seen_key (now : Int) (r : PeerRow) : (seen now r).key = r.key := rfl

/-- `INSERT … ON CONFLICT(torrent_id, addr) DO UPDATE SET last_seen = excluded.last_seen`. -/
def upsert (t : PeerTable) (id : Nat) (now : Int) (addr : List UInt8) : PeerTable :=
  let row : PeerRow := ⟨id, addr, now, 0⟩
  if fresh : row.key ∉ t.list.map PeerRow.key then t.append row fresh
  else t.update row.key (seen now) (seen_key now)

def upsertPeerCacheOn (t : PeerTable) (id : Nat) (peers : List SocketAddr) (now : Int) : PeerTable :=
  peers.foldl (fun t a => upsert t id now (encodePeerAddr a)) t

def mine (t : PeerTable) (id : Nat) : List PeerRow := t.list.filter (fun r => r.torrentId = id)

/-- `DELETE` of the rows that a condition does not keep. -/
def retain (t : PeerTable) (keeps : PeerRow → Bool) : PeerTable where
  list := t.list.filter keeps
  unique := (List.filter_sublist.map PeerRow.key).nodup t.unique

section
variable (newestFirst : List PeerRow → List PeerRow)

/-- The addresses of `ORDER BY last_seen DESC LIMIT keep`; `newestFirst` is that order, which the
statement leaves open among rows of one time. -/
def newest (t : PeerTable) (id keep : Nat) : List PeerRow := (newestFirst (mine t id)).take keep

def prunePeerCacheOn (t : PeerTable) (id keep : Nat) : PeerTable :=
  if (mine t id).length ≤ max keep 1 then t
  else retain t (fun r => decide (r.torrentId ≠ id ∨
    r.addr ∈ (newest newestFirst t id (max keep 1)).map PeerRow.addr))

/-- `persist_after_announce`, without the statistics of the tracker. -/
def persistAfterAnnounce (t : PeerTable) (id : Nat) (trackerPeers manualPeers : List SocketAddr)
    (pruneKeep : Nat) (now : Int) : PeerTable :=
  let pruned := if trackerPeers = [] then t
    else prunePeerCacheOn newestFirst (upsertPeerCacheOn t id trackerPeers now) id pruneKeep
  if manualPeers = [] then pruned else upsertPeerCacheOn pruned id manualPeers now

def listPeerCache (t : PeerTable) (id limit : Nat) : List SocketAddr :=
  (newest newestFirst t id (max limit 1)).filterMap (fun r => decodePeerAddr r.addr)

end

/-! ### Upserts -/

theorem find?_upsert (t : PeerTable) (id : Nat) (now : Int) (addr : List UInt8) (k : Nat × List UInt8) :
    (upsert t id now addr).find? k =
      if k = (id, addr) then some (((t.find? k).map (seen now)).getD ⟨id, addr, now, 0⟩)
      else t.find? k := by
  rw [upsert]
  by_cases fresh : PeerRow.key ⟨id, addr, now, 0⟩ ∉ t.list.map PeerRow.key
  · rw [dif_pos fresh, Rows.find?_append]
    change (if k = (id, addr) then _ else _) = _
    split_ifs with same
    · rw [same, show t.find? (id, addr) = none from (Rows.find?_eq_none t _).2 fresh]
      rfl
    · rfl
  · rw [dif_neg fresh, Rows.find?_update]
    change (if k = (id, addr) then _ else _) = _
    split_ifs with same
    · cases found : t.find? k with
      | none =>
        rw [same] at found
        exact absurd ((Rows.find?_eq_none t _).1 found) fresh
      | some r => rfl
    · rfl

/-- An upsert touches the named addresses of its torrent only, and says that they were seen now. -/
theorem find?_upsertPeerCacheOn (t : PeerTable) (id : Nat) (peers : List SocketAddr) (now : Int)
    (k : Nat × List UInt8) :
    (upsertPeerCacheOn t id peers now).find? k =
      if k.1 = id ∧ k.2 ∈ peers.map encodePeerAddr then
        some (((t.find? k).map (seen now)).getD ⟨id, k.2, now, 0⟩)
      else t.find? k := by
  induction peers generalizing t with
  | nil => simp [upsertPeerCacheOn]
  | cons a rest ih =>
    change (upsertPeerCacheOn (upsert t id now (encodePeerAddr a)) id rest now).find? k = _
    rw [ih, find?_upsert, List.map_cons]
    simp only [List.mem_cons]
    obtain ⟨torrent, addr⟩ := k
    by_cases here : torrent = id
    · subst here
      by_cases first : addr = encodePeerAddr a
      · subst first
        simp only [true_and, true_or, if_true]
        by_cases again : encodePeerAddr a ∈ rest.map encodePeerAddr
        · rw [if_pos again]
          cases t.find? (torrent, encodePeerAddr a) with
          | _ => rfl
        · rw [if_neg again]
      · have other : ((torrent, addr) : Nat × List UInt8) ≠ (torrent, encodePeerAddr a) :=
          fun clash => first (Prod.mk.inj clash).2
        simp only [true_and, first, false_or, if_neg other]
    · have other : ((torrent, addr) : Nat × List UInt8) ≠ (id, encodePeerAddr a) :=
        fun clash => here (Prod.mk.inj clash).1
      simp only [here, false_and, if_false, if_neg other]

/-! ### Pruning -/

theorem mem_mine (t : PeerTable) (id : Nat) (r : PeerRow) :
    r ∈ mine t id ↔ r ∈ t.list ∧ r.torrentId = id := by
  rw [mine, List.mem_filter, decide_eq_true_eq]

/-- A row of a torrent is named by its address. -/
theorem eq_of_addr (t : PeerTable) (id : Nat) (r r' : PeerRow) (first : r ∈ mine t id)
    (second : r' ∈ mine t id) (same : r.addr = r'.addr) : r = r' := by
  obtain ⟨listed, named⟩ := (mem_mine t id r).1 first
  obtain ⟨listed', named'⟩ := (mem_mine t id r').1 second
  apply List.inj_on_of_nodup_map t.unique listed listed'
  rw [PeerRow.key, PeerRow.key, named, named', same]

theorem nodup_mine (t : PeerTable) (id : Nat) : (mine t id).Nodup :=
  (List.Nodup.of_map PeerRow.key t.unique).filter _

theorem length_le_of_subset (few many : List PeerRow) (distinct : few.Nodup)
    (subset : ∀ r ∈ few, r ∈ many) : few.length ≤ many.length :=
  (List.subperm_of_subset distinct subset).length_le

section
variable (newestFirst : List PeerRow → List PeerRow)
variable (ordered : ∀ rows, (newestFirst rows).Perm rows ∧
  (newestFirst rows).Pairwise (fun a b => b.lastSeen ≤ a.lastSeen))

include ordered in
theorem newest_mine (t : PeerTable) (id keep : Nat) (r : PeerRow)
    (member : r ∈ newest newestFirst t id keep) : r ∈ mine t id :=
  (ordered _).1.mem_iff.1 (List.mem_of_mem_take member)

include ordered in
theorem nodup_newest (t : PeerTable) (id keep : Nat) : (newest newestFirst t id keep).Nodup :=
  ((ordered _).1.nodup_iff.2 (nodup_mine t id)).sublist (List.take_sublist _ _)

include ordered in
theorem length_newest (t : PeerTable) (id keep : Nat) :
    (newest newestFirst t id keep).length = min keep (mine t id).length := by
  rw [newest, List.length_take, (ordered _).1.length_eq]

include ordered in
/-- What is not among the newest is older than each of them, and they are as many as are kept. -/
theorem newest_older (t : PeerTable) (id keep : Nat) (r : PeerRow) (listed : r ∈ mine t id)
    (out : r ∉ newest newestFirst t id keep) :
    (newest newestFirst t id keep).length = keep ∧
      ∀ r' ∈ newest newestFirst t id keep, r.lastSeen ≤ r'.lastSeen := by
  obtain ⟨perm, sorted⟩ := ordered (mine t id)
  have split : r ∈ (newestFirst (mine t id)).take keep ++ (newestFirst (mine t id)).drop keep := by
    rw [List.take_append_drop]
    exact perm.mem_iff.2 listed
  have late : r ∈ (newestFirst (mine t id)).drop keep := (List.mem_append.1 split).resolve_left out
  constructor
  · have longer := List.length_pos_of_mem late
    rw [List.length_drop] at longer
    rw [newest, List.length_take]
    omega
  · intro r' among
    rw [← List.take_append_drop keep (newestFirst (mine t id)), List.pairwise_append] at sorted
    exact sorted.2.2 r' among r late

include ordered in
theorem mem_prunePeerCacheOn (t : PeerTable) (id keep : Nat) (r : PeerRow) :
    r ∈ (prunePeerCacheOn newestFirst t id keep).list ↔
      r ∈ t.list ∧ (r.torrentId = id → r ∈ newest newestFirst t id (max keep 1)) := by
  rw [prunePeerCacheOn]
  split_ifs with small
  · constructor
    · intro listed
      refine ⟨listed, fun named => ?_⟩
      have there := (ordered (mine t id)).1.mem_iff.2 ((mem_mine t id r).2 ⟨listed, named⟩)
      rw [newest, List.take_of_length_le (by rw [(ordered _).1.length_eq]; exact small)]
      exact there
    · exact And.left
  · simp only [retain, List.mem_filter, decide_eq_true_eq]
    apply and_congr_right
    intro listed
    rw [← imp_iff_not_or]
    apply imp_congr_right
    intro named
    have here := (mem_mine t id r).2 ⟨listed, named⟩
    constructor
    · intro kept
      obtain ⟨r', among, same⟩ := List.mem_map.1 kept
      rw [eq_of_addr t id r r' here (newest_mine newestFirst ordered t id _ r' among) same.symm]
      exact among
    · exact List.mem_map_of_mem

include ordered in
theorem length_prunePeerCacheOn (t : PeerTable) (id keep : Nat) :
    (mine (prunePeerCacheOn newestFirst t id keep) id).length ≤ max keep 1 := by
  have subset : ∀ r ∈ mine (prunePeerCacheOn newestFirst t id keep) id,
      r ∈ newest newestFirst t id (max keep 1) := by
    intro r member
    obtain ⟨listed, named⟩ := (mem_mine _ id r).1 member
    exact ((mem_prunePeerCacheOn newestFirst ordered t id keep r).1 listed).2 named
  have few := length_le_of_subset _ _ (nodup_mine _ id) subset
  rw [length_newest newestFirst ordered] at few
  omega

include ordered in
theorem find?_prunePeerCacheOn_other (t : PeerTable) (id keep : Nat) (k : Nat × List UInt8)
    (other : k.1 ≠ id) : (prunePeerCacheOn newestFirst t id keep).find? k = t.find? k := by
  have same : ∀ r, (prunePeerCacheOn newestFirst t id keep).find? k = some r ↔ t.find? k = some r := by
    intro r
    constructor
    · intro found
      have keyed := Rows.find?_key _ k r found
      have listed := Rows.find?_mem _ k r found
      rw [← keyed]
      exact Rows.find?_of_mem t r ((mem_prunePeerCacheOn newestFirst ordered t id keep r).1 listed).1
    · intro found
      have keyed := Rows.find?_key _ k r found
      have listed := Rows.find?_mem _ k r found
      rw [← keyed]
      apply Rows.find?_of_mem
      apply (mem_prunePeerCacheOn newestFirst ordered t id keep r).2
      refine ⟨listed, fun named => absurd ?_ other⟩
      rw [← keyed]
      exact named
  exact Option.ext same

/-! ### An announce -/

theorem find?_upsert_mem (t : PeerTable) (id : Nat) (peers : List SocketAddr) (now : Int)
    (a : SocketAddr) (member : a ∈ peers) :
    ∃ r, (upsertPeerCacheOn t id peers now).find? (id, encodePeerAddr a) = some r ∧
      r.lastSeen = now := by
  rw [find?_upsertPeerCacheOn, if_pos ⟨rfl, List.mem_map_of_mem member⟩]
  cases t.find? (id, encodePeerAddr a) with
  | none => exact ⟨_, rfl, rfl⟩
  | some r => exact ⟨_, rfl, rfl⟩

theorem find?_upsert_kept (t : PeerTable) (id : Nat) (peers : List SocketAddr) (now : Int)
    (k : Nat × List UInt8) (there : t.find? k ≠ none) :
    (upsertPeerCacheOn t id peers now).find? k ≠ none := by
  rw [find?_upsertPeerCacheOn]
  split_ifs
  · exact Option.some_ne_none _
  · exact there

/-- What the announce leaves before the manual peers are put back. -/
def prunedAfterAnnounce (t : PeerTable) (id : Nat) (trackerPeers : List SocketAddr) (pruneKeep : Nat)
    (now : Int) : PeerTable :=
  if trackerPeers = [] then t
  else prunePeerCacheOn newestFirst (upsertPeerCacheOn t id trackerPeers now) id pruneKeep

theorem persistAfterAnnounce_eq (t : PeerTable) (id : Nat) (trackerPeers manualPeers : List SocketAddr)
    (pruneKeep : Nat) (now : Int) :
    persistAfterAnnounce newestFirst t id trackerPeers manualPeers pruneKeep now =
      upsertPeerCacheOn (prunedAfterAnnounce newestFirst t id trackerPeers pruneKeep now) id
        manualPeers now := by
  rw [persistAfterAnnounce, prunedAfterAnnounce]
  by_cases none : manualPeers = []
  · rw [if_pos none, none]
    rfl
  · rw [if_neg none]

include ordered in
/-- After an announce the manual peers are all cached. A peer is dropped only for as many others that were
seen no earlier and are kept, and no other torrent loses or gains one. -/
theorem persistAfterAnnounce_keeps (t : PeerTable) (id : Nat)
    (trackerPeers manualPeers : List SocketAddr) (pruneKeep : Nat) (now : Int) :
    let announced := upsertPeerCacheOn t id trackerPeers now
    let after := persistAfterAnnounce newestFirst t id trackerPeers manualPeers pruneKeep now
    (∀ a ∈ manualPeers, ∃ r, after.find? (id, encodePeerAddr a) = some r ∧ r.lastSeen = now) ∧
    (∀ k, k.1 ≠ id → after.find? k = t.find? k) ∧
    (∀ r ∈ mine announced id, after.find? r.key = none →
      ∃ newer : List PeerRow, newer.Nodup ∧ newer.length = max pruneKeep 1 ∧ ∀ r' ∈ newer,
        r' ∈ mine announced id ∧ r.lastSeen ≤ r'.lastSeen ∧ after.find? r'.key ≠ none) ∧
    (∀ r ∈ mine after id, r.addr ∈ (mine t id).map PeerRow.addr ∨
      r.addr ∈ (trackerPeers ++ manualPeers).map encodePeerAddr) := by
  intro announced after
  have shape : after = _ := persistAfterAnnounce_eq newestFirst t id trackerPeers manualPeers pruneKeep now
  refine ⟨?_, ?_, ?_, ?_⟩
  · intro a member
    rw [shape]
    exact find?_upsert_mem _ id manualPeers now a member
  · intro k other
    rw [shape, find?_upsertPeerCacheOn, if_neg (fun clash => other clash.1), prunedAfterAnnounce]
    split_ifs with none
    · rfl
    · rw [find?_prunePeerCacheOn_other newestFirst ordered _ id pruneKeep k other,
        find?_upsertPeerCacheOn, if_neg (fun clash => other clash.1)]
  · intro r listed lost
    have pruned : (prunedAfterAnnounce newestFirst t id trackerPeers pruneKeep now).find? r.key = none := by
      by_contra there
      rw [shape] at lost
      exact find?_upsert_kept _ id manualPeers now r.key there lost
    obtain ⟨inside, named⟩ := (mem_mine announced id r).1 listed
    by_cases none : trackerPeers = []
    · rw [prunedAfterAnnounce, if_pos none] at pruned
      have found : t.find? r.key = some r := by
        have same : announced = t := by
          change upsertPeerCacheOn t id trackerPeers now = t
          rw [none]
          rfl
        rw [← same]
        exact Rows.find?_of_mem _ r inside
      rw [found] at pruned
      cases pruned
    · rw [prunedAfterAnnounce, if_neg none] at pruned
      have out : r ∉ newest newestFirst announced id (max pruneKeep 1) := by
        intro among
        have kept := (mem_prunePeerCacheOn newestFirst ordered announced id pruneKeep r).2
          ⟨inside, fun _ => among⟩
        rw [Rows.find?_of_mem _ r kept] at pruned
        cases pruned
      obtain ⟨length, older⟩ := newest_older newestFirst ordered announced id _ r listed out
      refine ⟨_, nodup_newest newestFirst ordered announced id _, length, ?_⟩
      intro r' among
      have here := newest_mine newestFirst ordered announced id _ r' among
      refine ⟨here, older r' among, ?_⟩
      have kept := (mem_prunePeerCacheOn newestFirst ordered announced id pruneKeep r').2
        ⟨((mem_mine _ id r').1 here).1, fun _ => among⟩
      rw [shape]
      apply find?_upsert_kept
      rw [prunedAfterAnnounce, if_neg none, Rows.find?_of_mem _ r' kept]
      exact Option.some_ne_none r'
  · intro r member
    obtain ⟨listed, named⟩ := (mem_mine _ id r).1 member
    have known : ∀ (table : PeerTable), table.find? (id, r.addr) ≠ none →
        r.addr ∈ (mine table id).map PeerRow.addr := by
      intro table there
      obtain ⟨old, found⟩ := Option.ne_none_iff_exists'.1 there
      have keyed := Rows.find?_key table _ old found
      exact List.mem_map.2 ⟨old, (mem_mine table id old).2
        ⟨Rows.find?_mem table _ old found, (Prod.mk.inj keyed).1⟩, (Prod.mk.inj keyed).2⟩
    have found := Rows.find?_of_mem _ r listed
    rw [show r.key = (id, r.addr) by rw [PeerRow.key, named], shape, find?_upsertPeerCacheOn] at found
    rw [List.map_append, List.mem_append]
    by_cases manual : r.addr ∈ manualPeers.map encodePeerAddr
    · exact Or.inr (Or.inr manual)
    · rw [if_neg (fun clash => manual clash.2), prunedAfterAnnounce] at found
      split_ifs at found with none
      · exact Or.inl (known t (by rw [found]; exact Option.some_ne_none r))
      · have before := ((mem_prunePeerCacheOn newestFirst ordered _ id pruneKeep r).1
          (Rows.find?_mem _ _ r found)).1
        have old := Rows.find?_of_mem _ r before
        rw [show r.key = (id, r.addr) by rw [PeerRow.key, named], find?_upsertPeerCacheOn] at old
        by_cases tracker : r.addr ∈ trackerPeers.map encodePeerAddr
        · exact Or.inr (Or.inl tracker)
        · rw [if_neg (fun clash => tracker clash.2)] at old
          exact Or.inl (known t (by rw [old]; exact Option.some_ne_none r))

/-! ### Runs -/

inductive Event where
  | announced (id : Nat) (trackerPeers : List SocketAddr) (now : Int)
  | upserted (id : Nat) (peers : List SocketAddr) (now : Int)
  | removed (id : Nat)

section
variable (manualPeers : List SocketAddr) (pruneKeep : Nat)

/-- The announces of a session, whose manual peers and limit are those of its configuration, and what
is cached apart from them; the rows of a torrent go with it. -/
def step (t : PeerTable) : Event → Option PeerTable
  | .announced id trackerPeers now =>
    some (persistAfterAnnounce newestFirst t id trackerPeers manualPeers pruneKeep now)
  | .upserted id peers now => some (upsertPeerCacheOn t id peers now)
  | .removed id => some (retain t (fun r => r.torrentId ≠ id))

/-- The addresses that were upserted apart from announces, for each torrent, since an announce that
brought peers pruned its rows. -/
def direct (since : Nat → List (List UInt8)) (_ : PeerTable) (event : Event) (_ : PeerTable) :
    Nat → List (List UInt8) :=
  match event with
  | .announced id trackerPeers _ => if trackerPeers = [] then since else Function.update since id []
  | .upserted id peers _ => Function.update since id (peers.map encodePeerAddr ++ since id)
  | .removed id => Function.update since id []

/-- A manual peer, or one that no announce has pruned since it was upserted. -/
def spared (since : Nat → List (List UInt8)) (r : PeerRow) : Bool :=
  decide (r.addr ∈ manualPeers.map encodePeerAddr ∨ r.addr ∈ since r.torrentId)

structure Inv (c : PeerTable × (Nat → List (List UInt8))) : Prop where
  few : ∀ id, ((mine c.1 id).filter (fun r => !spared manualPeers c.2 r)).length ≤ max pruneKeep 1
  encoded : ∀ r ∈ c.1.list, ∃ a, r.addr = encodePeerAddr a

/-- The rows of a torrent are no more where they were there before. -/
theorem few_of_subset (t t' : PeerTable) (since since' : Nat → List (List UInt8)) (id bound : Nat)
    (before : ((mine t id).filter (fun r => !spared manualPeers since r)).length ≤ bound)
    (subset : ∀ r ∈ t'.list, r.torrentId = id → spared manualPeers since' r = false →
      r ∈ t.list ∧ spared manualPeers since r = false) :
    ((mine t' id).filter (fun r => !spared manualPeers since' r)).length ≤ bound := by
  refine (length_le_of_subset _ _ ((nodup_mine t' id).filter _) ?_).trans before
  intro r member
  obtain ⟨here, other⟩ := List.mem_filter.1 member
  obtain ⟨listed, named⟩ := (mem_mine t' id r).1 here
  obtain ⟨old, unspared⟩ := subset r listed named (by simpa using other)
  exact List.mem_filter.2 ⟨(mem_mine t id r).2 ⟨old, named⟩, by rw [unspared]; rfl⟩

/-- What is upserted for one torrent spares no row of another. -/
theorem spared_other (since : Nat → List (List UInt8)) (id : Nat) (addrs : List (List UInt8))
    (r : PeerRow) (other : r.torrentId ≠ id) :
    spared manualPeers (Function.update since id addrs) r = spared manualPeers since r := by
  rw [spared, spared, Function.update_of_ne other]

include ordered in
theorem few_pruned (t : PeerTable) (since : Nat → List (List UInt8)) (id : Nat)
    (trackerPeers : List SocketAddr) (now : Int) (inv : Inv manualPeers pruneKeep (t, since)) :
    ((mine (prunedAfterAnnounce newestFirst t id trackerPeers pruneKeep now) id).filter
      (fun r => !spared manualPeers (if trackerPeers = [] then since else Function.update since id []) r)).length
        ≤ max pruneKeep 1 := by
  rw [prunedAfterAnnounce]
  split_ifs
  · exact inv.few id
  · exact (List.length_filter_le _ _).trans
      (length_prunePeerCacheOn newestFirst ordered _ id pruneKeep)

theorem encoded_upsert (t : PeerTable) (id : Nat) (peers : List SocketAddr) (now : Int)
    (encoded : ∀ r ∈ t.list, ∃ a, r.addr = encodePeerAddr a) :
    ∀ r ∈ (upsertPeerCacheOn t id peers now).list, ∃ a, r.addr = encodePeerAddr a := by
  intro r listed
  have found := Rows.find?_of_mem _ r listed
  rw [find?_upsertPeerCacheOn] at found
  split_ifs at found with here
  · obtain ⟨a, -, same⟩ := List.mem_map.1 here.2
    exact ⟨a, same.symm⟩
  · exact encoded r (Rows.find?_mem t _ r found)

include ordered in
theorem inv_announced (t : PeerTable) (since : Nat → List (List UInt8)) (id : Nat)
    (trackerPeers : List SocketAddr) (now : Int) (inv : Inv manualPeers pruneKeep (t, since)) :
    Inv manualPeers pruneKeep (persistAfterAnnounce newestFirst t id trackerPeers manualPeers pruneKeep now,
      if trackerPeers = [] then since else Function.update since id []) := by
  have keeps := persistAfterAnnounce_keeps newestFirst ordered t id trackerPeers manualPeers
    pruneKeep now
  constructor
  · intro id'
    by_cases same : id' = id
    · subst same
      apply few_of_subset manualPeers _ _ _ _ _ _
        (few_pruned newestFirst ordered manualPeers pruneKeep t since id' trackerPeers now inv)
      intro r listed named other
      have found := Rows.find?_of_mem _ r listed
      rw [persistAfterAnnounce_eq, find?_upsertPeerCacheOn,
        if_neg (fun clash => of_decide_eq_false other (Or.inl clash.2))] at found
      exact ⟨Rows.find?_mem _ _ r found, other⟩
    · apply few_of_subset manualPeers t _ since _ _ _ (inv.few id')
      intro r listed named other
      have apart : r.torrentId ≠ id := fun clash => same (named.symm.trans clash)
      have found := Rows.find?_of_mem _ r listed
      rw [keeps.2.1 _ apart] at found
      refine ⟨Rows.find?_mem t _ r found, ?_⟩
      split_ifs at other
      · exact other
      · rwa [spared_other manualPeers since id [] r apart] at other
  · change ∀ r ∈ (persistAfterAnnounce newestFirst t id trackerPeers manualPeers pruneKeep now).list, _
    rw [persistAfterAnnounce_eq]
    apply encoded_upsert
    rw [prunedAfterAnnounce]
    split_ifs
    · exact inv.encoded
    · intro r listed
      exact encoded_upsert t id trackerPeers now inv.encoded r
        ((mem_prunePeerCacheOn newestFirst ordered _ id pruneKeep r).1 listed).1

/-- An upsert drops nothing, and what it adds is spared until the next announce. -/
theorem inv_upserted (t : PeerTable) (since : Nat → List (List UInt8)) (id : Nat)
    (peers : List SocketAddr) (now : Int) (inv : Inv manualPeers pruneKeep (t, since)) :
    Inv manualPeers pruneKeep (upsertPeerCacheOn t id peers now,
      Function.update since id (peers.map encodePeerAddr ++ since id)) := by
  refine ⟨fun id' => ?_, encoded_upsert t id peers now inv.encoded⟩
  apply few_of_subset manualPeers t _ since _ _ _ (inv.few id')
  intro r listed _ other
  have found := Rows.find?_of_mem _ r listed
  by_cases own : r.torrentId = id
  · simp only [spared, own, Function.update_self, List.mem_append, decide_eq_false_iff_not, not_or] at other
    obtain ⟨unmanual, untold, unspared⟩ := other
    rw [find?_upsertPeerCacheOn, if_neg (fun clash => untold clash.2)] at found
    refine ⟨Rows.find?_mem t _ r found, ?_⟩
    simp only [spared, own, unmanual, unspared, or_self, decide_false]
  · rw [find?_upsertPeerCacheOn, if_neg (fun clash => own clash.1)] at found
    rw [spared_other manualPeers since id _ r own] at other
    exact ⟨Rows.find?_mem t _ r found, other⟩

theorem inv_removed (t : PeerTable) (since : Nat → List (List UInt8)) (id : Nat)
    (inv : Inv manualPeers pruneKeep (t, since)) :
    Inv manualPeers pruneKeep (retain t (fun r => r.torrentId ≠ id), Function.update since id []) := by
  refine ⟨fun id' => ?_, fun r listed => inv.encoded r (List.mem_of_mem_filter listed)⟩
  apply few_of_subset manualPeers t _ since _ _ _ (inv.few id')
  intro r listed _ other
  obtain ⟨old, apart⟩ := List.mem_filter.1 listed
  rw [spared_other manualPeers since id [] r (of_decide_eq_true apart)] at other
  exact ⟨old, other⟩

include ordered in
theorem step_inv (c : PeerTable × (Nat → List (List UInt8))) (event : Event)
    (c' : PeerTable × (Nat → List (List UInt8))) (inv : Inv manualPeers pruneKeep c)
    (taken : recorded (step newestFirst manualPeers pruneKeep) direct c event = some c') :
    Inv manualPeers pruneKeep c' := by
  cases event with
  | announced id trackerPeers now =>
    cases taken
    exact inv_announced newestFirst ordered manualPeers pruneKeep c.1 c.2 id trackerPeers now inv
  | upserted id peers now =>
    cases taken
    exact inv_upserted manualPeers pruneKeep c.1 c.2 id peers now inv
  | removed id =>
    cases taken
    exact inv_removed manualPeers pruneKeep c.1 c.2 id inv

theorem encodePeerAddr_plain (a : SocketAddr) : encodePeerAddr a.plain = encodePeerAddr a := by
  cases a with
  | _ => rfl

include ordered in
/-- Listing loses no row and names no address twice. -/
theorem listPeerCache_map (t : PeerTable) (id limit : Nat)
    (encoded : ∀ r ∈ t.list, ∃ a, r.addr = encodePeerAddr a) :
    (listPeerCache newestFirst t id limit).map encodePeerAddr =
      (newest newestFirst t id (max limit 1)).map PeerRow.addr := by
  have all : ∀ rows : List PeerRow, (∀ r ∈ rows, ∃ a, r.addr = encodePeerAddr a) →
      (rows.filterMap (fun r => decodePeerAddr r.addr)).map encodePeerAddr = rows.map PeerRow.addr := by
    intro rows
    induction rows with
    | nil => exact fun _ => rfl
    | cons r rest ih =>
      intro each
      obtain ⟨a, same⟩ := each r List.mem_cons_self
      have decoded : decodePeerAddr r.addr = some a.plain := by
        rw [same, decodePeerAddr_encodePeerAddr]
      have later := ih (fun other member => each other (List.mem_cons_of_mem _ member))
      simp only [List.filterMap_cons, decoded, List.map_cons, later, encodePeerAddr_plain]
      rw [same]
  apply all
  intro r member
  exact encoded r ((mem_mine t id r).1 (newest_mine newestFirst ordered t id _ r member)).1

include ordered in
/-- Over every run the cache of a torrent stays within its limit, but for the manual peers and what was
upserted since it was pruned, and listing it gives the newest addresses, each once, all of them where
they fit. -/
theorem peer_cache_run (events : List Event) (t : PeerTable) (since : Nat → List (List UInt8))
    (ran : exec (recorded (step newestFirst manualPeers pruneKeep) direct) (Rows.empty, fun _ => [])
      events = some (t, since)) (id limit : Nat) :
    ((mine t id).filter (fun r => !spared manualPeers since r)).length ≤ max pruneKeep 1 ∧
    (listPeerCache newestFirst t id limit).Nodup ∧
    (listPeerCache newestFirst t id limit).length = min (max limit 1) (mine t id).length ∧
    ((mine t id).length ≤ limit → ∀ a, a ∈ listPeerCache newestFirst t id limit ↔
      a.plain = a ∧ t.find? (id, encodePeerAddr a) ≠ none) := by
  have start : Inv manualPeers pruneKeep (Rows.empty, fun _ => []) :=
    ⟨fun id => Nat.zero_le _, fun r clash => (by cases clash)⟩
  have inv := exec_invariant_free _ (Inv manualPeers pruneKeep)
    (step_inv newestFirst ordered manualPeers pruneKeep) _ (t, since) events start ran
  have listed := listPeerCache_map newestFirst ordered t id limit inv.encoded
  have distinct : ((newest newestFirst t id (max limit 1)).map PeerRow.addr).Nodup := by
    apply List.Nodup.map_on _ (nodup_newest newestFirst ordered t id _)
    intro r first r' second same
    exact eq_of_addr t id r r' (newest_mine newestFirst ordered t id _ r first)
      (newest_mine newestFirst ordered t id _ r' second) same
  refine ⟨inv.few id, ?_, ?_, ?_⟩
  · rw [← listed] at distinct
    exact List.Nodup.of_map encodePeerAddr distinct
  · have lengths := congrArg List.length listed
    rwa [List.length_map, List.length_map, length_newest newestFirst ordered] at lengths
  · intro fits a
    constructor
    · intro member
      obtain ⟨r, among, decoded⟩ := List.mem_filterMap.1 member
      obtain ⟨here, named⟩ := (mem_mine t id r).1 (newest_mine newestFirst ordered t id _ r among)
      obtain ⟨b, same⟩ := inv.encoded r here
      rw [same, decodePeerAddr_encodePeerAddr, Option.some.injEq] at decoded
      rw [← decoded]
      constructor
      · cases b with
        | _ => rfl
      · rw [encodePeerAddr_plain, ← same, ← named]
        rw [show (r.torrentId, r.addr) = r.key from rfl, Rows.find?_of_mem t r here]
        exact Option.some_ne_none r
    · rintro ⟨plain, there⟩
      obtain ⟨r, found⟩ := Option.ne_none_iff_exists'.1 there
      have keyed := Rows.find?_key t _ r found
      have here := (mem_mine t id r).2 ⟨Rows.find?_mem t _ r found, (Prod.mk.inj keyed).1⟩
      have among : r ∈ newest newestFirst t id (max limit 1) := by
        rw [newest, List.take_of_length_le]
        · exact (ordered _).1.mem_iff.2 here
        · rw [(ordered _).1.length_eq]
          omega
      refine List.mem_filterMap.2 ⟨r, among, ?_⟩
      rw [show r.addr = encodePeerAddr a from (Prod.mk.inj keyed).2, decodePeerAddr_encodePeerAddr, plain]

end

end

/-- One of the orders that the statement allows. -/
def byLastSeen (rows : List PeerRow) : List PeerRow :=
  rows.mergeSort (fun a b => decide (b.lastSeen ≤ a.lastSeen))

theorem byLastSeen_ordered (rows : List PeerRow) : (byLastSeen rows).Perm rows ∧
    (byLastSeen rows).Pairwise (fun a b => b.lastSeen ≤ a.lastSeen) := by
  refine ⟨List.mergeSort_perm rows _, ?_⟩
  have sorted := @List.pairwise_mergeSort _ (fun a b : PeerRow => decide (b.lastSeen ≤ a.lastSeen))
    (by
      intro a b c first second
      rw [decide_eq_true_eq] at first second ⊢
      omega) (by
      intro a b
      rw [Bool.or_eq_true, decide_eq_true_eq, decide_eq_true_eq]
      omega) rows
  exact sorted.imp (fun below => of_decide_eq_true below)

def peer (port : UInt16) : SocketAddr := .v4 ⟨(10, 0, 0, 1), port⟩

/-- The tracker names more peers than are kept, and the manual one is none of them. -/
theorem manual_kept : ∃ r, (persistAfterAnnounce byLastSeen Rows.empty 1 [peer 1, peer 2, peer 3]
    [peer 9] 2 50).find? (1, encodePeerAddr (peer 9)) = some r ∧ r.lastSeen = 50 :=
  (persistAfterAnnounce_keeps byLastSeen byLastSeen_ordered Rows.empty 1 [peer 1, peer 2, peer 3]
    [peer 9] 2 50).1 (peer 9) List.mem_cons_self

/-- An upsert between two announces; the second one prunes what it brought. -/
def twoAnnounces : List Event :=
  [.announced 1 [peer 1, peer 2, peer 3] 50, .upserted 1 [peer 5, peer 6] 55, .announced 1 [peer 4] 60]

theorem two_announces_bounded : ∃ t since,
    exec (recorded (step byLastSeen [peer 9] 2) direct) (Rows.empty, fun _ => []) twoAnnounces =
      some (t, since) ∧ since 1 = [] ∧
    ((mine t 1).filter (fun r => !spared [peer 9] since r)).length ≤ 2 :=
  ⟨_, _, rfl, rfl, (peer_cache_run byLastSeen byLastSeen_ordered [peer 9] 2 twoAnnounces _ _ rfl 1 10).1⟩

end Seedchamp.Catalog.PeerCache
