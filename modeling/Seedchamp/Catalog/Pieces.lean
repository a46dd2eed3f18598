import Seedchamp.Catalog.Table

/-!
The statements on the possession columns: a recheck overwrites them as a whole, a batch of
piece-have events adds to them torrent by torrent inside one transaction.
-/

namespace Seedchamp.Catalog.Pieces
open Foundation.KeyedRows Catalog.Bitfield Catalog.Table Disk.Spans

/-- `bf[i / 8] |= 1 << (7 - (i % 8))` for every piece the recheck found good. -/
def packHave (pieceCount : Nat) (good : List Bool) : Bits :=
  good.zipIdx.foldl (fun bits piece => if piece.1 then bitfieldSet bits piece.2 else bits)
    (emptyBitfield pieceCount)

/-- The columns a recheck of `piece_count` pieces leaves. -/
def recheckedColumns (c : Columns) (pieceCount : Nat) (good : List Bool) : Columns :=
  let haveCount := good.countP id
  let complete := 0 < pieceCount ∧ haveCount = pieceCount
  { c with
    complete := complete
    state := .stopped
    bitfield := some ⟨if complete then none else some (packHave pieceCount good), haveCount⟩ }

def setBitfieldFromRecheck (t : TorrentTable) (id pieceCount : Nat) (good : List Bool) :
    Except Error TorrentTable :=
  if good.length ≠ pieceCount then .error (.msg "have slice length mismatch")
  else match t.find? id with
    | none => .error foreignKey
    | some _ => .ok (set t id (fun r => recheckedColumns r.columns pieceCount good))

/-- `(torrent_id, index, plen)` of a piece that was written. -/
structure HaveEvent where
  tid : Nat
  index : Nat
  plen : Nat
  deriving DecidableEq, Repr

abbrev Group := Nat × List (Nat × Nat)

def addEvent (groups : List Group) (ev : HaveEvent) : List Group :=
  if groups.any (fun g => g.1 = ev.tid) then
    groups.map (fun g => if g.1 = ev.tid then (g.1, g.2 ++ [(ev.index, ev.plen)]) else g)
  else groups ++ [(ev.tid, [(ev.index, ev.plen)])]

/-- The events by torrent, in the order in which the torrents are first seen. -/
def byTorrent (pieces : List HaveEvent) : List Group := pieces.foldl addEvent []

/-- The locals of the loop over one torrent's events. -/
structure Gather where
  bits : Bits
  haveCount : Nat
  deltaDown : Nat
  changed : Bool
  deriving DecidableEq, Repr

def gatherOne (pieceCount : Nat) (g : Gather) (item : Nat × Nat) : Gather :=
  if pieceCount ≤ item.1 ∨ bitfieldGet g.bits item.1 = true then g
  else ⟨bitfieldSet g.bits item.1, g.haveCount + 1, g.deltaDown + item.2, true⟩

def gather (r : Row) (items : List (Nat × Nat)) : Gather :=
  items.foldl (gatherOne r.pieceCount) ⟨r.loadBitfieldState.2.1, r.haveCount, 0, false⟩

/-- Whether the row is loaded only to be skipped, or none of the events is news to it. -/
def unmoved (r : Row) (items : List (Nat × Nat)) : Bool :=
  r.columns.complete || r.pieceCount = 0 || !(gather r items).changed

/-- `have >= pc` after the loop, on a row that moved. -/
def becameComplete (r : Row) (items : List (Nat × Nat)) : Bool :=
  !unmoved r items && r.pieceCount ≤ (gather r items).haveCount

def addDownloaded (stats : Option Stats) (delta : Nat) : Option Stats :=
  stats.map (fun s => { s with downloaded := s.downloaded + delta })

/-- The columns of one torrent's row after its events of a batch. -/
def applyHaves (r : Row) (items : List (Nat × Nat)) : Columns :=
  let g := gather r items
  if unmoved r items then r.columns
  else if r.pieceCount ≤ g.haveCount then
    { r.columns with
      bitfield := some ⟨none, r.pieceCount⟩
      stats := addDownloaded r.columns.stats g.deltaDown
      complete := true
      state := .started }
  else
    { r.columns with
      bitfield := some ⟨some g.bits, g.haveCount⟩
      stats := addDownloaded r.columns.stats g.deltaDown
      complete := if r.haveCount = 0 then false else r.columns.complete
      state := if r.haveCount = 0 then .started else r.columns.state }

/-- The loop of the transaction; an error leaves it at once. -/
def markGroups (t : TorrentTable) : List Group → Except Error (TorrentTable × List Nat)
  | [] => .ok (t, [])
  | (tid, items) :: rest =>
    match t.find? tid with
    | none => .error noRows
    | some r =>
      match markGroups (set t tid (fun r => applyHaves r items)) rest with
      | .error problem => .error problem
      | .ok (t', became) => .ok (t', if becameComplete r items then tid :: became else became)

/-- Apply many piece-have events in one transaction; an error rolls it back. -/
def markPiecesHaveBatch (t : TorrentTable) (pieces : List HaveEvent) : Except Error (TorrentTable × List Nat) :=
  if pieces.isEmpty then .ok (t, []) else markGroups t (byTorrent pieces)


/-! ### Grouping -/

/-- The `(index, plen)` pairs of one torrent, in the order they were queued. -/
def itemsOf (tid : Nat) (pieces : List HaveEvent) : List (Nat × Nat) :=
  (pieces.filter (fun ev => ev.tid = tid)).map (fun ev => (ev.index, ev.plen))

theorem itemsOf_append (tid : Nat) (pieces : List HaveEvent) (ev : HaveEvent) :
    itemsOf tid (pieces ++ [ev]) =
      itemsOf tid pieces ++ if ev.tid = tid then [(ev.index, ev.plen)] else [] := by
  rw [itemsOf, List.filter_append, List.map_append]
  split_ifs with named
  · rw [List.filter_singleton, decide_eq_true named]
    rfl
  · rw [List.filter_singleton, decide_eq_false named]
    rfl

theorem itemsOf_ne_nil (tid : Nat) (pieces : List HaveEvent) :
    itemsOf tid pieces ≠ [] ↔ ∃ ev ∈ pieces, ev.tid = tid := by
  rw [itemsOf, ne_eq, List.map_eq_nil_iff, List.filter_eq_nil_iff]
  simp

/-- The groups of a list of events: one for each torrent that has any, with all of its events. -/
structure Grouped (groups : List Group) (pieces : List HaveEvent) : Prop where
  distinct : (groups.map Prod.fst).Nodup
  listed : ∀ tid items, (tid, items) ∈ groups ↔ items = itemsOf tid pieces ∧ items ≠ []

theorem Grouped.mem_keys {groups : List Group} {pieces : List HaveEvent}
    (grouped : Grouped groups pieces) (tid : Nat) :
    tid ∈ groups.map Prod.fst ↔ itemsOf tid pieces ≠ [] := by
  constructor
  · intro member
    obtain ⟨⟨key, items⟩, listed, rfl⟩ := List.mem_map.1 member
    obtain ⟨same, some⟩ := (grouped.listed key items).1 listed
    rw [← same]
    exact some
  · intro some
    exact List.mem_map.2 ⟨(tid, itemsOf tid pieces), (grouped.listed _ _).2 ⟨rfl, some⟩, rfl⟩

theorem grouped_addEvent (groups : List Group) (pieces : List HaveEvent) (ev : HaveEvent)
    (grouped : Grouped groups pieces) : Grouped (addEvent groups ev) (pieces ++ [ev]) := by
  have seen : groups.any (fun g => g.1 = ev.tid) = true ↔ itemsOf ev.tid pieces ≠ [] := by
    rw [← grouped.mem_keys]
    simp only [List.any_eq_true, decide_eq_true_eq, List.mem_map]
  by_cases old : groups.any (fun g => g.1 = ev.tid) = true
  · have keys : ∀ g : Group,
        (if g.1 = ev.tid then (g.1, g.2 ++ [(ev.index, ev.plen)]) else g).1 = g.1 := by
      intro g
      split_ifs <;> rfl
    rw [addEvent, if_pos old]
    refine ⟨?_, ?_⟩
    · rw [List.map_map, show Prod.fst ∘ _ = Prod.fst from funext keys]
      exact grouped.distinct
    · intro tid items
      rw [itemsOf_append, List.mem_map]
      constructor
      · rintro ⟨⟨key, before⟩, listed, changed⟩
        obtain ⟨same, some⟩ := (grouped.listed key before).1 listed
        by_cases named : key = ev.tid
        · rw [if_pos named, Prod.mk.injEq] at changed
          rw [← changed.1, ← changed.2, if_pos named.symm, same]
          exact ⟨rfl, by simp⟩
        · rw [if_neg named, Prod.mk.injEq] at changed
          rw [← changed.1, ← changed.2, if_neg (fun clash => named clash.symm), List.append_nil]
          exact ⟨same, some⟩
      · rintro ⟨rfl, some⟩
        by_cases named : ev.tid = tid
        · refine ⟨(tid, itemsOf tid pieces), (grouped.listed _ _).2 ⟨rfl, named ▸ seen.1 old⟩, ?_⟩
          rw [if_pos named.symm, if_pos named]
        · rw [if_neg named, List.append_nil] at some ⊢
          refine ⟨(tid, itemsOf tid pieces), (grouped.listed _ _).2 ⟨rfl, some⟩, ?_⟩
          rw [if_neg (fun clash => named clash.symm)]
  · have none : itemsOf ev.tid pieces = [] := not_not.1 (fun some => old (seen.2 some))
    rw [addEvent, if_neg old]
    refine ⟨?_, ?_⟩
    · rw [List.map_append]
      refine grouped.distinct.append (List.nodup_singleton _) (List.disjoint_singleton.2 ?_)
      rw [grouped.mem_keys, none]
      simp
    · intro tid items
      rw [List.mem_append, List.mem_singleton, grouped.listed, itemsOf_append]
      by_cases named : ev.tid = tid
      · rw [if_pos named, ← named, none, Prod.mk.injEq]
        constructor
        · rintro (⟨rfl, some⟩ | ⟨-, rfl⟩)
          · exact absurd rfl some
          · exact ⟨rfl, by simp⟩
        · rintro ⟨rfl, -⟩
          exact .inr ⟨rfl, rfl⟩
      · rw [if_neg named, List.append_nil, Prod.mk.injEq]
        constructor
        · rintro (held | ⟨rfl, -⟩)
          · exact held
          · exact absurd rfl named
        · exact .inl

theorem grouped_byTorrent (pieces : List HaveEvent) : Grouped (byTorrent pieces) pieces := by
  induction pieces using List.reverseRecOn with
  | nil => exact ⟨List.nodup_nil, fun tid items => by simp [byTorrent, itemsOf]⟩
  | append_singleton pieces ev ih =>
    rw [byTorrent, List.foldl_append]
    exact grouped_addEvent _ pieces ev ih

/-! ### The transaction -/

theorem isSome_set (t : TorrentTable) (id : Nat) (change : Row → Columns) (j : Nat) :
    ((set t id change).find? j).isSome = (t.find? j).isSome := by
  rw [find?_set]
  split_ifs
  · rw [Option.isSome_map]
  · rfl

/-- The transaction fails exactly when a torrent of the batch is gone. -/
theorem markGroups_isOk (t : TorrentTable) (groups : List Group) :
    (markGroups t groups).isOk = true ↔ ∀ g ∈ groups, (t.find? g.1).isSome = true := by
  induction groups generalizing t with
  | nil => simp [markGroups, Except.isOk, Except.toBool]
  | cons g rest ih =>
    obtain ⟨tid, items⟩ := g
    rw [markGroups, List.forall_mem_cons]
    cases found : t.find? tid with
    | none => simp [Except.isOk, Except.toBool]
    | some r =>
      have later := ih (set t tid (fun r => applyHaves r items))
      simp only [isSome_set] at later
      rw [← later]
      cases markGroups (set t tid (fun r => applyHaves r items)) rest <;>
        simp [Except.isOk, Except.toBool]

/-- Each torrent of the batch has its events applied once; every other row is left alone. -/
theorem markGroups_find? (t t' : TorrentTable) (groups : List Group) (became : List Nat)
    (distinct : (groups.map Prod.fst).Nodup) (ran : markGroups t groups = .ok (t', became)) :
    (∀ tid items, (tid, items) ∈ groups →
      t'.find? tid = (t.find? tid).map (fun r => r.withColumns (applyHaves r items))) ∧
    ∀ tid, tid ∉ groups.map Prod.fst → t'.find? tid = t.find? tid := by
  induction groups generalizing t became with
  | nil =>
    cases ran
    exact ⟨fun tid items member => absurd member (List.not_mem_nil), fun tid absent => rfl⟩
  | cons g rest ih =>
    obtain ⟨key, events⟩ := g
    rw [List.map_cons, List.nodup_cons] at distinct
    rw [markGroups] at ran
    cases found : t.find? key with
    | none =>
      rw [found] at ran
      cases ran
    | some r =>
      simp only [found] at ran
      cases later : markGroups (set t key (fun r => applyHaves r events)) rest with
      | error problem =>
        rw [later] at ran
        cases ran
      | ok result =>
        obtain ⟨t'', rested⟩ := result
        rw [later] at ran
        cases ran
        obtain ⟨listed, unlisted⟩ := ih _ _ distinct.2 later
        refine ⟨?_, ?_⟩
        · intro tid items member
          rcases List.mem_cons.1 member with here | there
          · cases here
            rw [unlisted key distinct.1, find?_set, if_pos rfl]
          · have other : tid ≠ key := by
              rintro rfl
              exact distinct.1 (List.mem_map.2 ⟨_, there, rfl⟩)
            rw [listed tid items there, find?_set, if_neg other]
        · intro tid absent
          rw [List.map_cons, List.mem_cons, not_or] at absent
          rw [unlisted tid absent.2, find?_set, if_neg absent.1]

@[simp] theorem applyHaves_nil (r : Row) : applyHaves r [] = r.columns := by
  simp [applyHaves, unmoved, gather]

theorem applyHaves_metaPath (r : Row) (items : List (Nat × Nat)) :
    (applyHaves r items).metaPath = r.columns.metaPath := by
  unfold applyHaves
  dsimp only
  split_ifs <;> rfl

theorem applyHaves_files (r : Row) (items : List (Nat × Nat)) :
    (applyHaves r items).files = r.columns.files := by
  unfold applyHaves
  dsimp only
  split_ifs <;> rfl

theorem markPiecesHaveBatch_isOk (t : TorrentTable) (pieces : List HaveEvent) :
    (markPiecesHaveBatch t pieces).isOk = true ↔ ∀ ev ∈ pieces, (t.find? ev.tid).isSome = true := by
  rw [markPiecesHaveBatch]
  cases pieces with
  | nil => simp [Except.isOk, Except.toBool]
  | cons first rest =>
    rw [List.isEmpty_cons, if_neg Bool.false_ne_true, markGroups_isOk]
    have grouped := grouped_byTorrent (first :: rest)
    constructor
    · intro present ev member
      have keyed := (grouped.mem_keys ev.tid).2 ((itemsOf_ne_nil _ _).2 ⟨ev, member, rfl⟩)
      obtain ⟨g, listed, named⟩ := List.mem_map.1 keyed
      rw [← named]
      exact present g listed
    · intro present g listed
      obtain ⟨ev, member, named⟩ := (itemsOf_ne_nil g.1 _).1
        ((grouped.mem_keys g.1).1 (List.mem_map_of_mem listed))
      rw [← named]
      exact present ev member

/-- A committed batch applies to every torrent exactly its own events. -/
theorem rowwise_markPiecesHaveBatch (t t' : TorrentTable) (pieces : List HaveEvent)
    (became : List Nat) (ran : markPiecesHaveBatch t pieces = .ok (t', became)) :
    Rowwise t t' (fun r => applyHaves r (itemsOf r.id pieces)) := by
  intro tid
  have row : t'.find? tid =
      (t.find? tid).map (fun r => r.withColumns (applyHaves r (itemsOf tid pieces))) := by
    rw [markPiecesHaveBatch] at ran
    cases pieces with
    | nil =>
      cases ran
      simp [itemsOf]
    | cons first rest =>
      rw [List.isEmpty_cons, if_neg Bool.false_ne_true] at ran
      have grouped := grouped_byTorrent (first :: rest)
      obtain ⟨listed, unlisted⟩ := markGroups_find? t t' _ became grouped.distinct ran
      by_cases none : itemsOf tid (first :: rest) = []
      · rw [unlisted tid (fun keyed => (grouped.mem_keys tid).1 keyed none), none]
        simp
      · exact listed tid _ ((grouped.listed _ _).2 ⟨rfl, none⟩)
  rw [row]
  cases found : t.find? tid with
  | none => rfl
  | some r => simp only [Option.map_some, Rows.find?_key t tid r found]

/-- The report of a batch names the torrents of its groups that it completes. -/
theorem mem_markGroups (t t' : TorrentTable) (groups : List Group) (became : List Nat)
    (distinct : (groups.map Prod.fst).Nodup) (ran : markGroups t groups = .ok (t', became)) (tid : Nat) :
    tid ∈ became ↔ ∃ items r, (tid, items) ∈ groups ∧ t.find? tid = some r ∧
      becameComplete r items = true := by
  induction groups generalizing t became with
  | nil =>
    cases ran
    simp
  | cons g rest ih =>
    obtain ⟨key, events⟩ := g
    rw [List.map_cons, List.nodup_cons] at distinct
    rw [markGroups] at ran
    cases found : t.find? key with
    | none =>
      rw [found] at ran
      cases ran
    | some r =>
      simp only [found] at ran
      cases later : markGroups (set t key (fun r => applyHaves r events)) rest with
      | error problem =>
        rw [later] at ran
        cases ran
      | ok result =>
        obtain ⟨t'', rested⟩ := result
        rw [later] at ran
        cases ran
        have tail := ih _ _ distinct.2 later
        by_cases here : tid = key
        · subst here
          have unlisted : tid ∉ rested := by
            intro listed
            obtain ⟨items, _, member, _⟩ := tail.1 listed
            exact distinct.1 (List.mem_map.2 ⟨_, member, rfl⟩)
          have own : tid ∈ (if becameComplete r events then tid :: rested else rested) ↔
              becameComplete r events = true := by
            split_ifs with completes <;> simp [completes, unlisted]
          rw [own]
          constructor
          · intro completes
            exact ⟨events, r, List.mem_cons_self, found, completes⟩
          · rintro ⟨items, row, member, named, completes⟩
            rw [found] at named
            cases named
            rcases List.mem_cons.1 member with same | other
            · cases same
              exact completes
            · exact absurd (List.mem_map.2 ⟨_, other, rfl⟩) distinct.1
        · have passed : tid ∈ (if becameComplete r events then key :: rested else rested) ↔
              tid ∈ rested := by
            split_ifs <;> simp [here]
          rw [passed, tail]
          simp only [find?_set, if_false, List.mem_cons, Prod.mk.injEq, here, false_and, false_or]

/-- A committed batch reports a torrent as having become complete when its own events complete it. -/
theorem mem_markPiecesHaveBatch (t t' : TorrentTable) (pieces : List HaveEvent) (became : List Nat)
    (ran : markPiecesHaveBatch t pieces = .ok (t', became)) (tid : Nat) (r : Row)
    (found : t.find? tid = some r) :
    tid ∈ became ↔ becameComplete r (itemsOf tid pieces) = true := by
  have idle : becameComplete r [] = false := by simp [becameComplete, unmoved, gather]
  rw [markPiecesHaveBatch] at ran
  cases pieces with
  | nil =>
    cases ran
    simp [itemsOf, idle]
  | cons first rest =>
    rw [List.isEmpty_cons, if_neg Bool.false_ne_true] at ran
    have grouped := grouped_byTorrent (first :: rest)
    rw [mem_markGroups t t' _ became grouped.distinct ran]
    constructor
    · rintro ⟨items, row, member, named, completes⟩
      rw [found] at named
      cases named
      rw [← ((grouped.listed _ _).1 member).1]
      exact completes
    · intro completes
      have some : itemsOf tid (first :: rest) ≠ [] := by
        intro none
        rw [none, idle] at completes
        cases completes
      exact ⟨_, r, (grouped.listed _ _).2 ⟨rfl, some⟩, found, completes⟩

end Seedchamp.Catalog.Pieces
