import Seedchamp.Hot.Torrent
import Mathlib.Data.List.Nodup
import Mathlib.Logic.Function.Basic

/-!
What starting and stopping a torrent share: the catalog rows with their `want_start` flag, and the
registry of hot torrents under its two keys.
-/

namespace Seedchamp.Session.Registry
open Disk.Spans Hot.Torrent

/-- A row of the catalog. Nobody wants a soft-deleted torrent started. -/
structure TorrentRow where
  row : CatalogRow
  layout : StorageLayout
  wantStart : Bool
  deleted : Bool
  unwanted : deleted = true → wantStart = false

/-- The torrent table in the order of its primary key; `infohash` is declared unique. -/
structure Catalog where
  rows : List TorrentRow
  ids : (rows.map (fun r => r.row.id)).Nodup
  infohashes : (rows.map (fun r => r.row.infohash)).Nodup

namespace Catalog

/-- Rewrite one row. No statement of the engine changes a row's id or infohash. -/
def update (c : Catalog) (id : Nat) (change : TorrentRow → TorrentRow)
    (same : ∀ r, (change r).row = r.row) : Catalog where
  rows := c.rows.map (fun r => if r.row.id = id then change r else r)
  ids := by
    have kept : ∀ r : TorrentRow, (if r.row.id = id then change r else r).row.id = r.row.id := by
      intro r
      split_ifs
      · rw [same]
      · rfl
    rw [List.map_map, show (fun r : TorrentRow => r.row.id) ∘ _ = _ from funext kept]
    exact c.ids
  infohashes := by
    have kept : ∀ r : TorrentRow,
        (if r.row.id = id then change r else r).row.infohash = r.row.infohash := by
      intro r
      split_ifs
      · rw [same]
      · rfl
    rw [List.map_map, show (fun r : TorrentRow => r.row.infohash) ∘ _ = _ from funext kept]
    exact c.infohashes

def isDeleted (c : Catalog) (id : Nat) : Bool :=
  c.rows.any (fun r => r.row.id = id && r.deleted)

/-- Whether `want_start` is 1 in the row. -/
def wants (c : Catalog) (id : Nat) : Bool :=
  c.rows.any (fun r => r.row.id = id && r.wantStart)

def setWant (want : Bool) (r : TorrentRow) : TorrentRow :=
  if deleted : r.deleted = true then r
  else { r with wantStart := want, unwanted := fun gone => absurd gone deleted }

def setWantStart (c : Catalog) (id : Nat) (want : Bool) : Except Error Catalog :=
  if want && c.isDeleted id then .error (.msg s!"torrent #{id} is deleted; cannot start")
  else .ok (c.update id (setWant want) (by
    intro r
    unfold setWant
    split_ifs <;> rfl))

def listWantStartIds (c : Catalog) : List Nat :=
  (c.rows.filter (fun r => r.wantStart && !r.deleted)).map (fun r => r.row.id)

def setDeleted (r : TorrentRow) : TorrentRow :=
  { r with deleted := true, wantStart := false, unwanted := fun _ => rfl }

/-- Soft delete; a wanted torrent is refused. -/
def markDeleted (c : Catalog) (id : Nat) : Except Error Catalog :=
  match c.rows.find? (fun r => r.row.id = id) with
  | none => .error (.msg s!"torrent id {id} not found")
  | some r =>
    if r.deleted then .ok c
    else if r.wantStart then .error (.msg s!"torrent #{id} is started")
    else .ok (c.update id setDeleted (fun _ => rfl))

def setRestored (want : Bool) (r : TorrentRow) : TorrentRow :=
  { r with deleted := false, wantStart := want, unwanted := fun gone => absurd gone Bool.false_ne_true }

/-- The part of `restore_deleted` on the torrent table. -/
def restoreDeleted (c : Catalog) (id : Nat) (want : Bool) : Catalog :=
  if c.isDeleted id then c.update id (setRestored want) (fun _ => rfl) else c

/-- `HotRegistry::load_from_catalog` for a start, which accepts an incomplete torrent. -/
def load (c : Catalog) (id : Nat) : Option HotTorrent :=
  (c.rows.find? (fun r => r.row.id = id)).bind
    (fun r => (loadFromCatalog r.layout r.row true).toOption)

/-- Some row has this id and this infohash. -/
def Lists (c : Catalog) (id : Nat) (infohash : List UInt8) : Prop :=
  ∃ r ∈ c.rows, r.row.id = id ∧ r.row.infohash = infohash

theorem lists_update (c : Catalog) (id : Nat) (change : TorrentRow → TorrentRow)
    (same : ∀ r, (change r).row = r.row) (i : Nat) (infohash : List UInt8) :
    (c.update id change same).Lists i infohash ↔ c.Lists i infohash := by
  have kept : ∀ r : TorrentRow, (if r.row.id = id then change r else r).row = r.row := by
    intro r
    split_ifs
    · exact same r
    · rfl
  constructor
  · rintro ⟨r, member, named⟩
    obtain ⟨old, listed, changed⟩ := List.mem_map.1 member
    rw [← changed, kept] at named
    exact ⟨old, listed, named⟩
  · rintro ⟨r, member, named⟩
    refine ⟨_, List.mem_map_of_mem member, ?_⟩
    rw [kept]
    exact named

theorem wants_iff (c : Catalog) (id : Nat) :
    c.wants id = true ↔ ∃ r ∈ c.rows, r.row.id = id ∧ r.wantStart = true := by
  simp only [wants, List.any_eq_true, Bool.and_eq_true, decide_eq_true_eq]

theorem wants_update (c : Catalog) (id : Nat) (change : TorrentRow → TorrentRow)
    (same : ∀ r, (change r).row = r.row) (i : Nat) (wanted : (c.update id change same).wants i = true) :
    (i ≠ id ∧ c.wants i = true) ∨
      (i = id ∧ ∃ r ∈ c.rows, r.row.id = id ∧ (change r).wantStart = true) := by
  obtain ⟨r, member, named, wants⟩ := (wants_iff _ i).1 wanted
  obtain ⟨old, listed, rfl⟩ := List.mem_map.1 member
  by_cases hit : old.row.id = id
  · simp only [hit, if_true, same] at named wants
    exact Or.inr ⟨named.symm, old, listed, hit, wants⟩
  · simp only [hit, if_false] at named wants
    refine Or.inl ⟨?_, (wants_iff c i).2 ⟨old, listed, named, wants⟩⟩
    rintro rfl
    exact hit named

theorem wants_setWantStart (c c' : Catalog) (id : Nat) (want : Bool) (i : Nat)
    (done : c.setWantStart id want = .ok c') (wanted : c'.wants i = true) :
    (i ≠ id ∧ c.wants i = true) ∨ (i = id ∧ want = true) := by
  unfold setWantStart at done
  split_ifs at done
  cases done
  rcases wants_update _ _ _ _ i wanted with before | ⟨here, r, _, _, wants⟩
  · exact Or.inl before
  · unfold setWant at wants
    split_ifs at wants with deleted
    · rw [r.unwanted deleted] at wants
      cases wants
    · exact Or.inr ⟨here, wants⟩

theorem wants_markDeleted (c c' : Catalog) (id i : Nat) (done : c.markDeleted id = .ok c')
    (wanted : c'.wants i = true) : c.wants i = true := by
  unfold markDeleted at done
  split at done
  · cases done
  · split_ifs at done
    · cases done
      exact wanted
    · cases done
      rcases wants_update _ _ _ _ i wanted with ⟨_, before⟩ | ⟨_, _, _, _, wants⟩
      · exact before
      · cases wants

theorem wants_restoreDeleted (c : Catalog) (id : Nat) (want : Bool) (i : Nat)
    (wanted : (c.restoreDeleted id want).wants i = true) :
    c.wants i = true ∨ (i = id ∧ c.isDeleted id = true ∧ want = true) := by
  unfold restoreDeleted at wanted
  split_ifs at wanted with deleted
  · rcases wants_update _ _ _ _ i wanted with ⟨_, before⟩ | ⟨here, _, _, _, wants⟩
    · exact Or.inl before
    · exact Or.inr ⟨here, deleted, wants⟩
  · exact Or.inl wanted

theorem lists_setWantStart (c c' : Catalog) (id : Nat) (want : Bool)
    (done : c.setWantStart id want = .ok c') (i : Nat) (infohash : List UInt8) :
    c'.Lists i infohash ↔ c.Lists i infohash := by
  unfold setWantStart at done
  split_ifs at done
  cases done
  exact lists_update _ _ _ _ i infohash

theorem lists_markDeleted (c c' : Catalog) (id : Nat) (done : c.markDeleted id = .ok c') (i : Nat)
    (infohash : List UInt8) : c'.Lists i infohash ↔ c.Lists i infohash := by
  unfold markDeleted at done
  split at done
  · cases done
  · split_ifs at done <;> cases done
    · exact Iff.rfl
    · exact lists_update _ _ _ _ i infohash

theorem lists_restoreDeleted (c : Catalog) (id : Nat) (want : Bool) (i : Nat)
    (infohash : List UInt8) : (c.restoreDeleted id want).Lists i infohash ↔ c.Lists i infohash := by
  unfold restoreDeleted
  split_ifs
  · exact lists_update _ _ _ _ i infohash
  · exact Iff.rfl

theorem lists_infohash (c : Catalog) (id : Nat) (first second : List UInt8)
    (one : c.Lists id first) (two : c.Lists id second) : first = second := by
  obtain ⟨r, member, named, rfl⟩ := one
  obtain ⟨r', member', named', rfl⟩ := two
  rw [List.inj_on_of_nodup_map c.ids member member' (named.trans named'.symm)]

theorem lists_id (c : Catalog) (infohash : List UInt8) (first second : Nat)
    (one : c.Lists first infohash) (two : c.Lists second infohash) : first = second := by
  obtain ⟨r, member, rfl, named⟩ := one
  obtain ⟨r', member', rfl, named'⟩ := two
  rw [List.inj_on_of_nodup_map c.infohashes member member' (named.trans named'.symm)]

theorem finishNew_names (t : HotTorrent) :
    t.finishNew.id = t.id ∧ t.finishNew.infohash = t.infohash := by
  unfold HotTorrent.finishNew HotTorrent.recountCompletedPayload HotTorrent.rebuildWantedAndMissing
  dsimp only
  split_ifs <;> exact ⟨rfl, rfl⟩

theorem load_lists (c : Catalog) (id : Nat) (t : HotTorrent) (loaded : c.load id = some t) :
    t.id = id ∧ c.Lists id t.infohash := by
  obtain ⟨r, found, hot⟩ := Option.bind_eq_some_iff.1 loaded
  have member := List.mem_of_find?_eq_some found
  have named : r.row.id = id := by
    have matched := List.find?_some found
    exact of_decide_eq_true matched
  have names : ∀ hashes pieces,
      (HotTorrent.bare r.row.id r.row.infohash r.layout r.row.pieceCount hashes pieces).finishNew.id = id ∧
        c.Lists id (HotTorrent.bare r.row.id r.row.infohash r.layout r.row.pieceCount hashes
          pieces).finishNew.infohash := by
    intro hashes pieces
    obtain ⟨sameId, sameHash⟩ := finishNew_names (HotTorrent.bare r.row.id r.row.infohash r.layout
      r.row.pieceCount hashes pieces)
    rw [sameId, sameHash]
    exact ⟨named, r, member, named, rfl⟩
  unfold loadFromCatalog at hot
  split_ifs at hot <;> cases hot <;> exact names _ _

end Catalog

/-- Hot torrents by infohash and by id. -/
structure HotRegistry where
  byHash : List UInt8 → Option HotTorrent
  byId : Nat → Option HotTorrent

namespace HotRegistry

def new : HotRegistry := ⟨fun _ => none, fun _ => none⟩

def get (reg : HotRegistry) (infohash : List UInt8) : Option HotTorrent := reg.byHash infohash

def getId (reg : HotRegistry) (id : Nat) : Option HotTorrent := reg.byId id

def insert (reg : HotRegistry) (t : HotTorrent) : HotRegistry where
  byHash := Function.update reg.byHash t.infohash (some t)
  byId := Function.update reg.byId t.id (some t)

def remove (reg : HotRegistry) (infohash : List UInt8) : HotRegistry :=
  match reg.byHash infohash with
  | none => reg
  | some t =>
    { byHash := Function.update reg.byHash infohash none
      byId := Function.update reg.byId t.id none }

/-- Both maps hold the same torrents, each under its own names, and every one has its row. -/
structure Linked (reg : HotRegistry) (c : Catalog) : Prop where
  byId : ∀ id t, reg.byId id = some t → t.id = id ∧ reg.byHash t.infohash = some t
  byHash : ∀ infohash t, reg.byHash infohash = some t →
    t.infohash = infohash ∧ reg.byId t.id = some t ∧ c.Lists t.id infohash

theorem linked_new (c : Catalog) : Linked new c := by
  constructor
  · intro id t found
    cases found
  · intro infohash t found
    cases found

theorem linked_catalog (reg : HotRegistry) (c c' : Catalog) (linked : Linked reg c)
    (same : ∀ id infohash, c'.Lists id infohash ↔ c.Lists id infohash) : Linked reg c' := by
  refine ⟨linked.byId, ?_⟩
  intro infohash t found
  rw [same]
  exact linked.byHash infohash t found

theorem linked_insert (reg : HotRegistry) (c : Catalog) (t : HotTorrent) (linked : Linked reg c)
    (listed : c.Lists t.id t.infohash) (absent : reg.getId t.id = none) : Linked (reg.insert t) c := by
  -- another torrent under this infohash would share the row, hence the id
  have free : reg.byHash t.infohash = none := by
    cases found : reg.byHash t.infohash with
    | none => rfl
    | some other =>
      obtain ⟨_, known, row⟩ := linked.byHash _ other found
      rw [c.lists_id _ _ _ row listed, show reg.byId t.id = none from absent] at known
      cases known
  constructor
  · intro id other found
    by_cases mine : id = t.id
    · simp only [insert, mine, Function.update_self, Option.some.injEq] at found
      rw [← found, mine]
      exact ⟨rfl, Function.update_self ..⟩
    · simp only [insert, Function.update_of_ne mine] at found
      obtain ⟨named, hashed⟩ := linked.byId id other found
      refine ⟨named, ?_⟩
      have apart : other.infohash ≠ t.infohash := by
        intro same
        rw [same, free] at hashed
        cases hashed
      simp only [insert, Function.update_of_ne apart, hashed]
  · intro infohash other found
    by_cases mine : infohash = t.infohash
    · simp only [insert, mine, Function.update_self, Option.some.injEq] at found
      rw [← found, mine]
      exact ⟨rfl, Function.update_self .., listed⟩
    · simp only [insert, Function.update_of_ne mine] at found
      obtain ⟨hashed, known, row⟩ := linked.byHash infohash other found
      refine ⟨hashed, ?_, row⟩
      have apart : other.id ≠ t.id := by
        intro same
        rw [same, show reg.byId t.id = none from absent] at known
        cases known
      simp only [insert, Function.update_of_ne apart, known]

theorem linked_remove (reg : HotRegistry) (c : Catalog) (infohash : List UInt8)
    (linked : Linked reg c) : Linked (reg.remove infohash) c := by
  unfold remove
  cases found : reg.byHash infohash with
  | none => exact linked
  | some t =>
    obtain ⟨hashed, known, _⟩ := linked.byHash infohash t found
    constructor
    · intro id other present
      have apart : id ≠ t.id := by
        rintro rfl
        simp only [Function.update_self] at present
        cases present
      simp only [Function.update_of_ne apart] at present
      obtain ⟨named, itself⟩ := linked.byId id other present
      refine ⟨named, ?_⟩
      have distinct : other.infohash ≠ infohash := by
        intro same
        rw [same, found, Option.some.injEq] at itself
        exact apart (by rw [← named, itself])
      simp only [Function.update_of_ne distinct, itself]
    · intro other' other present
      have distinct : other' ≠ infohash := by
        rintro rfl
        simp only [Function.update_self] at present
        cases present
      simp only [Function.update_of_ne distinct] at present
      obtain ⟨itself, byId, row⟩ := linked.byHash other' other present
      refine ⟨itself, ?_, row⟩
      have apart : other.id ≠ t.id := by
        intro same
        rw [same, known, Option.some.injEq] at byId
        exact distinct (by rw [← itself, ← byId, hashed])
      simp only [Function.update_of_ne apart, byId]

theorem getId_insert_of_ne (reg : HotRegistry) (t : HotTorrent) (id : Nat) (other : id ≠ t.id) :
    (reg.insert t).getId id = reg.getId id := Function.update_of_ne other ..

/-- A removal takes nothing but the torrent of that infohash. -/
theorem getId_remove_none (reg : HotRegistry) (infohash : List UInt8) (id : Nat)
    (absent : reg.getId id = none) : (reg.remove infohash).getId id = none := by
  unfold remove
  split
  · exact absent
  · rename_i t _
    by_cases mine : id = t.id
    · simp only [getId, mine, Function.update_self]
    · simp only [getId, Function.update_of_ne mine]
      exact absent

/-- Removing the row's infohash removes the row's id. -/
theorem getId_remove (reg : HotRegistry) (c : Catalog) (id : Nat) (infohash : List UInt8)
    (linked : Linked reg c) (listed : c.Lists id infohash) : (reg.remove infohash).getId id = none := by
  cases present : reg.byId id with
  | none => exact getId_remove_none reg infohash id present
  | some t =>
    obtain ⟨named, hashed⟩ := linked.byId id t present
    obtain ⟨_, _, row⟩ := linked.byHash _ t hashed
    rw [named] at row
    rw [c.lists_infohash id _ _ row listed] at hashed
    simp only [remove, hashed, getId, named, Function.update_self]

end HotRegistry

end Seedchamp.Session.Registry
