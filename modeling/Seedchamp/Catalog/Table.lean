import Seedchamp.Foundation.KeyedRows
import Seedchamp.Catalog.Bitfield
import Seedchamp.Disk.Spans

/-!
The torrent table of the catalog with its side tables, and the statements the engine runs on it.
No statement rewrites a row's id, infohash, piece geometry or piece hashes; all else are columns.
-/

namespace Seedchamp.Catalog.Table
open Foundation.KeyedRows Catalog.Bitfield Disk.Spans

/-- The texts the engine writes to `torrent.state`. -/
inductive TorrentState where
  | stopped
  | started
  | checking
  | deleted
  deriving DecidableEq, Repr

/-- A row of `bitfield`; NULL bits stand for all pieces or for none, as `complete` says. -/
structure BitfieldRow where
  bits : Option Bits
  haveCount : Nat
  deriving DecidableEq, Repr

structure Stats where
  uploaded : Nat
  downloaded : Nat
  deriving DecidableEq, Repr

structure MetaPath where
  dataRoot : PathBuf
  homeRoot : Option PathBuf
  deriving DecidableEq, Repr

/-- What the statements rewrite. The side tables are joined on the torrent id. -/
structure Columns where
  state : TorrentState
  wantStart : Bool
  complete : Bool
  deleted : Bool
  deletedAt : Option Int
  bitfield : Option BitfieldRow
  stats : Option Stats
  metaPath : Option MetaPath
  files : List FileLayout
  deriving DecidableEq, Repr

structure Row where
  id : Nat
  infohash : List UInt8
  pieceLength : Nat
  pieceCount : Nat
  totalSize : Nat
  pieceHashes : List UInt8
  columns : Columns
  deriving DecidableEq, Repr

abbrev TorrentTable := Rows Row.id

def noRows : Error := .msg "sqlite: Query returned no rows"

def foreignKey : Error := .msg "sqlite: FOREIGN KEY constraint failed"

namespace Row

def withColumns (r : Row) (columns : Columns) : Row := { r with columns := columns }

@[simp] theorem withColumns_pieceCount (r : Row) (columns : Columns) :
    (r.withColumns columns).pieceCount = r.pieceCount := rfl

@[simp] theorem withColumns_columns (r : Row) (columns : Columns) :
    (r.withColumns columns).columns = columns := rfl

@[simp] theorem withColumns_self (r : Row) : r.withColumns r.columns = r := rfl

/-- `COALESCE(b.have_count, 0)`. -/
def haveCount (r : Row) : Nat := (r.columns.bitfield.map BitfieldRow.haveCount).getD 0

def storedBits (r : Row) : Option Bits := r.columns.bitfield.bind BitfieldRow.bits

/-- The `(complete, bits, have_count, piece_count)` of `load_bitfield_state`. -/
def loadBitfieldState (r : Row) : Bool × Bits × Nat × Nat :=
  if r.columns.complete then (true, allSetBitfield r.pieceCount, r.pieceCount, r.pieceCount)
  else (false, r.storedBits.getD (emptyBitfield r.pieceCount), r.haveCount, r.pieceCount)

/-- Whether the catalog marks a piece as had. -/
def hasPiece (r : Row) (index : Nat) : Bool := bitfieldGet r.loadBitfieldState.2.1 index

def loadStorageLayout (r : Row) : Except Error StorageLayout :=
  match r.columns.metaPath with
  | none => .error noRows
  | some metaPath =>
    if r.columns.files.isEmpty then .error (.msg s!"torrent {r.id} has no files in catalog")
    else .ok ⟨metaPath.dataRoot, r.pieceLength, r.pieceCount, r.totalSize, r.columns.files⟩

end Row

/-- `UPDATE … WHERE id = ?`. -/
def set (t : TorrentTable) (id : Nat) (change : Row → Columns) : TorrentTable :=
  t.update id (fun r => r.withColumns (change r)) (fun _ => rfl)

theorem find?_set (t : TorrentTable) (id : Nat) (change : Row → Columns) (j : Nat) :
    (set t id change).find? j =
      if j = id then (t.find? j).map (fun r => r.withColumns (change r)) else t.find? j :=
  Rows.find?_update t id _ _ j

theorem set_set (t : TorrentTable) (id : Nat) (f g : Row → Columns) :
    set (set t id f) id g = set t id (fun r => g (r.withColumns (f r))) := by
  obtain ⟨list, unique⟩ := t
  simp only [Table.set, Rows.update, Rows.mk.injEq, List.map_map]
  apply List.map_congr_left
  intro r _
  rw [Function.comp_apply]
  by_cases named : r.id = id
  · rw [if_pos named, if_pos (show (r.withColumns (f r)).id = id from named), if_pos named]
    rfl
  · rw [if_neg named, if_neg named, if_neg named]

theorem set_congr (t : TorrentTable) (id : Nat) (f g : Row → Columns)
    (same : ∀ r, t.find? id = some r → f r = g r) : set t id f = set t id g := by
  obtain ⟨list, unique⟩ := t
  simp only [Table.set, Rows.update, Rows.mk.injEq]
  apply List.map_congr_left
  intro r member
  by_cases named : r.id = id
  · rw [if_pos named, if_pos named, same r (named ▸ Rows.find?_of_mem ⟨list, unique⟩ r member)]
  · rw [if_neg named, if_neg named]

theorem set_columns (t : TorrentTable) (id : Nat) : set t id Row.columns = t := by
  obtain ⟨list, unique⟩ := t
  simp only [Table.set, Rows.update, Rows.mk.injEq, Row.withColumns_self, ite_self]
  exact List.map_id list

/-- `t'` has the rows of `t`, each with the columns that `change` gives it. -/
def Rowwise (t t' : TorrentTable) (change : Row → Columns) : Prop :=
  ∀ id, t'.find? id = (t.find? id).map (fun r => r.withColumns (change r))

theorem rowwise_refl (t : TorrentTable) : Rowwise t t Row.columns := by
  intro id
  simp

theorem rowwise_set (t : TorrentTable) (id : Nat) (change : Row → Columns) :
    Rowwise t (set t id change) (fun r => if r.id = id then change r else r.columns) := by
  intro j
  rw [find?_set]
  cases found : t.find? j with
  | none => split_ifs <;> rfl
  | some r =>
    simp only [Option.map_some, Rows.find?_key t j r found]
    split_ifs
    · rfl
    · rfl

theorem Rowwise.mem {t t' : TorrentTable} {change : Row → Columns} (rowwise : Rowwise t t' change)
    (r : Row) (member : r ∈ t'.list) : ∃ old ∈ t.list, r = old.withColumns (change old) := by
  have found := rowwise r.id
  rw [Rows.find?_of_mem t' r member] at found
  obtain ⟨old, present, changed⟩ := Option.map_eq_some_iff.1 found.symm
  exact ⟨old, Rows.find?_mem t _ old present, changed.symm⟩

/-- A property of the rows is kept by a statement that keeps it on each of them. -/
theorem Rowwise.forall {t t' : TorrentTable} {change : Row → Columns}
    (rowwise : Rowwise t t' change) (P : Row → Prop) (before : ∀ r ∈ t.list, P r)
    (kept : ∀ r ∈ t.list, P r → P (r.withColumns (change r))) : ∀ r ∈ t'.list, P r := by
  intro r member
  obtain ⟨old, listed, changed⟩ := rowwise.mem r member
  rw [changed]
  exact kept old listed (before old listed)

/-- Rewriting one row keeps a property that it keeps on that row. -/
theorem forall_set (t : TorrentTable) (id : Nat) (change : Row → Columns) (P : Row → Prop)
    (before : ∀ r ∈ t.list, P r)
    (kept : ∀ r, t.find? id = some r → P r → P (r.withColumns (change r))) :
    ∀ r ∈ (set t id change).list, P r :=
  Rows.forall_update t id _ _ P before kept

/-- A row after the rewrite of one row is that row, rewritten, or one of the others. -/
theorem mem_set (t : TorrentTable) (id : Nat) (change : Row → Columns) (r : Row)
    (member : r ∈ (set t id change).list) :
    (∃ old, t.find? id = some old ∧ r = old.withColumns (change old)) ∨ r ∈ t.list ∧ r.id ≠ id := by
  obtain ⟨old, listed, changed⟩ := List.mem_map.1 member
  by_cases named : old.id = id
  · rw [if_pos named] at changed
    exact Or.inl ⟨old, named ▸ Rows.find?_of_mem t old listed, changed.symm⟩
  · rw [if_neg named] at changed
    rw [← changed]
    exact Or.inr ⟨listed, named⟩

/-- Rows stay, with their piece count. -/
def Extends (t t' : TorrentTable) : Prop :=
  ∀ id r, t.find? id = some r → ∃ r', t'.find? id = some r' ∧ r'.pieceCount = r.pieceCount

theorem Rowwise.extends {t t' : TorrentTable} {change : Row → Columns}
    (rowwise : Rowwise t t' change) : Extends t t' := by
  intro id r found
  refine ⟨r.withColumns (change r), ?_, rfl⟩
  rw [rowwise, found]
  rfl

/-- A statement that fails leaves the catalog as it was. -/
def settled (t : TorrentTable) (result : Except Error TorrentTable) : TorrentTable :=
  match result with
  | .ok t' => t'
  | .error _ => t

/-! ### Lifecycle columns -/

def isDeleted (t : TorrentTable) (id : Nat) : Bool :=
  ((t.find? id).map (fun r => r.columns.deleted)).getD false

/-- `WHERE COALESCE(deleted, 0) = 0`. -/
def wantColumns (c : Columns) (want : Bool) : Columns :=
  if c.deleted then c
  else { c with wantStart := want, state := if want then .started else .stopped }

def setWantStart (t : TorrentTable) (id : Nat) (want : Bool) : Except Error TorrentTable :=
  if want && isDeleted t id then .error (.msg s!"torrent #{id} is deleted; cannot start")
  else .ok (set t id (fun r => wantColumns r.columns want))

/-- The columns of one row after both statements of `sync_state_with_want_start`. -/
def syncColumns (c : Columns) : Columns :=
  if c.deleted then c
  else if c.wantStart ∧ c.state ≠ .started ∧ c.state ≠ .checking then { c with state := .started }
  else if c.wantStart = false ∧ c.state = .started then { c with state := .stopped }
  else c

/-- Align `state` with `want_start` on every row that is not deleted. -/
def syncStateWithWantStart (t : TorrentTable) : TorrentTable where
  list := t.list.map (fun r => r.withColumns (syncColumns r.columns))
  unique := by
    rw [List.map_map]
    exact t.unique

def deletedColumns (c : Columns) (now : Int) : Columns :=
  { c with deleted := true, deletedAt := some now, wantStart := false, state := .deleted }

theorem rowwise_sync (t : TorrentTable) :
    Rowwise t (syncStateWithWantStart t) (fun r => syncColumns r.columns) := by
  intro id
  rw [Rows.find?, Rows.find?, syncStateWithWantStart, List.find?_map]
  rfl

/-- Soft-delete; a wanted torrent is refused. -/
def markDeleted (t : TorrentTable) (id : Nat) (now : Int) : Except Error TorrentTable :=
  match t.find? id with
  | none => .error (.msg s!"torrent id {id} not found")
  | some r =>
    if r.columns.deleted then .ok t
    else if r.columns.wantStart then .error (.msg s!"torrent #{id} is started")
    else .ok (set t id (fun r => deletedColumns r.columns now))

def setTorrentState (t : TorrentTable) (id : Nat) (state : TorrentState) : TorrentTable :=
  set t id (fun r => { r.columns with state := state })

/-! ### Insert, restore and removal -/

/-- A file of a `.torrent`, in torrent stream coordinates. -/
structure MetaFile where
  path : PathBuf
  size : Nat
  offset : Nat
  deriving DecidableEq, Repr

structure Metainfo where
  infohash : List UInt8
  pieceLength : Nat
  pieceCount : Nat
  totalSize : Nat
  pieces : List UInt8
  files : List MetaFile
  deriving DecidableEq, Repr

/-- One file in pieces of one byte. -/
def byteTorrent (count : Nat) : Metainfo :=
  ⟨List.replicate 20 1, 1, count, count, List.replicate (20 * count) 0, [⟨["a"], count, 0⟩]⟩

/-- What a new torrent is inserted with. -/
structure TorrentInsert where
  metainfo : Metainfo
  state : TorrentState
  wantStart : Bool
  complete : Bool
  bitfield : Option Bits
  haveCount : Nat
  dataRoot : PathBuf
  homeRoot : Option PathBuf
  uploaded : Nat
  downloaded : Nat
  filePriorities : List Int
  deriving DecidableEq, Repr

/-- `TorrentInsert::from_metainfo`: stopped, and nothing had. -/
def TorrentInsert.fromMetainfo (m : Metainfo) (dataRoot : PathBuf) : TorrentInsert where
  metainfo := m
  state := .stopped
  wantStart := false
  complete := false
  bitfield := none
  haveCount := 0
  dataRoot := dataRoot
  homeRoot := none
  uploaded := 0
  downloaded := 0
  filePriorities := []

inductive InsertOutcome where
  | inserted (id : Nat)
  | existing (id : Nat)
  | restored (id : Nat)
  deriving DecidableEq, Repr

def TorrentInsert.columns (ins : TorrentInsert) : Columns where
  state := ins.state
  wantStart := ins.wantStart
  complete := ins.complete
  deleted := false
  deletedAt := none
  bitfield := some ⟨if ins.complete && ins.bitfield.isNone then none else ins.bitfield, ins.haveCount⟩
  stats := some ⟨ins.uploaded, ins.downloaded⟩
  metaPath := some ⟨ins.dataRoot, ins.homeRoot⟩
  files := ins.metainfo.files.zipIdx.map (fun f =>
    ⟨f.1.path, f.1.size, f.1.offset, ins.filePriorities.getD f.2 1⟩)

def TorrentInsert.row (ins : TorrentInsert) (id : Nat) : Row :=
  ⟨id, ins.metainfo.infohash, ins.metainfo.pieceLength, ins.metainfo.pieceCount,
    ins.metainfo.totalSize, ins.metainfo.pieces, ins.columns⟩

/-- The row of a restored torrent: bitfield, counters and files stay, an empty root is not taken. -/
def restoredColumns (c : Columns) (ins : TorrentInsert) : Columns :=
  { c with
    deleted := false
    deletedAt := none
    wantStart := ins.wantStart
    state := if ins.wantStart then .started else if ins.state = .deleted then .stopped else ins.state
    metaPath := if ins.dataRoot.isEmpty then c.metaPath else some ⟨ins.dataRoot, ins.homeRoot⟩ }

def restoreDeleted (t : TorrentTable) (id : Nat) (ins : TorrentInsert) : TorrentTable :=
  if isDeleted t id then set t id (fun r => restoredColumns r.columns ins) else t

/-- The rowid SQLite gives to a new row. -/
def nextId (t : TorrentTable) : Nat := (t.list.map Row.id).foldr max 0 + 1

theorem le_foldr_max (ids : List Nat) (id : Nat) (member : id ∈ ids) : id ≤ ids.foldr max 0 := by
  induction ids with
  | nil => cases member
  | cons first rest ih =>
    rw [List.foldr_cons]
    rcases List.mem_cons.1 member with here | later
    · omega
    · have bound := ih later
      omega

theorem nextId_fresh (t : TorrentTable) : nextId t ∉ t.list.map Row.id := by
  intro member
  have bound := le_foldr_max _ _ member
  unfold nextId at bound
  omega

theorem row_fresh (t : TorrentTable) (ins : TorrentInsert) :
    (ins.row (nextId t)).id ∉ t.list.map Row.id := nextId_fresh t

def insertTorrent (t : TorrentTable) (ins : TorrentInsert) : TorrentTable × InsertOutcome :=
  match t.list.find? (fun r => r.infohash = ins.metainfo.infohash) with
  | some r =>
    if isDeleted t r.id then (restoreDeleted t r.id ins, .restored r.id) else (t, .existing r.id)
  | none => (t.append (ins.row (nextId t)) (row_fresh t ins), .inserted (nextId t))

theorem rowwise_restoreDeleted (t : TorrentTable) (id : Nat) (ins : TorrentInsert) :
    Rowwise t (restoreDeleted t id ins) (fun r =>
      if r.id = id ∧ r.columns.deleted = true then restoredColumns r.columns ins else r.columns) := by
  intro j
  rw [restoreDeleted]
  cases found : t.find? j with
  | none =>
    split_ifs
    · rw [find?_set, found]
      split_ifs <;> rfl
    · rw [found]
      rfl
  | some r =>
    have keyed := Rows.find?_key t j r found
    by_cases named : j = id
    · have flag : isDeleted t id = r.columns.deleted := by
        rw [isDeleted, ← named, found]
        rfl
      simp only [flag, Option.map_some, keyed, named, true_and]
      split_ifs
      · rw [find?_set, if_pos rfl, ← named, found]
        rfl
      · rw [← named, found]
        rfl
    · simp only [Option.map_some, keyed, named, false_and, if_false]
      split_ifs
      · rw [find?_set, if_neg named, found]
        rfl
      · rw [found]
        rfl

/-- An insert keeps a property of the rows that a restore keeps on the row of its infohash and that
the new row has. -/
theorem forall_insertTorrent_infohash (t : TorrentTable) (ins : TorrentInsert) (P : Row → Prop)
    (before : ∀ r ∈ t.list, P r)
    (restored : ∀ r ∈ t.list, r.infohash = ins.metainfo.infohash → r.columns.deleted = true → P r →
      P (r.withColumns (restoredColumns r.columns ins)))
    (added : (∀ r ∈ t.list, r.infohash ≠ ins.metainfo.infohash) → P (ins.row (nextId t))) :
    ∀ r ∈ (insertTorrent t ins).1.list, P r := by
  rw [insertTorrent]
  cases found : t.list.find? (fun r => r.infohash = ins.metainfo.infohash) with
  | none =>
    apply Rows.forall_append t (ins.row (nextId t)) (row_fresh t ins) P before
    apply added
    intro r member
    simpa using List.find?_eq_none.1 found r member
  | some r =>
    have hash : r.infohash = ins.metainfo.infohash := by simpa using List.find?_some found
    simp only
    split_ifs
    · apply (rowwise_restoreDeleted t r.id ins).forall P before
      intro other listed holds
      split_ifs with named
      · have same := List.inj_on_of_nodup_map t.unique listed (List.mem_of_find?_eq_some found) named.1
        exact restored other listed (same ▸ hash) named.2 holds
      · exact holds
    · exact before

/-- An insert keeps a property of the rows that a restore keeps and that the new row has. -/
theorem forall_insertTorrent (t : TorrentTable) (ins : TorrentInsert) (P : Row → Prop)
    (before : ∀ r ∈ t.list, P r)
    (restored : ∀ r ∈ t.list, r.columns.deleted = true → P r →
      P (r.withColumns (restoredColumns r.columns ins)))
    (added : (∀ r ∈ t.list, r.infohash ≠ ins.metainfo.infohash) → P (ins.row (nextId t))) :
    ∀ r ∈ (insertTorrent t ins).1.list, P r :=
  forall_insertTorrent_infohash t ins P before
    (fun r listed _ deleted holds => restored r listed deleted holds) added

theorem extends_insertTorrent (t : TorrentTable) (ins : TorrentInsert) :
    Extends t (insertTorrent t ins).1 := by
  rw [insertTorrent]
  cases found : t.list.find? (fun r => r.infohash = ins.metainfo.infohash) with
  | none =>
    intro id r present
    refine ⟨r, ?_, rfl⟩
    have other : id ≠ (ins.row (nextId t)).id := by
      rintro rfl
      rw [(Rows.find?_eq_none t _).2 (row_fresh t ins)] at present
      cases present
    show (t.append (ins.row (nextId t)) (row_fresh t ins)).find? id = some r
    rw [Rows.find?_append, if_neg other, present]
  | some r =>
    simp only
    split_ifs
    · exact (rowwise_restoreDeleted t r.id ins).extends
    · exact (rowwise_refl t).extends

/-- The row after `update_import_meta` and `set_file_priorities`: totals are never lowered, and a
torrent without priorities of its own keeps the stored ones. -/
def importMetaColumns (c : Columns) (ins : TorrentInsert) : Columns :=
  let stats := c.stats.getD ⟨0, 0⟩
  { c with
    stats := some ⟨max stats.uploaded ins.uploaded, max stats.downloaded ins.downloaded⟩
    files := c.files.zipIdx.map (fun f =>
      { f.1 with priority := ins.filePriorities.getD f.2 f.1.priority }) }

/-- Delete the row and, by cascade, its side tables. -/
def removeTorrent (t : TorrentTable) (id : Nat) : Except Error TorrentTable :=
  match t.find? id with
  | none => .error (.msg s!"torrent id {id} not found")
  | some r =>
    if r.columns.wantStart then .error (.msg s!"torrent #{id} is started") else .ok (t.delete id)

/-- The ids that `purge_soft_deleted` selects. -/
def purgeable (t : TorrentTable) (cutoff : Int) : List Nat :=
  (t.list.filter (fun r => r.columns.deleted && r.columns.deletedAt.any (· ≤ cutoff))).map Row.id

/-- Each removal is its own statement: an error keeps what was removed before it. -/
def removeAll (t : TorrentTable) : List Nat → TorrentTable × Except Error Unit
  | [] => (t, .ok ())
  | id :: rest =>
    match removeTorrent t id with
    | .error problem => (t, .error problem)
    | .ok t' => removeAll t' rest

def purgeSoftDeleted (t : TorrentTable) (days : Nat) (now : Int) : TorrentTable × Except Error Unit :=
  if days = 0 then (t, .ok ()) else removeAll t (purgeable t (now - days * 86400))

/-! ### Storage audit -/

/-- HAVE cleared and the torrent stopped. -/
def demotedColumns (c : Columns) : Columns :=
  { c with bitfield := some ⟨none, 0⟩, complete := false, wantStart := false, state := .stopped }

/-- Nothing changes on disk. -/
def markIncompleteStorageProblem (t : TorrentTable) (id : Nat) : TorrentTable :=
  set t id (fun r => demotedColumns r.columns)

/-- The torrents the audit stats: complete and not deleted. -/
def auditedIds (t : TorrentTable) : List Nat :=
  (t.list.filter (fun r => r.columns.complete && !r.columns.deleted)).map Row.id

/-- Demote every complete torrent whose files are not there; `problem` is what `stat` found. -/
def auditCompleteStorage (t : TorrentTable) (problem : Nat → Bool) : TorrentTable :=
  ((auditedIds t).filter problem).foldl markIncompleteStorageProblem t

theorem find?_foldl_demoted (t : TorrentTable) (ids : List Nat) (j : Nat) :
    (ids.foldl markIncompleteStorageProblem t).find? j =
      if j ∈ ids then (t.find? j).map (fun r => r.withColumns (demotedColumns r.columns))
      else t.find? j := by
  induction ids generalizing t with
  | nil => simp
  | cons first rest ih =>
    rw [List.foldl_cons, ih, markIncompleteStorageProblem, find?_set]
    simp only [List.mem_cons]
    by_cases here : j = first
    · simp only [if_pos here, if_pos (Or.inl here), Option.map_map]
      split_ifs
      · rfl
      · rfl
    · simp only [here, false_or, if_false]

theorem mem_auditedIds (t : TorrentTable) (r : Row) (member : r ∈ t.list) :
    r.id ∈ auditedIds t ↔ r.columns.complete = true ∧ r.columns.deleted = false := by
  simp only [auditedIds, List.mem_map, List.mem_filter, Bool.and_eq_true, Bool.not_eq_true']
  constructor
  · rintro ⟨other, ⟨listed, audited⟩, named⟩
    rw [← List.inj_on_of_nodup_map t.unique listed member named]
    exact audited
  · intro audited
    exact ⟨r, ⟨member, audited⟩, rfl⟩

/-- The rows that the audit finds in trouble are demoted, the others stay. -/
theorem rowwise_auditCompleteStorage (t : TorrentTable) (problem : Nat → Bool) :
    Rowwise t (auditCompleteStorage t problem) (fun r =>
      if r.columns.complete = true ∧ r.columns.deleted = false ∧ problem r.id = true then
        demotedColumns r.columns
      else r.columns) := by
  intro id
  rw [auditCompleteStorage, find?_foldl_demoted]
  cases found : t.find? id with
  | none => split_ifs <;> rfl
  | some r =>
    have audited := mem_auditedIds t r (Rows.find?_mem t id r found)
    rw [Rows.find?_key t id r found] at audited
    simp only [List.mem_filter, audited, Option.map_some, Rows.find?_key t id r found, and_assoc]
    split_ifs
    · rfl
    · rfl

/-! ### Recheck -/

structure RecheckPrepared where
  layout : StorageLayout
  hashes : List UInt8
  pieceCount : Nat
  deriving DecidableEq, Repr

def prepareRecheck (t : TorrentTable) (id : Nat) : Except Error (TorrentTable × RecheckPrepared) :=
  match t.find? id with
  | none => .error noRows
  | some r =>
    match r.loadStorageLayout with
    | .error problem => .error problem
    | .ok layout =>
      if r.pieceHashes.length ≠ layout.pieceCount * 20 then
        .error (.msg s!"piece hash blob size {r.pieceHashes.length} != piece_count {layout.pieceCount} * 20")
      else .ok (setTorrentState t id .checking, ⟨layout, r.pieceHashes, layout.pieceCount⟩)

/-! ### Lifetime counters -/

def statsUploaded (t : TorrentTable) (id : Nat) : Nat :=
  (((t.find? id).bind (fun r => r.columns.stats)).map Stats.uploaded).getD 0

/-- `INSERT OR IGNORE` of an empty row, then `MAX(uploaded, ?)`. -/
def raisedStats (stats : Option Stats) (uploaded : Nat) : Stats :=
  let row := stats.getD ⟨0, 0⟩
  { row with uploaded := max row.uploaded uploaded }

/-- The foreign key of `stats` fails for a torrent that is gone, and the transaction with it. -/
def setUploadedBatch (t : TorrentTable) : List (Nat × Nat) → Except Error TorrentTable
  | [] => .ok t
  | (id, uploaded) :: rest =>
    match t.find? id with
    | none => .error foreignKey
    | some _ =>
      setUploadedBatch (set t id (fun r =>
        { r.columns with stats := some (raisedStats r.columns.stats uploaded) })) rest

def setUploadedAtLeast (t : TorrentTable) (id uploaded : Nat) : Except Error TorrentTable :=
  setUploadedBatch t [(id, uploaded)]

end Seedchamp.Catalog.Table
