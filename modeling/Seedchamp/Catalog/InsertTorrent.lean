import Seedchamp.Catalog.Table
import Seedchamp.Foundation.GuardedTransactions

/-!
Insertion of a torrent table by table: a new torrent goes in within one transaction, and one that was
deleted is restored by statements that each commit by themselves.
-/

namespace Seedchamp.Catalog.InsertTorrent
open Foundation.Transactions Foundation.GuardedTransactions

abbrev Bytes := List UInt8

/-! ### Tables -/

structure TorrentRow where
  id : Nat
  infohash : Bytes
  name : String
  pieceLength : Nat
  pieceCount : Nat
  totalSize : Int64
  state : String
  wantStart : Bool
  complete : Bool
  priv : Bool
  deleted : Bool
  deletedAt : Option Int
  trackerKey : Nat
  createdAt : Int
  errorMsg : Option String
  deriving DecidableEq

structure FileRow where
  torrentId : Nat
  idx : Nat
  path : String
  size : Int64
  offset : Int64
  priority : Int
  deriving DecidableEq

structure BitfieldRow where
  torrentId : Nat
  bits : Option Bytes
  haveCount : Nat
  deriving DecidableEq

structure StatsRow where
  torrentId : Nat
  uploaded : Int64
  downloaded : Int64
  corrupted : Int64
  activeTime : Int64
  finishedAt : Option Int
  deriving DecidableEq

structure TrackerRow where
  torrentId : Nat
  url : String
  tier : Nat
  enabled : Bool
  deriving DecidableEq

structure MetaPathRow where
  torrentId : Nat
  dataRoot : String
  homeRoot : Option String
  sourceTorrent : Option String
  deriving DecidableEq

structure Tables where
  torrents : List TorrentRow
  files : List FileRow
  pieceHashes : List (Nat × Bytes)
  bitfields : List BitfieldRow
  stats : List StatsRow
  trackers : List TrackerRow
  metaPaths : List MetaPathRow
  metainfos : List (Nat × Bytes)
  deriving DecidableEq

/-! ### What is inserted -/

structure TorrentFile where
  path : String
  size : Nat
  offset : Nat

structure Metainfo where
  infohash : Bytes
  name : String
  pieceLength : Nat
  pieceCount : Nat
  totalSize : Nat
  pieces : Bytes
  files : List TorrentFile
  priv : Bool
  trackers : List (Nat × String)

structure TorrentInsert where
  metainfo : Metainfo
  state : String
  wantStart : Bool
  complete : Bool
  bitfield : Option Bytes
  haveCount : Nat
  dataRoot : String
  homeRoot : Option String
  sourceTorrent : Option String
  uploaded : Nat
  downloaded : Nat
  finishedAt : Option Int
  createdAt : Option Int
  filePriorities : List Int
  metainfoBlob : Option Bytes
  trackerKey : Option Nat

inductive InsertOutcome where
  | inserted (id : Nat)
  | existing (id : Nat)
  | restored (id : Nat)
  deriving DecidableEq

inductive Error where
  | database
  | constraint
  deriving DecidableEq

/-! ### Statements -/

abbrev Sql (α : Type) := Run Tables Error α

/-- `SELECT id FROM torrent WHERE infohash = ?1`. -/
def selectId (infohash : Bytes) (db : Tables) : Except Error (Option Nat × Tables) :=
  .ok ((db.torrents.find? (fun r => r.infohash = infohash)).map TorrentRow.id, db)

/-- `SELECT COALESCE(deleted, 0) FROM torrent WHERE id = ?1`. -/
def selectDeleted (id : Nat) (db : Tables) : Except Error (Bool × Tables) :=
  .ok ((db.torrents.find? (fun r => r.id = id)).any TorrentRow.deleted, db)

/-- `UPDATE torrent SET deleted = 0, …`. -/
def updateTorrent (id : Nat) (wantStart : Bool) (state : String) (db : Tables) : Except Error (Unit × Tables) :=
  .ok ((), { db with torrents := db.torrents.map (fun r =>
    if r.id = id then
      { r with deleted := false, deletedAt := none, wantStart := wantStart, state := state, errorMsg := none }
    else r) })

/-- `UPDATE meta_path SET …`, with the number of changed rows. -/
def updateMetaPath (id : Nat) (ins : TorrentInsert) (db : Tables) : Except Error (Nat × Tables) :=
  .ok ((db.metaPaths.filter (fun r => r.torrentId = id)).length,
    { db with metaPaths := db.metaPaths.map (fun r =>
      if r.torrentId = id then
        { r with
          dataRoot := ins.dataRoot
          homeRoot := ins.homeRoot
          sourceTorrent := ins.sourceTorrent.or r.sourceTorrent }
      else r) })

/-- `INSERT OR IGNORE INTO meta_path`. -/
def insertMetaPathOrIgnore (id : Nat) (ins : TorrentInsert) (db : Tables) : Except Error (Unit × Tables) :=
  .ok ((), if db.metaPaths.any (fun r => r.torrentId = id) then db
    else { db with metaPaths := db.metaPaths ++ [⟨id, ins.dataRoot, ins.homeRoot, ins.sourceTorrent⟩] })

/-- `INSERT INTO torrent_metainfo … ON CONFLICT(torrent_id) DO UPDATE`. -/
def upsertMetainfo (id : Nat) (blob : Bytes) (db : Tables) : Except Error (Unit × Tables) :=
  .ok ((), { db with metainfos :=
    if db.metainfos.any (fun r => r.1 = id) then db.metainfos.map (fun r => if r.1 = id then (id, blob) else r)
    else db.metainfos ++ [(id, blob)] })

/-- The rowid of a new row. -/
def nextId (db : Tables) : Nat := (db.torrents.map TorrentRow.id).foldr max 0 + 1

def insertRow (ins : TorrentInsert) (trackerKey : Nat) (created : Int) (db : Tables) : Except Error (Nat × Tables) :=
  let m := ins.metainfo
  if db.torrents.any (fun r => r.infohash = m.infohash) then .error .constraint
  else .ok (nextId db, { db with torrents := db.torrents ++ [⟨nextId db, m.infohash, m.name, m.pieceLength, m.pieceCount,
    .ofNat m.totalSize, ins.state, ins.wantStart, ins.complete, m.priv, false, none, trackerKey, created, none⟩] })

def insertFile (id : Nat) (ins : TorrentInsert) (file : TorrentFile × Nat) (db : Tables) :
    Except Error (Unit × Tables) :=
  if db.files.any (fun r => r.torrentId = id && r.idx = file.2) then .error .constraint
  else .ok ((), { db with files := db.files ++ [⟨id, file.2, file.1.path, .ofNat file.1.size, .ofNat file.1.offset,
    (ins.filePriorities[file.2]?).getD 1⟩] })

def insertHashes (id : Nat) (hashes : Bytes) (db : Tables) : Except Error (Unit × Tables) :=
  if db.pieceHashes.any (fun r => r.1 = id) then .error .constraint
  else .ok ((), { db with pieceHashes := db.pieceHashes ++ [(id, hashes)] })

def insertBitfield (row : BitfieldRow) (db : Tables) : Except Error (Unit × Tables) :=
  if db.bitfields.any (fun r => r.torrentId = row.torrentId) then .error .constraint
  else .ok ((), { db with bitfields := db.bitfields ++ [row] })

def insertStats (row : StatsRow) (db : Tables) : Except Error (Unit × Tables) :=
  if db.stats.any (fun r => r.torrentId = row.torrentId) then .error .constraint
  else .ok ((), { db with stats := db.stats ++ [row] })

def insertTracker (row : TrackerRow) (db : Tables) : Except Error (Unit × Tables) :=
  .ok ((), { db with trackers := db.trackers ++ [row] })

def insertMetaPath (row : MetaPathRow) (db : Tables) : Except Error (Unit × Tables) :=
  if db.metaPaths.any (fun r => r.torrentId = row.torrentId) then .error .constraint
  else .ok ((), { db with metaPaths := db.metaPaths ++ [row] })

def insertMetainfo (id : Nat) (blob : Bytes) (db : Tables) : Except Error (Unit × Tables) :=
  if db.metainfos.any (fun r => r.1 = id) then .error .constraint
  else .ok ((), { db with metainfos := db.metainfos ++ [(id, blob)] })

/-! ### The calls -/

section
variable (site : Option Site)

def whenever (holds : Bool) (x : Sql Unit) : Sql Unit := if holds then x else pure ()

/-- The blob where there is one and it is not empty. -/
def TorrentInsert.blob (ins : TorrentInsert) : Option Bytes := ins.metainfoBlob.filter (fun blob => !blob.isEmpty)

def restorePaths (id : Nat) (ins : TorrentInsert) : Sql Unit :=
  whenever (ins.dataRoot ≠ "") do
    let changes ← statement site .database (updateMetaPath id ins)
    whenever (changes = 0) (statement site .database (insertMetaPathOrIgnore id ins))

def restoreBlob (id : Nat) (ins : TorrentInsert) : Sql Unit :=
  match ins.blob with
  | some blob => statement site .database (upsertMetainfo id blob)
  | none => pure ()

def restoredState (ins : TorrentInsert) : String :=
  if ins.wantStart then "started" else if ins.state = "deleted" ∨ ins.state = "" then "stopped" else ins.state

def restoreDeleted (id : Nat) (ins : TorrentInsert) : Sql Unit := do
  let deleted ← statement site .database (selectDeleted id)
  whenever deleted do
    statement site .database (updateTorrent id ins.wantStart (restoredState ins))
    restorePaths site id ins
    restoreBlob site id ins

def insertBlob (id : Nat) (ins : TorrentInsert) : Sql Unit :=
  match ins.blob with
  | some blob => statement site .database (insertMetainfo id blob)
  | none => pure ()

/-- The statements for a new torrent, the clock and the random key read before. -/
def insertNew (ins : TorrentInsert) (now : Int) (key : Nat) : Sql InsertOutcome := do
  let m := ins.metainfo
  let created := (ins.createdAt.filter (fun t => 0 < t)).getD now
  let id ← statement site .database (insertRow ins ((ins.trackerKey.filter (fun k => k ≠ 0)).getD key) created)
  m.files.zipIdx.forM (fun file => statement site .database (insertFile id ins file))
  statement site .database (insertHashes id m.pieces)
  statement site .database (insertBitfield
    ⟨id, if ins.complete && ins.bitfield.isNone then none else ins.bitfield, ins.haveCount⟩)
  statement site .database (insertStats ⟨id, .ofNat ins.uploaded, .ofNat ins.downloaded, 0, 0, ins.finishedAt⟩)
  m.trackers.forM (fun tracker => statement site .database (insertTracker ⟨id, tracker.2, tracker.1, true⟩))
  statement site .database (insertMetaPath ⟨id, ins.dataRoot, ins.homeRoot, ins.sourceTorrent⟩)
  insertBlob site id ins
  pure (.inserted id)

def insertTorrent (ins : TorrentInsert) (now : Int) (key : Nat) : Sql InsertOutcome := do
  let found ← statement site .database (selectId ins.metainfo.infohash)
  match found with
  | some id =>
    let deleted ← statement site .database (selectDeleted id)
    if deleted then
      restoreDeleted site id ins
      pure (.restored id)
    else pure (.existing id)
  | none => guarded site .database (insertNew site ins now key)

/-! ### New torrents -/

theorem inside_insertNew (ins : TorrentInsert) (now : Int) (key : Nat) : Inside (insertNew site ins now key) := by
  refine inside_bind _ _ (inside_statement site _ _) (fun id => ?_)
  refine inside_bind _ _ (inside_forM _ _ (fun _ _ => inside_statement site _ _)) (fun _ => ?_)
  refine inside_bind _ _ (inside_statement site _ _) (fun _ => ?_)
  refine inside_bind _ _ (inside_statement site _ _) (fun _ => ?_)
  refine inside_bind _ _ (inside_statement site _ _) (fun _ => ?_)
  refine inside_bind _ _ (inside_forM _ _ (fun _ _ => inside_statement site _ _)) (fun _ => ?_)
  refine inside_bind _ _ (inside_statement site _ _) (fun _ => ?_)
  refine inside_bind _ _ ?_ (fun _ => inside_pure _)
  unfold insertBlob
  cases ins.blob with
  | none => exact inside_pure ()
  | some blob => exact inside_statement site _ _

/-! ### Restored torrents -/

/-- How many statements write the paths and the metainfo of a restored torrent. -/
def pathStatements (db : Tables) (id : Nat) (ins : TorrentInsert) : Nat :=
  if ins.dataRoot = "" then 0 else if db.metaPaths.any (fun r => r.torrentId = id) then 1 else 2

def blobStatements (ins : TorrentInsert) : Nat := if ins.blob.isSome then 1 else 0

theorem updated_zero (db : Tables) (id : Nat) :
    (db.metaPaths.filter (fun r => r.torrentId = id)).length = 0 ↔
      db.metaPaths.any (fun r => r.torrentId = id) = false := by
  rw [List.length_eq_zero_iff, List.filter_eq_nil_iff, List.any_eq_false]

section
variable (id : Nat) (ins : TorrentInsert) (db : Tables) (Left : Nat → Tables → Prop)
  (left : ∀ i db', db'.torrents = db.torrents → Left i db')
include left

theorem alone_restorePaths : ∃ db', db'.torrents = db.torrents ∧
    Alone site (restorePaths site id ins) db (pathStatements db id ins) () db' Left := by
  rw [restorePaths, pathStatements]
  by_cases rootless : ins.dataRoot = ""
  · rw [if_pos rootless, whenever, if_neg (by rw [decide_eq_true_eq]; exact fun other => other rootless)]
    exact ⟨db, rfl, alone_pure site db () Left⟩
  · rw [if_neg rootless, whenever, if_pos (decide_eq_true rootless)]
    obtain ⟨changes, db', ran, kept, counted⟩ : ∃ changes db', updateMetaPath id ins db = .ok (changes, db') ∧
        db'.torrents = db.torrents ∧ (changes = 0 ↔ db.metaPaths.any (fun r => r.torrentId = id) = false) :=
      ⟨_, _, rfl, rfl, updated_zero db id⟩
    have first := alone_statement site .database (updateMetaPath id ins) db db' changes ran Left (left 0 db rfl)
    by_cases pathed : db.metaPaths.any (fun r => r.torrentId = id) = true
    · have unchanged : changes ≠ 0 := fun none => absurd (counted.1 none) (by rw [pathed]; decide)
      have second : Alone site (whenever (decide (changes = 0)) (statement site .database
          (insertMetaPathOrIgnore id ins))) db' 0 () db' (fun i => Left (1 + i)) := by
        rw [whenever, if_neg (by rw [decide_eq_true_eq]; exact unchanged)]
        exact alone_pure site db' () _
      rw [if_pos pathed]
      exact ⟨db', kept, alone_bind site _ _ db db' db' 1 0 changes () Left first second⟩
    · have missing := counted.2 (Bool.eq_false_iff.2 pathed)
      obtain ⟨db'', ran', kept'⟩ : ∃ db'', insertMetaPathOrIgnore id ins db' = .ok ((), db'') ∧
          db''.torrents = db'.torrents := by
        refine ⟨_, rfl, ?_⟩
        split_ifs <;> rfl
      have second : Alone site (whenever (decide (changes = 0)) (statement site .database
          (insertMetaPathOrIgnore id ins))) db' 1 () db'' (fun i => Left (1 + i)) := by
        rw [whenever, if_pos (decide_eq_true missing)]
        exact alone_statement site .database _ db' db'' () ran' (fun i => Left (1 + i)) (left _ db' kept)
      rw [if_neg pathed]
      exact ⟨db'', kept'.trans kept, alone_bind site _ _ db db' db'' 1 1 changes () Left first second⟩

theorem alone_restoreBlob : ∃ db', db'.torrents = db.torrents ∧
    Alone site (restoreBlob site id ins) db (blobStatements ins) () db' Left := by
  rw [restoreBlob, blobStatements]
  cases ins.blob with
  | none => exact ⟨db, rfl, alone_pure site db () Left⟩
  | some blob =>
    obtain ⟨db', ran, kept⟩ : ∃ db', upsertMetainfo id blob db = .ok ((), db') ∧ db'.torrents = db.torrents :=
      ⟨_, rfl, rfl⟩
    exact ⟨db', kept, alone_statement site .database _ db db' () ran Left (left 0 db rfl)⟩

end

/-- After the update of the torrent's row. -/
theorem alone_later (id : Nat) (ins : TorrentInsert) (db : Tables) (Left : Nat → Tables → Prop)
    (left : ∀ i db', db'.torrents = db.torrents → Left i db') :
    ∃ db', Alone site (do restorePaths site id ins; restoreBlob site id ins : Sql Unit) db
      (pathStatements db id ins + blobStatements ins) () db' Left := by
  obtain ⟨db', kept, first⟩ := alone_restorePaths site id ins db Left left
  obtain ⟨db'', -, second⟩ := alone_restoreBlob site id ins db' (fun i => Left (pathStatements db id ins + i))
    (fun i other same => left _ other (same.trans kept))
  exact ⟨db'', alone_bind site _ _ db db' db'' _ _ () () Left first second⟩

/-- What `SELECT` finds for an infohash, and the flag of a row. -/
def lookup (db : Tables) (infohash : Bytes) : Option Nat :=
  (db.torrents.find? (fun r => r.infohash = infohash)).map TorrentRow.id

def isDeleted (db : Tables) (id : Nat) : Bool := (db.torrents.find? (fun r => r.id = id)).any TorrentRow.deleted

theorem updateTorrent_changes (db db' : Tables) (id : Nat) (wantStart : Bool) (state : String)
    (deleted : isDeleted db id = true) (ran : updateTorrent id wantStart state db = .ok ((), db')) :
    db'.torrents ≠ db.torrents := by
  obtain ⟨r, found, gone⟩ := (Option.any_eq_true _ _).1 deleted
  have passes := List.find?_some found
  have named : r.id = id := of_decide_eq_true passes
  have member := List.mem_of_find?_eq_some found
  intro same
  cases ran
  have fixed := List.map_inj_left.1 (same.trans (List.map_id db.torrents).symm) r member
  rw [if_pos named, id_eq] at fixed
  have flag := congrArg TorrentRow.deleted fixed
  rw [gone] at flag
  cases flag

/-- What an error leaves of the catalog at the `i`-th statement of a restoration. -/
def Left (db : Tables) (i : Nat) (left : Tables) : Prop := if i < 4 then left = db else left.torrents ≠ db.torrents

theorem left_early (db : Tables) (i : Nat) (early : i < 4) : Left db i db := (if_pos early).mpr rfl

/-- Three reads, the update of the torrent's row, and the statements after it. -/
theorem alone_restored (ins : TorrentInsert) (now : Int) (key : Nat) (db : Tables) (id : Nat)
    (found : lookup db ins.metainfo.infohash = some id) (deleted : isDeleted db id = true) :
    ∃ db', Alone site (insertTorrent site ins now key) db (4 + (pathStatements db id ins + blobStatements ins))
      (.restored id) db' (Left db) := by
  obtain ⟨db₁, ran, paths⟩ : ∃ db₁, updateTorrent id ins.wantStart (restoredState ins) db = .ok ((), db₁) ∧
      db₁.metaPaths = db.metaPaths := ⟨_, rfl, rfl⟩
  have changed := updateTorrent_changes db db₁ id ins.wantStart _ deleted ran
  obtain ⟨db₂, later⟩ := alone_later site id ins db₁ (fun i => Left db (3 + (1 + i))) (by
    intro i other same
    rw [Left, if_neg (by omega), same]
    exact changed)
  have pathed : pathStatements db₁ id ins = pathStatements db id ins := by rw [pathStatements, paths, pathStatements]
  rw [pathed] at later
  have asked : selectDeleted id db = .ok (true, db) := by
    rw [← deleted]
    rfl
  have selected : selectId ins.metainfo.infohash db = .ok (some id, db) := by
    rw [← found]
    rfl
  have shifted : ∀ k, (fun i => Left db (k + (1 + i))) = fun i => Left db (k + 1 + i) := by
    intro k
    funext i
    rw [Nat.add_assoc]
  have updated := alone_bind site _ (fun _ => (do restorePaths site id ins; restoreBlob site id ins : Sql Unit))
    db db₁ db₂ 1 _ () () (fun i => Left db (3 + i))
    (alone_statement site .database _ db db₁ () ran _ (left_early db 3 (by decide))) later
  rw [← shifted 2] at updated
  have restored : Alone site (restoreDeleted site id ins) db _ () db₂ (fun i => Left db (2 + i)) :=
    alone_bind site _ _ db db db₂ 1 _ true () (fun i => Left db (2 + i))
      (alone_statement site .database _ db db true asked _ (left_early db 2 (by decide))) updated
  have answered := alone_bind site _ (fun _ => (pure (.restored id) : Sql InsertOutcome)) db db₂ db₂ _ 0 () _
    (fun i => Left db (2 + i)) restored (alone_pure site db₂ _ _)
  rw [← shifted 1] at answered
  have flagged := alone_bind site _ (fun deleted => if deleted then (do
      restoreDeleted site id ins
      pure (.restored id) : Sql InsertOutcome) else pure (.existing id)) db db db₂ 1 _ true _ (fun i => Left db (1 + i))
    (alone_statement site .database _ db db true asked _ (left_early db 1 (by decide))) answered
  have whole : Alone site (insertTorrent site ins now key) db _ (.restored id) db₂ (Left db) :=
    alone_bind site _ _ db db db₂ 1 _ (some id) _ (Left db)
      (alone_statement site .database _ db db _ selected _ (left_early db 0 (by decide))) flagged
  rw [show 1 + (1 + (1 + (1 + (pathStatements db id ins + blobStatements ins)) + 0)) =
    4 + (pathStatements db id ins + blobStatements ins) by omega] at whole
  exact ⟨db₂, whole⟩

/-- Two reads. -/
theorem alone_existing (ins : TorrentInsert) (now : Int) (key : Nat) (db : Tables) (id : Nat)
    (found : lookup db ins.metainfo.infohash = some id) (kept : isDeleted db id = false) :
    Alone site (insertTorrent site ins now key) db 2 (.existing id) db (fun _ left => left = db) := by
  have asked : selectDeleted id db = .ok (false, db) := by
    rw [← kept]
    rfl
  have selected : selectId ins.metainfo.infohash db = .ok (some id, db) := by
    rw [← found]
    rfl
  have flagged := alone_bind site _ (fun deleted => if deleted then (do
      restoreDeleted site id ins
      pure (.restored id) : Sql InsertOutcome) else pure (.existing id)) db db db 1 0 false (.existing id)
    (fun _ left => left = db) (alone_statement site .database _ db db false asked _ rfl) (alone_pure site db _ _)
  exact alone_bind site _ _ db db db 1 1 (some id) _ _ (alone_statement site .database _ db db _ selected _ rfl) flagged

/-! ### The table of whole rows -/

/-- The torrents here are those of the table that keeps each torrent's columns in one row. -/
def Lists (db : Tables) (t : Table.TorrentTable) : Prop :=
  db.torrents.map (fun r => (r.id, r.infohash, r.deleted)) =
    t.list.map (fun r => (r.id, r.infohash, r.columns.deleted))

section
variable (db : Tables) (t : Table.TorrentTable) (lists : Lists db t)
include lists

theorem nextId_lists : nextId db = Table.nextId t := by
  have ids := congrArg (List.map Prod.fst) lists
  rw [List.map_map, List.map_map] at ids
  exact congrArg (fun ids => ids.foldr max 0 + 1) ids

theorem find?_lists (p : Nat × Bytes × Bool → Bool) :
    (db.torrents.find? (fun r => p (r.id, r.infohash, r.deleted))).map (fun r => (r.id, r.infohash, r.deleted)) =
      (t.list.find? (fun r => p (r.id, r.infohash, r.columns.deleted))).map
        (fun r => (r.id, r.infohash, r.columns.deleted)) := by
  have found := congrArg (List.find? p) lists
  rw [List.find?_map, List.find?_map] at found
  exact found

theorem isDeleted_lists (id : Nat) : isDeleted db id = Table.isDeleted t id := by
  have found := congrArg (Option.any (fun k => k.2.2)) (find?_lists db t lists (fun k => k.1 = id))
  rw [Option.any_map, Option.any_map] at found
  rw [isDeleted, Table.isDeleted, Foundation.KeyedRows.Rows.find?]
  refine found.trans ?_
  cases t.list.find? (fun r => r.id = id) <;> rfl

/-- Where no statement fails, a torrent that is known is left or restored as in that table; a new one gets
the id it gets there. -/
theorem insertTorrent_lists (ins : TorrentInsert) (ins' : Table.TorrentInsert)
    (same : ins.metainfo.infohash = ins'.metainfo.infohash) (now : Int) (key : Nat) :
    (lookup db ins.metainfo.infohash = none → (Table.insertTorrent t ins').2 = .inserted (nextId db)) ∧
    ∀ id, lookup db ins.metainfo.infohash = some id →
      (isDeleted db id = false ∧ (Table.insertTorrent t ins').2 = .existing id ∧
        (insertTorrent none ins now key ⟨db, none, 0⟩).1 = .ok (.existing id)) ∨
      (isDeleted db id = true ∧ (Table.insertTorrent t ins').2 = .restored id ∧
        (insertTorrent none ins now key ⟨db, none, 0⟩).1 = .ok (.restored id)) := by
  have found := congrArg (Option.map Prod.fst)
    (find?_lists db t lists (fun k => k.2.1 = ins.metainfo.infohash))
  rw [Option.map_map, Option.map_map] at found
  have spared : ∀ k, ¬Hit none k := by
    rintro k (clash | clash) <;> cases clash
  rw [Table.insertTorrent, ← same]
  cases listed : t.list.find? (fun r => r.infohash = ins.metainfo.infohash) with
  | none =>
    have unknown : lookup db ins.metainfo.infohash = none := found.trans (congrArg (Option.map _) listed)
    rw [unknown, nextId_lists db t lists]
    exact ⟨fun _ => rfl, fun id clash => (by cases clash)⟩
  | some r =>
    have known : lookup db ins.metainfo.infohash = some r.id := found.trans (congrArg (Option.map _) listed)
    rw [known]
    refine ⟨fun clash => (by cases clash), ?_⟩
    rintro id ⟨⟩
    have flag := isDeleted_lists db t lists r.id
    dsimp only
    cases deleted : isDeleted db r.id with
    | false =>
      rw [if_neg (by rw [← flag, deleted]; exact Bool.false_ne_true)]
      have ran := (alone_existing none ins now key db r.id known deleted 0).2 (fun i _ => spared _)
      exact Or.inl ⟨rfl, rfl, congrArg Prod.fst ran⟩
    | true =>
      rw [if_pos (flag.symm.trans deleted)]
      obtain ⟨db', run⟩ := alone_restored none ins now key db r.id known deleted
      exact Or.inr ⟨rfl, rfl, congrArg Prod.fst ((run 0).2 (fun i _ => spared _))⟩

end

/-! ### Atomic insertion -/

/-- Where the call fails, the catalog is exactly what it was, and no transaction is left open. -/
def Atomic (db : Tables) (ins : TorrentInsert) (now : Int) (key : Nat) : Prop :=
  ∀ e c, insertTorrent site ins now key ⟨db, none, 0⟩ = (.error e, c) → c.committed = db ∧ c.working = none

/-- A deleted torrent is to be restored, and one of the statements after the update of its row meets an
error: the fifth statement of the call is the first of them. -/
def Interrupted (db : Tables) (ins : TorrentInsert) : Prop :=
  ∃ id, lookup db ins.metainfo.infohash = some id ∧ isDeleted db id = true ∧
    ∃ k, Hit site k ∧ 4 ≤ k ∧ k < 4 + (pathStatements db id ins + blobStatements ins)

theorem not_atomic_of_interrupted (db : Tables) (ins : TorrentInsert) (now : Int) (key : Nat)
    (interrupted : Interrupted site db ins) : ¬Atomic site db ins now key := by
  obtain ⟨id, found, deleted, k, hit, late, within⟩ := interrupted
  obtain ⟨db', run⟩ := alone_restored site ins now key db id found deleted
  rw [← Nat.zero_add k] at hit
  obtain ⟨e, c, ran, left, -⟩ := (run 0).1 k within hit
  intro atomic
  rw [Left, if_neg (by omega)] at left
  exact left (congrArg Tables.torrents (atomic e c ran).1)

/-- An insertion is atomic except where a restoration is interrupted. -/
theorem insertTorrent_atomic_iff (db : Tables) (ins : TorrentInsert) (now : Int) (key : Nat) :
    Atomic site db ins now key ↔ ¬Interrupted site db ins := by
  refine ⟨fun atomic interrupted => not_atomic_of_interrupted site db ins now key interrupted atomic, ?_⟩
  intro undisturbed e c failed
  cases found : lookup db ins.metainfo.infohash with
  | none =>
    have selected : selectId ins.metainfo.infohash db = .ok (none, db) := by
      rw [← found]
      rfl
    have first := alone_statement site .database _ db db none selected (fun _ left => left = db) rfl 0
    change Run.bind (statement site .database (selectId ins.metainfo.infohash)) _ _ = _ at failed
    unfold Run.bind at failed
    by_cases hit : Hit site 0
    · obtain ⟨e', c', ran, left, closed⟩ := first.1 0 Nat.one_pos hit
      rw [ran] at failed
      cases failed
      exact ⟨left, closed⟩
    · have ran := first.2 (fun i before => by
        rw [Nat.lt_one_iff.1 before]
        exact hit)
      rw [ran] at failed
      exact guarded_error site .database _ (inside_insertNew site ins now key) ⟨db, none, 1⟩ c e rfl failed
  | some id =>
    cases deleted : isDeleted db id with
    | false =>
      have run := alone_existing site ins now key db id found deleted 0
      by_cases hit : ∃ i, i < 2 ∧ Hit site (0 + i)
      · obtain ⟨i, before, here⟩ := hit
        obtain ⟨e', c', ran, left, closed⟩ := run.1 i before here
        rw [ran] at failed
        cases failed
        exact ⟨left, closed⟩
      · rw [run.2 (fun i before here => hit ⟨i, before, here⟩)] at failed
        cases failed
    | true =>
      obtain ⟨db', run⟩ := alone_restored site ins now key db id found deleted
      by_cases hit : ∃ i, i < 4 + (pathStatements db id ins + blobStatements ins) ∧ Hit site (0 + i)
      · obtain ⟨i, before, here⟩ := hit
        obtain ⟨e', c', ran, left, closed⟩ := (run 0).1 i before here
        rw [ran] at failed
        cases failed
        rw [Nat.zero_add] at here
        have early : i < 4 := by
          by_contra late
          exact undisturbed ⟨id, found, deleted, i, here, by omega, before⟩
        rw [Left, if_pos early] at left
        exact ⟨left, closed⟩
      · rw [(run 0).2 (fun i before here => hit ⟨i, before, here⟩)] at failed
        cases failed

end

/-! ### An interrupted restoration -/

/-- A catalog with one torrent, deleted, whose payload was under `/old`. -/
def shelved : Tables where
  torrents := [⟨1, [7], "pack", 16384, 1, 5, "deleted", false, false, false, true, some 3, 9, 2, none⟩]
  files := [⟨1, 0, "pack", 5, 0, 1⟩]
  pieceHashes := [(1, [])]
  bitfields := [⟨1, none, 0⟩]
  stats := [⟨1, 0, 0, 0, 0, none⟩]
  trackers := []
  metaPaths := [⟨1, "/old", none, none⟩]
  metainfos := [(1, [1])]

/-- The same torrent added again, started, under `/new`. -/
def readded : TorrentInsert where
  metainfo := ⟨[7], "pack", 16384, 1, 5, [], [⟨"pack", 5, 0⟩], false, []⟩
  state := "stopped"
  wantStart := true
  complete := false
  bitfield := none
  haveCount := 0
  dataRoot := "/new"
  homeRoot := none
  sourceTorrent := none
  uploaded := 0
  downloaded := 0
  finishedAt := none
  createdAt := none
  filePriorities := []
  metainfoBlob := some [2]
  trackerKey := none

/-- The update of `meta_path` fails: the torrent is started again under its old root. -/
theorem restore_half_done : ¬Atomic (some (.statement 4 false)) shelved readded 0 9 ∧
    (insertTorrent (some (.statement 4 false)) readded 0 9 ⟨shelved, none, 0⟩).2.committed.torrents.map
      (fun r => (r.deleted, r.wantStart)) = [(false, true)] ∧
    (insertTorrent (some (.statement 4 false)) readded 0 9 ⟨shelved, none, 0⟩).2.committed.metaPaths =
      shelved.metaPaths :=
  ⟨not_atomic_of_interrupted _ shelved readded 0 9
    ⟨1, by decide, by decide, 4, Or.inr rfl, Nat.le_refl 4, by decide⟩, by decide, by decide⟩

end Seedchamp.Catalog.InsertTorrent
