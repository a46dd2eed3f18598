import Seedchamp.Catalog.Pieces
import Seedchamp.Library.Ingest
import Seedchamp.Foundation.TransitionSystem

/-!
The catalog as a state machine: the statements that write lifecycle and possession columns, in any
order. A recheck is two of them, with a background worker between.
-/

namespace Seedchamp.Catalog.Statements
open Foundation.KeyedRows Catalog.Table Catalog.Pieces Library.Ingest Disk.Spans

/-- The catalog, and for each recheck that runs the piece count it was prepared with. -/
structure State where
  catalog : TorrentTable
  rechecks : List (Nat × Nat)

inductive Event where
  | add (m : Metainfo) (place : Placement) (start : Bool)
  | importRtorrent (m : Metainfo) (dataRoot : PathBuf) (root : Option Value)
      (totalUploaded totalDownloaded : Nat) (startAfter : Bool)
  | importTransmission (m : Metainfo) (dataRoot : PathBuf) (root : Option Value) (startAfter : Bool)
  | setWantStart (id : Nat) (want : Bool)
  | markDeleted (id : Nat) (now : Int)
  | syncStateWithWantStart
  | prepareRecheck (id : Nat)
  | setBitfieldFromRecheck (k : Nat) (good : List Bool)
  | markPiecesHaveBatch (pieces : List HaveEvent)
  | auditCompleteStorage (problem : Nat → Bool)

def step (s : State) : Event → Option State
  | .add m place start => some { s with catalog := addTorrent s.catalog m place start }
  | .importRtorrent m dataRoot root up down start =>
    some { s with catalog := importRtorrent s.catalog m dataRoot root up down start }
  | .importTransmission m dataRoot root start =>
    some { s with catalog := importTransmission s.catalog m dataRoot root start }
  | .setWantStart id want => some { s with catalog := settled s.catalog (setWantStart s.catalog id want) }
  | .markDeleted id now => some { s with catalog := settled s.catalog (markDeleted s.catalog id now) }
  | .syncStateWithWantStart => some { s with catalog := syncStateWithWantStart s.catalog }
  | .prepareRecheck id =>
    match prepareRecheck s.catalog id with
    | .error _ => some s
    | .ok (t', prepared) => some ⟨t', s.rechecks ++ [(id, prepared.pieceCount)]⟩
  | .setBitfieldFromRecheck k good =>
    match s.rechecks[k]? with
    | none => none
    | some (id, pieceCount) =>
      some ⟨settled s.catalog (setBitfieldFromRecheck s.catalog id pieceCount good), s.rechecks.eraseIdx k⟩
  | .markPiecesHaveBatch pieces =>
    some { s with catalog := settled s.catalog ((markPiecesHaveBatch s.catalog pieces).map Prod.fst) }
  | .auditCompleteStorage problem =>
    some { s with catalog := auditCompleteStorage s.catalog problem }

def initial : State := ⟨Rows.empty, []⟩

theorem setBitfieldFromRecheck_ok (t t' : TorrentTable) (id pieceCount : Nat) (good : List Bool)
    (ran : setBitfieldFromRecheck t id pieceCount good = .ok t') :
    good.length = pieceCount ∧
    t' = Table.set t id (fun r => recheckedColumns r.columns pieceCount good) := by
  rw [setBitfieldFromRecheck] at ran
  split_ifs at ran with sized
  refine ⟨not_not.1 sized, ?_⟩
  cases found : t.find? id with
  | none =>
    rw [found] at ran
    cases ran
  | some r =>
    rw [found] at ran
    cases ran
    rfl

theorem markDeleted_ok (t t' : TorrentTable) (id : Nat) (now : Int)
    (ran : markDeleted t id now = .ok t') :
    t' = t ∨ (∃ r, t.find? id = some r ∧ r.columns.deleted = false ∧ r.columns.wantStart = false) ∧
      t' = Table.set t id (fun r => deletedColumns r.columns now) := by
  rw [markDeleted] at ran
  cases found : t.find? id with
  | none =>
    rw [found] at ran
    cases ran
  | some r =>
    simp only [found] at ran
    split_ifs at ran with gone wanted
    · cases ran
      exact .inl rfl
    · cases ran
      exact .inr ⟨⟨r, rfl, by simpa using gone, by simpa using wanted⟩, rfl⟩

theorem prepareRecheck_ok (t t' : TorrentTable) (id : Nat) (prepared : RecheckPrepared)
    (ran : prepareRecheck t id = .ok (t', prepared)) :
    t' = setTorrentState t id .checking ∧
    ∃ r, t.find? id = some r ∧ r.pieceCount = prepared.pieceCount := by
  rw [prepareRecheck] at ran
  cases found : t.find? id with
  | none =>
    rw [found] at ran
    cases ran
  | some r =>
    simp only [found] at ran
    cases loaded : r.loadStorageLayout with
    | error problem =>
      rw [loaded] at ran
      cases ran
    | ok layout =>
      simp only [loaded] at ran
      split_ifs at ran with sized
      cases ran
      refine ⟨rfl, r, rfl, ?_⟩
      rw [Row.loadStorageLayout] at loaded
      cases path : r.columns.metaPath with
      | none =>
        rw [path] at loaded
        cases loaded
      | some metaPath =>
        simp only [path] at loaded
        split_ifs at loaded with files
        cases loaded
        rfl

end Seedchamp.Catalog.Statements
