import Seedchamp.Catalog.Statements

/-!
The lifecycle columns `deleted`, `want_start` and `state`. A recheck and a batch of piece-have
events write `state` alone, long after the torrent they were begun for may have been stopped or
deleted.
-/

namespace Seedchamp.Catalog.Flags
open Foundation.TransitionSystem Catalog.Table Catalog.Pieces Catalog.Statements Library.Ingest
open Disk.Spans

structure Consistent (c : Columns) : Prop where
  deleted : c.deleted = true → c.wantStart = false ∧ c.state = .deleted
  started : c.state = .started → c.wantStart = true

/-- The events are the first of the torrent, or they complete it: the batch writes its `state`. -/
def announces (r : Row) (items : List (Nat × Nat)) : Bool :=
  !unmoved r items && (r.haveCount = 0 || becameComplete r items)

/-- A batch that commits announces only torrents that are wanted. -/
def announcesWanted (t : TorrentTable) (pieces : List HaveEvent) : Bool :=
  !pieces.all (fun ev => (t.find? ev.tid).isSome) ||
    t.list.all (fun r => !announces r (itemsOf r.id pieces) || r.columns.wantStart)

/-- Late writers of `state` find their torrent in the catalog's lists, and a batch finds it wanted. -/
def timely (s : State) : Event → Bool
  | .prepareRecheck id => !isDeleted s.catalog id
  | .setBitfieldFromRecheck k good =>
    (s.rechecks[k]?).all (fun recheck =>
      good.length ≠ recheck.2 || !isDeleted s.catalog recheck.1)
  | .markPiecesHaveBatch pieces => announcesWanted s.catalog pieces
  | _ => true

def AllConsistent (t : TorrentTable) : Prop := ∀ r ∈ t.list, Consistent r.columns

theorem isDeleted_eq (t : TorrentTable) (id : Nat) (r : Row) (found : t.find? id = some r) :
    isDeleted t id = r.columns.deleted := by
  rw [isDeleted, found]
  rfl

theorem consistent_live (c : Columns) (live : c.deleted = false)
    (started : c.state = .started → c.wantStart = true) : Consistent c :=
  ⟨fun gone => absurd (gone.symm.trans live) (by decide), started⟩

theorem consistent_wantColumns (c : Columns) (want : Bool) (consistent : Consistent c) :
    Consistent (wantColumns c want) := by
  rw [wantColumns]
  by_cases gone : c.deleted = true
  · rw [if_pos gone]
    exact consistent
  · rw [if_neg gone]
    apply consistent_live _ (by simpa using gone)
    cases want with
    | true => exact fun _ => rfl
    | false => exact fun clash => TorrentState.noConfusion clash

theorem consistent_syncColumns (c : Columns) (consistent : Consistent c) :
    Consistent (syncColumns c) := by
  rw [syncColumns]
  split_ifs with gone wanted unwanted
  · exact consistent
  · exact consistent_live _ (by simpa using gone) (fun _ => wanted.1)
  · exact consistent_live _ (by simpa using gone) (fun clash => TorrentState.noConfusion clash)
  · exact consistent

theorem consistent_deletedColumns (c : Columns) (now : Int) : Consistent (deletedColumns c now) :=
  ⟨fun _ => ⟨rfl, rfl⟩, fun clash => TorrentState.noConfusion clash⟩

theorem consistent_demotedColumns (c : Columns) (live : c.deleted = false) :
    Consistent (demotedColumns c) :=
  consistent_live _ live (fun clash => TorrentState.noConfusion clash)

theorem consistent_recheckedColumns (c : Columns) (pieceCount : Nat) (good : List Bool)
    (live : c.deleted = false) : Consistent (recheckedColumns c pieceCount good) :=
  consistent_live _ live (fun clash => TorrentState.noConfusion clash)

/-- An insert asks for a started torrent exactly when it sets the state. -/
theorem consistent_restoredColumns (c : Columns) (ins : TorrentInsert)
    (asked : ins.state = .started → ins.wantStart = true) : Consistent (restoredColumns c ins) := by
  apply consistent_live _ rfl
  cases want : ins.wantStart with
  | true => exact fun _ => want
  | false =>
    have state : (restoredColumns c ins).state =
        if ins.state = .deleted then .stopped else ins.state := by
      simp only [restoredColumns, want, Bool.false_eq_true, if_false]
    rw [state]
    split_ifs
    · exact fun clash => absurd clash (by simp)
    · exact fun started => absurd ((asked started).symm.trans want) (by decide)

theorem asked_addInsert (m : Metainfo) (place : Placement) (start : Bool)
    (started : (addInsert m place start).state = .started) :
    (addInsert m place start).wantStart = true := by
  cases start with
  | true => rfl
  | false => cases started

theorem asked_importInsert (m : Metainfo) (dataRoot : PathBuf) (resume : ResumeData) (up down : Nat)
    (start : Bool) (started : (importInsert m dataRoot resume up down start).state = .started) :
    (importInsert m dataRoot resume up down start).wantStart = true := by
  cases start with
  | true => rfl
  | false => cases started

/-- What a batch does to the lifecycle columns of one row. -/
theorem applyHaves_lifecycle (r : Row) (items : List (Nat × Nat)) :
    (applyHaves r items).deleted = r.columns.deleted ∧
    (applyHaves r items).wantStart = r.columns.wantStart ∧
    (applyHaves r items).state = if announces r items then .started else r.columns.state := by
  cases moves : unmoved r items with
  | true => simp [applyHaves, announces, moves]
  | false =>
    simp only [applyHaves, announces, becameComplete, moves, Bool.false_eq_true, if_false,
      Bool.not_false, Bool.true_and, Bool.or_eq_true, decide_eq_true_eq]
    by_cases all : r.pieceCount ≤ (gather r items).haveCount
    · rw [if_pos all, if_pos (Or.inr all)]
      exact ⟨rfl, rfl, rfl⟩
    · rw [if_neg all]
      simp only [all, or_false]
      trivial

theorem consistent_applyHaves (r : Row) (items : List (Nat × Nat)) (consistent : Consistent r.columns)
    (wanted : announces r items = true → r.columns.wantStart = true) :
    Consistent (applyHaves r items) := by
  obtain ⟨deleted, wantStart, state⟩ := applyHaves_lifecycle r items
  by_cases announced : announces r items = true
  · have want := wanted announced
    refine ⟨?_, ?_⟩
    · rw [deleted]
      intro gone
      exact absurd ((consistent.deleted gone).1.symm.trans want) (by decide)
    · rw [wantStart]
      exact fun _ => want
  · rw [if_neg announced] at state
    refine ⟨?_, ?_⟩
    · rw [deleted, wantStart, state]
      exact consistent.deleted
    · rw [wantStart, state]
      exact consistent.started

theorem allConsistent_set (t : TorrentTable) (id : Nat) (change : Row → Columns)
    (consistent : AllConsistent t)
    (kept : ∀ r, t.find? id = some r → Consistent r.columns → Consistent (change r)) :
    AllConsistent (Table.set t id change) :=
  forall_set t id change (fun r => Consistent r.columns) consistent kept

theorem allConsistent_insertTorrent (t : TorrentTable) (ins : TorrentInsert)
    (consistent : AllConsistent t) (asked : ins.state = .started → ins.wantStart = true) :
    AllConsistent (insertTorrent t ins).1 := by
  apply forall_insertTorrent t ins (fun r => Consistent r.columns) consistent
  · intro r _ _ _
    exact consistent_restoredColumns r.columns ins asked
  · intro _
    exact consistent_live _ rfl asked

theorem allConsistent_importTorrent (t : TorrentTable) (ins : TorrentInsert)
    (consistent : AllConsistent t) (asked : ins.state = .started → ins.wantStart = true) :
    AllConsistent (importTorrent t ins) := by
  have inserted := allConsistent_insertTorrent t ins consistent asked
  have refreshed : ∀ id, AllConsistent
      (Table.set (insertTorrent t ins).1 id (fun r => importMetaColumns r.columns ins)) :=
    fun id => allConsistent_set _ id _ inserted (fun r _ before => ⟨before.deleted, before.started⟩)
  rw [importTorrent]
  cases outcome : insertTorrent t ins with
  | mk t' result =>
    rw [outcome] at inserted refreshed
    cases result with
    | inserted id => exact inserted
    | existing id => exact refreshed id
    | restored id => exact refreshed id

theorem allConsistent_settled (t : TorrentTable) (result : Except Error TorrentTable)
    (consistent : AllConsistent t) (after : ∀ t', result = .ok t' → AllConsistent t') :
    AllConsistent (settled t result) := by
  cases result with
  | error problem => exact consistent
  | ok t' => exact after t' rfl

theorem allConsistent_markPiecesHaveBatch (t t' : TorrentTable) (pieces : List HaveEvent)
    (became : List Nat) (consistent : AllConsistent t) (wanted : announcesWanted t pieces = true)
    (ran : markPiecesHaveBatch t pieces = .ok (t', became)) : AllConsistent t' := by
  have present : ∀ ev ∈ pieces, (t.find? ev.tid).isSome = true :=
    (markPiecesHaveBatch_isOk t pieces).1 (by rw [ran]; rfl)
  simp only [announcesWanted, List.all_eq_true.2 present, Bool.not_true, Bool.false_or,
    List.all_eq_true, Bool.or_eq_true, Bool.not_eq_true'] at wanted
  apply (rowwise_markPiecesHaveBatch t t' pieces became ran).forall (fun r => Consistent r.columns)
    consistent
  intro r member before
  apply consistent_applyHaves r _ before
  intro announced
  exact (wanted r member).resolve_left (by simp [announced])

theorem allConsistent_step (s : State) (event : Event) (s' : State) (consistent : AllConsistent s.catalog)
    (late : timely s event = true) (taken : step s event = some s') : AllConsistent s'.catalog := by
  cases event with
  | add m place start =>
    cases taken
    exact allConsistent_insertTorrent _ _ consistent (asked_addInsert m place start)
  | importRtorrent m dataRoot root up down start =>
    cases taken
    exact allConsistent_importTorrent _ _ consistent (asked_importInsert m dataRoot _ up down start)
  | importTransmission m dataRoot root start =>
    cases taken
    exact allConsistent_importTorrent _ _ consistent (asked_importInsert m dataRoot _ 0 0 start)
  | setWantStart id want =>
    cases taken
    apply allConsistent_settled _ _ consistent
    intro t' ran
    rw [setWantStart] at ran
    split_ifs at ran
    cases ran
    exact allConsistent_set _ id _ consistent (fun r _ before => consistent_wantColumns _ want before)
  | markDeleted id now =>
    cases taken
    apply allConsistent_settled _ _ consistent
    intro t' ran
    rcases markDeleted_ok _ _ _ _ ran with same | ⟨-, changed⟩
    · rw [same]
      exact consistent
    · rw [changed]
      exact allConsistent_set _ id _ consistent (fun r _ _ => consistent_deletedColumns _ now)
  | syncStateWithWantStart =>
    cases taken
    apply (rowwise_sync s.catalog).forall (fun r => Consistent r.columns) consistent
    intro r _ before
    exact consistent_syncColumns _ before
  | prepareRecheck id =>
    rw [step] at taken
    cases ran : prepareRecheck s.catalog id with
    | error problem =>
      rw [ran] at taken
      cases taken
      exact consistent
    | ok result =>
      obtain ⟨t', prepared⟩ := result
      rw [ran] at taken
      cases taken
      rw [(prepareRecheck_ok _ _ _ _ ran).1]
      apply allConsistent_set _ id _ consistent
      intro r found _
      simp only [timely, isDeleted_eq _ _ _ found, Bool.not_eq_true'] at late
      exact consistent_live _ late (fun clash => TorrentState.noConfusion clash)
  | setBitfieldFromRecheck k good =>
    rw [step] at taken
    cases running : s.rechecks[k]? with
    | none =>
      rw [running] at taken
      cases taken
    | some recheck =>
      obtain ⟨id, pieceCount⟩ := recheck
      rw [running] at taken
      cases taken
      apply allConsistent_settled _ _ consistent
      intro t' ran
      obtain ⟨sized, changed⟩ := setBitfieldFromRecheck_ok _ _ _ _ _ ran
      rw [changed]
      apply allConsistent_set _ id _ consistent
      intro r found _
      simp only [timely, running, Option.all_some, sized, isDeleted_eq _ _ _ found, ne_eq,
        not_true_eq_false, decide_false, Bool.false_or, Bool.not_eq_true'] at late
      exact consistent_recheckedColumns _ pieceCount good late
  | markPiecesHaveBatch pieces =>
    cases taken
    apply allConsistent_settled _ _ consistent
    intro t' ran
    cases marked : markPiecesHaveBatch s.catalog pieces with
    | error problem =>
      rw [marked] at ran
      cases ran
    | ok result =>
      rw [marked] at ran
      cases ran
      exact allConsistent_markPiecesHaveBatch _ _ pieces result.2 consistent late marked
  | auditCompleteStorage problem =>
    cases taken
    apply (rowwise_auditCompleteStorage s.catalog problem).forall (fun r => Consistent r.columns)
      consistent
    intro r _ before
    split_ifs with failed
    · exact consistent_demotedColumns _ failed.2.1
    · exact before

/-- The flags agree in every catalog whose late writers were timely. -/
theorem flags_consistent (events : List Event) (s : State)
    (late : Guarded step (fun s event => timely s event = true) initial events)
    (ran : exec step initial events = some s) : ∀ r ∈ s.catalog.list, Consistent r.columns :=
  exec_invariant step _ (fun s => AllConsistent s.catalog) allConsistent_step initial s events
    (fun _ member => absurd member List.not_mem_nil) late ran

/-- Started, one piece in, stopped, deleted, added again, rechecked and demoted. -/
def wholeLife : List Event :=
  [.add (byteTorrent 2) ⟨["data"], none⟩ true, .markPiecesHaveBatch [⟨1, 0, 1⟩], .setWantStart 1 false,
    .markDeleted 1 7, .syncStateWithWantStart, .add (byteTorrent 2) ⟨["data"], none⟩ false,
    .prepareRecheck 1, .setBitfieldFromRecheck 0 [true, true], .auditCompleteStorage (fun _ => true)]

theorem flags_consistent_wholeLife :
    ((exec step initial wholeLife).getD initial).catalog.list.length = 1 ∧
      ∀ r ∈ ((exec step initial wholeLife).getD initial).catalog.list, Consistent r.columns := by
  constructor
  · decide +kernel
  · exact flags_consistent wholeLife _
      (guarded_of_guardedB step timely initial wholeLife (by decide +kernel))
      (Option.some_get (by decide +kernel)).symm

/-- A piece marked after the stop starts the torrent in the `state` column alone. -/
theorem stopped_torrent_started :
    ¬ ∀ events s, exec step initial events = some s →
      ∀ r ∈ s.catalog.list, Consistent r.columns := by
  intro always
  have marked := always [.add (byteTorrent 2) ⟨["data"], none⟩ true, .setWantStart 1 false,
    .markPiecesHaveBatch [⟨1, 0, 1⟩]] _ rfl _ (List.mem_singleton_self _)
  exact absurd (marked.started rfl) (by decide)

end Seedchamp.Catalog.Flags
