import Seedchamp.Catalog.Flags

/-!
A recheck from its begin to its end, with everything that can fail on the way. The state `checking` is
written before the first piece is hashed, and only a bitfield that is stored replaces it.
-/

namespace Seedchamp.Catalog.RecheckRuns
open Foundation.KeyedRows Foundation.TransitionSystem Catalog.Table Catalog.Pieces
open Catalog.Statements Catalog.Flags Library.Ingest Disk.Spans

/-! ### One recheck -/

/-- What fails in SQLite while a recheck runs, and which pieces the hash workers refuse. -/
structure Faults where
  reading : Option Error
  marking : Option Error
  submit : Nat → Bool
  storing : Option Error

inductive RecheckPieceResult where
  | good (index : Nat)
  | bad (index : Nat)
  | missing (index : Nat)
  deriving DecidableEq, Repr

structure RecheckReport where
  torrentId : Nat
  pieceCount : Nat
  good : Nat
  bad : Nat
  missing : Nat
  complete : Bool
  deriving DecidableEq, Repr

/-- The locals of the loop over the answers. -/
structure Heard where
  haves : List Bool
  good : Nat
  bad : Nat
  missing : Nat
  deriving DecidableEq, Repr

def Heard.note (h : Heard) : RecheckPieceResult → Heard
  | .good index => { h with haves := h.haves.set index true, good := h.good + 1 }
  | .bad _ => { h with bad := h.bad + 1 }
  | .missing _ => { h with missing := h.missing + 1 }

/-- One answer for each piece; the channel closes when the workers stop. -/
def receive : Nat → List RecheckPieceResult → Heard → Except Error Heard
  | 0, _, h => .ok h
  | _ + 1, [], _ => .error (.msg "recheck: hash workers stopped mid-run")
  | n + 1, answer :: rest, h => receive n rest (h.note answer)

/-- `prepare_recheck`: the reads come first, the state is set last. -/
def prepare (faults : Faults) (t : TorrentTable) (id : Nat) :
    TorrentTable × Except Error RecheckPrepared :=
  match faults.reading with
  | some problem => (t, .error problem)
  | none =>
    match prepareRecheck t id with
    | .error problem => (t, .error problem)
    | .ok (marked, prepared) =>
      match faults.marking with
      | some problem => (t, .error problem)
      | none => (marked, .ok prepared)

/-- `finish_recheck`; a transaction that fails is rolled back. -/
def finishRecheck (faults : Faults) (t : TorrentTable) (id pieceCount : Nat) (h : Heard) :
    TorrentTable × Except Error RecheckReport :=
  match faults.storing with
  | some problem => (t, .error problem)
  | none =>
    match setBitfieldFromRecheck t id pieceCount h.haves with
    | .error problem => (t, .error problem)
    | .ok t' =>
      (t', .ok ⟨id, pieceCount, h.good, h.bad, h.missing, h.good = pieceCount ∧ 0 < pieceCount⟩)

/-- What a recheck does once it is prepared. -/
def conclude (faults : Faults) (answers : List RecheckPieceResult) (t : TorrentTable)
    (id pieceCount : Nat) : TorrentTable × Except Error RecheckReport :=
  if pieceCount = 0 then finishRecheck faults t id 0 ⟨[], 0, 0, 0⟩
  else if (List.range pieceCount).any faults.submit then (t, .error (.msg "hash workers stopped"))
  else
    match receive pieceCount answers ⟨List.replicate pieceCount false, 0, 0, 0⟩ with
    | .error problem => (t, .error problem)
    | .ok h => finishRecheck faults t id pieceCount h

def recheckTorrentWithPool (faults : Faults) (answers : List RecheckPieceResult) (t : TorrentTable)
    (id : Nat) : TorrentTable × Except Error RecheckReport :=
  match prepare faults t id with
  | (t', .error problem) => (t', .error problem)
  | (t', .ok prepared) => conclude faults answers t' id prepared.pieceCount

/-- The recheck comes to write the state: its reads succeed, the hashes fit, and so does the write. -/
def marks (faults : Faults) (t : TorrentTable) (id : Nat) : Bool :=
  faults.reading.isNone && (prepareRecheck t id).toOption.isSome && faults.marking.isNone

/-- A prepared recheck fails: at a submit, for want of an answer, or at the store. -/
def fails (faults : Faults) (answers : List RecheckPieceResult) (pieceCount : Nat) : Bool :=
  faults.storing.isSome ||
    (List.range pieceCount).any faults.submit || decide (answers.length < pieceCount)

theorem prepare_fst (faults : Faults) (t : TorrentTable) (id : Nat) :
    (prepare faults t id).1 = if marks faults t id then setTorrentState t id .checking else t := by
  rw [prepare, marks]
  cases faults.reading with
  | some problem => rfl
  | none =>
    cases ran : prepareRecheck t id with
    | error problem => rfl
    | ok result =>
      obtain ⟨marked, prepared⟩ := result
      cases faults.marking with
      | some problem => rfl
      | none => exact (prepareRecheck_ok t marked id prepared ran).1

theorem prepare_ok (faults : Faults) (t : TorrentTable) (id : Nat) (prepared : RecheckPrepared)
    (ran : (prepare faults t id).2 = .ok prepared) : marks faults t id = true := by
  rw [prepare] at ran
  rw [marks]
  cases reading : faults.reading with
  | some problem =>
    rw [reading] at ran
    cases ran
  | none =>
    rw [reading] at ran
    cases result : prepareRecheck t id with
    | error problem =>
      rw [result] at ran
      cases ran
    | ok pair =>
      rw [result] at ran
      cases marking : faults.marking with
      | some problem =>
        rw [marking] at ran
        cases ran
      | none => rfl

theorem receive_spec (n : Nat) (answers : List RecheckPieceResult) (h : Heard) :
    (n ≤ answers.length → ∃ heard, receive n answers h = .ok heard ∧
      heard.haves.length = h.haves.length) ∧
    (answers.length < n → ∃ problem, receive n answers h = .error problem) := by
  induction n generalizing answers h with
  | zero => exact ⟨fun _ => ⟨h, rfl, rfl⟩, fun short => absurd short (Nat.not_lt_zero _)⟩
  | succ n ih =>
    cases answers with
    | nil => exact ⟨fun enough => absurd enough (Nat.not_succ_le_zero n), fun _ => ⟨_, rfl⟩⟩
    | cons answer rest =>
      obtain ⟨enough, short⟩ := ih rest (h.note answer)
      have sized : (h.note answer).haves.length = h.haves.length := by
        cases answer with
        | good index => exact List.length_set
        | _ => rfl
      refine ⟨fun all => ?_, fun few => short (Nat.lt_of_succ_lt_succ few)⟩
      rw [← sized]
      exact enough (Nat.le_of_succ_le_succ all)

/-- A recheck that ends with an error after its preparation has written nothing. -/
theorem conclude_error (faults : Faults) (answers : List RecheckPieceResult) (t : TorrentTable)
    (id pieceCount : Nat) (problem : Error)
    (failed : (conclude faults answers t id pieceCount).2 = .error problem) :
    (conclude faults answers t id pieceCount).1 = t := by
  have finish : ∀ count h, (finishRecheck faults t id count h).2 = .error problem →
      (finishRecheck faults t id count h).1 = t := by
    intro count h
    rw [finishRecheck]
    cases faults.storing with
    | some other => exact fun _ => rfl
    | none =>
      cases setBitfieldFromRecheck t id count h.haves with
      | error other => exact fun _ => rfl
      | ok t' => exact fun clash => by cases clash
  rw [conclude] at failed ⊢
  split_ifs at failed ⊢ with empty refused
  · exact finish 0 _ failed
  · rfl
  · cases heard : receive pieceCount answers ⟨List.replicate pieceCount false, 0, 0, 0⟩ with
    | error other => rfl
    | ok h =>
      rw [heard] at failed
      exact finish pieceCount h failed

/-- A prepared recheck that nothing disturbs stores the bitfield, if its torrent is still there. -/
theorem conclude_stores (faults : Faults) (answers : List RecheckPieceResult) (t : TorrentTable)
    (id pieceCount : Nat) (sound : fails faults answers pieceCount = false) :
    (∃ haves, (conclude faults answers t id pieceCount).1 =
      Table.set t id (fun r => recheckedColumns r.columns pieceCount haves)) ∨
    (t.find? id = none ∧ (conclude faults answers t id pieceCount).1 = t) := by
  simp only [fails, Bool.or_eq_false_iff, Option.isSome_eq_false_iff, Option.isNone_iff_eq_none,
    decide_eq_false_iff_not, not_lt] at sound
  obtain ⟨⟨stored, sent⟩, enough⟩ := sound
  have finish : ∀ h : Heard, h.haves.length = pieceCount →
      (∃ haves, (finishRecheck faults t id pieceCount h).1 =
        Table.set t id (fun r => recheckedColumns r.columns pieceCount haves)) ∨
      (t.find? id = none ∧ (finishRecheck faults t id pieceCount h).1 = t) := by
    intro h sized
    rw [finishRecheck, stored, setBitfieldFromRecheck, if_neg (not_not.2 sized)]
    cases t.find? id with
    | none => exact Or.inr ⟨rfl, rfl⟩
    | some r => exact Or.inl ⟨h.haves, rfl⟩
  rw [conclude]
  by_cases empty : pieceCount = 0
  · rw [if_pos empty]
    subst empty
    exact finish _ rfl
  · obtain ⟨heard, ran, sized⟩ := (receive_spec pieceCount answers
      ⟨List.replicate pieceCount false, 0, 0, 0⟩).1 enough
    rw [if_neg empty, if_neg (by simp only [sent, Bool.false_eq_true, not_false_eq_true]), ran]
    exact finish heard (sized.trans List.length_replicate)

theorem conclude_fails (faults : Faults) (answers : List RecheckPieceResult) (t : TorrentTable)
    (id pieceCount : Nat) (failing : fails faults answers pieceCount = true) :
    ∃ problem, (conclude faults answers t id pieceCount).2 = .error problem := by
  have unsound : (∃ problem, faults.storing = some problem) ∨
      (List.range pieceCount).any faults.submit = true ∨ answers.length < pieceCount := by
    simpa only [fails, Bool.or_eq_true, Option.isSome_iff_exists, decide_eq_true_eq, or_assoc]
      using failing
  rw [conclude]
  split_ifs with empty refused
  · subst empty
    rcases unsound with ⟨problem, stored⟩ | clash | clash
    · exact ⟨problem, by rw [finishRecheck, stored]⟩
    · cases clash
    · exact absurd clash (Nat.not_lt_zero _)
  · exact ⟨_, rfl⟩
  · obtain ⟨enough, short⟩ := receive_spec pieceCount answers
      ⟨List.replicate pieceCount false, 0, 0, 0⟩
    rcases Nat.lt_or_ge answers.length pieceCount with few | all
    · obtain ⟨problem, ran⟩ := short few
      exact ⟨problem, by rw [ran]⟩
    · obtain ⟨heard, ran, _⟩ := enough all
      rw [ran]
      rcases unsound with ⟨problem, stored⟩ | clash | clash
      · exact ⟨problem, by simp only [finishRecheck, stored]⟩
      · exact absurd clash refused
      · omega

/-- The whole effect of a recheck that fails. -/
theorem failed_recheck (faults : Faults) (answers : List RecheckPieceResult) (t : TorrentTable)
    (id : Nat) (problem : Error)
    (failed : (recheckTorrentWithPool faults answers t id).2 = .error problem) :
    (recheckTorrentWithPool faults answers t id).1 =
      if marks faults t id then setTorrentState t id .checking else t := by
  rw [← prepare_fst, recheckTorrentWithPool]
  rw [recheckTorrentWithPool] at failed
  cases prepared : prepare faults t id with
  | mk t' result =>
    rw [prepared] at failed
    cases result with
    | error other => rfl
    | ok value => exact conclude_error faults answers t' id value.pieceCount problem failed

/-- What a recheck that fails owes the torrent: the row is as it was. -/
def Restored (t after : TorrentTable) (id : Nat) : Prop :=
  (after.find? id).map (fun r => (r.columns.state, r.storedBits, r.haveCount, r.columns.complete)) =
    (t.find? id).map (fun r => (r.columns.state, r.storedBits, r.haveCount, r.columns.complete))

instance (t after : TorrentTable) (id : Nat) : Decidable (Restored t after id) :=
  inferInstanceAs (Decidable (_ = _))

/-- A start and a stop each bring the state of a torrent that is not deleted in line. -/
def Aligns (t : TorrentTable) (id : Nat) : Prop :=
  ∀ want r, t.find? id = some r → r.columns.deleted = false →
    ∃ t', setWantStart t id want = .ok t' ∧ (t'.find? id).map (fun r => r.columns) =
      some { r.columns with wantStart := want, state := if want then .started else .stopped }

def isChecking (t : TorrentTable) (id : Nat) : Bool :=
  (t.find? id).any (fun r => r.columns.state = .checking)

theorem aligns (t : TorrentTable) (id : Nat) : Aligns t id := by
  intro want r found live
  have allowed : (want && isDeleted t id) = false := by
    rw [isDeleted_eq t id r found, live, Bool.and_false]
  refine ⟨Table.set t id (fun r => wantColumns r.columns want), ?_, ?_⟩
  · rw [setWantStart, allowed]
    rfl
  · rw [find?_set, if_pos rfl, found]
    simp only [Option.map_some, Row.withColumns_columns, wantColumns, live, Bool.false_eq_true, if_false]

/-- Setting `checking` is undone by nothing that a failed recheck does. -/
theorem restored_checking (t : TorrentTable) (id : Nat) (r : Row) (found : t.find? id = some r) :
    Restored t (setTorrentState t id .checking) id ↔ isChecking t id = true := by
  rw [Restored, setTorrentState, find?_set, if_pos rfl, isChecking, found]
  simp only [Option.map_some, Option.some.injEq, Prod.mk.injEq, Row.withColumns_columns,
    Option.any_some, decide_eq_true_eq]
  constructor
  · rintro ⟨same, _⟩
    exact same.symm
  · intro same
    exact ⟨same.symm, rfl, rfl, trivial⟩

theorem marks_found (faults : Faults) (t : TorrentTable) (id : Nat) (marked : marks faults t id = true) :
    ∃ r, t.find? id = some r := by
  simp only [marks, Bool.and_eq_true] at marked
  cases ran : prepareRecheck t id with
  | error problem =>
    rw [ran] at marked
    exact absurd marked.1.2 (by simp only [Except.toOption, Option.isSome_none, Bool.false_eq_true,
      not_false_eq_true])
  | ok result =>
    obtain ⟨r, found, _⟩ := (prepareRecheck_ok t result.1 id result.2 ran).2
    exact ⟨r, found⟩

/-! ### Rechecks beside the other statements -/

/-- A recheck is two events, its preparation and the rest; a removal is one row of a purge. -/
inductive Event where
  | statement (event : Statements.Event)
  | begins (id : Nat) (faults : Faults)
  | ends (k : Nat) (faults : Faults) (answers : List RecheckPieceResult)
  | remove (id : Nat)

/-- The two statements of a recheck. -/
def recheckStatement : Statements.Event → Bool
  | .prepareRecheck _ => true
  | .setBitfieldFromRecheck _ _ => true
  | _ => false

def step (s : State) : Event → Option State
  | .statement event => if recheckStatement event then none else Statements.step s event
  | .begins id faults =>
    match prepare faults s.catalog id with
    | (t', .error _) => some { s with catalog := t' }
    | (t', .ok prepared) => some ⟨t', s.rechecks ++ [(id, prepared.pieceCount)]⟩
  | .ends k faults answers =>
    match s.rechecks[k]? with
    | none => none
    | some (id, pieceCount) =>
      some ⟨(conclude faults answers s.catalog id pieceCount).1, s.rechecks.eraseIdx k⟩
  | .remove id => some { s with catalog := settled s.catalog (removeTorrent s.catalog id) }

/-- A recheck fails only where its torrent is not `checking` any more, or another recheck of it runs. -/
def replaced (s : State) : Event → Bool
  | .ends k faults answers =>
    (s.rechecks[k]?).all (fun recheck =>
      !fails faults answers recheck.2 || !isChecking s.catalog recheck.1 ||
        (s.rechecks.eraseIdx k).any (fun other => other.1 = recheck.1))
  | _ => true

/-- No torrent is `checking` without a recheck that runs. -/
def Accounted (s : State) : Prop :=
  ∀ r ∈ s.catalog.list, r.columns.state = .checking → ∃ recheck ∈ s.rechecks, recheck.1 = r.id

/-- A row that is `checking` belongs to one of these torrents. -/
def Within (rechecks : List (Nat × Nat)) (r : Row) : Prop :=
  r.columns.state = .checking → ∃ recheck ∈ rechecks, recheck.1 = r.id

theorem within_columns (rechecks : List (Nat × Nat)) (r : Row) (columns : Columns)
    (settles : columns.state = .checking → r.columns.state = .checking)
    (before : Within rechecks r) : Within rechecks (r.withColumns columns) :=
  fun checking => before (settles checking)

theorem unstarted_state (start : Bool) :
    (if start then TorrentState.started else .stopped) ≠ .checking := by
  cases start <;> decide

theorem wantColumns_checking (c : Columns) (want : Bool)
    (checking : (wantColumns c want).state = .checking) : c.state = .checking := by
  rw [wantColumns] at checking
  by_cases gone : c.deleted = true
  · rw [if_pos gone] at checking
    exact checking
  · rw [if_neg gone] at checking
    exact absurd checking (unstarted_state want)

theorem syncColumns_checking (c : Columns) (checking : (syncColumns c).state = .checking) :
    c.state = .checking := by
  rw [syncColumns] at checking
  by_cases gone : c.deleted = true
  · rw [if_pos gone] at checking
    exact checking
  · rw [if_neg gone] at checking
    split_ifs at checking
    exact checking

theorem applyHaves_checking (r : Row) (items : List (Nat × Nat))
    (checking : (applyHaves r items).state = .checking) : r.columns.state = .checking := by
  rw [(applyHaves_lifecycle r items).2.2] at checking
  split_ifs at checking
  exact checking

theorem within_insertTorrent (rechecks : List (Nat × Nat)) (t : TorrentTable) (ins : TorrentInsert)
    (fresh : ins.state ≠ .checking) (before : ∀ r ∈ t.list, Within rechecks r) :
    ∀ r ∈ (insertTorrent t ins).1.list, Within rechecks r := by
  apply forall_insertTorrent t ins (Within rechecks) before
  · intro r _ _ _ checking
    have state : (restoredColumns r.columns ins).state = .checking := checking
    simp only [restoredColumns] at state
    split_ifs at state
    exact absurd state fresh
  · exact fun _ checking => absurd checking fresh

theorem within_importTorrent (rechecks : List (Nat × Nat)) (t : TorrentTable) (ins : TorrentInsert)
    (fresh : ins.state ≠ .checking) (before : ∀ r ∈ t.list, Within rechecks r) :
    ∀ r ∈ (importTorrent t ins).list, Within rechecks r := by
  have inserted := within_insertTorrent rechecks t ins fresh before
  have refreshed : ∀ id, ∀ r ∈ (Table.set (insertTorrent t ins).1 id
      (fun r => importMetaColumns r.columns ins)).list, Within rechecks r :=
    fun id => forall_set _ id _ (Within rechecks) inserted
      (fun r _ held => within_columns rechecks r _ (fun same => same) held)
  rw [importTorrent]
  cases outcome : insertTorrent t ins with
  | mk t' result =>
    rw [outcome] at inserted refreshed
    cases result with
    | inserted id => exact inserted
    | existing id => exact refreshed id
    | restored id => exact refreshed id

theorem within_statement (s s' : State) (event : Statements.Event)
    (other : recheckStatement event = false)
    (before : Accounted s) (taken : Statements.step s event = some s') : Accounted s' := by
  cases event with
  | add m place start =>
    cases taken
    exact within_insertTorrent _ _ _ (unstarted_state start) before
  | importRtorrent m dataRoot root up down start =>
    cases taken
    exact within_importTorrent _ _ _ (unstarted_state start) before
  | importTransmission m dataRoot root start =>
    cases taken
    exact within_importTorrent _ _ _ (unstarted_state start) before
  | setWantStart id want =>
    cases taken
    show ∀ r ∈ (settled s.catalog (setWantStart s.catalog id want)).list, Within s.rechecks r
    rw [setWantStart]
    split_ifs
    · exact before
    · exact forall_set _ id _ (Within s.rechecks) before (fun r _ held =>
        within_columns _ r _ (wantColumns_checking r.columns want) held)
  | markDeleted id now =>
    cases taken
    show ∀ r ∈ (settled s.catalog (markDeleted s.catalog id now)).list, Within s.rechecks r
    cases ran : markDeleted s.catalog id now with
    | error problem => exact before
    | ok t' =>
      rcases markDeleted_ok _ _ _ _ ran with same | ⟨-, changed⟩
      · rw [same]
        exact before
      · rw [changed]
        exact forall_set _ id _ (Within s.rechecks) before (fun r _ held =>
          within_columns _ r _ (fun clash => TorrentState.noConfusion clash) held)
  | syncStateWithWantStart =>
    cases taken
    exact (rowwise_sync s.catalog).forall (Within s.rechecks) before (fun r _ held =>
      within_columns _ r _ (syncColumns_checking r.columns) held)
  | prepareRecheck id => cases other
  | setBitfieldFromRecheck k good => cases other
  | markPiecesHaveBatch pieces =>
    cases taken
    show ∀ r ∈ (settled s.catalog ((markPiecesHaveBatch s.catalog pieces).map Prod.fst)).list,
      Within s.rechecks r
    cases marked : markPiecesHaveBatch s.catalog pieces with
    | error problem => exact before
    | ok result =>
      exact (rowwise_markPiecesHaveBatch s.catalog result.1 pieces result.2 marked).forall
        (Within s.rechecks) before (fun r _ held =>
          within_columns _ r _ (applyHaves_checking r _) held)
  | auditCompleteStorage problem =>
    cases taken
    apply (rowwise_auditCompleteStorage s.catalog problem).forall (Within s.rechecks) before
    intro r _ held
    split_ifs with failed
    · exact within_columns _ r _ (fun clash => TorrentState.noConfusion clash) held
    · exact held

/-- The row of a torrent is found under its id. -/
theorem isChecking_of_mem (t : TorrentTable) (r : Row) (member : r ∈ t.list)
    (checking : r.columns.state = .checking) : isChecking t r.id = true := by
  rw [isChecking, Rows.find?_of_mem t r member, Option.any_some, decide_eq_true_eq]
  exact checking

theorem accounted_begins (s s' : State) (id : Nat) (faults : Faults) (before : Accounted s)
    (taken : step s (.begins id faults) = some s') : Accounted s' := by
  have table := prepare_fst faults s.catalog id
  simp only [step] at taken
  cases ran : prepare faults s.catalog id with
  | mk t' result =>
    rw [ran] at taken table
    cases result with
    | error problem =>
      cases taken
      have unmarked : marks faults s.catalog id = false := by
        by_contra marked
        rw [Bool.not_eq_false] at marked
        simp only [marks, Bool.and_eq_true, Option.isNone_iff_eq_none] at marked
        obtain ⟨⟨reads, prepared⟩, writes⟩ := marked
        simp only [prepare, reads, writes] at ran
        cases hashed : prepareRecheck s.catalog id with
        | error other =>
          rw [hashed] at prepared
          cases prepared
        | ok pair =>
          rw [hashed] at ran
          cases ran
      rw [unmarked] at table
      change t' = s.catalog at table
      rw [table]
      exact before
    | ok prepared =>
      cases taken
      rw [prepare_ok faults s.catalog id prepared (by rw [ran])] at table
      change t' = setTorrentState s.catalog id .checking at table
      rw [table]
      apply forall_set s.catalog id _ (Within (s.rechecks ++ [(id, prepared.pieceCount)]))
      · intro r member checking
        obtain ⟨recheck, running, named⟩ := before r member checking
        exact ⟨recheck, List.mem_append_left _ running, named⟩
      · intro r found _ _
        exact ⟨(id, prepared.pieceCount), List.mem_append_right _ (List.mem_singleton_self _),
          (Rows.find?_key s.catalog id r found).symm⟩

/-- What a recheck leaves behind: another recheck of the torrent, or nobody `checking` under its id. -/
theorem accounted_ends (s s' : State) (k : Nat) (faults : Faults) (answers : List RecheckPieceResult)
    (before : Accounted s) (guarded : replaced s (.ends k faults answers) = true)
    (taken : step s (.ends k faults answers) = some s') : Accounted s' := by
  simp only [step] at taken
  cases running : s.rechecks[k]? with
  | none =>
    rw [running] at taken
    cases taken
  | some recheck =>
    obtain ⟨id, pieceCount⟩ := recheck
    rw [running] at taken
    cases taken
    -- a recheck that another torrent needs is not the one that ends
    have others : ∀ r ∈ s.catalog.list, r.id ≠ id → Within (s.rechecks.eraseIdx k) r := by
      intro r member apart checking
      obtain ⟨other, runs, named⟩ := before r member checking
      refine ⟨other, ?_, named⟩
      obtain ⟨j, found⟩ := List.mem_iff_getElem?.1 runs
      rw [List.mem_eraseIdx_iff_getElem?]
      refine ⟨j, ?_, found⟩
      rintro rfl
      rw [running] at found
      cases found
      exact apart named.symm
    simp only [replaced, running, Option.all_some, Bool.or_eq_true, Bool.not_eq_true',
      List.any_eq_true, decide_eq_true_eq] at guarded
    have unchanged : isChecking s.catalog id = false ∨
        (∃ other ∈ s.rechecks.eraseIdx k, other.1 = id) →
        ∀ r ∈ s.catalog.list, Within (s.rechecks.eraseIdx k) r := by
      intro covered r member
      by_cases mine : r.id = id
      · intro checking
        rcases covered with idle | ⟨other, runs, named⟩
        · have clash := isChecking_of_mem s.catalog r member checking
          rw [mine, idle] at clash
          cases clash
        · exact ⟨other, runs, named.trans mine.symm⟩
      · exact others r member mine
    show ∀ r ∈ (conclude faults answers s.catalog id pieceCount).1.list,
      Within (s.rechecks.eraseIdx k) r
    cases sound : fails faults answers pieceCount with
    | false =>
      rcases conclude_stores faults answers s.catalog id pieceCount sound with ⟨haves, stored⟩ | ⟨gone, same⟩
      · rw [stored]
        intro r member checking
        have rewritten := find?_set s.catalog id (fun r => recheckedColumns r.columns pieceCount haves) r.id
        rw [Rows.find?_of_mem _ r member] at rewritten
        split_ifs at rewritten with mine
        · obtain ⟨old, _, changed⟩ := Option.map_eq_some_iff.1 rewritten.symm
          rw [← changed] at checking
          cases checking
        · exact others r (Rows.find?_mem s.catalog _ r rewritten.symm) mine checking
      · rw [same]
        apply unchanged
        left
        rw [isChecking, gone]
        rfl
    | true =>
      obtain ⟨problem, failed⟩ := conclude_fails faults answers s.catalog id pieceCount sound
      rw [conclude_error faults answers s.catalog id pieceCount problem failed]
      rw [sound] at guarded
      apply unchanged
      rcases guarded with (clash | idle) | other
      · cases clash
      · exact Or.inl idle
      · exact Or.inr other

theorem accounted_step (s : State) (event : Event) (s' : State) (before : Accounted s)
    (guarded : replaced s event = true) (taken : step s event = some s') : Accounted s' := by
  cases event with
  | statement event =>
    rw [step] at taken
    split_ifs at taken with own
    exact within_statement s s' event (by simpa only [Bool.not_eq_true] using own) before taken
  | begins id faults => exact accounted_begins s s' id faults before taken
  | ends k faults answers => exact accounted_ends s s' k faults answers before guarded taken
  | remove id =>
    cases taken
    show ∀ r ∈ (settled s.catalog (removeTorrent s.catalog id)).list, Within s.rechecks r
    rw [removeTorrent]
    cases s.catalog.find? id with
    | none => exact before
    | some r =>
      dsimp only
      split_ifs
      · exact before
      · exact Rows.forall_delete s.catalog id (Within s.rechecks) before

/-- A recheck that fails leaves its torrent as it was, if it had not set the state yet or the torrent
was `checking` before, and else not; a later start or stop sets the state right either way. Where every
recheck that fails finds its torrent out of `checking` or another recheck of it running, no torrent is
`checking` without a recheck that runs. -/
theorem failed_recheck_restores (faults : Faults) (answers : List RecheckPieceResult)
    (t : TorrentTable) (id : Nat) (problem : Error) :
    ((recheckTorrentWithPool faults answers t id).2 = .error problem →
      ((Restored t (recheckTorrentWithPool faults answers t id).1 id ∧
          Aligns (recheckTorrentWithPool faults answers t id).1 id) ↔
        marks faults t id = false ∨ isChecking t id = true)) ∧
    ∀ (events : List Event) (s : State),
      Guarded step (fun s event => replaced s event = true) Statements.initial events →
      exec step Statements.initial events = some s → Accounted s := by
  constructor
  · intro failed
    have effect := failed_recheck faults answers t id problem failed
    have later := aligns (recheckTorrentWithPool faults answers t id).1 id
    rw [and_iff_left later, effect]
    cases marked : marks faults t id with
    | false =>
      rw [if_neg Bool.false_ne_true]
      exact ⟨fun _ => Or.inl rfl, fun _ => rfl⟩
    | true =>
      obtain ⟨r, found⟩ := marks_found faults t id marked
      rw [if_pos rfl, restored_checking t id r found]
      exact ⟨Or.inr, fun either => either.resolve_left (by decide)⟩
  · intro events s guarded ran
    exact exec_invariant step _ Accounted accounted_step Statements.initial s events
      (fun _ member => absurd member List.not_mem_nil) guarded ran

/-- A catalog with one stopped torrent of two pieces. -/
def added : TorrentTable := addTorrent Rows.empty (byteTorrent 2) ⟨["data"], none⟩ false

/-- The hash workers are gone when the second piece is handed to them. -/
def workersGone : Faults := ⟨none, none, fun index => index = 1, none⟩

/-- Rechecked well, then a recheck that cannot read, and one that fails after the user's stop. -/
def endingWell : List Event :=
  [.statement (.add (byteTorrent 2) ⟨["data"], none⟩ false), .begins 1 ⟨none, none, fun _ => false, none⟩,
    .ends 0 ⟨none, none, fun _ => false, none⟩ [.good 0, .bad 1], .begins 1 ⟨some noRows, none, fun _ => false, none⟩,
    .begins 1 ⟨none, none, fun _ => false, none⟩, .statement (.setWantStart 1 false), .ends 0 workersGone []]

theorem failed_recheck_restores_endingWell :
    (¬Restored added (recheckTorrentWithPool workersGone [] added 1).1 1) ∧
      Accounted ((exec step Statements.initial endingWell).getD Statements.initial) := by
  constructor
  · intro restored
    have exact' := (failed_recheck_restores workersGone [] added 1 (.msg "hash workers stopped")).1
      (by decide +kernel)
    have clash := exact'.1 ⟨restored, aligns _ 1⟩
    exact absurd clash (by decide +kernel)
  · exact (failed_recheck_restores workersGone [] added 1 (.msg "hash workers stopped")).2 endingWell _
      (guarded_of_guardedB step replaced Statements.initial endingWell (by decide +kernel))
      (Option.some_get (by decide +kernel)).symm

/-- A recheck whose second piece the workers refuse leaves its torrent `checking`, and nothing runs. -/
theorem refused_recheck_stays_checking :
    (¬∀ (faults : Faults) (answers : List RecheckPieceResult) (t : TorrentTable) (id : Nat)
        (problem : Error), marks faults t id = true →
      (recheckTorrentWithPool faults answers t id).2 = .error problem →
      Restored t (recheckTorrentWithPool faults answers t id).1 id) ∧
    ¬∀ (events : List Event) (s : State), exec step Statements.initial events = some s → Accounted s := by
  constructor
  · intro always
    have restored := always workersGone [] added 1 (.msg "hash workers stopped") (by decide +kernel)
      (by decide +kernel)
    exact absurd restored (by decide +kernel)
  · intro always
    have accounted := always [.statement (.add (byteTorrent 2) ⟨["data"], none⟩ false),
      .begins 1 ⟨none, none, fun _ => false, none⟩, .ends 0 workersGone []] _ rfl _
      (List.mem_singleton_self _) (by decide +kernel)
    obtain ⟨recheck, running, _⟩ := accounted
    exact absurd running List.not_mem_nil

end Seedchamp.Catalog.RecheckRuns
