import Seedchamp.Control.RecheckHaves
import Mathlib.Data.List.Nodup

/-!
A recheck under which no have is lost: every piece that it misses while its bytes are on the disk is
one that a session or the buffer is still going to mark.
-/

namespace Seedchamp.Control.HavesKept
open Foundation.KeyedRows Foundation.TransitionSystem Foundation.Tasks Catalog.Table Catalog.Pieces
open Catalog.Possession Library.Ingest
open Catalog.RecheckRuns (Faults RecheckPieceResult RecheckReport Heard receive conclude
  finishRecheck conclude_error)
open Disk.Spans Disk.ReadWrite Control.RecheckHaves Runtime.HashWorker

/-! ### The bitfield of a finished recheck -/

/-- The loop over the answers notes every good one. -/
theorem receive_good (n : Nat) (answers : List RecheckPieceResult) (h heard : Heard)
    (ran : receive n answers h = .ok heard) :
    heard.haves.length = h.haves.length ∧ n ≤ answers.length ∧
      ∀ index, index < h.haves.length →
        (h.haves.getD index false = true ∨ .good index ∈ answers.take n) →
        heard.haves.getD index false = true := by
  induction n generalizing answers h with
  | zero =>
    cases ran
    refine ⟨rfl, Nat.zero_le _, ?_⟩
    rintro index _ (before | clash)
    · exact before
    · rw [List.take_zero] at clash
      cases clash
  | succ n ih =>
    cases answers with
    | nil => cases ran
    | cons answer rest =>
      obtain ⟨sized, enough, noted⟩ := ih rest (h.note answer) ran
      have same : (h.note answer).haves.length = h.haves.length := by
        cases answer with
        | good index => exact List.length_set
        | _ => rfl
      refine ⟨sized.trans same, Nat.succ_le_succ enough, ?_⟩
      intro index inside good
      apply noted index (same ▸ inside)
      rw [List.take_succ_cons, List.mem_cons] at good
      rcases good with before | here | later
      · left
        cases answer with
        | bad _ | missing _ => exact before
        | good other =>
          change (h.haves.set other true).getD index false = true
          rw [List.getD_eq_getElem?_getD, List.getElem?_set]
          split_ifs with equal within
          · rfl
          · exact absurd (equal ▸ inside) within
          · rw [← List.getD_eq_getElem?_getD]
            exact before
      · left
        rw [← here]
        change (h.haves.set index true).getD index false = true
        rw [List.getD_eq_getElem?_getD, List.getElem?_set, if_pos rfl, if_pos inside]
        rfl
      · exact Or.inr later

/-- A recheck that ends well stores a bitfield that has every piece it found good. -/
theorem conclude_ok (faults : Faults) (answers : List RecheckPieceResult) (t t' : TorrentTable)
    (id n : Nat) (report : RecheckReport)
    (ran : conclude faults answers t id n = (t', .ok report)) :
    ∃ haves, haves.length = n ∧
      t' = Catalog.Table.set t id (fun r => recheckedColumns r.columns n haves) ∧
      (0 < n → n ≤ answers.length) ∧
      ∀ index, index < n → .good index ∈ answers.take n → haves.getD index false = true := by
  have finish : ∀ h : Heard, h.haves.length = n → finishRecheck faults t id n h = (t', .ok report) →
      t' = Catalog.Table.set t id (fun r => recheckedColumns r.columns n h.haves) := by
    intro h sized done
    rw [finishRecheck] at done
    cases stored : faults.storing with
    | some problem =>
      rw [stored] at done
      cases done
    | none =>
      rw [stored, setBitfieldFromRecheck, if_neg (not_not.2 sized)] at done
      cases present : t.find? id with
      | none =>
        rw [present] at done
        cases done
      | some r =>
        rw [present] at done
        cases done
        rfl
  rw [conclude] at ran
  split_ifs at ran with empty refused
  · subst empty
    exact ⟨[], rfl, finish _ rfl ran, fun clash => absurd clash (Nat.lt_irrefl 0),
      fun index clash => absurd clash (Nat.not_lt_zero index)⟩
  · cases ran
  · cases heard : receive n answers ⟨List.replicate n false, 0, 0, 0⟩ with
    | error problem =>
      rw [heard] at ran
      cases ran
    | ok h =>
      rw [heard] at ran
      obtain ⟨sized, enough, noted⟩ := receive_good n answers _ h heard
      have full : h.haves.length = n := sized.trans List.length_replicate
      refine ⟨h.haves, full, finish h full ran, fun _ => enough, ?_⟩
      intro index inside good
      exact noted index (by rw [List.length_replicate]; exact inside) (Or.inr good)

theorem hasPiece_rechecked (r : Row) (haves : List Bool) (sized : haves.length = r.pieceCount)
    (index : Nat) (inside : index < r.pieceCount) (good : haves.getD index false = true) :
    (r.withColumns (recheckedColumns r.columns r.pieceCount haves)).hasPiece index = true := by
  have agreement := agreement_rechecked r haves sized
  by_cases all : 0 < r.pieceCount ∧ haves.countP id = r.pieceCount
  · have complete : (r.withColumns (recheckedColumns r.columns r.pieceCount haves)).columns.complete
        = true := decide_eq_true all
    exact (agreement.complete_iff.1 complete).2 index inside
  · simp only [Row.hasPiece, Row.loadBitfieldState, Row.storedBits, recheckedColumns,
      Row.withColumns_columns, decide_eq_false all, if_neg all, Bool.false_eq_true, if_false,
      Option.bind_some, Option.getD_some]
    rw [(packHave_spec r.pieceCount haves (Nat.le_of_eq sized)).2]
    exact good

/-- The answers are about different pieces of the torrent. -/
structure Answered (n : Nat) (answers : List RecheckPieceResult) : Prop where
  distinct : (answers.map pieceOf).Nodup
  within : ∀ answer ∈ answers, pieceOf answer < n

/-- Once there is an answer for each, every piece is found good or missed. -/
theorem Answered.cover {n : Nat} {answers : List RecheckPieceResult} (given : Answered n answers)
    (enough : n ≤ answers.length) (index : Nat) (inside : index < n) :
    .good index ∈ answers.take n ∨ missed index answers = true := by
  have listed : answers.map pieceOf ⊆ List.range n := by
    intro piece mem
    obtain ⟨answer, member, rfl⟩ := List.mem_map.1 mem
    exact List.mem_range.2 (given.within answer member)
  have sub := given.distinct.subperm listed
  have few : answers.length ≤ n := by
    have bound := sub.length_le
    rw [List.length_map, List.length_range] at bound
    exact bound
  have perm := sub.perm_of_length_le (by rw [List.length_map, List.length_range]; exact enough)
  obtain ⟨answer, member, named⟩ := List.mem_map.1 (perm.mem_iff.2 (List.mem_range.2 inside))
  rw [List.take_of_length_le few]
  by_cases good : answer = .good index
  · exact Or.inl (good ▸ member)
  · refine Or.inr (List.any_eq_true.2 ⟨answer, member, ?_⟩)
    rw [named, beq_self_eq_true, Bool.true_and, bne_iff_ne]
    exact good

/-! ### The buffer -/

/-- An event that is in the buffer or in the hands of a flush. -/
def Waiting (b : Session.HaveBuffer.State) (ev : HaveEvent) : Prop := ev ∈ b.pending ∨ ev ∈ b.taken

theorem taken_set (b : Session.HaveBuffer.State) (k : Nat)
    (before after : Session.HaveBuffer.FlushPc) (running : b.flushes[k]? = some before)
    (ev : HaveEvent) (member : ev ∈ b.taken) :
    ev ∈ before.held ∨
      ev ∈ (b.flushes.set k after).flatMap Session.HaveBuffer.FlushPc.held := by
  have counts := Session.HaveBuffer.count_flatMap_set b.flushes k before after running ev
  have there := List.count_pos_iff.2 member
  rw [Session.HaveBuffer.State.taken] at there
  by_cases held : ev ∈ before.held
  · exact Or.inl held
  · rw [List.count_eq_zero_of_not_mem held] at counts
    exact Or.inr (List.count_pos_iff.1 (by omega))

theorem taken_set_self (b : Session.HaveBuffer.State) (k : Nat)
    (before after : Session.HaveBuffer.FlushPc) (running : b.flushes[k]? = some before)
    (ev : HaveEvent) (member : ev ∈ after.held) :
    ev ∈ (b.flushes.set k after).flatMap Session.HaveBuffer.FlushPc.held :=
  List.mem_flatMap.2 ⟨after, mem_set_self b.flushes k before after running, member⟩

/-- A step of a flush keeps what is waiting; only a commit changes the catalog, and takes its batch. -/
theorem flush_step (b b' : Session.HaveBuffer.State) (event : Session.HaveBuffer.Event)
    (queues : ∀ ev, event ≠ .queuePieceHave ev) (states : ∀ catalog, event ≠ .statement catalog)
    (taken : Session.HaveBuffer.step b event = some b') :
    (b'.catalog = b.catalog ∧ ∀ ev, Waiting b ev → Waiting b' ev) ∨
    ∃ k only batch became, event = .write k true ∧ b.flushes[k]? = some (.writing only batch) ∧
      markPiecesHaveBatch b.catalog batch = .ok (b'.catalog, became) ∧
      ∀ ev, Waiting b ev → ev ∈ batch ∨ Waiting b' ev := by
  -- a flush that moves on without touching the buffer
  have moves : ∀ (k : Nat) (before after : Session.HaveBuffer.FlushPc),
      b.flushes[k]? = some before → (∀ ev ∈ before.held, ev ∈ after.held) →
      ∀ ev, Waiting b ev → Waiting { b with flushes := b.flushes.set k after } ev := by
    intro k before after running keeps ev waiting
    rcases waiting with pending | held
    · exact Or.inl pending
    · rcases taken_set b k before after running ev held with own | other
      · exact Or.inr (taken_set_self b k before after running ev (keeps ev own))
      · exact Or.inr other
  cases event with
  | queuePieceHave ev => exact absurd rfl (queues ev)
  | statement catalog => exact absurd rfl (states catalog)
  | enter only force =>
    cases taken
    refine Or.inl ⟨rfl, ?_⟩
    rintro ev (pending | held)
    · exact Or.inl pending
    · refine Or.inr ?_
      simp only [Session.HaveBuffer.State.taken, List.flatMap_append, List.mem_append]
      exact Or.inl held
  | test k timeDue anyComplete =>
    rw [Session.HaveBuffer.step] at taken
    split at taken
    case h_1 only force running =>
      have none : ∀ after, ∀ ev ∈ (Session.HaveBuffer.FlushPc.entered only force).held,
          ev ∈ Session.HaveBuffer.FlushPc.held after := fun after ev clash => (by cases clash)
      split_ifs at taken
      · cases taken
        exact Or.inl ⟨rfl, moves k _ _ running (none _)⟩
      · cases taken
        exact Or.inl ⟨rfl, moves k _ _ running (none _)⟩
    case h_2 => cases taken
  | take k =>
    rw [Session.HaveBuffer.step] at taken
    split at taken
    case h_1 only running =>
      cases taken
      refine Or.inl ⟨rfl, ?_⟩
      rintro ev (pending | held)
      · have split : ev ∈ (Session.HaveBuffer.takeBatch only b.pending).1 ∨
            ev ∈ (Session.HaveBuffer.takeBatch only b.pending).2 := by
          have counts := Session.HaveBuffer.count_takeBatch only b.pending ev
          have there := List.count_pos_iff.2 pending
          by_cases first : ev ∈ (Session.HaveBuffer.takeBatch only b.pending).1
          · exact Or.inl first
          · rw [List.count_eq_zero_of_not_mem first] at counts
            exact Or.inr (List.count_pos_iff.1 (by omega))
        rcases split with batch | left
        · refine Or.inr (taken_set_self b k _ _ running ev ?_)
          rw [if_neg (fun empty => by rw [List.isEmpty_iff.1 empty] at batch; cases batch)]
          exact batch
        · exact Or.inl left
      · rcases taken_set b k _ (if (Session.HaveBuffer.takeBatch only b.pending).1.isEmpty = true
            then .returned only else .writing only (Session.HaveBuffer.takeBatch only b.pending).1)
            running ev held with own | other
        · cases own
        · exact Or.inr other
    case h_2 => cases taken
  | write k sql =>
    rw [Session.HaveBuffer.step] at taken
    split at taken
    case h_1 only batch running =>
      split at taken
      case h_1 catalog became committed =>
        cases sql with
        | false => cases committed
        | true =>
          cases taken
          refine Or.inr ⟨k, only, batch, became, rfl, running, committed, ?_⟩
          rintro ev (pending | held)
          · exact Or.inr (Or.inl pending)
          · rcases taken_set b k _ (.returned only) running ev held with own | other
            · exact Or.inl own
            · exact Or.inr (Or.inr other)
      case h_2 problem failed =>
        cases taken
        exact Or.inl ⟨rfl, moves k _ _ running (fun ev member => member)⟩
    case h_2 => cases taken
  | requeue k =>
    rw [Session.HaveBuffer.step] at taken
    split at taken
    case h_1 only batch running =>
      cases taken
      refine Or.inl ⟨rfl, ?_⟩
      rintro ev (pending | held)
      · exact Or.inl (List.mem_append_left _ pending)
      · rcases taken_set b k _ (.returned only) running ev held with own | other
        · exact Or.inl (List.mem_append_right _ own)
        · exact Or.inr other
    case h_2 => cases taken

/-! ### The invariant -/

section
variable {H : Type} (digest : Digest H) (fresh : H) (finalize : H → List UInt8)
variable (resolve : PathBuf → PathBuf) (id : Nat)

/-- Whatever is wanting is owed. -/
structure Kept (s : State) : Prop where
  row : ∃ r, s.row id = some r ∧ Agreement r
  answered : ∀ prepared answers, s.recheck = .running prepared answers →
    (∃ r, s.row id = some r ∧ prepared.pieceCount = r.pieceCount) ∧
      Answered prepared.pieceCount answers
  within : ∀ onDisk, s.recheck = .applied onDisk → ∀ r, s.row id = some r →
    ∀ index ∈ onDisk, index < r.pieceCount
  covered : ∀ index, s.wanting digest fresh finalize resolve id index → s.owed id index

theorem wanting_running (s : State) (prepared : RecheckPrepared) (answers : List RecheckPieceResult)
    (at' : s.recheck = .running prepared answers) (index : Nat) :
    s.wanting digest fresh finalize resolve id index ↔ missed index answers = true ∧
      s.found digest fresh finalize resolve id index = true := by
  rw [State.wanting, at']

theorem wanting_applied (s : State) (onDisk : List Nat) (at' : s.recheck = .applied onDisk)
    (index : Nat) : s.wanting digest fresh finalize resolve id index ↔
      index ∈ onDisk ∧ s.had id index = false := by
  rw [State.wanting, at']

theorem not_wanting (s : State) (at' : s.recheck = .idle) (index : Nat) :
    ¬ s.wanting digest fresh finalize resolve id index := by
  rw [State.wanting, at']
  exact False.elim

theorem kept_start (s : State) (start : Start id s) : Kept digest fresh finalize resolve id s where
  row := start.row
  answered := by
    intro prepared answers running
    rw [start.recheck] at running
    cases running
  within := by
    intro onDisk applied
    rw [start.recheck] at applied
    cases applied
  covered := fun index wanting =>
    absurd wanting (not_wanting digest fresh finalize resolve id s start.recheck index)

/-- What is under the data root depends on the files and on the row's layout. -/
theorem found_congr (s s' : State) (volume : s'.volume = s.volume) (r r' : Row)
    (before : s.row id = some r) (after : s'.row id = some r')
    (layout : r'.loadStorageLayout = r.loadStorageLayout)
    (hashes : r'.pieceHashes = r.pieceHashes) (index : Nat) :
    s'.found digest fresh finalize resolve id index = s.found digest fresh finalize resolve id index := by
  simp only [State.found, before, after, layout, hashes, volume]

theorem layout_withColumns (r : Row) (c : Columns) (metaPath : c.metaPath = r.columns.metaPath)
    (files : c.files = r.columns.files) :
    (r.withColumns c).loadStorageLayout = r.loadStorageLayout := by
  simp only [Row.loadStorageLayout, Row.withColumns_columns, metaPath, files]
  rfl

variable {digest fresh finalize resolve id}

/-- A step that leaves the phase, and of the row what a reader looks at. -/
theorem Kept.frame {s : State} (kept : Kept digest fresh finalize resolve id s) (s' : State)
    (phase : s'.recheck = s.recheck) (r r' : Row) (before : s.row id = some r)
    (after : s'.row id = some r') (agreement : Agreement r') (count : r'.pieceCount = r.pieceCount)
    (covered : ∀ index, (∀ r, s.row id = some r → s.running = false → index < r.pieceCount) →
      s'.wanting digest fresh finalize resolve id index → s'.owed id index) :
    Kept digest fresh finalize resolve id s' where
  row := ⟨r', after, agreement⟩
  answered := by
    intro prepared answers running
    obtain ⟨⟨old, present, same⟩, given⟩ := kept.answered prepared answers (phase ▸ running)
    rw [before] at present
    cases present
    exact ⟨⟨r', after, same.trans count.symm⟩, given⟩
  within := by
    intro onDisk applied row present index member
    rw [after] at present
    cases present
    rw [count]
    exact kept.within onDisk (phase ▸ applied) r before index member
  covered := by
    intro index wanting
    refine covered index ?_ wanting
    intro row present still
    cases at' : s.recheck with
    | idle => exact absurd wanting (not_wanting digest fresh finalize resolve id s' (phase.trans at') index)
    | running prepared answers =>
      rw [State.running, at'] at still
      cases still
    | applied onDisk =>
      have listed := (wanting_applied digest fresh finalize resolve id s' onDisk (phase.trans at')
        index).1 wanting
      exact kept.within onDisk at' row present index listed.1

/-- A step that leaves the phase, the files and the catalog alone. -/
theorem Kept.still {s : State} (kept : Kept digest fresh finalize resolve id s) (s' : State)
    (phase : s'.recheck = s.recheck) (volume : s'.volume = s.volume)
    (catalog : s'.buffer.catalog = s.buffer.catalog)
    (owes : ∀ index, s.wanting digest fresh finalize resolve id index → s.owed id index →
      s'.owed id index) : Kept digest fresh finalize resolve id s' := by
  obtain ⟨r, present, agreement⟩ := kept.row
  have after : s'.row id = some r := by rw [State.row, catalog]; exact present
  refine kept.frame s' phase r r present after agreement rfl ?_
  intro index _ wanting
  have same : s.wanting digest fresh finalize resolve id index := by
    cases at' : s.recheck with
    | idle => exact absurd wanting (not_wanting digest fresh finalize resolve id s' (phase.trans at') index)
    | running prepared answers =>
      rw [wanting_running digest fresh finalize resolve id s' prepared answers (phase.trans at'),
        found_congr digest fresh finalize resolve id s s' volume r r present after rfl rfl] at wanting
      exact (wanting_running digest fresh finalize resolve id s prepared answers at' index).2 wanting
    | applied onDisk =>
      rw [wanting_applied digest fresh finalize resolve id s' onDisk (phase.trans at'), State.had,
        after] at wanting
      rw [wanting_applied digest fresh finalize resolve id s onDisk at', State.had, present]
      exact wanting
  exact owes index same (kept.covered index same)

theorem kept_begin (s : State) (kept : Kept digest fresh finalize resolve id s)
    (catalog : TorrentTable) (prepared : RecheckPrepared)
    (ran : prepareRecheck s.buffer.catalog id = .ok (catalog, prepared)) :
    Kept digest fresh finalize resolve id
      { s with buffer := { s.buffer with catalog := catalog }, recheck := .running prepared [] } := by
  obtain ⟨r, present, agreement⟩ := kept.row
  obtain ⟨stated, old, listed, count⟩ := Catalog.Statements.prepareRecheck_ok _ _ id prepared ran
  have same : s.buffer.catalog.find? id = some r := present
  rw [same] at listed
  cases listed
  have after : catalog.find? id = some (r.withColumns { r.columns with state := .checking }) := by
    rw [stated, setTorrentState, find?_set, if_pos rfl, same]
    rfl
  refine ⟨⟨_, after, agreement_withColumns r _ agreement rfl rfl⟩, ?_, ?_, ?_⟩
  · intro other answers running
    cases running
    exact ⟨⟨_, after, count.symm⟩, List.nodup_nil, fun answer clash => (by cases clash)⟩
  · intro onDisk applied
    cases applied
  · intro index wanting
    cases wanting.1

theorem handleRecheck_piece (files : Foundation.Files.Volume PathBuf) (layout : StorageLayout)
    (hashes : List UInt8) (index : Nat) :
    pieceOf (handleRecheck digest fresh finalize files layout hashes index) = index := by
  unfold handleRecheck
  split
  · rfl
  · split_ifs <;> rfl

theorem kept_hash (s s' : State) (kept : Kept digest fresh finalize resolve id s) (index : Nat)
    (opened : PathBuf → Option Nat)
    (harmless : Harmless digest fresh finalize resolve id s (.hash index opened))
    (taken : step digest fresh finalize resolve id s (.hash index opened) = some s') :
    Kept digest fresh finalize resolve id s' := by
  simp only [step] at taken
  cases at' : s.recheck with
  | idle | applied _ => rw [at'] at taken; cases taken
  | running prepared answers =>
    rw [at'] at taken
    dsimp only at taken
    split_ifs at taken with skipped
    cases taken
    rw [not_or, not_le] at skipped
    obtain ⟨inside, new⟩ := skipped
    obtain ⟨listed, given⟩ := kept.answered prepared answers at'
    have named : pieceOf (handleRecheck digest fresh finalize (view resolve s.volume opened)
        prepared.layout prepared.hashes index) = index :=
      handleRecheck_piece (view resolve s.volume opened) prepared.layout prepared.hashes index
    refine ⟨kept.row, ?_, fun onDisk applied => (by cases applied), ?_⟩
    · intro other later running
      cases running
      refine ⟨listed, ?_, ?_⟩
      · rw [List.map_append, List.map_singleton, named, List.nodup_append]
        refine ⟨given.distinct, List.nodup_singleton index, ?_⟩
        intro a member b last
        rw [List.mem_singleton.1 last]
        exact fun same => new (same ▸ member)
      · intro answer member
        rcases List.mem_append.1 member with old | last
        · exact given.within answer old
        · rw [List.mem_singleton.1 last, named]
          exact inside
    · intro other wanting
      obtain ⟨missing, onDisk⟩ := wanting
      rw [missed, List.any_append, Bool.or_eq_true] at missing
      rcases missing with before | last
      · apply kept.covered other
        exact (wanting_running digest fresh finalize resolve id s prepared answers at' other).2
          ⟨before, onDisk⟩
      · rw [List.any_cons, List.any_nil, Bool.or_false, Bool.and_eq_true, beq_iff_eq, named] at last
        obtain ⟨same, bad⟩ := last
        subst same
        have good := harmless prepared answers at' onDisk
        rw [good, bne_self_eq_false] at bad
        cases bad

/-- After a finished recheck the catalog has what it found, and what it missed is owed. -/
theorem kept_finish (s : State) (kept : Kept digest fresh finalize resolve id s)
    (prepared : RecheckPrepared) (answers : List RecheckPieceResult) (faults : Faults)
    (at' : s.recheck = .running prepared answers) :
    Kept digest fresh finalize resolve id
      (s.finish digest fresh finalize resolve id prepared answers faults) := by
  obtain ⟨r, present, agreement⟩ := kept.row
  obtain ⟨⟨old, listed, count⟩, given⟩ := kept.answered prepared answers at'
  rw [present] at listed
  cases listed
  rw [State.finish]
  cases ran : conclude faults answers s.buffer.catalog id prepared.pieceCount with
  | mk catalog result =>
    cases result with
    | error problem =>
      have unchanged := conclude_error faults answers s.buffer.catalog id prepared.pieceCount problem
        (by rw [ran])
      rw [ran] at unchanged
      dsimp only at unchanged ⊢
      rw [unchanged]
      exact ⟨⟨r, present, agreement⟩, fun _ _ clash => (by cases clash),
        fun _ clash => (by cases clash), fun index wanting => (by cases wanting)⟩
    | ok report =>
      obtain ⟨haves, sized, stored, enough, good⟩ := conclude_ok faults answers _ _ id _ report ran
      rw [count] at sized stored enough good
      have after : catalog.find? id =
          some (r.withColumns (recheckedColumns r.columns r.pieceCount haves)) := by
        rw [stored, find?_set, if_pos rfl, show s.buffer.catalog.find? id = some r from present]
        rfl
      refine ⟨⟨_, after, agreement_rechecked r haves sized⟩, fun _ _ clash => (by cases clash), ?_, ?_⟩
      · intro onDisk applied row found index member
        cases applied
        have same : catalog.find? id = some row := found
        rw [after] at same
        cases same
        have inside := List.mem_range.1 (List.mem_filter.1 member).1
        rw [count] at inside
        exact inside
      · intro index wanting
        obtain ⟨member, unmarked⟩ := wanting
        obtain ⟨listed, onDisk⟩ := List.mem_filter.1 member
        have inside : index < r.pieceCount := count ▸ List.mem_range.1 listed
        rw [← count] at inside
        rcases given.cover (count ▸ enough (Nat.zero_lt_of_lt (count ▸ inside))) index inside
          with found | missing
        · rw [count] at inside found
          have marked := hasPiece_rechecked r haves sized index inside (good index inside found)
          simp only [State.had, State.row, after, Option.any_some, marked] at unmarked
          cases unmarked
        · apply kept.covered index
          exact (wanting_running digest fresh finalize resolve id s prepared answers at' index).2
            ⟨missing, onDisk⟩

theorem kept_outcome (s : State) (kept : Kept digest fresh finalize resolve id s) (k : Nat) (ok : Bool)
    (index plen : Nat) (running : s.jobs[k]? = some (index, plen))
    (harmless : Harmless digest fresh finalize resolve id s (.outcome k ok)) :
    Kept digest fresh finalize resolve id (s.applyHashOutcome id k ok index plen) := by
  have others : ∀ other length, (other, length) ∈ s.jobs → other ≠ index →
      (other, length) ∈ s.jobs.eraseIdx k := by
    intro other length member distinct
    obtain ⟨j, found⟩ := List.mem_iff_getElem?.1 member
    refine List.mem_eraseIdx_iff_getElem?.2 ⟨j, ?_, found⟩
    intro same
    rw [same, running] at found
    cases found
    exact distinct rfl
  rw [State.applyHashOutcome]
  cases marks : ok && !s.hot index with
  | true =>
    rw [if_pos rfl]
    refine kept.still _ rfl rfl rfl ?_
    rintro other _ (⟨length, member⟩ | ⟨ev, tid, named, before | waiting⟩)
    · by_cases same : other = index
      · exact Or.inr ⟨_, rfl, same.symm, Or.inl (List.mem_append_right _ List.mem_cons_self)⟩
      · exact Or.inl ⟨length, others other length member same⟩
    · exact Or.inr ⟨ev, tid, named, Or.inl (List.mem_append_left _ before)⟩
    · exact Or.inr ⟨ev, tid, named, Or.inr waiting⟩
  | false =>
    rw [if_neg Bool.false_ne_true]
    refine kept.still _ rfl rfl rfl ?_
    intro other wanting owed
    by_cases same : other = index
    · subst same
      exact harmless other plen running marks wanting
    · rcases owed with ⟨length, member⟩ | later
      · exact Or.inl ⟨length, others other length member same⟩
      · exact Or.inr later

theorem kept_queuePieceHave (s : State) (kept : Kept digest fresh finalize resolve id s) (k : Nat)
    (ev : HaveEvent) (first : s.marked[k]? = some ev) :
    Kept digest fresh finalize resolve id { s with
      marked := s.marked.eraseIdx k
      buffer := { s.buffer with
        pending := s.buffer.pending ++ [ev]
        queued := s.buffer.queued ++ [ev] } } := by
  refine kept.still _ rfl rfl rfl ?_
  rintro other _ (job | ⟨found, tid, named, before | pending | held⟩)
  · exact Or.inl job
  · refine Or.inr ⟨found, tid, named, ?_⟩
    by_cases same : found = ev
    · exact Or.inr (Or.inl (List.mem_append_right _ (same ▸ List.mem_cons_self)))
    · obtain ⟨j, there⟩ := List.mem_iff_getElem?.1 before
      refine Or.inl (List.mem_eraseIdx_iff_getElem?.2 ⟨j, ?_, there⟩)
      intro clash
      rw [clash, first] at there
      cases there
      exact same rfl
  · exact Or.inr ⟨found, tid, named, Or.inr (Or.inl (List.mem_append_left _ pending))⟩
  · exact Or.inr ⟨found, tid, named, Or.inr (Or.inr held)⟩

/-- A commit takes the events of its batch and marks their pieces. -/
theorem kept_commit (s : State) (kept : Kept digest fresh finalize resolve id s)
    (b : Session.HaveBuffer.State) (k : Nat) (only : Option Nat) (batch : List HaveEvent)
    (became : List Nat) (writing : s.buffer.flushes[k]? = some (.writing only batch))
    (ran : markPiecesHaveBatch s.buffer.catalog batch = .ok (b.catalog, became))
    (remain : ∀ ev, Waiting s.buffer ev → ev ∈ batch ∨ Waiting b ev)
    (harmless : Harmless digest fresh finalize resolve id s (.flush (.write k true))) :
    Kept digest fresh finalize resolve id { s with buffer := b } := by
  obtain ⟨r, present, agreement⟩ := kept.row
  have rows := rowwise_markPiecesHaveBatch s.buffer.catalog b.catalog batch became ran id
  rw [show s.buffer.catalog.find? id = some r from present, Option.map_some] at rows
  have named : r.id = id := Rows.find?_key s.buffer.catalog id r present
  dsimp only at rows
  rw [named] at rows
  have layout := layout_withColumns r (applyHaves r (itemsOf id batch)) (applyHaves_metaPath r _)
    (applyHaves_files r _)
  refine kept.frame _ rfl r _ present rows (agreement_applyHaves r _ agreement) rfl ?_
  intro index bounded wanting
  -- the piece was wanting before, and no event of the batch is about it
  have both : s.wanting digest fresh finalize resolve id index ∧
      ∀ ev ∈ batch, ev.tid = id → ev.index ≠ index := by
    cases at' : s.recheck with
    | idle =>
      exact absurd wanting (not_wanting digest fresh finalize resolve id { s with buffer := b } at' index)
    | running prepared answers =>
      rw [wanting_running digest fresh finalize resolve id { s with buffer := b } prepared answers at',
        found_congr digest fresh finalize resolve id s { s with buffer := b } rfl r _ present rows
          layout rfl] at wanting
      have here := (wanting_running digest fresh finalize resolve id s prepared answers at' index).2
        wanting
      refine ⟨here, ?_⟩
      intro ev member tid clash
      have busy : s.running = true := by rw [State.running, at']
      exact harmless busy only batch writing ev member tid (clash ▸ here)
    | applied onDisk =>
      obtain ⟨listed, unmarked⟩ := (wanting_applied digest fresh finalize resolve id
        { s with buffer := b } onDisk at' index).1 wanting
      have inside : index < r.pieceCount := bounded r present (by rw [State.running, at'])
      have after := hasPiece_applyHaves_iff r (itemsOf id batch) agreement index inside
      have row' : State.row id { s with buffer := b } =
          some (r.withColumns (applyHaves r (itemsOf id batch))) := rows
      rw [State.had, row', Option.any_some] at unmarked
      constructor
      · rw [wanting_applied digest fresh finalize resolve id s onDisk at']
        refine ⟨listed, ?_⟩
        rw [State.had, present, Option.any_some]
        apply Bool.eq_false_of_not_eq_true
        intro before
        rw [after.2 (Or.inl before)] at unmarked
        cases unmarked
      · intro ev member tid clash
        have item : (ev.index, ev.plen) ∈ itemsOf id batch :=
          List.mem_map.2 ⟨ev, List.mem_filter.2 ⟨member, decide_eq_true tid⟩, rfl⟩
        rw [after.2 (Or.inr ⟨_, item, clash⟩)] at unmarked
        cases unmarked
  obtain ⟨before, apart⟩ := both
  rcases kept.covered index before with job | ⟨ev, tid, about, marked | waiting⟩
  · exact Or.inl job
  · exact Or.inr ⟨ev, tid, about, Or.inl marked⟩
  · rcases remain ev waiting with taken | left
    · exact absurd about (apart ev taken tid)
    · exact Or.inr ⟨ev, tid, about, Or.inr left⟩

/-- A change of the files or of the data root. -/
theorem kept_moved (s s' : State) (kept : Kept digest fresh finalize resolve id s)
    (marks : Marks digest fresh finalize resolve id s s') (phase : s'.recheck = s.recheck)
    (r r' : Row) (before : s.row id = some r) (after : s'.row id = some r') (agreement : Agreement r')
    (count : r'.pieceCount = r.pieceCount) (had : r'.hasPiece = r.hasPiece)
    (owes : ∀ index, s.owed id index → s'.owed id index) :
    Kept digest fresh finalize resolve id s' := by
  refine kept.frame s' phase r r' before after agreement count ?_
  intro index _ wanting
  apply owes
  by_cases earlier : s.wanting digest fresh finalize resolve id index
  · exact kept.covered index earlier
  · apply marks _ index wanting earlier
    cases at' : s.recheck with
    | running prepared answers => rw [State.running, at']
    | idle => exact absurd wanting (not_wanting digest fresh finalize resolve id s' (phase.trans at') index)
    | applied onDisk =>
      rw [wanting_applied digest fresh finalize resolve id s' onDisk (phase.trans at'), State.had,
        after, Option.any_some, had] at wanting
      rw [wanting_applied digest fresh finalize resolve id s onDisk at', State.had, before,
        Option.any_some] at earlier
      exact absurd wanting earlier

theorem kept_step (s : State) (event : RecheckHaves.Event) (s' : State)
    (kept : Kept digest fresh finalize resolve id s)
    (harmless : Harmless digest fresh finalize resolve id s event)
    (taken : step digest fresh finalize resolve id s event = some s') :
    Kept digest fresh finalize resolve id s' := by
  cases event with
  | hash index opened => exact kept_hash s s' kept index opened harmless taken
  | begin =>
    rw [step] at taken
    split_ifs at taken
    split at taken
    · cases taken
    · rename_i catalog prepared ran
      cases taken
      exact kept_begin s kept catalog prepared ran
  | finish faults =>
    rw [step] at taken
    split at taken
    · rename_i prepared answers at'
      cases taken
      exact kept_finish s kept prepared answers faults at'
    · cases taken
  | restart =>
    cases taken
    exact kept.still _ rfl rfl rfl (fun index _ owed => owed)
  | submit index plen =>
    rw [step] at taken
    split_ifs at taken
    cases taken
    refine kept.still _ rfl rfl rfl ?_
    rintro other _ (⟨length, member⟩ | later)
    · exact Or.inl ⟨length, List.mem_append_left _ member⟩
    · exact Or.inr later
  | outcome k ok =>
    rw [step] at taken
    split at taken
    · rename_i index plen running
      cases taken
      exact kept_outcome s kept k ok index plen running harmless
    · cases taken
  | queuePieceHave k =>
    rw [step] at taken
    split at taken
    · rename_i ev first
      cases taken
      exact kept_queuePieceHave s kept k ev first
    · cases taken
  | queueOther ev =>
    rw [step] at taken
    split_ifs at taken
    cases taken
    refine kept.still _ rfl rfl rfl ?_
    rintro other _ (job | ⟨found, tid, named, before | pending | held⟩)
    · exact Or.inl job
    · exact Or.inr ⟨found, tid, named, Or.inl before⟩
    · exact Or.inr ⟨found, tid, named, Or.inr (Or.inl (List.mem_append_left _ pending))⟩
    · exact Or.inr ⟨found, tid, named, Or.inr (Or.inr held)⟩
  | file call =>
    cases taken
    obtain ⟨r, present, agreement⟩ := kept.row
    exact kept_moved s _ kept harmless rfl r r present present agreement rfl rfl
      (fun index owed => owed)
  | setDataRoot root =>
    cases taken
    obtain ⟨r, present, agreement⟩ := kept.row
    have after : (s.setDataRoot id root).row id = some (r.withColumns { r.columns with
        metaPath := r.columns.metaPath.map (fun roots => { roots with dataRoot := root }) }) := by
      rw [State.row, State.setDataRoot, find?_set, if_pos rfl,
        show s.buffer.catalog.find? id = some r from present]
      rfl
    exact kept_moved s _ kept harmless rfl r _ present after
      (agreement_withColumns r _ agreement rfl rfl) rfl (hasPiece_withColumns r _ rfl rfl)
      (fun index owed => owed)
  | flush event =>
    have waits : ∀ (b : Session.HaveBuffer.State), b.catalog = s.buffer.catalog →
        (∀ ev, Waiting s.buffer ev → Waiting b ev) →
        Kept digest fresh finalize resolve id { s with buffer := b } := by
      intro b catalog remain
      refine kept.still _ rfl rfl catalog ?_
      rintro other _ (job | ⟨found, tid, named, before | waiting⟩)
      · exact Or.inl job
      · exact Or.inr ⟨found, tid, named, Or.inl before⟩
      · exact Or.inr ⟨found, tid, named, Or.inr (remain found waiting)⟩
    have steps : ∀ event : Session.HaveBuffer.Event, (∀ ev, event ≠ .queuePieceHave ev) →
        (∀ catalog, event ≠ .statement catalog) →
        Harmless digest fresh finalize resolve id s (.flush event) →
        (Session.HaveBuffer.step s.buffer event).map (fun b => { s with buffer := b }) = some s' →
        Kept digest fresh finalize resolve id s' := by
      intro event queues states safe moved
      obtain ⟨b, ran, rfl⟩ := Option.map_eq_some_iff.1 moved
      rcases flush_step s.buffer b event queues states ran with
        ⟨catalog, remain⟩ | ⟨k, only, batch, became, rfl, writing, committed, remain⟩
      · exact waits b catalog remain
      · exact kept_commit s kept b k only batch became writing committed remain safe
    cases event with
    | queuePieceHave _ | statement _ => cases taken
    | enter only force =>
      exact steps _ (fun _ clash => (by cases clash)) (fun _ clash => (by cases clash)) harmless taken
    | test k timeDue anyComplete =>
      exact steps _ (fun _ clash => (by cases clash)) (fun _ clash => (by cases clash)) harmless taken
    | take k =>
      exact steps _ (fun _ clash => (by cases clash)) (fun _ clash => (by cases clash)) harmless taken
    | write k sql =>
      exact steps _ (fun _ clash => (by cases clash)) (fun _ clash => (by cases clash)) harmless taken
    | requeue k =>
      exact steps _ (fun _ clash => (by cases clash)) (fun _ clash => (by cases clash)) harmless taken

end

/-- In a run of harmless steps, a recheck that was applied has lost no have: once nothing of the
torrent is on its way, every piece that was on the disk when it finished is marked. -/
theorem recheck_keeps_haves {H : Type} (digest : Digest H) (fresh : H) (finalize : H → List UInt8)
    (resolve : PathBuf → PathBuf) (id : Nat) (s s' : State) (start : Start id s)
    (events : List RecheckHaves.Event)
    (guarded : Guarded (step digest fresh finalize resolve id)
      (Harmless digest fresh finalize resolve id) s events)
    (ran : exec (step digest fresh finalize resolve id) s events = some s') (onDisk : List Nat)
    (applied : s'.recheck = .applied onDisk) (settled : s'.Settled id) :
    ∀ index ∈ onDisk, s'.had id index = true := by
  have kept := exec_invariant (step digest fresh finalize resolve id)
    (Harmless digest fresh finalize resolve id) (Kept digest fresh finalize resolve id)
    kept_step s s' events (kept_start digest fresh finalize resolve id s start) guarded ran
  intro index member
  by_contra unmarked
  apply settled index
  apply kept.covered index
  exact (wanting_applied digest fresh finalize resolve id s' onDisk applied index).2
    ⟨member, Bool.eq_false_of_not_eq_true unmarked⟩

/-! ### One piece -/

/-- A check that is enough for a step to be harmless: the sessions still have a job for every piece
that the recheck has missed. -/
def unharmed {H : Type} (digest : Digest H) (fresh : H) (finalize : H → List UInt8)
    (resolve : PathBuf → PathBuf) (id : Nat) (s : State) : RecheckHaves.Event → Bool
  | .hash index _ => !s.found digest fresh finalize resolve id index
  | .file _ | .setDataRoot _ =>
    match s.recheck with
    | .running _ answers => answers.all (fun answer => s.jobs.any (fun job => job.1 == pieceOf answer))
    | _ => true
  | .flush (.write _ true) => !s.running
  | .outcome k ok =>
    match s.jobs[k]? with
    | some (index, _) => ok && !s.hot index
    | none => true
  | _ => true

theorem harmless_of_unharmed {H : Type} (digest : Digest H) (fresh : H) (finalize : H → List UInt8)
    (resolve : PathBuf → PathBuf) (id : Nat) (s : State) (event : RecheckHaves.Event)
    (checked : unharmed digest fresh finalize resolve id s event = true) :
    Harmless digest fresh finalize resolve id s event := by
  have marks : ∀ s' : State, s'.recheck = s.recheck →
      unharmed digest fresh finalize resolve id s (.file (.unlink [])) = true →
      Marks digest fresh finalize resolve id s s' := by
    intro s' phase jobs running index wanting _
    rw [State.running] at running
    cases at' : s.recheck with
    | idle | applied _ => rw [at'] at running; cases running
    | running prepared answers =>
      have missing := ((wanting_running digest fresh finalize resolve id s' prepared answers
        (phase.trans at') index).1 wanting).1
      obtain ⟨answer, member, named⟩ := List.any_eq_true.1 missing
      rw [Bool.and_eq_true, beq_iff_eq] at named
      simp only [unharmed, at', List.all_eq_true] at jobs
      obtain ⟨job, listed, about⟩ := List.any_eq_true.1 (jobs answer member)
      rw [beq_iff_eq, named.1] at about
      exact Or.inl ⟨job.2, about ▸ listed⟩
  cases event with
  | hash index opened =>
    intro prepared answers running onDisk
    rw [unharmed, onDisk] at checked
    cases checked
  | file _ | setDataRoot _ => exact marks _ rfl checked
  | outcome k ok =>
    intro index plen running given
    rw [unharmed, running] at checked
    exact absurd (checked.symm.trans given) (by decide)
  | flush event =>
    cases event with
    | write k sql =>
      cases sql with
      | false => trivial
      | true =>
        intro running
        rw [unharmed, running] at checked
        cases checked
    | _ => trivial
  | _ => trivial

/-- The bytes are their own hasher. -/
def bytesDigest : Digest (List UInt8) where
  update := fun hasher bytes => hasher ++ bytes
  empty := List.append_nil
  chained := List.append_assoc

/-- SHA-1 of the one byte `a`. -/
def sha1OfA : List UInt8 :=
  [0x86, 0xf7, 0xe4, 0x37, 0xfa, 0xa5, 0xa7, 0xfc, 0xe1, 0x5d, 0x1d, 0xdc, 0xb9, 0xea, 0xea, 0xea,
    0x37, 0x76, 0x67, 0xb8]

def sha1Table (bytes : List UInt8) : List UInt8 :=
  if bytes = [0x61] then sha1OfA else List.replicate 20 0

def pieceOfA : Metainfo := { byteTorrent 1 with pieces := sha1OfA }

def added : State where
  volume := ⟨fun _ => none, fun _ => [], 0, fun _ _ clash => (by cases clash)⟩
  buffer := Session.HaveBuffer.initial (addTorrent Rows.empty pieceOfA ⟨["data"], none⟩ true)
  hot := fun _ => false
  jobs := []
  marked := []
  recheck := .idle

theorem added_start : Start 1 added where
  row := ⟨_, rfl, agreement_added pieceOfA ⟨["data"], none⟩ true 1⟩
  recheck := rfl

/-- The recheck misses the piece, a session writes it and marks it. -/
def raced : List RecheckHaves.Event :=
  [.begin, .hash 0 (fun _ => none), .submit 0 1, .file (.openWrite ["data", "a"]),
    .file (.write 0 0 [0x61]), .outcome 0 true, .queuePieceHave 0]

def flushed : List RecheckHaves.Event :=
  [.flush (.enter none true), .flush (.test 0 true false), .flush (.take 0), .flush (.write 0 true)]

def finished : RecheckHaves.Event := .finish ⟨none, none, fun _ => false, none⟩

def after (events : List RecheckHaves.Event) : State :=
  (exec (step bytesDigest [] sha1Table id 1) added events).getD added

theorem settled_of_empty (s : State) (id : Nat) (jobs : s.jobs = []) (marked : s.marked = [])
    (pending : s.buffer.pending = []) (taken : s.buffer.taken = []) : s.Settled id := by
  rintro index (⟨plen, member⟩ | ⟨ev, _, _, member | member | member⟩)
  · rw [jobs] at member
    cases member
  · rw [marked] at member
    cases member
  · rw [pending] at member
    cases member
  · rw [taken] at member
    cases member

/-- The event waits in the buffer until the recheck has finished. -/
theorem recheck_keeps_haves_flushedAfter :
    (after (raced ++ finished :: flushed)).had 1 0 = true :=
  recheck_keeps_haves bytesDigest [] sha1Table id 1 added (after (raced ++ finished :: flushed))
    added_start (raced ++ finished :: flushed)
    (guarded_mono _ _ _ (harmless_of_unharmed bytesDigest [] sha1Table id 1) _ _
      (guarded_of_guardedB _ _ _ _ (by decide +kernel)))
    (Option.some_get (by decide +kernel)).symm [0] (by decide +kernel)
    (settled_of_empty _ 1 (by decide +kernel) (by decide +kernel) (by decide +kernel)
      (by decide +kernel)) 0 (by decide)

/-- A flush before the finish marks the piece, and the stored bitfield takes it back: its bytes are
on the disk, nothing is on its way, and the catalog does not have it. -/
theorem recheck_loses_have :
    ∃ s, exec (step bytesDigest [] sha1Table id 1) added (raced ++ flushed ++ [finished]) = some s ∧
      s.recheck = .applied [0] ∧ s.Settled 1 ∧ s.had 1 0 = false ∧
      (after (raced ++ flushed)).had 1 0 = true := by
  refine ⟨after (raced ++ flushed ++ [finished]), (Option.some_get (by decide +kernel)).symm,
    by decide +kernel, settled_of_empty _ 1 (by decide +kernel) (by decide +kernel)
      (by decide +kernel) (by decide +kernel), by decide +kernel, by decide +kernel⟩

end Seedchamp.Control.HavesKept
