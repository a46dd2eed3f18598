import Seedchamp.Session.HaveBuffer

/-!
All torrents share the buffer and the transaction of a flush. An event of a torrent that is gone
from the catalog rolls the batch of all of them back.
-/

namespace Seedchamp.Session.FlushPersistence
open Foundation.KeyedRows Foundation.TransitionSystem Catalog.Table Catalog.Pieces
open Catalog.Possession Session.HaveBuffer Library.Ingest

/-- The buffer and the catalog it is written to. -/
structure Buffer where
  pending : List HaveEvent
  catalog : TorrentTable

/-- The arguments of a flush, and what it finds on the clock and in the registry. -/
structure Flush where
  only : Option Nat
  force : Bool
  timeDue : Bool
  anyComplete : Bool
  deriving DecidableEq, Repr

def Flush.due (f : Flush) : Bool := f.force || f.anyComplete || f.timeDue

/-- `flush_piece_haves` on its own, with no SQL write failing by itself. -/
def flushPieceHaves (b : Buffer) (f : Flush) : Buffer :=
  if b.pending.isEmpty || !f.due then b
  else
    let split := takeBatch f.only b.pending
    if split.1.isEmpty then { b with pending := split.2 }
    else match markPiecesHaveBatch b.catalog split.1 with
      | .ok (catalog, _) => ⟨split.2, catalog⟩
      | .error _ => { b with pending := split.2 ++ split.1 }

/-- Run alone, the steps of a flush do what the function does. -/
theorem flushPieceHaves_steps (s : State) (f : Flush) :
    ∃ events s', exec step s events = some s' ∧
      (⟨s'.pending, s'.catalog⟩ : Buffer) = flushPieceHaves ⟨s.pending, s.catalog⟩ f := by
  have entered : ∀ pc : FlushPc, (s.flushes ++ [pc])[s.flushes.length]? = some pc := by simp
  have moved : ∀ before after : FlushPc,
      (s.flushes ++ [before]).set s.flushes.length after = s.flushes ++ [after] := by simp
  rw [flushPieceHaves]
  by_cases idle : (s.pending.isEmpty || !f.due) = true
  · rw [if_pos idle]
    refine ⟨[], s, rfl, rfl⟩
  · rw [if_neg idle]
    have tested : exec step s [.enter f.only f.force, .test s.flushes.length f.timeDue f.anyComplete] =
        some { s with flushes := s.flushes ++ [.due f.only] } := by
      rw [Flush.due] at idle
      simp only [exec, step, Option.bind_some, entered, if_neg idle, moved]
    by_cases empty : (takeBatch f.only s.pending).1.isEmpty = true
    · refine ⟨[.enter f.only f.force, .test s.flushes.length f.timeDue f.anyComplete] ++
        [.take s.flushes.length], { s with
          pending := (takeBatch f.only s.pending).2
          flushes := s.flushes ++ [.returned f.only] }, ?_, ?_⟩
      · rw [exec_append, tested]
        simp only [Option.bind_some, exec, step, entered, moved, if_pos empty]
      · simp only [if_pos empty]
    · obtain ⟨before, taken⟩ : ∃ before, exec step s before = some { s with
            pending := (takeBatch f.only s.pending).2
            flushes := s.flushes ++ [.writing f.only (takeBatch f.only s.pending).1] } := by
        refine ⟨[.enter f.only f.force, .test s.flushes.length f.timeDue f.anyComplete] ++
          [.take s.flushes.length], ?_⟩
        rw [exec_append, tested]
        simp only [Option.bind_some, exec, step, entered, moved, if_neg empty]
      simp only [if_neg empty]
      cases marked : markPiecesHaveBatch s.catalog (takeBatch f.only s.pending).1 with
      | ok result =>
        refine ⟨before ++ [.write s.flushes.length true], { s with
          pending := (takeBatch f.only s.pending).2
          catalog := result.1
          flushes := s.flushes ++ [.returned f.only]
          committed := s.committed ++ [(takeBatch f.only s.pending).1] }, ?_, rfl⟩
        rw [exec_append, taken]
        simp only [Option.bind_some, exec, step, entered, moved, if_true, marked]
      | error problem =>
        refine ⟨before ++ [.write s.flushes.length true, .requeue s.flushes.length], { s with
          pending := (takeBatch f.only s.pending).2 ++ (takeBatch f.only s.pending).1
          flushes := s.flushes ++ [.returned f.only] }, ?_, rfl⟩
        rw [exec_append, taken]
        simp only [Option.bind_some, exec, step, entered, moved, if_true, marked]

/-- Every selected event of a torrent that exists is out of the buffer and applied to its row. -/
def Commits (b : Buffer) (f : Flush) : Prop :=
  ∀ ev ∈ (takeBatch f.only b.pending).1, ∀ r, b.catalog.find? ev.tid = some r →
    ev ∉ (flushPieceHaves b f).pending ∧
    (flushPieceHaves b f).catalog.find? ev.tid =
      some (r.withColumns (applyHaves r (itemsOf ev.tid (takeBatch f.only b.pending).1)))

def present (b : Buffer) (ev : HaveEvent) : Bool := (b.catalog.find? ev.tid).isSome

/-- The flush is due and none of the torrents it selects is gone, or all of them are. -/
def flushable (b : Buffer) (f : Flush) : Bool :=
  (takeBatch f.only b.pending).1.all (fun ev => !present b ev) ||
    f.due && (takeBatch f.only b.pending).1.all (present b)

theorem selected_mem (only : Option Nat) (pending : List HaveEvent) (ev : HaveEvent)
    (selected : ev ∈ (takeBatch only pending).1) : ev ∈ pending ∧ ev ∉ (takeBatch only pending).2 := by
  cases only with
  | none => exact ⟨selected, List.not_mem_nil⟩
  | some id =>
    simp only [takeBatch, List.mem_filter, decide_eq_true_eq] at selected ⊢
    exact ⟨selected.1, fun left => left.2 selected.2⟩

/-- A flush that is due either commits its whole batch or puts all of it back. -/
theorem flushPieceHaves_due (b : Buffer) (f : Flush) (ev : HaveEvent) (due : f.due = true)
    (selected : ev ∈ (takeBatch f.only b.pending).1) :
    flushPieceHaves b f = match markPiecesHaveBatch b.catalog (takeBatch f.only b.pending).1 with
      | .ok (catalog, _) => ⟨(takeBatch f.only b.pending).2, catalog⟩
      | .error _ =>
        { b with pending := (takeBatch f.only b.pending).2 ++ (takeBatch f.only b.pending).1 } := by
  have some := selected_mem f.only b.pending ev selected
  have busy : b.pending.isEmpty = false := List.isEmpty_eq_false_iff_exists_mem.2 ⟨ev, some.1⟩
  have filled : (takeBatch f.only b.pending).1.isEmpty = false :=
    List.isEmpty_eq_false_iff_exists_mem.2 ⟨ev, selected⟩
  rw [flushPieceHaves, busy, due]
  simp only [Bool.not_true, Bool.or_self, Bool.false_eq_true, if_false, filled]

theorem commits_of_present (b : Buffer) (f : Flush) (due : f.due = true)
    (all : ∀ ev ∈ (takeBatch f.only b.pending).1, present b ev = true) : Commits b f := by
  intro ev selected r found
  have ok := (markPiecesHaveBatch_isOk b.catalog (takeBatch f.only b.pending).1).2 all
  rw [flushPieceHaves_due b f ev due selected]
  cases marked : markPiecesHaveBatch b.catalog (takeBatch f.only b.pending).1 with
  | error problem =>
    rw [marked] at ok
    cases ok
  | ok result =>
    refine ⟨(selected_mem f.only b.pending ev selected).2, ?_⟩
    have row := rowwise_markPiecesHaveBatch b.catalog result.1 _ result.2 marked ev.tid
    simp only [found, Option.map_some, Rows.find?_key b.catalog ev.tid r found] at row
    exact row

/-- One event of a purged torrent keeps the events of every other torrent in the buffer. -/
theorem rolled_back (b : Buffer) (f : Flush) (ev gone : HaveEvent) (due : f.due = true)
    (selected : ev ∈ (takeBatch f.only b.pending).1) (purged : gone ∈ (takeBatch f.only b.pending).1)
    (missing : present b gone = false) : ev ∈ (flushPieceHaves b f).pending := by
  have failed : (markPiecesHaveBatch b.catalog (takeBatch f.only b.pending).1).isOk ≠ true := by
    intro ok
    have here := (markPiecesHaveBatch_isOk _ _).1 ok gone purged
    rw [present] at missing
    exact absurd (here.symm.trans missing) (by decide)
  rw [flushPieceHaves_due b f ev due selected]
  cases marked : markPiecesHaveBatch b.catalog (takeBatch f.only b.pending).1 with
  | ok result =>
    rw [marked] at failed
    exact absurd rfl failed
  | error problem => exact List.mem_append_right _ selected

theorem commits_iff_flushable (b : Buffer) (f : Flush) : Commits b f ↔ flushable b f = true := by
  simp only [flushable, Bool.or_eq_true, Bool.and_eq_true, List.all_eq_true, Bool.not_eq_true']
  constructor
  · intro commits
    by_contra stuck
    rw [not_or, not_and_or] at stuck
    obtain ⟨someHere, failing⟩ := stuck
    obtain ⟨ev, selected, here⟩ : ∃ ev ∈ (takeBatch f.only b.pending).1, present b ev ≠ false := by
      simpa only [not_forall, exists_prop] using someHere
    have listed : present b ev = true := by simpa using here
    obtain ⟨r, found⟩ := Option.isSome_iff_exists.1 listed
    have out := (commits ev selected r found).1
    cases due : f.due with
    | false =>
      apply out
      rw [flushPieceHaves, due, Bool.not_false, Bool.or_true, if_pos rfl]
      exact (selected_mem f.only b.pending ev selected).1
    | true =>
      obtain ⟨gone, purged, missing⟩ : ∃ gone ∈ (takeBatch f.only b.pending).1, present b gone ≠ true := by
        simpa only [due, not_true_eq_false, false_or, not_forall, exists_prop] using failing
      exact out (rolled_back b f ev gone due selected purged (by simpa using missing))
  · rintro (none | ⟨due, all⟩)
    · intro ev selected r found
      have missing := none ev selected
      rw [present, found] at missing
      cases missing
    · exact commits_of_present b f due all

inductive Op where
  | queuePieceHave (ev : HaveEvent)
  | flush (f : Flush)
  | statement (catalog : TorrentTable)

def next (b : Buffer) : Op → Option Buffer
  | .queuePieceHave ev => some { b with pending := b.pending ++ [ev] }
  | .flush f => some (flushPieceHaves b f)
  | .statement catalog => some { b with catalog := catalog }

def FlushCommits (b : Buffer) : Op → Prop
  | .flush f => Commits b f
  | _ => True

def FlushFinds (b : Buffer) : Op → Prop
  | .flush f => flushable b f = true
  | _ => True

/-- A flush commits the events of the existing torrents exactly when it is due and selects none of a
purged one, or has nothing to commit; and so does every flush of every run. -/
theorem flush_commits_iff (b : Buffer) :
    (∀ f, Commits b f ↔ flushable b f = true) ∧
    ∀ ops, Guarded next FlushCommits b ops ↔ Guarded next FlushFinds b ops := by
  refine ⟨commits_iff_flushable b, ?_⟩
  intro ops
  have same : ∀ b op, FlushCommits b op ↔ FlushFinds b op := by
    intro b op
    cases op with
    | flush f => exact commits_iff_flushable b f
    | queuePieceHave _ | statement _ => exact Iff.rfl
  constructor
  · exact guarded_mono next _ _ (fun b op => (same b op).1) b ops
  · exact guarded_mono next _ _ (fun b op => (same b op).2) b ops

/-- Torrent 1, with events of it and of a torrent 2 that was removed. -/
def purgedBuffer : Buffer where
  pending := [⟨1, 0, 1⟩, ⟨2, 0, 1⟩]
  catalog := addTorrent Rows.empty (byteTorrent 2) ⟨["data"], none⟩ true

/-- A forced flush of everything leaves torrent 1's event in the buffer for ever. -/
theorem purged_torrent_blocks :
    ¬ ∀ b f, f.force = true → f.only = none → Commits b f := by
  intro always
  have commits := always purgedBuffer ⟨none, true, false, false⟩ rfl rfl
  have stuck := (commits_iff_flushable _ _).1 commits
  exact absurd stuck (by decide +kernel)

end Seedchamp.Session.FlushPersistence
