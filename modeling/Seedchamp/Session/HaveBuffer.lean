import Seedchamp.Catalog.Possession
import Seedchamp.Foundation.Tasks
import Mathlib.Data.List.Perm.Basic

/-!
The write-behind buffer of piece-have events. A flush looks at the shared buffer, takes its batch
out under the lock, runs the catalog transaction without it, and puts the batch back when that
fails; any number of flushes run at once with new events coming in.
-/

namespace Seedchamp.Session.HaveBuffer
open Foundation.KeyedRows Foundation.TransitionSystem Foundation.Tasks Catalog.Table Catalog.Pieces
open Catalog.Possession Library.Ingest Disk.Spans

/-- The events a flush takes and the events it leaves: all of them, or those of one torrent. -/
def takeBatch (only : Option Nat) (pending : List HaveEvent) : List HaveEvent × List HaveEvent :=
  match only with
  | some id => (pending.filter (fun ev => ev.tid = id), pending.filter (fun ev => ev.tid ≠ id))
  | none => (pending, [])

/-- Where a call of `flush_piece_haves` is. -/
inductive FlushPc where
  | entered (only : Option Nat) (force : Bool)
  | due (only : Option Nat)
  | writing (only : Option Nat) (batch : List HaveEvent)
  | failing (only : Option Nat) (batch : List HaveEvent)
  | returned (only : Option Nat)
  deriving DecidableEq, Repr

namespace FlushPc

def only : FlushPc → Option Nat
  | entered only _ => only
  | due only => only
  | writing only _ => only
  | failing only _ => only
  | returned only => only

/-- The events that are in no one's hands but the flush's. -/
def held : FlushPc → List HaveEvent
  | writing _ batch => batch
  | failing _ batch => batch
  | _ => []

@[simp] theorem held_entered (only : Option Nat) (force : Bool) : (entered only force).held = [] := rfl
@[simp] theorem held_due (only : Option Nat) : (due only).held = [] := rfl
@[simp] theorem held_writing (only : Option Nat) (batch : List HaveEvent) :
    (writing only batch).held = batch := rfl
@[simp] theorem held_failing (only : Option Nat) (batch : List HaveEvent) :
    (failing only batch).held = batch := rfl
@[simp] theorem held_returned (only : Option Nat) : (returned only).held = [] := rfl

end FlushPc

/-- `queued` and `committed` are history. -/
structure State where
  pending : List HaveEvent
  catalog : TorrentTable
  flushes : List FlushPc
  queued : List HaveEvent
  committed : List (List HaveEvent)

inductive Event where
  | queuePieceHave (ev : HaveEvent)
  | enter (only : Option Nat) (force : Bool)
  | test (k : Nat) (timeDue anyComplete : Bool)
  | take (k : Nat)
  | write (k : Nat) (sql : Bool)
  | requeue (k : Nat)
  | statement (catalog : TorrentTable)

/-- The call an event belongs to. -/
def Event.flush : Event → Option Nat
  | test k _ _ => some k
  | take k => some k
  | write k _ => some k
  | requeue k => some k
  | _ => none

def sqlError : Error := .msg "sqlite: disk I/O error"

def step (s : State) : Event → Option State
  | .queuePieceHave ev =>
    some { s with pending := s.pending ++ [ev], queued := s.queued ++ [ev] }
  | .enter only force => some { s with flushes := s.flushes ++ [.entered only force] }
  | .test k timeDue anyComplete =>
    match s.flushes[k]? with
    | some (.entered only force) =>
      if s.pending.isEmpty || !(force || anyComplete || timeDue) then
        some { s with flushes := s.flushes.set k (.returned only) }
      else some { s with flushes := s.flushes.set k (.due only) }
    | _ => none
  | .take k =>
    match s.flushes[k]? with
    | some (.due only) =>
      let split := takeBatch only s.pending
      some { s with
        pending := split.2
        flushes := s.flushes.set k (if split.1.isEmpty then .returned only else .writing only split.1) }
    | _ => none
  | .write k sql =>
    match s.flushes[k]? with
    | some (.writing only batch) =>
      match (if sql then markPiecesHaveBatch s.catalog batch else .error sqlError) with
      | .ok (catalog, _) =>
        some { s with
          catalog := catalog
          flushes := s.flushes.set k (.returned only)
          committed := s.committed ++ [batch] }
      | .error _ => some { s with flushes := s.flushes.set k (.failing only batch) }
    | _ => none
  | .requeue k =>
    match s.flushes[k]? with
    | some (.failing only batch) =>
      some { s with pending := s.pending ++ batch, flushes := s.flushes.set k (.returned only) }
    | _ => none
  | .statement catalog => some { s with catalog := catalog }

def initial (catalog : TorrentTable) : State := ⟨[], catalog, [], [], []⟩

namespace State

/-- The events that running flushes have taken. -/
def taken (s : State) : List HaveEvent := s.flushes.flatMap FlushPc.held

/-- No flush is between taking its batch and settling it. -/
def Quiescent (s : State) : Prop := ∀ pc ∈ s.flushes, pc.held = []

instance (s : State) : Decidable s.Quiescent :=
  inferInstanceAs (Decidable (∀ pc ∈ s.flushes, pc.held = []))

end State

/-! ### Conservation -/

/-- Every queued event is pending, taken by one running flush, or in one committed batch. -/
structure Conserved (s : State) : Prop where
  balance : ∀ ev, s.queued.count ev =
    s.pending.count ev + s.taken.count ev + s.committed.flatten.count ev
  restricted : ∀ pc ∈ s.flushes, ∀ id, pc.only = some id → ∀ ev ∈ pc.held, ev.tid = id

theorem count_flatMap_set (flushes : List FlushPc) (k : Nat) (before after : FlushPc)
    (running : flushes[k]? = some before) (ev : HaveEvent) :
    ((flushes.set k after).flatMap FlushPc.held).count ev + before.held.count ev =
      (flushes.flatMap FlushPc.held).count ev + after.held.count ev := by
  induction flushes generalizing k with
  | nil => cases running
  | cons first rest ih =>
    cases k with
    | zero =>
      cases running
      simp only [List.set_cons_zero, List.flatMap_cons, List.count_append]
      omega
    | succ k =>
      have later := ih k running
      simp only [List.set_cons_succ, List.flatMap_cons, List.count_append]
      omega

theorem count_takeBatch (only : Option Nat) (pending : List HaveEvent) (ev : HaveEvent) :
    (takeBatch only pending).1.count ev + (takeBatch only pending).2.count ev = pending.count ev := by
  cases only with
  | none => simp [takeBatch]
  | some id =>
    simp only [takeBatch]
    by_cases named : ev.tid = id
    · have left : (pending.filter (fun ev => ev.tid ≠ id)).count ev = 0 :=
        List.count_eq_zero.2 (by simp [named])
      rw [List.count_filter (by simpa using named), left, Nat.add_zero]
    · have left : (pending.filter (fun ev => ev.tid = id)).count ev = 0 :=
        List.count_eq_zero.2 (by simp [named])
      rw [left, List.count_filter (by simpa using named), Nat.zero_add]

theorem takeBatch_restricted (id : Nat) (pending : List HaveEvent) :
    ∀ ev ∈ (takeBatch (some id) pending).1, ev.tid = id := by
  intro ev member
  simpa using (List.mem_filter.1 member).2

/-- The other torrents' events stay where they are. -/
theorem takeBatch_others (id : Nat) (pending : List HaveEvent) :
    (takeBatch (some id) pending).2.filter (fun ev => ev.tid ≠ id) =
      pending.filter (fun ev => ev.tid ≠ id) := by
  simp only [takeBatch, List.filter_filter, Bool.and_self]

/-- A flush that moves on keeps its id, and what it holds is still of that torrent. -/
theorem Conserved.moved {s : State} (conserved : Conserved s) (k : Nat) (before after : FlushPc)
    (running : s.flushes[k]? = some before) (same : after.only = before.only)
    (held : ∀ ev ∈ after.held, ev ∈ before.held ∨ before.only = none ∨
      ∀ id, before.only = some id → ev.tid = id) :
    ∀ pc ∈ s.flushes.set k after, ∀ id, pc.only = some id → ∀ ev ∈ pc.held, ev.tid = id := by
  apply forall_mem_set _ _ _ _ conserved.restricted
  intro id named ev member
  rw [same] at named
  rcases held ev member with old | all | own
  · exact conserved.restricted before (List.mem_of_getElem? running) id named ev old
  · rw [all] at named
    cases named
  · exact own id named

theorem conserved_step (s : State) (event : Event) (s' : State) (conserved : Conserved s)
    (taken : step s event = some s') : Conserved s' := by
  cases event with
  | queuePieceHave ev =>
    cases taken
    refine ⟨?_, conserved.restricted⟩
    intro other
    have balance := conserved.balance other
    simp only [State.taken, List.count_append] at balance ⊢
    omega
  | enter only force =>
    cases taken
    refine ⟨?_, ?_⟩
    · intro ev
      have balance := conserved.balance ev
      simp only [State.taken, List.flatMap_append, List.count_append] at balance ⊢
      exact balance
    · intro pc member
      rcases List.mem_append.1 member with old | new
      · exact conserved.restricted pc old
      · rw [List.mem_singleton.1 new]
        exact fun id _ ev none => absurd none List.not_mem_nil
  | test k timeDue anyComplete =>
    rw [step] at taken
    split at taken
    case h_1 only force running =>
      have still : ∀ after : FlushPc, after.held = [] → after.only = only →
          Conserved { s with flushes := s.flushes.set k after } := by
        intro after empty same
        refine ⟨?_, conserved.moved k _ after running same (by simp [empty])⟩
        intro ev
        have balance := conserved.balance ev
        have moved := count_flatMap_set s.flushes k _ after running ev
        simp only [State.taken, empty, FlushPc.held_entered, List.count_nil] at balance moved ⊢
        omega
      split_ifs at taken
      · cases taken
        exact still _ rfl rfl
      · cases taken
        exact still _ rfl rfl
    case h_2 => cases taken
  | take k =>
    rw [step] at taken
    split at taken
    case h_1 only running =>
      cases taken
      have batch : (if (takeBatch only s.pending).1.isEmpty = true then FlushPc.returned only
          else .writing only (takeBatch only s.pending).1).held = (takeBatch only s.pending).1 := by
        split_ifs with empty
        · exact (List.isEmpty_iff.1 empty).symm
        · rfl
      refine ⟨?_, conserved.moved k _ _ running ?_ ?_⟩
      · intro ev
        have balance := conserved.balance ev
        have moved := count_flatMap_set s.flushes k _ (if (takeBatch only s.pending).1.isEmpty = true
          then FlushPc.returned only else .writing only (takeBatch only s.pending).1) running ev
        have split := count_takeBatch only s.pending ev
        simp only [State.taken, batch, FlushPc.held_due, List.count_nil] at balance moved ⊢
        omega
      · split_ifs
        · rfl
        · rfl
      · rw [batch]
        intro ev member
        cases only with
        | none => exact .inr (.inl rfl)
        | some id =>
          refine .inr (.inr ?_)
          intro named same
          cases same
          exact takeBatch_restricted id s.pending ev member
    case h_2 => cases taken
  | write k sql =>
    rw [step] at taken
    split at taken
    case h_1 only batch running =>
      split at taken
      case h_1 catalog became committed =>
        cases taken
        refine ⟨?_, conserved.moved k _ _ running rfl (fun ev none => absurd none List.not_mem_nil)⟩
        intro ev
        have balance := conserved.balance ev
        have moved := count_flatMap_set s.flushes k _ (.returned only) running ev
        simp only [State.taken, FlushPc.held_writing, FlushPc.held_returned, List.count_nil, List.flatten_append, List.count_append,
          List.flatten_singleton] at balance moved ⊢
        omega
      case h_2 problem failed =>
        cases taken
        refine ⟨?_, conserved.moved k _ _ running rfl (fun ev member => .inl member)⟩
        intro ev
        have balance := conserved.balance ev
        have moved := count_flatMap_set s.flushes k _ (.failing only batch) running ev
        simp only [State.taken, FlushPc.held_writing, FlushPc.held_failing] at balance moved ⊢
        omega
    case h_2 => cases taken
  | requeue k =>
    rw [step] at taken
    split at taken
    case h_1 only batch running =>
      cases taken
      refine ⟨?_, conserved.moved k _ _ running rfl (fun ev none => absurd none List.not_mem_nil)⟩
      intro ev
      have balance := conserved.balance ev
      have moved := count_flatMap_set s.flushes k _ (.returned only) running ev
      simp only [State.taken, FlushPc.held_failing, FlushPc.held_returned, List.count_nil,
        List.count_append] at balance moved ⊢
      omega
    case h_2 => cases taken
  | statement catalog =>
    cases taken
    exact ⟨conserved.balance, conserved.restricted⟩

theorem conserved_exec (catalog : TorrentTable) (events : List Event) (s : State)
    (ran : exec step (initial catalog) events = some s) : Conserved s :=
  exec_invariant_free step Conserved conserved_step (initial catalog) s events
    ⟨fun _ => rfl, fun _ member => absurd member List.not_mem_nil⟩ ran

/-- A batch fails without a trace, and its events are appended to what came in meanwhile. -/
theorem failing_step (s s' : State) (event : Event) (k : Nat) (named : event.flush = some k)
    (taken : step s event = some s') (only : Option Nat) (batch : List HaveEvent)
    (failing : s.flushes[k]? = some (.failing only batch)) :
    s'.pending = s.pending ++ batch ∧ s'.flushes[k]? = some (.returned only) ∧
      s'.committed = s.committed := by
  have running : k < s.flushes.length := (List.getElem?_eq_some_iff.1 failing).1
  cases event with
  | requeue j =>
    cases named
    simp only [step, failing] at taken
    cases taken
    exact ⟨rfl, List.getElem?_set_self running, rfl⟩
  | test j timeDue anyComplete =>
    cases named
    simp [step, failing] at taken
  | take j =>
    cases named
    simp [step, failing] at taken
  | write j sql =>
    cases named
    simp [step, failing] at taken
  | _ => cases named

theorem write_fails (s s' : State) (k : Nat) (sql : Bool) (taken : step s (.write k sql) = some s')
    (only : Option Nat) (batch : List HaveEvent)
    (failing : s'.flushes[k]? = some (.failing only batch)) :
    s.flushes[k]? = some (.writing only batch) ∧ s'.catalog = s.catalog ∧
      s'.pending = s.pending ∧ s'.committed = s.committed := by
  rw [step] at taken
  split at taken
  case h_1 only' batch' running =>
    have inside : k < s.flushes.length := (List.getElem?_eq_some_iff.1 running).1
    split at taken
    case h_1 catalog became committed =>
      cases taken
      rw [List.getElem?_set_self inside] at failing
      cases failing
    case h_2 problem failed =>
      cases taken
      rw [List.getElem?_set_self inside] at failing
      cases failing
      exact ⟨running, rfl, rfl, rfl⟩
  case h_2 => cases taken

/-- A flush for one torrent never touches the pending events of the others. -/
theorem restricted_step (s s' : State) (event : Event) (k : Nat) (conserved : Conserved s)
    (named : event.flush = some k) (taken : step s event = some s') (pc : FlushPc) (id : Nat)
    (running : s.flushes[k]? = some pc) (restricted : pc.only = some id) :
    s'.pending.filter (fun ev => ev.tid ≠ id) = s.pending.filter (fun ev => ev.tid ≠ id) := by
  cases event with
  | test j timeDue anyComplete =>
    cases named
    rw [step, running] at taken
    cases pc with
    | entered only force =>
      simp only at taken
      split_ifs at taken
      · cases taken
        rfl
      · cases taken
        rfl
    | _ => cases taken
  | take j =>
    cases named
    rw [step, running] at taken
    cases pc with
    | due only =>
      cases taken
      cases restricted
      exact takeBatch_others id s.pending
    | _ => cases taken
  | write j sql =>
    cases named
    rw [step, running] at taken
    cases pc with
    | writing only batch =>
      simp only at taken
      split at taken
      · cases taken
        rfl
      · cases taken
        rfl
    | _ => cases taken
  | requeue j =>
    cases named
    rw [step, running] at taken
    cases pc with
    | failing only batch =>
      cases taken
      have own := conserved.restricted _ (List.mem_of_getElem? running) id restricted
      have none : batch.filter (fun ev => ev.tid ≠ id) = [] := by
        rw [List.filter_eq_nil_iff]
        intro ev member
        simp [own ev member]
      rw [List.filter_append, none, List.append_nil]
    | _ => cases taken
  | _ => cases named

/-- The buffer loses and duplicates nothing in any interleaving: the queued events are the pending
ones, those in the hands of running flushes and those of the committed batches; a batch that fails
goes back whole; and a flush of one torrent leaves the events of the others alone. -/
theorem have_buffer_conserves (catalog : TorrentTable) (events : List Event) (s : State)
    (ran : exec step (initial catalog) events = some s) :
    s.queued.Perm (s.pending ++ s.taken ++ s.committed.flatten) ∧
    (s.Quiescent → s.queued.Perm (s.pending ++ s.committed.flatten)) ∧
    (∀ k sql s' only batch, step s (.write k sql) = some s' →
      s'.flushes[k]? = some (.failing only batch) →
      s.flushes[k]? = some (.writing only batch) ∧ s'.catalog = s.catalog ∧
        s'.pending = s.pending ∧ s'.committed = s.committed) ∧
    (∀ k event s' only batch, event.flush = some k → step s event = some s' →
      s.flushes[k]? = some (.failing only batch) →
      s'.pending = s.pending ++ batch ∧ s'.flushes[k]? = some (.returned only) ∧
        s'.committed = s.committed) ∧
    (∀ k event s' pc id, event.flush = some k → step s event = some s' →
      s.flushes[k]? = some pc → pc.only = some id →
      s'.pending.filter (fun ev => ev.tid ≠ id) = s.pending.filter (fun ev => ev.tid ≠ id)) := by
  have conserved := conserved_exec catalog events s ran
  have balance : s.queued.Perm (s.pending ++ s.taken ++ s.committed.flatten) := by
    rw [List.perm_iff_count]
    intro ev
    rw [List.count_append, List.count_append]
    exact conserved.balance ev
  refine ⟨balance, ?_, ?_, ?_, ?_⟩
  · intro quiescent
    have none : s.taken = [] := List.flatMap_eq_nil_iff.2 quiescent
    rwa [none, List.append_nil] at balance
  · intro k sql s' only batch taken failing
    exact write_fails s s' k sql taken only batch failing
  · intro k event s' only batch named taken failing
    exact failing_step s s' event k named taken only batch failing
  · intro k event s' pc id named taken running restricted
    exact restricted_step s s' event k conserved named taken pc id running restricted

/-- Two flushes race with new events; the one of torrent 1 fails and is put back. -/
def racingFlushes : List Event :=
  [.queuePieceHave ⟨1, 0, 1⟩, .queuePieceHave ⟨2, 0, 1⟩, .enter (some 1) true, .enter none true,
    .test 0 false false, .test 1 false false, .take 0, .queuePieceHave ⟨1, 1, 1⟩, .take 1,
    .write 0 false, .statement ((addTorrent (addTorrent Rows.empty (byteTorrent 2) ⟨["data"], none⟩ true)
      { byteTorrent 2 with infohash := List.replicate 20 2 } ⟨["data"], none⟩ true)),
    .write 1 true, .requeue 0]

theorem have_buffer_conserves_racing :
    ((exec step (initial Rows.empty) racingFlushes).getD (initial Rows.empty)).queued.Perm
      (((exec step (initial Rows.empty) racingFlushes).getD (initial Rows.empty)).pending ++
        ((exec step (initial Rows.empty) racingFlushes).getD (initial Rows.empty)).committed.flatten) :=
  (have_buffer_conserves Rows.empty racingFlushes _
    (Option.some_get (by decide +kernel)).symm).2.1 (by decide +kernel)

end Seedchamp.Session.HaveBuffer
