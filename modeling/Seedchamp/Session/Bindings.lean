import Seedchamp.Session.Stopping

/-!
Stopping a torrent ends its peers. Outbound sessions share the torrent's flag; an inbound one has a
flag of its own, which a stop can raise only while the peer table already names the torrent.
-/

namespace Seedchamp.Session.Bindings
open Foundation.TransitionSystem Hot.Torrent Session.Registry Session.Lifecycle
open Session.Lifecycle.Runtime Session.Stopping

/-- The torrent whose stop has taken its cancel flag. -/
def flagTaken : WorkerPc → Option Nat
  | .stopLooking id _ => some id
  | .stopRemoving id _ _ => some id
  | .stopSweeping id _ => some id
  | .stopSaving id => some id
  | _ => none

/-- The torrent whose stop found a flag to raise and has yet to cancel the peers. -/
def unswept : WorkerPc → Option Nat
  | .stopLooking id true => some id
  | .stopRemoving id true _ => some id
  | .stopSweeping id true => some id
  | _ => none

theorem flagTaken_of_unswept (worker : WorkerPc) (id : Nat) (pending : unswept worker = some id) :
    flagTaken worker = some id := by
  unfold unswept at pending
  split at pending <;> cases pending <;> rfl

/-- The torrents whose last stop returned, in `Ok` or with an error of the catalog, as long as neither a
start was accepted since nor a tick that may activate the torrent gave it a flag. -/
def returned (stops : Finset Nat) (w : Runtime) (event : Event) (_ : Runtime) : Finset Nat :=
  match event with
  | .start id => stops.erase id
  | .worker _ _ =>
    match w.worker with
    | .stopSaving id => insert id stops
    | _ => stops
  | .sync s _ _ =>
    match w.syncs s with
    | .flagging id _ =>
      if (w.torrentCancel id).isNone && mayActivate w id then stops.erase id else stops
    | _ => stops
  | _ => stops

section
variable (stops : Finset Nat)

theorem returned_saving (w w' : Runtime) (reached loads : Bool) (id : Nat)
    (pc : w.worker = .stopSaving id) : returned stops w (.worker reached loads) w' = insert id stops := by
  simp only [returned, pc]

/-- The other steps of the worker return no stop. -/
theorem returned_unsaved (w w' : Runtime) (reached loads : Bool)
    (unsaved : ∀ id, w.worker ≠ .stopSaving id) : returned stops w (.worker reached loads) w' = stops := by
  simp only [returned]

/-- Only where a tick adds a flag is a stop forgotten. -/
theorem returned_sync (w w' : Runtime) (s : Nat) (reached loads : Bool)
    (elsewhere : ∀ id rest, w.syncs s ≠ .flagging id rest) :
    returned stops w (.sync s reached loads) w' = stops := by
  simp only [returned]

def Gone (w : Runtime) (id : Nat) : Prop := id ∈ stops ∨ flagTaken w.worker = some id

def Swept (w : Runtime) (id : Nat) : Prop := id ∈ stops ∨ w.worker = .stopSaving id

/-- A stop can still reach the connection: its flag is up already, or an outbound one goes by the
flag of its torrent, or an inbound one has its entry in the peer table. -/
def Tracked (w : Runtime) (c : Nat) (conn : Conn) : Prop :=
  conn.cancel ∈ w.raised ∨
    match conn.phase with
    | .handshaking => conn.inbound = true ∧ ∃ p ∈ w.peers, p.id = c ∧ p.cancel = conn.cancel
    | .known _ => conn.inbound = true ∧ ∃ p ∈ w.peers, p.id = c ∧ p.cancel = conn.cancel
    | .cleared t => conn.inbound = false ∧ w.torrentCancel t.id = some conn.cancel
    | .reserved t => conn.inbound = false ∧ w.torrentCancel t.id = some conn.cancel
    | .bound t =>
      (conn.inbound = true ∧ ¬Swept stops w t.id ∧
        ∃ p ∈ w.peers, p.id = c ∧ p.cancel = conn.cancel ∧ p.torrentId = t.id) ∨
      (conn.inbound = false ∧ w.torrentCancel t.id = some conn.cancel)
    | _ => True

structure Watched (w : Runtime) : Prop where
  flagless : ∀ id, Gone stops w id → w.torrentCancel id = none
  running : ∀ id, unswept w.worker = some id → id ∉ stops
  tracked : ∀ c, Tracked stops w c (w.conns c)

end

/-- What the other connections see of a step. -/
structure Follows (stops stops' : Finset Nat) (w w' : Runtime) (c : Nat) : Prop where
  raised : w.raised ⊆ w'.raised
  entries : ∀ p ∈ w.peers, p.id = c → p ∈ w'.peers ∨ p.cancel ∈ w'.raised
  flags : ∀ id flag, w.torrentCancel id = some flag →
    w'.torrentCancel id = some flag ∨ flag ∈ w'.raised
  swept : ∀ id, Swept stops' w' id → Swept stops w id ∨ ∀ p ∈ w.peers, p.torrentId = id → p.cancel ∈ w'.raised

theorem tracked_follows (stops stops' : Finset Nat) (w w' : Runtime) (c : Nat) (conn : Conn)
    (follows : Follows stops stops' w w' c) (tracked : Tracked stops w c conn) :
    Tracked stops' w' c conn := by
  have entry : (∃ p ∈ w.peers, p.id = c ∧ p.cancel = conn.cancel) →
      conn.cancel ∈ w'.raised ∨ ∃ p ∈ w'.peers, p.id = c ∧ p.cancel = conn.cancel := by
    rintro ⟨p, member, named, flag⟩
    rcases follows.entries p member named with kept | up
    · exact Or.inr ⟨p, kept, named, flag⟩
    · exact Or.inl (flag ▸ up)
  have shared : ∀ id, w.torrentCancel id = some conn.cancel →
      conn.cancel ∈ w'.raised ∨ w'.torrentCancel id = some conn.cancel :=
    fun id current => (follows.flags id _ current).symm
  rcases tracked with up | tracked
  · exact Or.inl (follows.raised up)
  · unfold Tracked
    cases phase : conn.phase with
    | handshaking | known t =>
      rw [phase] at tracked
      exact (entry tracked.2).imp_right (fun kept => ⟨tracked.1, kept⟩)
    | cleared t | reserved t =>
      rw [phase] at tracked
      exact (shared t.id tracked.2).imp_right (fun kept => ⟨tracked.1, kept⟩)
    | bound t =>
      rw [phase] at tracked
      rcases tracked with ⟨inbound, unswept, p, member, named, flag, torrent⟩ | ⟨outbound, current⟩
      · by_cases swept : Swept stops' w' t.id
        · rcases follows.swept t.id swept with before | all
          · exact absurd before unswept
          · exact Or.inl (flag ▸ all p member torrent)
        · rcases follows.entries p member named with kept | up
          · exact Or.inr (Or.inl ⟨inbound, swept, p, kept, named, flag, torrent⟩)
          · exact Or.inl (flag ▸ up)
      · exact (shared t.id current).imp_right (fun kept => Or.inr ⟨outbound, kept⟩)
    | absent | accepted | candidate t | ended => exact Or.inr trivial

/-- A step that leaves flags, peers and connections alone. -/
theorem follows_same (stops stops' : Finset Nat) (w w' : Runtime) (c : Nat) (raised : w'.raised = w.raised)
    (peers : w'.peers = w.peers) (cancel : w'.torrentCancel = w.torrentCancel)
    (swept : ∀ id, Swept stops' w' id → Swept stops w id) : Follows stops stops' w w' c := by
  refine ⟨by rw [raised], ?_, ?_, fun id later => Or.inl (swept id later)⟩
  · intro p member _
    rw [peers]
    exact Or.inl member
  · intro id flag current
    rw [cancel]
    exact Or.inl current

/-- A step of the worker or of a tick that leaves flags, peers and connections alone. -/
theorem watched_same (stops stops' : Finset Nat) (w w' : Runtime) (watched : Watched stops w) (raised : w'.raised = w.raised)
    (peers : w'.peers = w.peers) (cancel : w'.torrentCancel = w.torrentCancel)
    (conns : w'.conns = w.conns) (gone : ∀ id, Gone stops' w' id → Gone stops w id)
    (swept : ∀ id, Swept stops' w' id → Swept stops w id)
    (running : ∀ id, unswept w'.worker = some id → id ∉ stops') : Watched stops' w' := by
  refine ⟨?_, running, ?_⟩
  · intro id later
    rw [cancel]
    exact watched.flagless id (gone id later)
  · intro c
    rw [conns]
    exact tracked_follows stops stops' w w' c _ (follows_same stops stops' w w' c raised peers cancel swept) (watched.tracked c)

/-- The worker goes to a place outside of any stop. -/
theorem watched_worker (stops : Finset Nat) (w w' : Runtime) (watched : Watched stops w)
    (raised : w'.raised = w.raised) (peers : w'.peers = w.peers)
    (cancel : w'.torrentCancel = w.torrentCancel) (conns : w'.conns = w.conns)
    (outside : flagTaken w'.worker = none) : Watched stops w' := by
  apply watched_same stops stops w w' watched raised peers cancel conns
  · rintro id (member | taken)
    · exact Or.inl member
    · rw [outside] at taken
      cases taken
  · rintro id (member | saving)
    · exact Or.inl member
    · rw [saving] at outside
      cases outside
  · intro id pending
    rw [flagTaken_of_unswept _ id pending] at outside
    cases outside

/-- The worker goes on with the same stop, short of the catalog. -/
theorem watched_onward (stops : Finset Nat) (w w' : Runtime) (watched : Watched stops w)
    (raised : w'.raised = w.raised) (peers : w'.peers = w.peers)
    (cancel : w'.torrentCancel = w.torrentCancel) (conns : w'.conns = w.conns)
    (flag : flagTaken w'.worker = flagTaken w.worker) (pending : unswept w'.worker = unswept w.worker)
    (unsaved : ∀ id, w'.worker ≠ .stopSaving id) : Watched stops w' := by
  refine watched_same stops stops w w' watched raised peers cancel conns ?_ ?_ ?_
  · simp only [Gone, flag]
    exact fun _ same => same
  · exact fun i swept => swept.imp_right (fun saving => absurd saving (unsaved i))
  · rw [pending]
    exact watched.running

theorem watched_start (stops : Finset Nat) (w : Runtime) (id : Nat) (watched : Watched stops w) :
    Watched (stops.erase id) (w.beginStart id) := by
  refine ⟨?_, ?_, ?_⟩
  · rintro i (member | taken)
    · obtain ⟨other, earlier⟩ := Finset.mem_erase.1 member
      simp only [beginStart, Function.update_of_ne other]
      exact watched.flagless i (Or.inl earlier)
    · cases taken
  · intro i pending
    cases pending
  · intro c
    refine tracked_follows stops _ w _ c _ ⟨?_, fun p member _ => Or.inl member, ?_, ?_⟩
      (watched.tracked c)
    · unfold beginStart
      dsimp only
      split
      · exact Finset.subset_insert _ _
      · exact Finset.Subset.refl _
    · intro i flag current
      by_cases mine : i = id
      · right
        simp only [beginStart, ← mine, current]
        exact Finset.mem_insert_self _ _
      · left
        simp only [beginStart, Function.update_of_ne mine]
        exact current
    · rintro i (member | saving)
      · exact Or.inl (Or.inl (Finset.mem_of_mem_erase member))
      · cases saving

theorem watched_takeFlag (stops : Finset Nat) (w : Runtime) (id : Nat) (watched : Watched stops w) :
    Watched stops (w.takeFlag id) := by
  refine ⟨?_, ?_, ?_⟩
  · intro i gone
    by_cases mine : i = id
    · simp only [takeFlag, mine, Function.update_self]
    · simp only [takeFlag, Function.update_of_ne mine]
      rcases gone with member | taken
      · exact watched.flagless i (Or.inl member)
      · exact absurd (Option.some.inj taken).symm mine
  · intro i pending member
    cases held : w.torrentCancel id with
    | none =>
      simp only [takeFlag, held, Option.isSome_none, unswept] at pending
      cases pending
    | some flag =>
      simp only [takeFlag, held, Option.isSome_some, unswept, Option.some.injEq] at pending
      rw [pending, watched.flagless i (Or.inl member)] at held
      cases held
  · intro c
    refine tracked_follows stops _ w _ c _ ⟨?_, fun p member _ => Or.inl member, ?_, ?_⟩
      (watched.tracked c)
    · unfold takeFlag
      dsimp only
      split
      · exact Finset.subset_insert _ _
      · exact Finset.Subset.refl _
    · intro i flag current
      by_cases mine : i = id
      · right
        simp only [takeFlag, ← mine, current]
        exact Finset.mem_insert_self _ _
      · left
        simp only [takeFlag, Function.update_of_ne mine]
        exact current
    · rintro i (member | saving)
      · exact Or.inl (Or.inl member)
      · cases saving

theorem watched_sweep (stops : Finset Nat) (w : Runtime) (id : Nat) (took : Bool)
    (watched : Watched stops w) (pc : w.worker = .stopSweeping id took) :
    Watched stops { w.sweep id with worker := .stopSaving id } := by
  have cancelled : ∀ p ∈ w.peers, p.torrentId = id → p.cancel ∈ (w.sweep id).raised := by
    intro p member mine
    refine Finset.mem_union_right _ (List.mem_toFinset.2 (List.mem_map_of_mem ?_))
    exact List.mem_filter.2 ⟨member, decide_eq_true mine⟩
  refine ⟨?_, ?_, ?_⟩
  · rintro i (member | taken)
    · exact watched.flagless i (Or.inl member)
    · exact watched.flagless i (Or.inr (by rw [pc]; exact taken))
  · intro i pending
    cases pending
  · intro c
    refine tracked_follows stops _ w _ c _ ⟨Finset.subset_union_left, ?_, fun _ _ => Or.inl, ?_⟩
      (watched.tracked c)
    · intro p member _
      by_cases mine : p.torrentId = id
      · exact Or.inr (cancelled p member mine)
      · exact Or.inl (List.mem_filter.2 ⟨member, decide_eq_true mine⟩)
    · rintro i (member | saving)
      · exact Or.inl (Or.inl member)
      · simp only [WorkerPc.stopSaving.injEq] at saving
        exact Or.inr (saving ▸ cancelled)

/-- A stop returns: its torrent was on its way out already. -/
theorem watched_returned (stops : Finset Nat) (w w' : Runtime) (id : Nat) (watched : Watched stops w)
    (pc : w.worker = .stopSaving id) (raised : w'.raised = w.raised) (peers : w'.peers = w.peers)
    (cancel : w'.torrentCancel = w.torrentCancel) (conns : w'.conns = w.conns)
    (idle : w'.worker = .idle) : Watched (insert id stops) w' := by
  refine watched_same stops _ w w' watched raised peers cancel conns ?_ ?_ ?_
  · rintro i (member | taken)
    · rcases Finset.mem_insert.1 member with rfl | earlier
      · exact Or.inr (by rw [pc]; rfl)
      · exact Or.inl earlier
    · rw [idle] at taken
      cases taken
  · rintro i (member | saving)
    · rcases Finset.mem_insert.1 member with rfl | earlier
      · exact Or.inr pc
      · exact Or.inl earlier
    · rw [idle] at saving
      cases saving
  · intro i pending
    rw [idle] at pending
    cases pending

theorem watched_workerStep (stops : Finset Nat) (w : Runtime) (reached loads : Bool) (w' : Runtime)
    (watched : Watched stops w) (taken : w.workerStep reached loads = some w') :
    Watched (returned stops w (.worker reached loads) w') w' := by
  by_cases saving : ∃ id, w.worker = .stopSaving id
  · obtain ⟨id, pc⟩ := saving
    rw [returned_saving stops w w' reached loads id pc]
    simp only [workerStep, pc] at taken
    split_ifs at taken
    · split at taken <;> cases taken <;>
        exact watched_returned stops w _ id watched pc rfl rfl rfl rfl rfl
    · cases taken
      exact watched_returned stops w _ id watched pc rfl rfl rfl rfl rfl
  rw [returned_unsaved stops w w' reached loads (not_exists.1 saving)]
  unfold workerStep at taken
  split at taken
  · cases taken
  · split_ifs at taken <;> cases taken <;>
      exact watched_worker stops w _ watched rfl rfl rfl rfl rfl
  · cases taken
    exact watched_worker stops w _ watched rfl rfl rfl rfl rfl
  · cases taken
    refine watched_worker stops w _ watched rfl rfl rfl rfl ?_
    dsimp only
    split <;> rfl
  · cases taken
    refine watched_worker stops w _ watched rfl rfl rfl rfl ?_
    cases reached <;> rfl
  · cases taken
    unfold publish
    split_ifs <;> exact watched_worker stops w _ watched rfl rfl rfl rfl rfl
  · cases taken
    exact watched_takeFlag stops w _ watched
  · rename_i id took pc
    cases taken
    refine watched_onward stops w _ watched rfl rfl rfl rfl ?_ ?_ (fun _ => WorkerPc.noConfusion)
    · rw [pc]
      rfl
    · rw [pc]
      cases took <;> rfl
  · rename_i id took found pc
    cases taken
    refine watched_onward stops w _ watched rfl rfl rfl rfl ?_ ?_ (fun _ => WorkerPc.noConfusion)
    · rw [pc]
      rfl
    · rw [pc]
      cases took <;> rfl
  · rename_i id took pc
    cases taken
    exact watched_sweep stops w id took watched pc
  · rename_i id pc
    exact absurd ⟨id, pc⟩ saving

/-- A tick adds a flag only for a torrent it may still activate and whose stop, if any, has yet to take
the flag. -/
def flagGuard (w : Runtime) : Event → Bool
  | .sync s _ _ =>
    match w.syncs s with
    | .flagging id _ =>
      (w.torrentCancel id).isSome || (mayActivate w id && decide (flagTaken w.worker ≠ some id))
    | _ => true
  | _ => true

/-- An inbound peer is bound only while the torrent has a flag that is down, or while the running stop
that took the flag has yet to cancel the peers. -/
def bindGuard (w : Runtime) : Event → Bool
  | .conn c (.bind isSelf) =>
    match (w.conns c).phase with
    | .known t =>
      isSelf || w.full t.id || decide ((w.conns c).cancel ∈ w.raised) ||
        (w.torrentCancel t.id).any (fun flag => decide (flag ∉ w.raised)) ||
        decide (unswept w.worker = some t.id)
    | _ => true
  | _ => true

/-- A tick adds a flag for a torrent that no stop is about to end. -/
theorem watched_addFlag (stops : Finset Nat) (w w' : Runtime) (id : Nat) (watched : Watched stops w)
    (present : flagTaken w.worker ≠ some id) (absent : ¬(w.torrentCancel id).isSome = true) (raised : w'.raised = w.raised)
    (peers : w'.peers = w.peers) (conns : w'.conns = w.conns)
    (cancel : w'.torrentCancel = Function.update w.torrentCancel id (some w.nextFlag))
    (worker : w'.worker = w.worker) : Watched (stops.erase id) w' := by
  refine ⟨?_, ?_, ?_⟩
  · rintro i (member | taken)
    · obtain ⟨other, earlier⟩ := Finset.mem_erase.1 member
      rw [cancel, Function.update_of_ne other]
      exact watched.flagless i (Or.inl earlier)
    · rw [worker] at taken
      have other : i ≠ id := fun same => present (same ▸ taken)
      rw [cancel, Function.update_of_ne other]
      exact watched.flagless i (Or.inr taken)
  · intro i pending member
    rw [worker] at pending
    exact watched.running i pending (Finset.mem_of_mem_erase member)
  · intro c
    rw [conns]
    refine tracked_follows stops _ w w' c _ ⟨by rw [raised], ?_, ?_, ?_⟩ (watched.tracked c)
    · intro p member _
      rw [peers]
      exact Or.inl member
    · intro i flag current
      left
      have other : i ≠ id := by
        rintro rfl
        rw [current] at absent
        exact absent rfl
      rw [cancel, Function.update_of_ne other]
      exact current
    · rintro i (member | saving)
      · exact Or.inl (Or.inl (Finset.mem_of_mem_erase member))
      · exact Or.inl (Or.inr (worker ▸ saving))

theorem watched_syncStep (stops : Finset Nat) (w : Runtime) (s : Nat) (reached loads : Bool)
    (w' : Runtime) (watched : Watched stops w) (guarded : flagGuard w (.sync s reached loads) = true) :
    Watched (returned stops w (.sync s reached loads) w') (w.syncStep s reached loads) := by
  have plain : ∀ w' : Runtime, w'.raised = w.raised → w'.peers = w.peers →
      w'.torrentCancel = w.torrentCancel → w'.conns = w.conns → w'.worker = w.worker →
      Watched stops w' := by
    intro w' raised peers cancel conns worker
    refine watched_same stops stops w w' watched raised peers cancel conns ?_ ?_ ?_
    · simp only [Gone, worker]
      exact fun _ same => same
    · simp only [Swept, worker]
      exact fun _ same => same
    · rw [worker]
      exact watched.running
  by_cases flagging : ∃ id rest, w.syncs s = .flagging id rest
  · obtain ⟨id, rest, pc⟩ := flagging
    simp only [syncStep, returned, pc]
    by_cases held : (w.torrentCancel id).isSome = true
    · rw [if_pos held, Option.isNone_eq_false_iff.2 held, Bool.false_and, if_neg Bool.false_ne_true]
      exact plain _ rfl rfl rfl rfl rfl
    · simp only [flagGuard, pc, held, Bool.false_or, Bool.and_eq_true, decide_eq_true_eq] at guarded
      rw [if_neg held, guarded.1, Option.isNone_iff_eq_none.2 (Option.not_isSome_iff_eq_none.1 held),
        Bool.and_self, if_pos rfl]
      exact watched_addFlag stops w _ id watched guarded.2 held rfl rfl rfl rfl rfl
  have elsewhere : ∀ id rest, w.syncs s ≠ .flagging id rest :=
    fun id rest pc => flagging ⟨id, rest, pc⟩
  rw [returned_sync stops w w' s reached loads elsewhere]
  unfold syncStep
  split
  · exact plain _ rfl rfl rfl rfl rfl
  · exact plain _ rfl rfl rfl rfl rfl
  · exact plain _ rfl rfl rfl rfl rfl
  · exact plain _ rfl rfl rfl rfl rfl
  · rename_i id rest pc
    exact absurd pc (elsewhere id rest)
  · exact plain _ rfl rfl rfl rfl rfl
  · exact plain _ rfl rfl rfl rfl rfl
  · unfold publish
    split_ifs <;> exact plain _ rfl rfl rfl rfl rfl

/-- A step of connection `c`, seen by the others. -/
theorem watched_conn (stops : Finset Nat) (w w' : Runtime) (c : Nat) (conn : Conn)
    (watched : Watched stops w)
    (raised : w.raised ⊆ w'.raised)
    (peers : ∀ p ∈ w.peers, p.id ≠ c → p ∈ w'.peers) (cancel : w'.torrentCancel = w.torrentCancel)
    (worker : w'.worker = w.worker)
    (conns : w'.conns = Function.update w.conns c conn) (own : Tracked stops w' c conn) :
    Watched stops w' := by
  refine ⟨?_, ?_, ?_⟩
  · intro i gone
    simp only [Gone, worker] at gone
    rw [cancel]
    exact watched.flagless i gone
  · rw [worker]
    exact watched.running
  · intro other
    rw [conns]
    by_cases same : other = c
    · rw [same, Function.update_self]
      exact own
    · rw [Function.update_of_ne same]
      refine tracked_follows stops _ w w' other _ ⟨raised, ?_, ?_, ?_⟩ (watched.tracked other)
      · intro p member named
        exact Or.inl (peers p member (named.trans_ne same))
      · rw [cancel]
        exact fun _ _ => Or.inl
      · intro i swept
        simp only [Swept, worker] at swept
        exact Or.inl swept

theorem watched_setPhase (stops : Finset Nat) (w : Runtime) (c : Nat) (phase : Phase)
    (watched : Watched stops w) (own : Tracked stops w c { w.conns c with phase := phase }) :
    Watched stops (w.setPhase c phase) :=
  watched_conn stops w _ c _ watched (Finset.Subset.refl _) (fun _ member _ => member) rfl rfl rfl own

theorem watched_close (stops : Finset Nat) (w : Runtime) (c : Nat) (watched : Watched stops w) :
    Watched stops (w.close c) := by
  refine watched_conn stops w _ c { w.conns c with phase := .ended } watched ?_ ?_ rfl rfl rfl
    (Or.inr trivial)
  · unfold Runtime.close
    dsimp only
    split_ifs
    · exact Finset.subset_insert _ _
    · exact Finset.Subset.refl _
  · intro p member other
    exact List.mem_filter.2 ⟨member, decide_eq_true other⟩

theorem watched_bind (stops : Finset Nat) (w : Runtime) (c : Nat) (t : HotTorrent) (isSelf : Bool)
    (watched : Watched stops w) (known : (w.conns c).phase = .known t)
    (guarded : bindGuard w (.conn c (.bind isSelf)) = true) : Watched stops (w.bind c t isSelf) := by
  unfold Runtime.bind
  split_ifs with refused
  · exact watched_close stops w c watched
  · have own := watched.tracked c
    simp only [bindGuard, known, Bool.eq_false_of_not_eq_true refused, Bool.false_or, Bool.or_eq_true,
      decide_eq_true_eq] at guarded
    have running : (w.conns c).cancel ∉ w.raised → ¬Swept stops w t.id := by
      intro down
      rcases guarded with (up | flagged) | pending
      · exact absurd up down
      · have flagless : ¬Gone stops w t.id := by
          intro gone
          rw [watched.flagless t.id gone] at flagged
          cases flagged
        rintro (member | saving)
        · exact flagless (Or.inl member)
        · exact flagless (Or.inr (by rw [saving]; rfl))
      · rintro (member | saving)
        · exact watched.running t.id pending member
        · rw [saving] at pending
          cases pending
    refine watched_conn stops w _ c { w.conns c with phase := .bound t } watched (Finset.Subset.refl _) ?_
      rfl rfl rfl ?_
    · intro p member other
      refine List.mem_map.2 ⟨p, member, ?_⟩
      rw [if_neg other]
    · by_cases up : (w.conns c).cancel ∈ w.raised
      · exact Or.inl up
      · rw [Tracked, known] at own
        obtain ⟨inbound, p, member, named, flag⟩ := own.resolve_left up
        refine Or.inr (Or.inl ⟨inbound, running up, { p with torrentId := t.id }, ?_, named, flag, rfl⟩)
        refine List.mem_map.2 ⟨p, member, ?_⟩
        rw [if_pos named]

theorem watched_connStep (stops : Finset Nat) (w : Runtime) (c : Nat) (event : ConnEvent) (w' : Runtime)
    (watched : Watched stops w) (guarded : bindGuard w (.conn c event) = true)
    (taken : connStep w c event = some w') : Watched stops w' := by
  have own := watched.tracked c
  have closed := watched_close stops w c watched
  have ended : Watched stops (w.setPhase c .ended) := watched_setPhase stops w c .ended watched (Or.inr trivial)
  unfold connStep at taken
  split at taken
  · cases taken
    refine watched_conn stops w _ c ⟨true, w.nextFlag, .handshaking⟩ watched (Finset.Subset.refl _) ?_ rfl
      rfl rfl ?_
    · exact fun p member _ => List.mem_append_left _ member
    · exact Or.inr ⟨rfl, ⟨c, 0, w.nextFlag⟩, List.mem_append_right _ (List.mem_singleton_self _), rfl, rfl⟩
  · rename_i infohash phase
    split at taken <;> cases taken
    · rw [Tracked, phase] at own
      exact watched_setPhase stops w c _ watched own
    · exact closed
  · rename_i t infohash phase
    split at taken <;> cases taken
    · rw [Tracked, phase] at own
      exact watched_setPhase stops w c _ watched own
    · exact closed
  · rename_i t isSelf phase
    cases taken
    exact watched_bind stops w c t isSelf watched phase guarded
  · rename_i t phase
    split at taken
    · cases taken
      exact ended
    · rename_i flag current
      split_ifs at taken <;> cases taken
      · exact ended
      · exact watched_conn stops w _ c ⟨false, flag, .cleared t⟩ watched (Finset.Subset.refl _)
          (fun _ member _ => member) rfl rfl rfl (Or.inr ⟨rfl, current⟩)
  · rename_i t phase
    cases taken
    unfold Runtime.reserve
    split_ifs
    · exact ended
    · rw [Tracked, phase] at own
      exact watched_conn stops w _ c { w.conns c with phase := .reserved t } watched
        (Finset.Subset.refl _) (fun p member _ => List.mem_append_left _ member) rfl rfl rfl own
  · rename_i t phase
    split_ifs at taken <;> cases taken
    · exact closed
    · rw [Tracked, phase] at own
      exact watched_setPhase stops w c _ watched (own.imp_right Or.inr)
  · split_ifs at taken
    cases taken
    exact watched
  · cases taken
    exact closed
  · cases taken
    exact closed
  · cases taken
    exact closed
  · cases taken

/-- A new connection that has shown nothing yet. -/
theorem watched_spawn (stops : Finset Nat) (w : Runtime) (conn : Conn) (watched : Watched stops w)
    (fresh : Tracked stops w w.spawned conn) :
    Watched stops { w.setConn w.spawned conn with spawned := w.spawned + 1 } :=
  watched_conn stops w _ w.spawned conn watched (Finset.Subset.refl _) (fun _ member _ => member) rfl rfl
    rfl fresh

theorem watched_step (stops : Finset Nat) (w : Runtime) (event : Event) (w' : Runtime)
    (watched : Watched stops w) (flagging : flagGuard w event = true)
    (binding : bindGuard w event = true) (taken : step w event = some w') :
    Watched (returned stops w event w') w' := by
  have same : ∀ w'' : Runtime, w''.raised = w.raised → w''.peers = w.peers →
      w''.torrentCancel = w.torrentCancel → w''.conns = w.conns → w''.worker = w.worker →
      Watched stops w'' := by
    intro w'' raised peers cancel conns worker
    refine watched_same stops stops w w'' watched raised peers cancel conns ?_ ?_ ?_
    · simp only [Gone, worker]
      exact fun _ gone => gone
    · simp only [Swept, worker]
      exact fun _ swept => swept
    · rw [worker]
      exact watched.running
  cases event with
  | start id =>
    simp only [step] at taken
    split_ifs at taken
    cases taken
    exact watched_start stops w id watched
  | stop id =>
    simp only [step] at taken
    split_ifs at taken
    cases taken
    exact watched_worker stops w _ watched rfl rfl rfl rfl rfl
  | worker reached loads => exact watched_workerStep stops w reached loads w' watched taken
  | sync s reached loads =>
    cases taken
    exact watched_syncStep stops w s reached loads _ watched flagging
  | delete id =>
    simp only [step] at taken
    split at taken <;> cases taken
    exact same _ rfl rfl rfl rfl rfl
  | restore id want =>
    cases taken
    exact same _ rfl rfl rfl rfl rfl
  | setMaxPeers limit =>
    cases taken
    exact same _ rfl rfl rfl rfl rfl
  | accept =>
    simp only [step] at taken
    split_ifs at taken
    cases taken
    exact watched_spawn stops w _ watched (Or.inr trivial)
  | dial id =>
    simp only [step] at taken
    split at taken <;> cases taken
    exact watched_spawn stops w _ watched (Or.inr trivial)
  | conn c event => exact watched_connStep stops w c event w' watched binding taken

theorem watched_initial (catalog : Catalog) (maxPeers maxConnections stagingMemLimit : Nat) :
    Watched ∅ (initial catalog maxPeers maxConnections stagingMemLimit) := by
  refine ⟨fun _ _ => rfl, ?_, fun _ => Or.inr trivial⟩
  intro id pending
  cases pending

/-- No tick that may activate a torrent finds one whose stop returned `Ok`, so it stays among the
returned ones. -/
theorem stopped_returned (stops : Finset Nat) (w : Runtime) (event : Event) (w' : Runtime)
    (unwanted : Unwanted w.catalog w.worker w.stopped) (among : w.stopped ⊆ stops)
    (taken : step w event = some w') : w'.stopped ⊆ returned stops w event w' := by
  cases event with
  | start id =>
    simp only [step] at taken
    split_ifs at taken
    cases taken
    exact Finset.erase_subset_erase id among
  | worker reached loads =>
    simp only [step] at taken
    by_cases saving : ∃ id, w.worker = .stopSaving id
    · obtain ⟨id, pc⟩ := saving
      rw [returned_saving stops w w' reached loads id pc]
      have kept : w.stopped ⊆ insert id stops := among.trans (Finset.subset_insert id stops)
      simp only [workerStep, pc] at taken
      split_ifs at taken
      · split at taken <;> cases taken
        · exact kept
        · exact Finset.insert_subset_insert id among
      · cases taken
        exact kept
    · rw [returned_unsaved stops w w' reached loads (not_exists.1 saving)]
      have same : w'.stopped = w.stopped := by
        unfold workerStep at taken
        split at taken
        case h_11 id pc => exact absurd ⟨id, pc⟩ saving
        case h_6 =>
          cases taken
          unfold publish
          split_ifs <;> rfl
        case h_2 => split_ifs at taken <;> cases taken <;> rfl
        all_goals cases taken
        all_goals rfl
      rw [same]
      exact among
  | sync s reached loads =>
    cases taken
    have same : (w.syncStep s reached loads).stopped = w.stopped := by
      unfold syncStep
      split
      case h_5 => split_ifs <;> rfl
      case h_8 =>
        unfold publish
        split_ifs <;> rfl
      all_goals rfl
    rw [same]
    intro i member
    simp only [returned]
    split
    · rename_i id rest _
      split_ifs with added
      · refine Finset.mem_erase.2 ⟨?_, among member⟩
        rintro rfl
        obtain ⟨refused, unstarted⟩ := unwanted i member
        simp [mayActivate, refused, unstarted] at added
      · exact among member
    · exact among member
  | restore id want =>
    cases taken
    dsimp only
    split_ifs
    · exact (Finset.erase_subset id w.stopped).trans among
    · exact among
  | conn c event =>
    have same := core_connStep w c event w' taken
    simp only [core, Core.mk.injEq] at same
    rw [same.2.2.2.2]
    exact among
  | stop id =>
    simp only [step] at taken
    split_ifs at taken
    cases taken
    exact among
  | delete id =>
    simp only [step] at taken
    split at taken <;> cases taken
    exact among
  | setMaxPeers limit =>
    cases taken
    exact among
  | accept =>
    simp only [step] at taken
    split_ifs at taken
    cases taken
    exact among
  | dial id =>
    simp only [step] at taken
    split at taken <;> cases taken
    exact among

def peerGuard (w : Runtime) (event : Event) : Bool :=
  wantGuard w event && flagGuard w event && bindGuard w event

/-- The loop of a session takes another turn only while the session runs. -/
theorem runs_of_turn (w w' : Runtime) (c : Nat) (t : HotTorrent) (bound : (w.conns c).phase = .bound t)
    (taken : connStep w c .turn = some w') : w.Runs c t.id := by
  simp only [connStep, bound] at taken
  split_ifs at taken with up
  exact ⟨t, bound, rfl, up⟩

/-- Once a stop returned, in `Ok` or in an error, no connection runs a session of the torrent until the
torrent is started again, in every run whose steps meet `peerGuard`. A stop that returned `Ok` is undone
by no tick. -/
theorem stop_ends_peers (catalog : Catalog) (maxPeers maxConnections stagingMemLimit : Nat)
    (events : List Event) (w : Runtime) (stops : Finset Nat)
    (kept : Guarded (recorded step returned) (fun w event => peerGuard w.1 event = true)
      (initial catalog maxPeers maxConnections stagingMemLimit, ∅) events)
    (ran : exec (recorded step returned) (initial catalog maxPeers maxConnections stagingMemLimit, ∅)
      events = some (w, stops))
    (id : Nat) (ended : id ∈ w.stopped ∨ id ∈ stops) (c : Nat) :
    ¬w.Runs c id ∧ ∀ t, (w.conns c).phase = .bound t → t.id = id → step w (.conn c .turn) = none := by
  obtain ⟨-, among, watched⟩ : Unwanted w.catalog w.worker w.stopped ∧ w.stopped ⊆ stops ∧
      Watched stops w := by
    refine exec_invariant (recorded step returned) _ (fun r => Unwanted r.1.catalog r.1.worker r.1.stopped ∧
      r.1.stopped ⊆ r.2 ∧ Watched r.2 r.1) ?_ _ (w, stops) events
      ⟨?_, Finset.empty_subset ∅, watched_initial catalog maxPeers maxConnections stagingMemLimit⟩ kept ran
    · rintro r event r' ⟨unwanted, among, watched⟩ guarded taken
      simp only [peerGuard, Bool.and_eq_true] at guarded
      obtain ⟨⟨wanting, flagging⟩, binding⟩ := guarded
      obtain ⟨moved, record⟩ := (recorded_some step returned r r' event).1 taken
      rw [← record]
      exact ⟨unwanted_step r.1 event r'.1 unwanted wanting moved,
        stopped_returned r.2 r.1 event r'.1 unwanted among moved,
        watched_step r.2 r.1 event r'.1 watched flagging binding moved⟩
    · exact fun i member => absurd member (Finset.notMem_empty i)
  have stopped : id ∈ stops := ended.elim (fun ok => among ok) (fun any => any)
  have still : ¬w.Runs c id := by
    rintro ⟨t, bound, rfl, down⟩
    have tracked := watched.tracked c
    rw [Tracked, bound] at tracked
    rcases tracked.resolve_left down with ⟨_, unswept, _⟩ | ⟨_, current⟩
    · exact unswept (Or.inl stopped)
    · rw [watched.flagless t.id (Or.inl stopped)] at current
      cases current
  refine ⟨still, ?_⟩
  rintro t bound rfl
  cases taken : step w (.conn c .turn) with
  | none => rfl
  | some w' => exact absurd (runs_of_turn w w' c t bound taken) still

/-- An inbound peer looks the torrent up. -/
def lookUp : List Event :=
  [.accept, .conn 0 .register, .conn 0 (.lookup (List.replicate 20 7))]

/-- The peer is bound, then the torrent is stopped; the catalog section of the stop fails. -/
def bindThenStop : List Event :=
  startWhole ++ lookUp ++ [.conn 0 (.bind false), .stop 1] ++ List.replicate 4 (.worker true true) ++
    [.worker false false]

def ended : Runtime × Finset Nat :=
  (exec (recorded step returned) (initial oneTorrent 50 200 0, ∅) bindThenStop).getD
    (initial oneTorrent 50 200 0, ∅)

theorem stop_ends_peers_bindThenStop :
    (ended.1.conns 0).phase ≠ .absent ∧ 1 ∉ ended.1.stopped ∧ 1 ∈ ended.2 ∧ ¬ended.1.Runs 0 1 := by
  have returns : (exec (recorded step returned) (initial oneTorrent 50 200 0, ∅) bindThenStop).isSome =
      true := by decide +kernel
  have ran := (Option.getD_of_ne_none (Option.isSome_iff_ne_none.1 returns)
    (initial oneTorrent 50 200 0, ∅)).symm
  have kept := guarded_of_guardedB (recorded step returned) (fun w event => peerGuard w.1 event)
    (initial oneTorrent 50 200 0, ∅) bindThenStop (by decide +kernel)
  have stopped : 1 ∈ ended.2 := by decide +kernel
  exact ⟨by decide +kernel, by decide +kernel, stopped,
    (stop_ends_peers oneTorrent 50 200 0 bindThenStop ended.1 ended.2 kept ran 1 (Or.inr stopped) 0).1⟩

/-- The torrent is stopped while the peer is between its lookup and its binding. -/
def stopThenBind : List Event := startWhole ++ lookUp ++ stopWhole ++ [.conn 0 (.bind false)]

def survived : Runtime := (exec step (initial oneTorrent 50 200 0) stopThenBind).getD
  (initial oneTorrent 50 200 0)

/-- An inbound peer that looked the torrent up before the stop runs its session after it. -/
theorem inbound_peer_survives_stop :
    ¬∀ (catalog : Catalog) (maxPeers maxConnections stagingMemLimit : Nat) (events : List Event)
      (w : Runtime) (id c : Nat),
      exec step (initial catalog maxPeers maxConnections stagingMemLimit) events = some w →
      id ∈ w.stopped → ¬w.Runs c id := by
  intro always
  have returns : (exec step (initial oneTorrent 50 200 0) stopThenBind).isSome = true := by
    decide +kernel
  have ran := (Option.getD_of_ne_none (Option.isSome_iff_ne_none.1 returns)
    (initial oneTorrent 50 200 0)).symm
  have ends := always oneTorrent 50 200 0 stopThenBind survived 1 0 ran (by decide +kernel)
  have bound : (match (survived.conns 0).phase with
      | .bound t => decide (t.id = 1)
      | _ => false) = true := by decide +kernel
  split at bound
  · rename_i t phase
    exact ends ⟨t, phase, of_decide_eq_true bound, by decide +kernel⟩
  · cases bound

end Seedchamp.Session.Bindings
