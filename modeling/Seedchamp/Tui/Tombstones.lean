import Seedchamp.Tui.DeleteFilter
import Mathlib.Data.List.Nodup

/-!
What a delivered list shows. Generations reach the interface in the order they were kicked, and a
tombstone stands for a delete under way or covers every list read before its commit.
-/

namespace Seedchamp.Tui.Tombstones
open Foundation.TransitionSystem Tui.DeleteFilter

/-! ### What is under way -/

def commandGeneration : EngineCommand → Option Nat
  | .listCatalog _ seq => some seq
  | .delete _ _ => none

def commandDelete : EngineCommand → Option Nat
  | .listCatalog _ _ => none
  | .delete _ id => some id

def generation : ControlEvent → Option Nat
  | .catalogList reply => some reply.seq
  | .catalogListFailed _ seq => some seq
  | .deleted _ _ => none
  | .deleteFailed _ _ => none

def settles : ControlEvent → Option Nat
  | .catalogList _ => none
  | .catalogListFailed _ _ => none
  | .deleted _ id => some id
  | .deleteFailed _ id => some id

def fails : ControlEvent → Option Nat
  | .deleteFailed _ id => some id
  | _ => none

def listed : ControlEvent → Option Reply
  | .catalogList reply => some reply
  | _ => none

/-- The generations that have not reached the interface, the oldest first. -/
def generations (w : World) : List Nat :=
  (w.events ++ w.reading.toList).filterMap generation ++ w.reads.map Prod.snd ++
    w.commands.filterMap commandGeneration

/-- The ids whose delete was asked for and whose answer has not reached the interface. -/
def pending (w : World) : List Nat :=
  (w.events ++ w.outcome.toList).filterMap settles ++ w.jobs.map Prod.snd ++
    w.commands.filterMap commandDelete

/-- Those of them whose delete is not committed. -/
def uncommitted (w : World) : List Nat :=
  (w.events ++ w.outcome.toList).filterMap fails ++ w.jobs.map Prod.snd ++
    w.commands.filterMap commandDelete

def replies (w : World) : List Reply := (w.events ++ w.reading.toList).filterMap listed

def tomb (w : World) (id : Nat) : Option Stamp := w.app.pendingGone.tomb id

/-! ### The invariant -/

/-- Generations arrive in the order they were kicked. -/
structure Ordered (w : World) : Prop where
  sent : w.app.pendingGone.sent = w.listSeq
  reading : ∀ event ∈ w.reading, settles event = none
  outcome : ∀ event ∈ w.outcome, generation event = none
  increasing : (generations w).Pairwise (· < ·)
  kickedBefore : ∀ seq ∈ generations w, seq ≤ w.listSeq

/-- A tombstone hides from every list as long as the delete is under way. -/
structure Held (w : World) : Prop where
  once : (pending w).Nodup
  held : ∀ id, tomb w id = some .hideFromAll ↔ id ∈ pending w
  stamped : ∀ id seq, tomb w id = some (.upTo seq) → seq ≤ w.listSeq

/-- No list under way and no row on the screen is older than a delete it does not know of. -/
structure Covered (w : World) : Prop where
  covered : ∀ reply ∈ replies w, ∀ id ∈ reply.stale, ∃ t, tomb w id = some t ∧ t.hides reply.seq = true
  fresh : ∀ id ∈ uncommitted w, ∀ reply ∈ replies w, id ∉ reply.stale
  shown : ∀ row ∈ w.app.rows, tomb w row.id = none

structure Sound (w : World) : Prop where
  ordered : Ordered w
  held : Held w
  covered : Covered w

/-- No delete of the torrent is under way, and no list may still show it from before the last. -/
def once (w : World) : Event → Bool
  | .delete _ id => tomb w id = none
  | _ => true

/-! ### Outdated replies -/

theorem generation_outdate (id : Nat) (event : ControlEvent) :
    generation (event.outdate id) = generation event := by
  cases event <;> rfl

theorem settles_outdate (id : Nat) (event : ControlEvent) :
    settles (event.outdate id) = settles event := by
  cases event <;> rfl

theorem fails_outdate (id : Nat) (event : ControlEvent) : fails (event.outdate id) = fails event := by
  cases event <;> rfl

def Reply.outdated (id : Nat) (reply : Reply) : Reply := { reply with stale := id :: reply.stale }

theorem listed_outdate (id : Nat) (event : ControlEvent) :
    listed (event.outdate id) = (listed event).map (Reply.outdated id) := by
  cases event <;> rfl

theorem filterMap_outdate (f : ControlEvent → Option α) (id : Nat)
    (same : ∀ event, f (event.outdate id) = f event) (events : List ControlEvent) :
    (events.map (ControlEvent.outdate id)).filterMap f = events.filterMap f := by
  rw [List.filterMap_map]
  congr 1
  funext event
  exact same event

theorem replies_outdate (id : Nat) (events : List ControlEvent) :
    (events.map (ControlEvent.outdate id)).filterMap listed =
      (events.filterMap listed).map (Reply.outdated id) := by
  induction events with
  | nil => rfl
  | cons event rest ih =>
    rw [List.map_cons, List.filterMap_cons, List.filterMap_cons, listed_outdate, ih]
    cases listed event <;> rfl

/-! ### Asking for a list -/

theorem generations_kick (w : World) : generations w.kick = generations w ++ [w.listSeq + 1] := by
  simp only [generations, World.kick, List.filterMap_append, List.append_assoc]
  rfl

theorem deletes_kick (w : World) :
    w.kick.commands.filterMap commandDelete = w.commands.filterMap commandDelete := by
  rw [World.kick, List.filterMap_append]
  exact List.append_nil _

theorem pending_kick (w : World) : pending w.kick = pending w :=
  congrArg ((w.events ++ w.outcome.toList).filterMap settles ++ w.jobs.map Prod.snd ++ ·) (deletes_kick w)

theorem uncommitted_kick (w : World) : uncommitted w.kick = uncommitted w :=
  congrArg ((w.events ++ w.outcome.toList).filterMap fails ++ w.jobs.map Prod.snd ++ ·) (deletes_kick w)

theorem ordered_kick (w : World) (before : Ordered w) : Ordered w.kick := by
  constructor
  · show max w.app.pendingGone.sent (w.listSeq + 1) = w.listSeq + 1
    rw [before.sent]
    omega
  · exact before.reading
  · exact before.outcome
  · rw [generations_kick, List.pairwise_append]
    refine ⟨before.increasing, List.pairwise_singleton _ _, ?_⟩
    intro seq member new newest
    rw [List.mem_singleton] at newest
    have bound := before.kickedBefore seq member
    omega
  · rw [generations_kick]
    intro seq member
    show seq ≤ w.listSeq + 1
    rcases List.mem_append.1 member with old | new
    · have bound := before.kickedBefore seq old
      omega
    · rw [List.mem_singleton] at new
      omega

theorem held_kick (w : World) (before : Held w) : Held w.kick := by
  constructor
  · rw [pending_kick]
    exact before.once
  · rw [pending_kick]
    exact before.held
  · intro id seq stamped
    have bound := before.stamped id seq stamped
    show seq ≤ w.listSeq + 1
    omega

theorem covered_kick (w : World) (before : Covered w) : Covered w.kick :=
  ⟨before.covered, uncommitted_kick w ▸ before.fresh, before.shown⟩

theorem sound_kick (w : World) (before : Sound w) : Sound w.kick :=
  ⟨ordered_kick w before.ordered, held_kick w before.held, covered_kick w before.covered⟩

/-! ### The worker threads -/

/-- A step behind the screen that loses generations at most. -/
theorem sound_of_moved (w w' : World) (before : Sound w) (app : w'.app = w.app)
    (kicks : w'.listSeq = w.listSeq) (reading : ∀ event ∈ w'.reading, settles event = none)
    (outcome : ∀ event ∈ w'.outcome, generation event = none)
    (fewer : (generations w').Sublist (generations w)) (waiting : pending w' = pending w)
    (deciding : ∀ id ∈ uncommitted w', id ∈ uncommitted w)
    (known : ∀ reply ∈ replies w', reply ∈ replies w ∨ reply.stale = []) : Sound w' := by
  have tombs : tomb w' = tomb w := by
    unfold tomb
    rw [app]
  refine ⟨⟨?_, reading, outcome, ?_, ?_⟩, ⟨?_, ?_, ?_⟩, ⟨?_, ?_, ?_⟩⟩
  · rw [app, kicks]
    exact before.ordered.sent
  · exact before.ordered.increasing.sublist fewer
  · intro seq member
    rw [kicks]
    exact before.ordered.kickedBefore seq (fewer.subset member)
  · rw [waiting]
    exact before.held.once
  · rw [waiting, tombs]
    exact before.held.held
  · rw [tombs, kicks]
    exact before.held.stamped
  · intro reply member id stale
    rw [tombs]
    rcases known reply member with old | new
    · exact before.covered.covered reply old id stale
    · rw [new] at stale
      exact absurd stale List.not_mem_nil
  · intro id open' reply member
    rcases known reply member with old | new
    · exact before.covered.fresh id (deciding id open') reply old
    · rw [new]
      exact List.not_mem_nil
  · rw [app, tombs]
    exact before.covered.shown

theorem sound_forward (w w' : World) (before : Sound w) (taken : w.forward = some w') : Sound w' := by
  rw [World.forward] at taken
  cases queued : w.commands with
  | nil =>
    rw [queued] at taken
    cases taken
  | cons command rest =>
    rw [queued] at taken
    cases command with
    | listCatalog filter seq =>
      cases taken
      refine sound_of_moved w _ before rfl rfl before.ordered.reading before.ordered.outcome
        ?_ ?_ ?_ ?_
      · simp only [generations, queued, List.map_append, List.append_assoc]
        exact List.Sublist.refl _
      · simp only [pending, queued]
        rfl
      · simp only [uncommitted, queued]
        exact fun _ member => member
      · exact fun _ member => Or.inl member
    | delete kind id =>
      cases taken
      refine sound_of_moved w _ before rfl rfl before.ordered.reading before.ordered.outcome
        ?_ ?_ ?_ ?_
      · simp only [generations, queued]
        exact List.Sublist.refl _
      · simp only [pending, queued, List.map_append, List.append_assoc]
        rfl
      · simp only [uncommitted, queued, List.map_append, List.append_assoc]
        exact fun _ member => member
      · exact fun _ member => Or.inl member

theorem latest_mem (first : Text × Nat) (rest : List (Text × Nat)) (more : Nat) :
    [(World.latest first (rest.take more)).2].Sublist (((first :: rest).take (more + 1)).map Prod.snd) := by
  rw [List.singleton_sublist, List.take_succ_cons, World.latest]
  apply List.mem_map_of_mem
  rw [List.getLastD_eq_getLast?]
  cases newest : (rest.take more).getLast? with
  | none => exact List.mem_cons_self
  | some job => exact List.mem_cons_of_mem _ (List.mem_of_getLast? newest)

theorem sound_read (w w' : World) (more : Nat) (ok : Bool) (before : Sound w)
    (taken : w.read more ok = some w') : Sound w' := by
  rw [World.read] at taken
  cases idle : w.reading with
  | some event =>
    rw [idle] at taken
    cases taken
  | none =>
    cases queued : w.reads with
    | nil =>
      rw [idle, queued] at taken
      cases taken
    | cons first rest =>
      rw [idle, queued] at taken
      cases taken
      have fewer : ([(World.latest first (rest.take more)).2] ++ (rest.drop more).map Prod.snd).Sublist
          ((first :: rest).map Prod.snd) := by
        have parts : first :: rest = (first :: rest).take (more + 1) ++ rest.drop more := by
          rw [List.take_succ_cons, List.cons_append, List.take_append_drop]
        rw [parts, List.map_append]
        exact (latest_mem first rest more).append (List.Sublist.refl _)
      cases ok with
      | true =>
        refine sound_of_moved w _ before rfl rfl ?_ ?_ ?_ ?_ ?_ ?_
        · rintro event ⟨⟩
          rfl
        · exact before.ordered.outcome
        · simp only [generations, idle, queued, Option.toList_none, List.append_nil,
            List.filterMap_append]
          rw [List.append_assoc (List.filterMap generation w.events)]
          exact (List.Sublist.append (List.Sublist.refl _) fewer).append (List.Sublist.refl _)
        · rfl
        · exact fun _ member => member
        · intro reply member
          simp only [replies, List.filterMap_append, List.mem_append] at member ⊢
          rcases member with old | new
          · exact Or.inl (Or.inl old)
          · right
            cases List.mem_singleton.1 new
            rfl
      | false =>
        refine sound_of_moved w _ before rfl rfl ?_ ?_ ?_ ?_ ?_ ?_
        · rintro event ⟨⟩
          rfl
        · exact before.ordered.outcome
        · simp only [generations, idle, queued, Option.toList_none, List.append_nil,
            List.filterMap_append]
          rw [List.append_assoc (List.filterMap generation w.events)]
          exact (List.Sublist.append (List.Sublist.refl _) fewer).append (List.Sublist.refl _)
        · rfl
        · exact fun _ member => member
        · intro reply member
          simp only [replies, List.filterMap_append, List.mem_append] at member ⊢
          rcases member with old | new
          · exact Or.inl (Or.inl old)
          · cases new

theorem sound_postList (w w' : World) (before : Sound w) (taken : w.postList = some w') : Sound w' := by
  obtain ⟨event, done, rfl⟩ := Option.map_eq_some_iff.1 taken
  have list := before.ordered.reading event done
  have failed : fails event = none := by
    cases event <;> first | rfl | cases list
  refine sound_of_moved w _ before rfl rfl ?_ ?_ ?_ ?_ ?_ ?_
  · exact fun _ member => absurd member (Option.not_mem_none _)
  · exact before.ordered.outcome
  · simp only [generations, done, Option.toList_some, Option.toList_none, List.append_nil]
    exact List.Sublist.refl _
  · simp only [pending, List.filterMap_append, List.filterMap_cons, list, List.filterMap_nil,
      List.append_nil]
  · simp only [uncommitted, List.filterMap_append, List.filterMap_cons, failed, List.filterMap_nil,
      List.append_nil]
    exact fun _ member => member
  · simp only [replies, done, Option.toList_some, Option.toList_none, List.append_nil]
    exact fun _ member => Or.inl member

theorem sound_postOutcome (w w' : World) (before : Sound w) (taken : w.postOutcome = some w') :
    Sound w' := by
  obtain ⟨event, done, rfl⟩ := Option.map_eq_some_iff.1 taken
  have settled := before.ordered.outcome event done
  have notList : listed event = none := by
    cases event <;> first | rfl | cases settled
  refine sound_of_moved w _ before rfl rfl ?_ ?_ ?_ ?_ ?_ ?_
  · exact before.ordered.reading
  · exact fun _ member => absurd member (Option.not_mem_none _)
  · simp only [generations, List.filterMap_append, List.filterMap_cons, settled, List.filterMap_nil,
      List.append_nil]
    exact List.Sublist.refl _
  · simp only [pending, done, Option.toList_some, Option.toList_none, List.append_nil]
  · simp only [uncommitted, done, Option.toList_some, Option.toList_none, List.append_nil]
    exact fun _ member => member
  · simp only [replies, List.filterMap_append, List.filterMap_cons, notList, List.filterMap_nil,
      List.append_nil]
    exact fun _ member => Or.inl member

theorem fails_settles (event : ControlEvent) (id : Nat) (failed : fails event = some id) :
    settles event = some id := by
  cases event <;> first | exact failed | cases failed

theorem mem_settles_of_fails (events : List ControlEvent) (id : Nat)
    (failed : id ∈ events.filterMap fails) : id ∈ events.filterMap settles := by
  obtain ⟨event, member, named⟩ := List.mem_filterMap.1 failed
  exact List.mem_filterMap.2 ⟨event, member, fails_settles event id named⟩

theorem seq_mem_generations (w : World) (reply : Reply) (member : reply ∈ replies w) :
    reply.seq ∈ generations w := by
  obtain ⟨event, posted, named⟩ := List.mem_filterMap.1 member
  refine List.mem_append_left _ (List.mem_append_left _ (List.mem_filterMap.2 ⟨event, posted, ?_⟩))
  cases event with
  | catalogList other =>
    cases named
    rfl
  | _ => cases named

/-- The world after the delete at the head of the queue is committed. -/
def committed (w : World) (kind : DeleteKind) (id : Nat) (rest : List (DeleteKind × Nat)) : World :=
  { w with
    jobs := rest
    catalog := w.catalog.filter (fun row => row.id ≠ id)
    reading := w.reading.map (ControlEvent.outdate id)
    events := w.events.map (ControlEvent.outdate id)
    outcome := some (.deleted kind id) }

theorem sound_committed (w : World) (kind : DeleteKind) (id : Nat) (rest : List (DeleteKind × Nat))
    (before : Sound w) (idle : w.outcome = none) (queued : w.jobs = (kind, id) :: rest) :
    Sound (committed w kind id rest) := by
  have marked : w.events.map (ControlEvent.outdate id) ++ (w.reading.map (ControlEvent.outdate id)).toList =
      (w.events ++ w.reading.toList).map (ControlEvent.outdate id) := by
    rw [List.map_append]
    cases w.reading <;> rfl
  have gens : generations (committed w kind id rest) = generations w := by
    rw [generations, generations]
    dsimp only [committed]
    rw [marked, filterMap_outdate generation id (generation_outdate id)]
  have seen : replies (committed w kind id rest) = (replies w).map (Reply.outdated id) := by
    rw [replies, replies]
    dsimp only [committed]
    rw [marked, replies_outdate]
  have waiting : pending (committed w kind id rest) = pending w := by
    simp only [pending, committed, idle, queued, List.filterMap_append, Option.toList_none,
      List.append_nil, List.append_assoc, filterMap_outdate settles id (settles_outdate id)]
    rfl
  have mine : id ∈ pending w := by
    rw [pending, queued]
    exact List.mem_append_left _ (List.mem_append_right _ List.mem_cons_self)
  have others : ∀ other ∈ uncommitted (committed w kind id rest), other ≠ id ∧ other ∈ uncommitted w := by
    intro other member
    have whole : pending w = w.events.filterMap settles ++
        id :: (rest.map Prod.snd ++ w.commands.filterMap commandDelete) := by
      rw [pending, idle, queued, Option.toList_none, List.append_nil, List.append_assoc]
      rfl
    have former : uncommitted w = w.events.filterMap fails ++
        id :: (rest.map Prod.snd ++ w.commands.filterMap commandDelete) := by
      rw [uncommitted, idle, queued, Option.toList_none, List.append_nil, List.append_assoc]
      rfl
    have left : uncommitted (committed w kind id rest) = w.events.filterMap fails ++
        (rest.map Prod.snd ++ w.commands.filterMap commandDelete) := by
      rw [uncommitted, List.append_assoc, List.filterMap_append]
      dsimp only [committed]
      rw [filterMap_outdate fails id (fails_outdate id)]
      exact congrArg (· ++ _) (List.append_nil _)
    have alone := before.held.once
    rw [whole, List.nodup_middle, List.nodup_cons] at alone
    rw [left] at member
    rw [former]
    refine ⟨?_, ?_⟩
    · rintro rfl
      apply alone.1
      rcases List.mem_append.1 member with failed | later
      · exact List.mem_append_left _ (mem_settles_of_fails _ other failed)
      · exact List.mem_append_right _ later
    · rcases List.mem_append.1 member with failed | later
      · exact List.mem_append_left _ failed
      · exact List.mem_append_right _ (List.mem_cons_of_mem _ later)
  refine ⟨⟨before.ordered.sent, ?_, ?_, ?_, ?_⟩, ⟨?_, ?_, before.held.stamped⟩, ⟨?_, ?_, before.covered.shown⟩⟩
  · intro event member
    obtain ⟨old, known, rfl⟩ := Option.map_eq_some_iff.1 member
    rw [settles_outdate]
    exact before.ordered.reading old known
  · rintro event ⟨⟩
    rfl
  · rw [gens]
    exact before.ordered.increasing
  · rw [gens]
    exact before.ordered.kickedBefore
  · rw [waiting]
    exact before.held.once
  · rw [waiting]
    exact before.held.held
  · rw [seen]
    intro reply member other stale
    obtain ⟨old, known, rfl⟩ := List.mem_map.1 member
    rcases List.mem_cons.1 stale with rfl | earlier
    · exact ⟨.hideFromAll, (before.held.held other).2 mine, rfl⟩
    · exact before.covered.covered old known other earlier
  · rw [seen]
    intro other open' reply member stale
    obtain ⟨apart, open'⟩ := others other open'
    obtain ⟨old, known, rfl⟩ := List.mem_map.1 member
    rcases List.mem_cons.1 stale with same | earlier
    · exact apart same
    · exact before.covered.fresh other open' old known earlier

/-- A delete that fails leaves the catalog; one that succeeds outdates every list read before it. -/
theorem sound_mutate (w w' : World) (ok : Bool) (before : Sound w) (taken : w.mutate ok = some w') :
    Sound w' := by
  rw [World.mutate] at taken
  cases idle : w.outcome with
  | some event =>
    rw [idle] at taken
    cases taken
  | none =>
    cases queued : w.jobs with
    | nil =>
      rw [idle, queued] at taken
      cases taken
    | cons job rest =>
      obtain ⟨kind, id⟩ := job
      rw [idle, queued] at taken
      cases ok with
      | false =>
        cases taken
        refine sound_of_moved w _ before rfl rfl before.ordered.reading ?_ ?_ ?_ ?_ ?_
        · rintro event ⟨⟩
          rfl
        · exact List.Sublist.refl _
        · simp only [pending, idle, queued, List.filterMap_append, Option.toList_none, List.append_nil,
            List.append_assoc]
          rfl
        · simp only [uncommitted, idle, queued, List.filterMap_append, Option.toList_none,
            List.append_nil, List.append_assoc]
          exact fun _ member => member
        · exact fun _ member => Or.inl member
      | true =>
        cases taken
        exact sound_committed w kind id rest before idle queued

/-! ### The interface -/

/-- The world after a delete that the interface accepts. -/
def requested (w : World) (kind : DeleteKind) (id : Nat) : World :=
  { w with
    commands := w.commands ++ [.delete kind id]
    app := { w.app with
      pendingGone := w.app.pendingGone.optimisticRemove id
      rows := w.app.rows.filter (fun row => row.id ≠ id) } }

theorem tomb_requested (w : World) (kind : DeleteKind) (id : Nat) :
    tomb (requested w kind id) = Function.update (tomb w) id (some .hideFromAll) := rfl

theorem sound_requested (w : World) (kind : DeleteKind) (id : Nat) (before : Sound w)
    (guarded : tomb w id = none) : Sound (requested w kind id) := by
  have deletes : (w.commands ++ [EngineCommand.delete kind id]).filterMap commandDelete =
      w.commands.filterMap commandDelete ++ [id] := List.filterMap_append
  have gens : generations (requested w kind id) = generations w :=
    congrArg ((w.events ++ w.reading.toList).filterMap generation ++ w.reads.map Prod.snd ++ ·)
      (List.filterMap_append.trans (List.append_nil _))
  have waiting : pending (requested w kind id) = pending w ++ [id] := by
    refine Eq.trans ?_ (List.append_assoc _ _ _).symm
    exact congrArg ((w.events ++ w.outcome.toList).filterMap settles ++ w.jobs.map Prod.snd ++ ·) deletes
  have deciding : uncommitted (requested w kind id) = uncommitted w ++ [id] := by
    refine Eq.trans ?_ (List.append_assoc _ _ _).symm
    exact congrArg ((w.events ++ w.outcome.toList).filterMap fails ++ w.jobs.map Prod.snd ++ ·) deletes
  have unknown : id ∉ pending w := by
    intro member
    have clash := (before.held.held id).2 member
    rw [guarded] at clash
    cases clash
  refine ⟨⟨before.ordered.sent, before.ordered.reading, before.ordered.outcome, ?_, ?_⟩,
    ⟨?_, ?_, ?_⟩, ⟨?_, ?_, ?_⟩⟩
  · rw [gens]
    exact before.ordered.increasing
  · rw [gens]
    exact before.ordered.kickedBefore
  · rw [waiting, List.nodup_append]
    refine ⟨before.held.once, List.nodup_singleton id, ?_⟩
    intro other member new same
    rw [List.mem_singleton] at same
    rintro rfl
    exact unknown (same ▸ member)
  · intro other
    rw [tomb_requested, waiting, List.mem_append, List.mem_singleton]
    by_cases mine : other = id
    · rw [mine, Function.update_self]
      exact ⟨fun _ => Or.inr rfl, fun _ => rfl⟩
    · rw [Function.update_of_ne mine, before.held.held other]
      exact ⟨Or.inl, fun either => either.resolve_right mine⟩
  · intro other seq
    rw [tomb_requested]
    by_cases mine : other = id
    · rw [mine, Function.update_self]
      intro clash
      cases clash
    · rw [Function.update_of_ne mine]
      exact before.held.stamped other seq
  · intro reply member other stale
    rw [tomb_requested]
    by_cases mine : other = id
    · rw [mine, Function.update_self]
      exact ⟨_, rfl, rfl⟩
    · rw [Function.update_of_ne mine]
      exact before.covered.covered reply member other stale
  · rw [deciding]
    intro other open' reply member stale
    rcases List.mem_append.1 open' with old | new
    · exact before.covered.fresh other old reply member stale
    · rw [List.mem_singleton] at new
      obtain ⟨t, marked, _⟩ := before.covered.covered reply member other stale
      rw [new, guarded] at marked
      cases marked
  · intro row member
    obtain ⟨old, apart⟩ := List.mem_filter.1 member
    rw [tomb_requested, Function.update_of_ne (of_decide_eq_true apart)]
    exact before.covered.shown row old

theorem sound_delete (w : World) (kind : DeleteKind) (id : Nat) (before : Sound w)
    (guarded : tomb w id = none) : Sound (w.delete kind id) := by
  rw [World.delete]
  split_ifs
  · exact before
  · exact sound_requested w kind id before guarded

theorem sound_toggle (w : World) (id : Nat) (before : Sound w) : Sound (w.toggle id) := by
  refine ⟨⟨before.ordered.sent, before.ordered.reading, before.ordered.outcome,
    before.ordered.increasing, before.ordered.kickedBefore⟩, ⟨before.held.once, before.held.held,
    before.held.stamped⟩, ⟨before.covered.covered, before.covered.fresh, ?_⟩⟩
  intro row member
  obtain ⟨old, known, rfl⟩ := List.mem_map.1 member
  have unmarked := before.covered.shown old known
  split_ifs
  · exact unmarked
  · exact unmarked

/-- What is left when the oldest event is taken and it settles no delete. -/
theorem sound_taken (w : World) (event : ControlEvent) (rest : List ControlEvent) (before : Sound w)
    (waiting : w.events = event :: rest) (list : settles event = none) :
    Sound { w with events := rest } := by
  have unfailed : fails event = none := by
    cases event <;> first | rfl | cases list
  refine sound_of_moved w _ before rfl rfl before.ordered.reading before.ordered.outcome ?_ ?_ ?_ ?_
  · simp only [generations, waiting]
    exact ((((List.sublist_cons_self event rest).append (List.Sublist.refl _)).filterMap _).append
      (List.Sublist.refl _)).append (List.Sublist.refl _)
  · simp only [pending, waiting, List.cons_append, List.filterMap_cons, list]
  · simp only [uncommitted, waiting, List.cons_append, List.filterMap_cons, unfailed]
    exact fun _ member => member
  · intro reply member
    left
    rw [replies, waiting]
    exact (((List.sublist_cons_self event rest).append (List.Sublist.refl _)).filterMap _).subset member

/-- The world after a list of the filter on the screen. -/
def refreshed (w : World) (reply : Reply) (rest : List ControlEvent) : World :=
  { w with
    events := rest
    app := { w.app with
      rows := w.app.pendingGone.retain reply.rows reply.seq
      pendingGone := w.app.pendingGone.collect reply.seq } }

theorem tomb_refreshed (w : World) (reply : Reply) (rest : List ControlEvent) (id : Nat) :
    tomb (refreshed w reply rest) id = (tomb w id).filter (fun t => t.hides reply.seq) := rfl

theorem hides_older (t : Stamp) (older newer : Nat) (before : older ≤ newer)
    (hidden : t.hides newer = true) : t.hides older = true := by
  cases t with
  | hideFromAll => rfl
  | upTo seq =>
    have bound : newer ≤ seq := of_decide_eq_true hidden
    exact decide_eq_true (Nat.le_trans before bound)

theorem replies_newer (w : World) (reply : Reply) (rest : List ControlEvent) (before : Ordered w)
    (waiting : w.events = .catalogList reply :: rest) :
    ∀ later ∈ replies { w with events := rest }, reply.seq < later.seq := by
  intro later member
  have order := before.increasing
  have cut : generations w = reply.seq :: generations { w with events := rest } := by
    rw [generations, waiting]
    rfl
  rw [cut, List.pairwise_cons] at order
  exact order.1 later.seq (seq_mem_generations _ later member)

theorem sound_refreshed (w : World) (reply : Reply) (rest : List ControlEvent) (before : Sound w)
    (waiting : w.events = .catalogList reply :: rest) : Sound (refreshed w reply rest) := by
  have left := sound_taken w _ rest before waiting rfl
  refine ⟨⟨left.ordered.sent, left.ordered.reading, left.ordered.outcome, left.ordered.increasing,
    left.ordered.kickedBefore⟩, ⟨left.held.once, ?_, ?_⟩, ⟨?_, left.covered.fresh, ?_⟩⟩
  · intro id
    rw [tomb_refreshed]
    refine Iff.trans ?_ (left.held.held id)
    show _ ↔ tomb w id = some .hideFromAll
    rw [Option.filter_eq_some_iff]
    exact ⟨And.left, fun marked => ⟨marked, rfl⟩⟩
  · intro id seq marked
    rw [tomb_refreshed, Option.filter_eq_some_iff] at marked
    exact left.held.stamped id seq marked.1
  · intro later member id stale
    obtain ⟨t, marked, hidden⟩ := left.covered.covered later member id stale
    refine ⟨t, ?_, hidden⟩
    rw [tomb_refreshed, Option.filter_eq_some_iff]
    have newer := replies_newer w reply rest before.ordered waiting later member
    exact ⟨marked, hides_older t reply.seq later.seq (Nat.le_of_lt newer) hidden⟩
  · intro row member
    obtain ⟨_, visible⟩ := List.mem_filter.1 member
    rw [DeleteTombstones.hidden] at visible
    rw [tomb_refreshed, tomb]
    cases marked : w.app.pendingGone.tomb row.id with
    | none => rfl
    | some t =>
      rw [marked, Option.any_some] at visible
      rw [Option.filter_some_neg]
      simpa using visible

/-- The world after the answer to a delete, with the tombstone that the answer leaves. -/
def answered (w : World) (id : Nat) (left : Option Stamp) (rows : List TorrentListRow)
    (rest : List ControlEvent) : World :=
  { w with
    events := rest
    app := { w.app with
      pendingGone := { w.app.pendingGone with tomb := Function.update w.app.pendingGone.tomb id left }
      rows := rows } }

theorem tomb_answered (w : World) (id : Nat) (left : Option Stamp) (rows : List TorrentListRow)
    (rest : List ControlEvent) :
    tomb (answered w id left rows rest) = Function.update (tomb w) id left := rfl

/-- An answer to the delete of a torrent, whose new tombstone covers what is still under way. -/
theorem sound_answered (w : World) (event : ControlEvent) (id : Nat) (left : Option Stamp)
    (rows : List TorrentListRow) (rest : List ControlEvent) (before : Sound w)
    (waiting : w.events = event :: rest) (settled : settles event = some id)
    (bounded : ∀ t, left = some t → t = .upTo w.listSeq)
    (still : ∀ reply ∈ replies w, id ∈ reply.stale → left = some (.upTo w.listSeq))
    (fewer : ∀ row ∈ rows, row ∈ w.app.rows ∧ (left = none ∨ row.id ≠ id)) :
    Sound (answered w id left rows rest) := by
  have unlisted : generation event = none := by
    cases event <;> first | rfl | cases settled
  have gens : generations (answered w id left rows rest) = generations w := by
    simp only [generations, waiting, List.cons_append, List.filterMap_cons, unlisted]
    rfl
  have seen : ∀ reply ∈ replies (answered w id left rows rest), reply ∈ replies w := by
    intro reply member
    rw [replies, waiting]
    exact (((List.sublist_cons_self event rest).append (List.Sublist.refl _)).filterMap _).subset member
  have waiting' : pending w = id :: pending (answered w id left rows rest) := by
    simp only [pending, waiting, List.cons_append, List.filterMap_cons, settled]
    rfl
  have alone := before.held.once
  rw [waiting', List.nodup_cons] at alone
  have deciding : ∀ other ∈ uncommitted (answered w id left rows rest), other ∈ uncommitted w := by
    intro other member
    rw [uncommitted, waiting]
    exact ((((List.sublist_cons_self event rest).append (List.Sublist.refl _)).filterMap _).append
      (List.Sublist.refl _)).append (List.Sublist.refl _) |>.subset member
  refine ⟨⟨before.ordered.sent, before.ordered.reading, before.ordered.outcome, ?_, ?_⟩,
    ⟨alone.2, ?_, ?_⟩, ⟨?_, ?_, ?_⟩⟩
  · rw [gens]
    exact before.ordered.increasing
  · rw [gens]
    exact before.ordered.kickedBefore
  · intro other
    rw [tomb_answered]
    by_cases mine : other = id
    · rw [mine, Function.update_self]
      refine ⟨?_, fun member => absurd member alone.1⟩
      intro marked
      cases bounded _ marked
    · rw [Function.update_of_ne mine, before.held.held other, waiting', List.mem_cons]
      exact ⟨fun either => either.resolve_left mine, Or.inr⟩
  · intro other seq marked
    rw [tomb_answered] at marked
    by_cases mine : other = id
    · rw [mine, Function.update_self] at marked
      cases bounded _ marked
      exact Nat.le_refl _
    · rw [Function.update_of_ne mine] at marked
      exact before.held.stamped other seq marked
  · intro reply member other stale
    rw [tomb_answered]
    by_cases mine : other = id
    · rw [mine, Function.update_self]
      refine ⟨.upTo w.listSeq, still reply (seen reply member) (mine ▸ stale), decide_eq_true ?_⟩
      exact before.ordered.kickedBefore _ (seq_mem_generations w reply (seen reply member))
    · rw [Function.update_of_ne mine]
      exact before.covered.covered reply (seen reply member) other stale
  · intro other open' reply member
    exact before.covered.fresh other (deciding other open') reply (seen reply member)
  · intro row member
    obtain ⟨known, either⟩ := fewer row member
    rw [tomb_answered]
    by_cases mine : row.id = id
    · rw [mine, Function.update_self]
      exact either.resolve_right (fun apart => apart mine)
    · rw [Function.update_of_ne mine]
      exact before.covered.shown row known

theorem sound_deliver (w w' : World) (before : Sound w) (taken : w.deliver = some w') : Sound w' := by
  rw [World.deliver] at taken
  cases waiting : w.events with
  | nil =>
    rw [waiting] at taken
    cases taken
  | cons event rest =>
    rw [waiting] at taken
    cases taken
    cases event with
    | catalogList reply =>
      simp only [World.handle, World.applyCatalogList]
      split_ifs
      · exact sound_kick _ (sound_taken w _ rest before waiting rfl)
      · exact sound_refreshed w reply rest before waiting
    | catalogListFailed filter seq =>
      simp only [World.handle]
      split_ifs
      · exact sound_taken w _ rest before waiting rfl
      · exact sound_kick _ (sound_taken w _ rest before waiting rfl)
    | deleted kind id =>
      apply sound_kick
      have sent := before.ordered.sent
      refine sound_answered w _ id (some (.upTo w.app.pendingGone.sent)) _ rest before waiting rfl
        ?_ ?_ ?_
      · rintro t ⟨⟩
        rw [sent]
      · intro _ _ _
        rw [sent]
      · intro row member
        obtain ⟨known, apart⟩ := List.mem_filter.1 member
        exact ⟨known, Or.inr (of_decide_eq_true apart)⟩
    | deleteFailed kind id =>
      apply sound_kick
      refine sound_answered w _ id none w.app.rows rest before waiting rfl ?_ ?_ ?_
      · rintro t ⟨⟩
      · intro reply member stale
        have failed : id ∈ uncommitted w := by
          rw [uncommitted, waiting]
          exact List.mem_append_left _ (List.mem_append_left _ List.mem_cons_self)
        exact absurd stale (before.covered.fresh id failed reply member)
      · exact fun row member => ⟨member, Or.inl rfl⟩

theorem sound_step (w : World) (event : Event) (w' : World) (before : Sound w)
    (guarded : once w event = true) (taken : step w event = some w') : Sound w' := by
  cases event with
  | kick =>
    cases taken
    exact sound_kick w before
  | setFilter filter =>
    cases taken
    exact sound_kick _ ⟨⟨before.ordered.sent, before.ordered.reading, before.ordered.outcome,
      before.ordered.increasing, before.ordered.kickedBefore⟩, ⟨before.held.once, before.held.held,
      before.held.stamped⟩, ⟨before.covered.covered, before.covered.fresh, before.covered.shown⟩⟩
  | toggle id =>
    cases taken
    exact sound_toggle w id before
  | delete kind id =>
    cases taken
    exact sound_delete w kind id before (of_decide_eq_true guarded)
  | forward => exact sound_forward w w' before taken
  | read more ok => exact sound_read w w' more ok before taken
  | postList => exact sound_postList w w' before taken
  | mutate ok => exact sound_mutate w w' ok before taken
  | postOutcome => exact sound_postOutcome w w' before taken
  | change catalog =>
    cases taken
    exact sound_of_moved w _ before rfl rfl before.ordered.reading before.ordered.outcome
      (List.Sublist.refl _) rfl (fun _ member => member) (fun _ member => Or.inl member)
  | deliver => exact sound_deliver w w' before taken

theorem sound_initial (catalog : List TorrentListRow) : Sound (initial catalog) := by
  refine ⟨⟨rfl, ?_, ?_, List.Pairwise.nil, ?_⟩, ⟨List.nodup_nil, ?_, ?_⟩, ⟨?_, ?_, ?_⟩⟩
  · exact fun _ member => absurd member (Option.not_mem_none _)
  · exact fun _ member => absurd member (Option.not_mem_none _)
  · exact fun _ member => absurd member List.not_mem_nil
  · intro id
    refine ⟨?_, fun member => absurd member List.not_mem_nil⟩
    intro marked
    cases marked
  · intro id seq marked
    cases marked
  · exact fun _ member => absurd member List.not_mem_nil
  · exact fun _ member => absurd member List.not_mem_nil
  · exact fun _ member => absurd member List.not_mem_nil

theorem sound_run (catalog : List TorrentListRow) (events : List Event) (w : World)
    (guarded : Guarded step (fun w event => once w event = true) (initial catalog) events)
    (ran : exec step (initial catalog) events = some w) : Sound w :=
  exec_invariant step _ Sound sound_step (initial catalog) w events (sound_initial catalog) guarded ran

/-! ### After the answer -/

/-- An event that may come while the torrent is not deleted again. -/
def Spares (id : Nat) (w : World) (event : Event) : Prop :=
  once w event = true ∧ ∀ kind, event ≠ .delete kind id

/-- The tombstone that the answer to a delete left, or none. -/
def Settled (id : Nat) (left : Option Stamp) (w : World) : Prop :=
  Sound w ∧ (tomb w id = left ∨ tomb w id = none)

theorem settled_deliver (w w' : World) (id : Nat) (left : Option Stamp) (before : Sound w)
    (settled : tomb w id = left ∨ tomb w id = none) (unheld : left ≠ some .hideFromAll)
    (taken : w.deliver = some w') : tomb w' id = left ∨ tomb w' id = none := by
  have idle : id ∉ pending w := by
    rw [← before.held.held id]
    rintro marked
    rcases settled with same | gone
    · exact unheld (same ▸ marked)
    · rw [gone] at marked
      cases marked
  rw [World.deliver] at taken
  cases waiting : w.events with
  | nil =>
    rw [waiting] at taken
    cases taken
  | cons event rest =>
    rw [waiting] at taken
    cases taken
    cases event with
    | catalogList reply =>
      simp only [World.handle, World.applyCatalogList]
      split_ifs
      · exact settled
      · show tomb (refreshed w reply rest) id = left ∨ tomb (refreshed w reply rest) id = none
        rw [tomb_refreshed]
        rcases settled with same | gone
        · rw [same]
          cases left with
          | none => exact Or.inl rfl
          | some t =>
            rw [Option.filter_some]
            split_ifs
            · exact Or.inl rfl
            · exact Or.inr rfl
        · rw [gone]
          exact Or.inr rfl
    | catalogListFailed filter seq =>
      simp only [World.handle]
      split_ifs
      · exact settled
      · exact settled
    | deleted kind other =>
      have apart : id ≠ other := by
        rintro rfl
        apply idle
        rw [pending, waiting]
        exact List.mem_append_left _ (List.mem_append_left _ List.mem_cons_self)
      show Function.update (tomb w) other _ id = left ∨ Function.update (tomb w) other _ id = none
      rw [Function.update_of_ne apart]
      exact settled
    | deleteFailed kind other =>
      have apart : id ≠ other := by
        rintro rfl
        apply idle
        rw [pending, waiting]
        exact List.mem_append_left _ (List.mem_append_left _ List.mem_cons_self)
      show Function.update (tomb w) other _ id = left ∨ Function.update (tomb w) other _ id = none
      rw [Function.update_of_ne apart]
      exact settled

theorem settled_step (id : Nat) (left : Option Stamp) (unheld : left ≠ some .hideFromAll) (w : World)
    (event : Event) (w' : World) (before : Settled id left w) (spares : Spares id w event)
    (taken : step w event = some w') : Settled id left w' := by
  refine ⟨sound_step w event w' before.1 spares.1 taken, ?_⟩
  obtain ⟨sound, settled⟩ := before
  cases event with
  | kick =>
    cases taken
    exact settled
  | setFilter filter =>
    cases taken
    exact settled
  | toggle other =>
    cases taken
    exact settled
  | delete kind other =>
    cases taken
    rw [World.delete]
    split_ifs
    · exact settled
    · have apart : id ≠ other := by
        rintro rfl
        exact spares.2 kind rfl
      show Function.update (tomb w) other _ id = left ∨ Function.update (tomb w) other _ id = none
      rw [Function.update_of_ne apart]
      exact settled
  | forward =>
    have same : w'.app = w.app := by
      rw [step, World.forward] at taken
      split at taken <;> cases taken <;> rfl
    rw [tomb, same]
    exact settled
  | read more ok =>
    have same : w'.app = w.app := by
      rw [step, World.read] at taken
      split at taken
      · cases taken
        rfl
      · cases taken
    rw [tomb, same]
    exact settled
  | postList =>
    obtain ⟨_, _, rfl⟩ := Option.map_eq_some_iff.1 taken
    exact settled
  | mutate ok =>
    have same : w'.app = w.app := by
      rw [step, World.mutate] at taken
      split at taken
      · cases taken
        cases ok <;> rfl
      · cases taken
    rw [tomb, same]
    exact settled
  | postOutcome =>
    obtain ⟨_, _, rfl⟩ := Option.map_eq_some_iff.1 taken
    exact settled
  | change catalog =>
    cases taken
    exact settled
  | deliver => exact settled_deliver w w' id left sound settled unheld taken

/-! ### What the lists show -/

/-- Where the next event is a list of the filter on the screen: the rows it then shows. -/
def ShowsFresh (w : World) : Prop :=
  ∀ reply rest w', w.events = .catalogList reply :: rest → reply.filter = w.app.filter →
    step w .deliver = some w' →
    w'.app.rows.Sublist reply.rows ∧
      (∀ row, row ∈ w'.app.rows ↔ row ∈ reply.rows ∧ row.id ∉ pending w ∧
        ∀ seq, tomb w row.id = some (.upTo seq) → seq < reply.seq) ∧
      (∀ row ∈ w'.app.rows, row.id ∉ reply.stale ∧ row.id ∉ pending w') ∧
      ∀ id seq, tomb w id = some (.upTo seq) → seq < reply.seq → tomb w' id = none

/-- Where the next event answers a delete: a list is asked for, and every list kicked after the answer,
after a failure every list, shows the torrent where it has it and leaves no tombstone, until it is
deleted again. -/
def Returns (w : World) : Prop :=
  ∀ event id rest w', w.events = event :: rest → settles event = some id → step w .deliver = some w' →
    w'.commands = w.commands ++ [.listCatalog w'.app.filter (w.listSeq + 1)] ∧
      ∀ later v reply rest' v', Guarded step (Spares id) w' later → exec step w' later = some v →
        v.events = .catalogList reply :: rest' → reply.filter = v.app.filter →
        (w.listSeq < reply.seq ∨ fails event = some id) → step v .deliver = some v' →
        tomb v' id = none ∧ ∀ row, row.id = id → (row ∈ v'.app.rows ↔ row ∈ reply.rows)

theorem deliver_list (w w' : World) (reply : Reply) (rest : List ControlEvent)
    (waiting : w.events = .catalogList reply :: rest) (shown : reply.filter = w.app.filter)
    (taken : step w .deliver = some w') : w' = refreshed w reply rest := by
  rw [step, World.deliver, waiting] at taken
  simp only [World.handle, World.applyCatalogList] at taken
  rw [if_neg (fun apart => apart shown)] at taken
  cases taken
  rfl

theorem mem_refreshed (w : World) (reply : Reply) (rest : List ControlEvent) (row : TorrentListRow) :
    row ∈ (refreshed w reply rest).app.rows ↔
      row ∈ reply.rows ∧ ∀ t, tomb w row.id = some t → t.hides reply.seq = false := by
  show row ∈ w.app.pendingGone.retain reply.rows reply.seq ↔ _
  rw [DeleteTombstones.retain, List.mem_filter, DeleteTombstones.hidden, tomb]
  refine and_congr_right (fun _ => ?_)
  cases w.app.pendingGone.tomb row.id with
  | none =>
    refine ⟨fun _ t marked => ?_, fun _ => rfl⟩
    cases marked
  | some t =>
    rw [Option.any_some, Bool.not_eq_true']
    refine ⟨?_, fun every => every t rfl⟩
    rintro visible _ ⟨⟩
    exact visible

theorem showsFresh (w : World) (sound : Sound w) : ShowsFresh w := by
  intro reply rest w' waiting shown taken
  have after := sound_refreshed w reply rest sound waiting
  cases deliver_list w w' reply rest waiting shown taken
  have exactly : ∀ row, row ∈ (refreshed w reply rest).app.rows ↔ row ∈ reply.rows ∧
      row.id ∉ pending w ∧ ∀ seq, tomb w row.id = some (.upTo seq) → seq < reply.seq := by
    intro row
    rw [mem_refreshed, ← sound.held.held]
    refine and_congr_right (fun _ => ⟨?_, ?_⟩)
    · intro visible
      refine ⟨fun held => ?_, fun seq marked => ?_⟩
      · cases visible _ held
      · have newer := of_decide_eq_false (visible _ marked)
        omega
    · rintro ⟨unheld, outdated⟩ t marked
      cases t with
      | hideFromAll => exact absurd marked unheld
      | upTo seq =>
        have newer := outdated seq marked
        exact decide_eq_false (by omega)
  refine ⟨List.filter_sublist, exactly, ?_, ?_⟩
  · intro row member
    have unmarked := after.covered.shown row member
    obtain ⟨_, visible⟩ := (mem_refreshed w reply rest row).1 member
    constructor
    · intro stale
      have listed' : reply ∈ replies w := by
        rw [replies, waiting]
        exact List.mem_cons_self
      obtain ⟨t, marked, hidden⟩ := sound.covered.covered reply listed' row.id stale
      rw [visible t marked] at hidden
      cases hidden
    · rw [← after.held.held, unmarked]
      exact fun clash => by cases clash
  · intro id seq marked newer
    rw [tomb_refreshed, marked, Option.filter_some, if_neg]
    intro hidden
    have bound : reply.seq ≤ seq := of_decide_eq_true hidden
    omega

theorem returns (w : World) (sound : Sound w) : Returns w := by
  intro event id rest w' waiting settled taken
  have asked : w'.commands = w.commands ++ [.listCatalog w'.app.filter (w.listSeq + 1)] := by
    rw [step, World.deliver, waiting] at taken
    cases event with
    | catalogList _ | catalogListFailed _ _ => cases settled
    | deleted kind other =>
      cases taken
      rfl
    | deleteFailed kind other =>
      cases taken
      rfl
  refine ⟨asked, ?_⟩
  intro later v reply rest' v' guarded ran next shown fresh taken'
  have left : ∃ t, tomb w' id = t ∧ t ≠ some .hideFromAll ∧
      ∀ seq, t = some (.upTo seq) → seq = w.listSeq ∧ fails event ≠ some id := by
    rw [step, World.deliver, waiting] at taken
    cases event with
    | catalogList _ | catalogListFailed _ _ => cases settled
    | deleted kind other =>
      cases settled
      cases taken
      refine ⟨_, Function.update_self id _ _, nofun, ?_⟩
      rintro seq ⟨⟩
      exact ⟨sound.ordered.sent, nofun⟩
    | deleteFailed kind other =>
      cases settled
      cases taken
      exact ⟨_, Function.update_self id _ _, nofun, nofun⟩
  obtain ⟨t, marked, unheld, stamped⟩ := left
  have sound' : Sound w' := sound_step w .deliver w' sound rfl taken
  obtain ⟨soundV, either⟩ := exec_invariant step _ (Settled id t) (settled_step id t unheld) w' v later
    ⟨sound', Or.inl marked⟩ guarded ran
  have outdated : ∀ seq, tomb v id = some (.upTo seq) → seq < reply.seq := by
    intro seq found
    rcases either with same | gone
    · obtain ⟨rfl, committed'⟩ := stamped seq (same ▸ found)
      exact fresh.resolve_right committed'
    · rw [gone] at found
      cases found
  have idle : id ∉ pending v := by
    rw [← soundV.held.held]
    intro held
    rcases either with same | gone
    · exact unheld (same ▸ held)
    · rw [gone] at held
      cases held
  obtain ⟨_, exactly, _, cleared⟩ := showsFresh v soundV reply rest' v' next shown taken'
  constructor
  · cases found : tomb v id with
    | none =>
      cases deliver_list v v' reply rest' next shown taken'
      rw [tomb_refreshed, found]
      rfl
    | some stamp =>
      cases stamp with
      | hideFromAll => exact absurd ((soundV.held.held id).1 found) idle
      | upTo seq => exact cleared id seq found (outdated seq found)
  · rintro row rfl
    rw [exactly]
    exact ⟨And.left, fun member => ⟨member, idle, outdated⟩⟩

/-- Where no torrent is deleted again before a list has shown the end of its last delete, nothing on the
screen is being deleted, a list read before a commit does not show the torrent, and the lists kicked
after the answer show all that they were read with. -/
theorem stale_rows_hidden (catalog : List TorrentListRow) (events : List Event) (w : World)
    (guarded : Guarded step (fun w event => once w event = true) (initial catalog) events)
    (ran : exec step (initial catalog) events = some w) :
    (∀ row ∈ w.app.rows, row.id ∉ pending w) ∧ ShowsFresh w ∧ Returns w := by
  have sound := sound_run catalog events w guarded ran
  refine ⟨?_, showsFresh w sound, returns w sound⟩
  intro row member
  rw [← sound.held.held, sound.covered.shown row member]
  exact fun clash => by cases clash

def torrent (id : Nat) : TorrentListRow := ⟨id, [], [], false⟩

/-- A delete that fails, and one that is confirmed while two older lists are under way. -/
def oldLists : List Event :=
  [.kick, .forward, .read 0 true, .postList, .deliver, .delete .remove 8, .forward, .mutate false, .postOutcome,
    .deliver, .delete .softDelete 7, .kick, .forward, .read 0 true, .postList, .forward, .forward, .read 0 true,
    .mutate true, .postOutcome, .postList]

theorem stale_rows_hidden_oldLists :
    (∀ row ∈ ((exec step (initial [torrent 7, torrent 8]) oldLists).getD (initial [])).app.rows, row.id ∉
      pending ((exec step (initial [torrent 7, torrent 8]) oldLists).getD (initial []))) ∧
    ShowsFresh ((exec step (initial [torrent 7, torrent 8]) oldLists).getD (initial [])) ∧
    Returns ((exec step (initial [torrent 7, torrent 8]) oldLists).getD (initial [])) :=
  stale_rows_hidden [torrent 7, torrent 8] oldLists _
    (guarded_of_guardedB step once _ oldLists (by decide +kernel))
    (Option.some_get (by decide +kernel)).symm

/-- The same torrent removed twice: the second removal finds nothing and fails. -/
def removedTwice : List Event :=
  [.kick, .forward, .read 0 true, .delete .remove 7, .delete .remove 7, .forward, .forward, .mutate true,
    .postOutcome, .mutate false, .postOutcome, .deliver, .deliver, .postList]

/-- A torrent whose removal is confirmed comes back with a list that was read before. -/
theorem second_failure_uncovers :
    ¬∀ (catalog : List TorrentListRow) (events : List Event) (w : World),
      exec step (initial catalog) events = some w →
      (∀ row ∈ w.app.rows, row.id ∉ pending w) ∧ ShowsFresh w ∧ Returns w := by
  intro always
  have shows := (always [torrent 7] removedTwice
    ((exec step (initial [torrent 7]) removedTwice).get (by decide +kernel))
    (Option.some_get (by decide +kernel)).symm).2.1
  have stale := (shows ⟨[], [torrent 7], 1, [7]⟩ [] _ rfl rfl rfl).2.2.1 (torrent 7)
  exact absurd (stale (by decide +kernel)).1 (by decide +kernel)

end Seedchamp.Tui.Tombstones
