import Seedchamp.Foundation.Custody
import Seedchamp.Foundation.TransitionSystem
import Seedchamp.Staging.Buffers

/-!
Piece buffers over whole runs of many peers: the freelist, the assembling slots and the detached
hash jobs share out the buffers, and the budget counts what the slots hold.
-/

namespace Seedchamp.Staging.Conservation
open Staging.PiecePool Staging.Pool Staging.Buffers Foundation.Custody Foundation.TransitionSystem

/-- A piece handed to the hash and disk workers, with its buffer. -/
structure Job where
  owner : Nat
  index : Nat
  buf : Held
  deriving DecidableEq, Repr

structure Sharing where
  pool : SharedPool
  peers : List Peer
  jobs : List Job
  deriving DecidableEq

def start (pieceLength limitBytes : Nat) : Sharing := ⟨SharedPool.new pieceLength limitBytes, [], []⟩

/-- `pieces` stands for everything that touches the pieces of a peer and no buffer. `clear` and
`drop` begin the loop of `clear`, `clearNext` is one turn of it, `finish` its end. The bytes that
come back with an outcome are those that the workers return; an outcome nobody receives is
discarded. -/
inductive Event where
  | join
  | start (peer index length : Nat)
  | ingest (peer index begin' : Nat) (data : Buffer)
  | pieces (peer : Nat) (update : ActivePiece → ActivePiece)
  | takeForHash (peer index : Nat)
  | reclaim (job : Nat) (returned : Buffer)
  | discard (job : Nat)
  | clear (peer : Nat)
  | drop (peer : Nat)
  | clearNext (peer : Nat)
  | finish (peer : Nat)

namespace Sharing

def inPhase (sys : Sharing) (s : Nat) (phase : Phase) : Option Peer :=
  sys.peers[s]?.filter fun peer => peer.phase = phase

def setPeer (sys : Sharing) (s : Nat) (peer : Peer) : Sharing := { sys with peers := sys.peers.set s peer }

end Sharing

def step (sys : Sharing) : Event → Option Sharing
  | .join => some { sys with peers := sys.peers ++ [Peer.fromPool sys.pool] }
  | .start s index length =>
    (sys.inPhase s .running).map fun peer =>
      let started := peer.tryStart sys.pool index length
      { sys.setPeer s started.2.1 with pool := started.2.2 }
  | .ingest s index begin' data =>
    (sys.inPhase s .running).map fun peer =>
      match peer.ingestIfStaged index begin' data with
      | .ok (some (_, peer)) => sys.setPeer s peer
      | _ => sys
  | .pieces s update => (sys.inPhase s .running).map fun peer => sys.setPeer s (peer.mapPieces update)
  | .takeForHash s index =>
    (sys.inPhase s .running).map fun peer =>
      match peer.takeForHash sys.pool index with
      | some (buf, peer, pool) =>
        { sys.setPeer s peer with pool := pool, jobs := sys.jobs ++ [⟨s, index, buf⟩] }
      | none => sys
  | .reclaim j returned =>
    sys.jobs[j]?.bind fun job =>
      (sys.inPhase job.owner .running).map fun peer =>
        let recycled := peer.reclaim sys.pool job.index ⟨job.buf.id, returned⟩
        { sys.setPeer job.owner recycled.1 with pool := recycled.2, jobs := sys.jobs.eraseIdx j }
  | .discard j => sys.jobs[j]?.map fun _ => { sys with jobs := sys.jobs.eraseIdx j }
  | .clear s => (sys.inPhase s .running).map fun peer => sys.setPeer s { peer with phase := .clearing }
  | .drop s => (sys.inPhase s .running).map fun peer => sys.setPeer s { peer with phase := .dropping }
  | .clearNext s =>
    ((sys.inPhase s .clearing).or (sys.inPhase s .dropping)).bind fun peer =>
      (peer.clearNext sys.pool).map fun cleared =>
        { sys.setPeer s cleared.1 with pool := cleared.2 }
  | .finish s =>
    ((sys.inPhase s .clearing).or (sys.inPhase s .dropping)).bind fun peer =>
      if (Peer.firstHeld peer.slots).isSome then none
      else if peer.phase = .clearing then some (sys.setPeer s { peer with phase := .running })
      else some (sys.setPeer s { peer with slots := [], phase := .gone })

/-- The names of the buffers a peer holds in assembling slots. -/
def names (peer : Peer) : List Nat := peer.held.map Held.id

def jobName (job : Job) : Nat := job.buf.id

/-- The names of all buffers: on the freelist, in slots, and with jobs. -/
def holdings (sys : Sharing) : List Nat :=
  sys.pool.free.map Held.id ++ (sys.peers.flatMap names ++ sys.jobs.map jobName)

def Whole (size : Nat) (buf : Held) : Prop := buf.bytes.length = size

/-- The invariant. -/
structure Conserved (size capacity : Nat) (sys : Sharing) : Prop where
  fixed : sys.pool.pieceLength = size ∧ sys.pool.capacity = capacity
  counted : sys.pool.outstanding = (sys.peers.flatMap names).length
  bounded : sys.pool.free.length + sys.pool.outstanding ≤ capacity
  pooled : ∀ buf ∈ sys.pool.free, Whole size buf
  slotted : ∀ peer ∈ sys.peers, ∀ buf ∈ peer.held, Whole size buf
  distinct : ∀ id, (holdings sys).count id ≤ 1
  made : ∀ id, sys.pool.made ≤ id → (holdings sys).count id = 0
  gone : ∀ peer ∈ sys.peers, peer.phase = .gone → peer.held = []

/-! ### What the operations do to the buffers -/

theorem resize_length (buf : Buffer) (len : Nat) : (resize buf len).length = len := by
  rw [resize, List.length_append, List.length_take, List.length_replicate]
  omega

/-- A buffer is taken from the freelist, or made when the freelist is empty and the budget allows. -/
theorem tryAcquire_cases (pool after : SharedPool) (buf : Held)
    (taken : pool.tryAcquire = some (buf, after)) :
    Whole pool.pieceLength buf ∧ after.pieceLength = pool.pieceLength ∧
      after.capacity = pool.capacity ∧ after.outstanding = pool.outstanding + 1 ∧
      ((∃ old, pool.free = old :: after.free ∧ buf.id = old.id ∧ after.made = pool.made) ∨
        (pool.free = [] ∧ after.free = [] ∧ pool.outstanding < pool.capacity ∧
          buf.id = pool.made ∧ after.made = pool.made + 1)) := by
  rw [SharedPool.tryAcquire] at taken
  split at taken
  · rename_i old rest listed
    cases taken
    exact ⟨resize_length _ _, rfl, rfl, rfl, Or.inl ⟨old, listed, rfl, rfl⟩⟩
  · rename_i listed
    split_ifs at taken with full
    cases taken
    exact ⟨List.length_replicate, rfl, rfl, rfl,
      Or.inr ⟨listed, listed, by omega, rfl, rfl⟩⟩

/-- A donated buffer joins the freelist while there is room, and is dropped otherwise. -/
theorem donate_cases (pool : SharedPool) (buf : Held) :
    (pool.free.length + pool.outstanding < pool.capacity ∧
      pool.donate buf =
        { pool with free := { buf with bytes := resize buf.bytes pool.pieceLength } :: pool.free }) ∨
      pool.donate buf = pool := by
  rw [SharedPool.donate]
  split_ifs with room
  · exact Or.inl ⟨room, rfl⟩
  · exact Or.inr rfl

theorem tryStart_cases (peer : Peer) (pool : SharedPool) (index length : Nat) :
    ((peer.tryStart pool index length).2 = (peer, pool)) ∨
      ∃ buf after, pool.tryAcquire = some (buf, after) ∧
        (peer.tryStart pool index length).2.2 = after ∧
        (peer.tryStart pool index length).2.1.held = peer.held ++ [buf] ∧
        (peer.tryStart pool index length).2.1.phase = peer.phase := by
  rw [Peer.tryStart]
  split_ifs
  · exact Or.inl rfl
  · exact Or.inl rfl
  · cases taken : pool.tryAcquire with
    | none => exact Or.inl rfl
    | some answer =>
      refine Or.inr ⟨answer.1, answer.2, rfl, rfl, ?_, rfl⟩
      rw [Peer.held, List.flatMap_append]
      rfl

theorem ingest_length (piece piece' : ActivePiece) (buf buf' : Buffer) (begin' : Nat) (data : Buffer)
    (complete : Bool) (ok : piece.ingest buf begin' data = .ok (piece', buf', complete)) :
    buf'.length = buf.length := by
  rw [ActivePiece.ingest] at ok
  split_ifs at ok with fits
  split at ok
  · cases ok
  · cases ok
    rw [not_or, not_lt] at fits
    simp only [List.length_append, List.length_take, List.length_drop]
    omega

/-- Replacing the buffer that was found by one of the same name keeps the names. -/
theorem replaceFirst_held (index : Nat) (piece piece' : ActivePiece) (buf buf' : Held)
    (slots : List HeldSlot) (found : slots.findSome? (HeldSlot.piece index) = some (piece, buf))
    (named : buf'.id = buf.id) :
    ((Peer.replaceFirst index (.assembling piece' buf') slots).flatMap HeldSlot.held).map Held.id =
        (slots.flatMap HeldSlot.held).map Held.id ∧
      buf ∈ slots.flatMap HeldSlot.held ∧
      ∀ other ∈ (Peer.replaceFirst index (.assembling piece' buf') slots).flatMap HeldSlot.held,
        other = buf' ∨ other ∈ slots.flatMap HeldSlot.held := by
  induction slots with
  | nil => cases found
  | cons first rest ih =>
    rw [Peer.replaceFirst]
    cases first with
    | assembling own bytes =>
      rw [List.findSome?_cons, HeldSlot.piece] at found
      by_cases same : own.index = index
      · rw [if_pos same] at found
        cases found
        have assembles : (HeldSlot.assembling piece buf).plain.assembles index = true := decide_eq_true same
        rw [if_pos assembles]
        refine ⟨?_, List.mem_cons_self, ?_⟩
        · simp only [List.flatMap_cons, HeldSlot.held, List.singleton_append, List.map_cons, named]
        · intro other member
          rcases List.mem_cons.1 member with new | old
          · exact Or.inl new
          · exact Or.inr (List.mem_cons_of_mem buf old)
      · rw [if_neg same] at found
        have skipped : ¬ (HeldSlot.assembling own bytes).plain.assembles index = true := by
          intro assembles
          exact same (of_decide_eq_true assembles)
        rw [if_neg skipped]
        obtain ⟨listed, member, origin⟩ := ih found
        refine ⟨?_, List.mem_cons_of_mem bytes member, ?_⟩
        · simp only [List.flatMap_cons, List.map_append, listed]
        · intro other inside
          rcases List.mem_cons.1 inside with own_ | later
          · exact Or.inr (own_ ▸ List.mem_cons_self)
          · rcases origin other later with new | old
            · exact Or.inl new
            · exact Or.inr (List.mem_cons_of_mem bytes old)
    | hashing other =>
      have skipped : ¬ (HeldSlot.hashing other).plain.assembles index = true := Bool.false_ne_true
      rw [if_neg skipped]
      exact ih found

theorem ingestIfStaged_held (peer peer' : Peer) (size index begin' : Nat) (data : Buffer)
    (complete : Bool) (ok : peer.ingestIfStaged index begin' data = .ok (some (complete, peer')))
    (whole : ∀ buf ∈ peer.held, Whole size buf) :
    names peer' = names peer ∧ peer'.phase = peer.phase ∧ ∀ buf ∈ peer'.held, Whole size buf := by
  rw [Peer.ingestIfStaged] at ok
  split at ok
  · cases ok
  · rename_i piece buf found
    split at ok
    · cases ok
    · rename_i piece' bytes complete' ingested
      cases ok
      obtain ⟨listed, member, origin⟩ :=
        replaceFirst_held index piece piece' buf { buf with bytes := bytes } peer.slots found rfl
      refine ⟨listed, rfl, ?_⟩
      intro other inside
      rcases origin other inside with new | old
      · rw [new]
        exact (ingest_length piece piece' buf.bytes bytes begin' data _ ingested).trans (whole buf member)
      · exact whole other old

theorem mapPieces_held (peer : Peer) (update : ActivePiece → ActivePiece) :
    (peer.mapPieces update).held = peer.held := by
  rw [Peer.held, Peer.held, Peer.mapPieces, List.flatMap_map]
  congr 1
  funext slot
  cases slot <;> rfl

/-- `swap_remove` takes the one slot out and keeps the others. -/
theorem swapRemove_perm {α : Type} (list : List α) (position : Nat) (one : α)
    (here : list[position]? = some one) : list.Perm (one :: swapRemove list position) := by
  obtain ⟨inside, found⟩ := List.getElem?_eq_some_iff.1 here
  have filled : list ≠ [] := by
    intro blank
    rw [blank] at inside
    exact absurd inside (Nat.not_lt_zero position)
  obtain ⟨init, last, split⟩ : ∃ init last, list = init ++ [last] :=
    ⟨list.dropLast, list.getLast filled, (List.dropLast_append_getLast filled).symm⟩
  subst split
  rw [swapRemove, List.getLast?_concat]
  dsimp only
  rw [List.length_append, List.length_singleton] at inside
  rcases Nat.lt_succ_iff_lt_or_eq.1 inside with low | end_
  · rw [List.set_append_left _ _ low, List.dropLast_concat]
    rw [List.getElem?_append_left low] at here
    have moved := flatMap_set_perm init (fun x => [x]) position one last here
    have stayed := flatMap_perm init (fun x => [x]) position one here
    rw [List.flatMap_singleton'] at moved stayed
    rw [List.flatMap_singleton', List.singleton_append] at moved stayed
    calc (init ++ [last]).Perm ((one :: init.eraseIdx position) ++ [last]) := stayed.append_right _
      _ = one :: (init.eraseIdx position ++ [last]) := rfl
      List.Perm _ (one :: (last :: init.eraseIdx position)) := (List.perm_append_singleton _ _).cons one
      List.Perm _ (one :: init.set position last) := moved.symm.cons one
  · subst end_
    rw [List.getElem?_concat_length, Option.some.injEq] at here
    subst here
    rw [List.set_append_right _ _ le_rfl, Nat.sub_self, List.set_cons_zero, List.dropLast_concat]
    exact List.perm_append_singleton _ _

/-- The position and the slot that are found for a piece are the same. -/
theorem slot_located (index : Nat) (slots : List HeldSlot) (position : Nat) (piece : ActivePiece)
    (buf : Held) (located : slots.findIdx? (fun slot => slot.plain.assembles index) = some position)
    (found : slots.findSome? (HeldSlot.piece index) = some (piece, buf)) :
    slots[position]? = some (.assembling piece buf) := by
  induction slots generalizing position with
  | nil => cases found
  | cons first rest ih =>
    rw [List.findIdx?_cons] at located
    rw [List.findSome?_cons] at found
    cases first with
    | assembling own bytes =>
      rw [HeldSlot.piece] at found
      by_cases same : own.index = index
      · rw [if_pos same] at found
        have assembles : (HeldSlot.assembling own bytes).plain.assembles index = true :=
          decide_eq_true same
        rw [if_pos assembles] at located
        cases located
        cases found
        rfl
      · rw [if_neg same] at found
        have skipped : ¬ (HeldSlot.assembling own bytes).plain.assembles index = true := by
          intro assembles
          exact same (of_decide_eq_true assembles)
        rw [if_neg skipped, Option.map_eq_some_iff] at located
        obtain ⟨next, later, same⟩ := located
        rw [← same, List.getElem?_cons_succ]
        exact ih next later found
    | hashing other =>
      have skipped : ¬ (HeldSlot.hashing other).plain.assembles index = true := Bool.false_ne_true
      rw [if_neg skipped, Option.map_eq_some_iff] at located
      obtain ⟨next, later, same⟩ := located
      rw [← same, List.getElem?_cons_succ]
      exact ih next later found

/-- The buffer of the piece leaves the slots. -/
theorem takeForHash_held (peer peer' : Peer) (pool pool' : SharedPool) (index : Nat) (buf : Held)
    (taken : peer.takeForHash pool index = some (buf, peer', pool')) :
    pool' = pool.detach ∧ peer'.phase = peer.phase ∧ peer.held.Perm (buf :: peer'.held) := by
  rw [Peer.takeForHash] at taken
  split at taken
  · rename_i position piece own located found
    cases taken
    have here := slot_located index peer.slots position piece buf located found
    have moved := (swapRemove_perm peer.slots position _ here).flatMap_right HeldSlot.held
    refine ⟨rfl, rfl, ?_⟩
    rw [Peer.held, Peer.held, List.flatMap_append]
    change (peer.slots.flatMap HeldSlot.held).Perm
      (buf :: ((swapRemove peer.slots position).flatMap HeldSlot.held ++ []))
    rw [List.append_nil]
    exact moved
  · cases taken

theorem reclaim_held (peer : Peer) (pool : SharedPool) (index : Nat) (data : Held) :
    (peer.reclaim pool index data).1.held = peer.held := by
  rw [Peer.reclaim, Peer.held, Peer.held]
  dsimp only
  generalize peer.slots = slots
  induction slots with
  | nil => rfl
  | cons first rest ih =>
    rw [List.filter_cons, List.flatMap_cons, ← ih]
    cases first with
    | assembling piece buf => rfl
    | hashing other =>
      split_ifs
      · rfl
      · rfl

theorem clearNext_held (peer peer' : Peer) (pool pool' : SharedPool)
    (cleared : peer.clearNext pool = some (peer', pool')) :
    ∃ buf, pool' = pool.release buf ∧ peer'.phase = peer.phase ∧ peer.held = buf :: peer'.held := by
  rw [Peer.clearNext, Option.map_eq_some_iff] at cleared
  obtain ⟨⟨buf, rest⟩, found, same⟩ := cleared
  cases same
  exact ⟨buf, rfl, rfl, (firstHeld_some peer.slots rest buf found).1⟩

/-! ### The invariant over runs -/

theorem inPhase_some (sys : Sharing) (s : Nat) (phase : Phase) (peer : Peer)
    (there : sys.inPhase s phase = some peer) : sys.peers[s]? = some peer ∧ peer.phase = phase := by
  rw [Sharing.inPhase, Option.filter_eq_some_iff] at there
  exact ⟨there.1, of_decide_eq_true there.2⟩

theorem holdings_count (sys : Sharing) (id : Nat) :
    (holdings sys).count id = (sys.pool.free.map Held.id).count id +
      ((sys.peers.flatMap names).count id + (sys.jobs.map jobName).count id) := by
  rw [holdings, List.count_append, List.count_append]

theorem jobs_count (jobs : List Job) (j : Nat) (job : Job) (waiting : jobs[j]? = some job) (id : Nat) :
    (jobs.map jobName).count id =
      ((jobs.eraseIdx j).map jobName).count id + if (job.buf.id == id) = true then 1 else 0 := by
  have split := flatMap_perm jobs (fun job => [jobName job]) j job waiting
  rw [← List.map_eq_flatMap, ← List.map_eq_flatMap, List.singleton_append] at split
  rw [split.count_eq, List.count_cons]
  rfl

theorem names_length (peer : Peer) : (names peer).length = peer.held.length := List.length_map _

section
variable {size capacity : Nat} (sys : Sharing) (conserved : Conserved size capacity sys)
include conserved

/-- One peer, the freelist and the jobs exchange buffers: none is copied, and only a name that was
never used is new. -/
theorem conserved_exchange (s : Nat) (peer peer' : Peer) (pool : SharedPool) (jobs : List Job)
    (there : sys.peers[s]? = some peer)
    (fixed : pool.pieceLength = sys.pool.pieceLength ∧ pool.capacity = sys.pool.capacity)
    (counted : pool.outstanding + peer.held.length = sys.pool.outstanding + peer'.held.length)
    (bounded : pool.free.length + pool.outstanding ≤ capacity)
    (pooled : ∀ buf ∈ pool.free, Whole size buf) (slotted : ∀ buf ∈ peer'.held, Whole size buf)
    (gone : peer'.phase = .gone → peer'.held = []) (more : sys.pool.made ≤ pool.made)
    (kept : ∀ id, (pool.free.map Held.id).count id + (names peer').count id +
        (jobs.map jobName).count id ≤
      (sys.pool.free.map Held.id).count id + (names peer).count id + (sys.jobs.map jobName).count id +
        if sys.pool.made ≤ id ∧ id < pool.made then 1 else 0) :
    Conserved size capacity ⟨pool, sys.peers.set s peer', jobs⟩ := by
  have before := flatMap_perm sys.peers names s peer there
  have after := flatMap_set_perm sys.peers names s peer peer' there
  have member : ∀ other ∈ sys.peers.set s peer', other = peer' ∨ other ∈ sys.peers := by
    intro other inside
    rcases List.mem_or_eq_of_mem_set inside with old | new
    · exact Or.inr old
    · exact Or.inl new
  have account : ∀ id, (holdings ⟨pool, sys.peers.set s peer', jobs⟩).count id ≤
      (holdings sys).count id + if sys.pool.made ≤ id ∧ id < pool.made then 1 else 0 := by
    intro id
    have share := kept id
    rw [holdings_count, holdings_count, before.count_eq, List.count_append]
    dsimp only
    rw [after.count_eq, List.count_append]
    omega
  constructor
  · exact ⟨fixed.1.trans conserved.fixed.1, fixed.2.trans conserved.fixed.2⟩
  · have old := conserved.counted
    rw [before.length_eq, List.length_append, names_length] at old
    rw [after.length_eq, List.length_append, names_length]
    dsimp only
    omega
  · exact bounded
  · exact pooled
  · intro other inside
    rcases member other inside with new | old
    · rw [new]
      exact slotted
    · exact conserved.slotted other old
  · intro id
    have share := account id
    have old := conserved.distinct id
    have unmade := conserved.made id
    split_ifs at share with fresh
    · have none_ := unmade fresh.1
      omega
    · omega
  · intro id unmade
    dsimp only at unmade
    have share := account id
    have none_ := conserved.made id (by omega)
    rw [if_neg (by omega)] at share
    omega
  · intro other inside
    rcases member other inside with new | old
    · rw [new]
      exact gone
    · exact conserved.gone other old

/-- A peer changes and keeps its buffers. -/
theorem conserved_setPeer (s : Nat) (peer peer' : Peer) (there : sys.peers[s]? = some peer)
    (same : names peer' = names peer) (slotted : ∀ buf ∈ peer'.held, Whole size buf)
    (gone : peer'.phase = .gone → peer'.held = []) :
    Conserved size capacity (sys.setPeer s peer') := by
  have lengths := congrArg List.length same
  rw [names_length, names_length] at lengths
  have bounded := conserved.bounded
  apply conserved_exchange sys conserved s peer peer' sys.pool sys.jobs there ⟨rfl, rfl⟩ (by omega)
    bounded conserved.pooled slotted gone le_rfl
  intro id
  rw [same]
  omega

theorem conserved_start (s : Nat) (peer : Peer) (there : sys.peers[s]? = some peer)
    (running : peer.phase = .running) (index length : Nat) :
    Conserved size capacity
      { sys.setPeer s (peer.tryStart sys.pool index length).2.1 with
        pool := (peer.tryStart sys.pool index length).2.2 } := by
  have member := List.mem_of_getElem? there
  have bounded := conserved.bounded
  rcases tryStart_cases peer sys.pool index length with same | ⟨buf, pool, taken, after, held, phase⟩
  · rw [same]
    exact conserved_setPeer sys conserved s peer peer there rfl (conserved.slotted peer member)
      (conserved.gone peer member)
  · obtain ⟨whole, pieceLength, same, outstanding, origin⟩ := tryAcquire_cases sys.pool pool buf taken
    have fixed := conserved.fixed
    rw [after]
    apply conserved_exchange sys conserved s peer _ pool sys.jobs there ⟨pieceLength, same⟩
    · rw [held, List.length_append, List.length_singleton]
      omega
    · rcases origin with ⟨old, listed, _⟩ | ⟨_, blank, room, _⟩
      · rw [listed, List.length_cons] at bounded
        omega
      · rw [blank, List.length_nil]
        omega
    · intro other inside
      rcases origin with ⟨old, listed, _⟩ | ⟨_, blank, _⟩
      · apply conserved.pooled other
        rw [listed]
        exact List.mem_cons_of_mem old inside
      · rw [blank] at inside
        cases inside
    · intro other inside
      rw [held] at inside
      rcases List.mem_append.1 inside with old | new
      · exact conserved.slotted peer member other old
      · rw [List.mem_singleton.1 new, ← fixed.1]
        exact whole
    · intro gone
      rw [phase, running] at gone
      cases gone
    · rcases origin with ⟨_, _, _, made⟩ | ⟨_, _, _, _, made⟩ <;> omega
    · intro id
      have named : names (peer.tryStart sys.pool index length).2.1 = names peer ++ [buf.id] := by
        rw [names, held, List.map_append]
        rfl
      rw [named, List.count_append]
      rcases origin with ⟨old, listed, same, made⟩ | ⟨empty, blank, _, fresh, made⟩
      · rw [listed, List.map_cons, ← same, List.count_singleton, List.count_cons]
        omega
      · rw [empty, blank, fresh, made, List.count_singleton]
        by_cases own : id = sys.pool.made
        · have new : sys.pool.made ≤ id ∧ id < sys.pool.made + 1 := by omega
          rw [if_pos new]
          split_ifs <;> omega
        · rw [if_neg (by rw [beq_iff_eq]; omega)]
          omega

theorem conserved_takeForHash (s : Nat) (peer peer' : Peer) (pool : SharedPool) (index : Nat)
    (buf : Held) (there : sys.peers[s]? = some peer) (running : peer.phase = .running)
    (taken : peer.takeForHash sys.pool index = some (buf, peer', pool)) :
    Conserved size capacity
      { sys.setPeer s peer' with pool := pool, jobs := sys.jobs ++ [⟨s, index, buf⟩] } := by
  have member := List.mem_of_getElem? there
  have bounded := conserved.bounded
  obtain ⟨detached, phase, share⟩ := takeForHash_held peer peer' sys.pool pool index buf taken
  have fewer := share.length_eq
  rw [List.length_cons] at fewer
  have held := (flatMap_perm sys.peers names s peer there).length_eq
  rw [← conserved.counted, List.length_append, names_length] at held
  rw [detached]
  apply conserved_exchange sys conserved s peer peer' sys.pool.detach _ there ⟨rfl, rfl⟩
  · rw [SharedPool.detach]
    dsimp only
    omega
  · rw [SharedPool.detach]
    dsimp only
    omega
  · exact conserved.pooled
  · intro other inside
    apply conserved.slotted peer member other
    exact share.mem_iff.2 (List.mem_cons_of_mem buf inside)
  · intro gone
    rw [phase, running] at gone
    cases gone
  · exact le_rfl
  · intro id
    have listed := (share.map Held.id).count_eq id
    rw [List.map_cons, List.count_cons] at listed
    change (sys.pool.free.map Held.id).count id + (peer'.held.map Held.id).count id +
      ((sys.jobs ++ [(⟨s, index, buf⟩ : Job)]).map jobName).count id ≤
        _ + (peer.held.map Held.id).count id + _ + _
    rw [List.map_append, List.count_append, List.map_singleton, List.count_singleton, jobName, listed]
    dsimp only
    omega

omit conserved in
theorem donate_spec (pool : SharedPool) (buf : Held)
    (pooled : ∀ other ∈ pool.free, Whole pool.pieceLength other)
    (bounded : pool.free.length + pool.outstanding ≤ pool.capacity) :
    (pool.donate buf).pieceLength = pool.pieceLength ∧ (pool.donate buf).capacity = pool.capacity ∧
      (pool.donate buf).outstanding = pool.outstanding ∧ (pool.donate buf).made = pool.made ∧
      (pool.donate buf).free.length + pool.outstanding ≤ pool.capacity ∧
      (∀ other ∈ (pool.donate buf).free, Whole pool.pieceLength other) ∧
      ∀ id, ((pool.donate buf).free.map Held.id).count id ≤
        (pool.free.map Held.id).count id + if (buf.id == id) = true then 1 else 0 := by
  rcases donate_cases pool buf with ⟨room, same⟩ | same
  · rw [same]
    refine ⟨rfl, rfl, rfl, rfl, ?_, ?_, ?_⟩
    · dsimp only
      rw [List.length_cons]
      omega
    · intro other member
      rcases List.mem_cons.1 member with new | old
      · rw [new]
        exact resize_length _ _
      · exact pooled other old
    · intro id
      dsimp only
      rw [List.map_cons, List.count_cons]
  · rw [same]
    exact ⟨rfl, rfl, rfl, rfl, bounded, pooled, fun id => Nat.le_add_right _ _⟩

theorem conserved_reclaim (j : Nat) (job : Job) (waiting : sys.jobs[j]? = some job) (peer : Peer)
    (there : sys.peers[job.owner]? = some peer) (running : peer.phase = .running) (returned : Buffer) :
    Conserved size capacity
      { sys.setPeer job.owner
          (peer.reclaim sys.pool job.index ⟨job.buf.id, returned⟩).1 with
        pool := (peer.reclaim sys.pool job.index ⟨job.buf.id, returned⟩).2,
        jobs := sys.jobs.eraseIdx j } := by
  have member := List.mem_of_getElem? there
  obtain ⟨pieceLength, same⟩ := conserved.fixed
  have held := reclaim_held peer sys.pool job.index ⟨job.buf.id, returned⟩
  have bounded := conserved.bounded
  obtain ⟨fixed, capped, outstanding, made, room, pooled, counts⟩ :=
    donate_spec sys.pool ⟨job.buf.id, returned⟩
      (by rw [pieceLength]; exact conserved.pooled) (by omega)
  apply conserved_exchange sys conserved job.owner peer _
    (sys.pool.donate ⟨job.buf.id, returned⟩) (sys.jobs.eraseIdx j) there ⟨fixed, capped⟩
  · rw [outstanding, held]
  · omega
  · rw [← pieceLength]
    exact pooled
  · rw [held]
    exact conserved.slotted peer member
  · intro gone
    change peer.phase = .gone at gone
    rw [running] at gone
    cases gone
  · exact le_of_eq made.symm
  · intro id
    have taken := jobs_count sys.jobs j job waiting id
    have donated := counts id
    change _ + ((peer.reclaim _ _ _).1.held.map Held.id).count id + _ ≤ _
    rw [held, taken]
    dsimp only at donated
    change _ ≤ _ + (peer.held.map Held.id).count id + _ + _
    omega

theorem conserved_discard (j : Nat) (job : Job) (waiting : sys.jobs[j]? = some job) :
    Conserved size capacity { sys with jobs := sys.jobs.eraseIdx j } := by
  have fewer : ∀ id, (holdings { sys with jobs := sys.jobs.eraseIdx j }).count id ≤
      (holdings sys).count id := by
    intro id
    have taken := jobs_count sys.jobs j job waiting id
    rw [holdings_count, holdings_count]
    dsimp only
    omega
  constructor
  · exact conserved.fixed
  · exact conserved.counted
  · exact conserved.bounded
  · exact conserved.pooled
  · exact conserved.slotted
  · exact fun id => le_trans (fewer id) (conserved.distinct id)
  · intro id unmade
    have none_ := conserved.made id unmade
    have share := fewer id
    omega
  · exact conserved.gone

theorem conserved_clearNext (s : Nat) (peer peer' : Peer) (pool : SharedPool)
    (there : sys.peers[s]? = some peer) (alive : peer.phase ≠ .gone)
    (cleared : peer.clearNext sys.pool = some (peer', pool)) :
    Conserved size capacity { sys.setPeer s peer' with pool := pool } := by
  have member := List.mem_of_getElem? there
  obtain ⟨pieceLength, same⟩ := conserved.fixed
  have bounded := conserved.bounded
  obtain ⟨buf, released, phase, held⟩ := clearNext_held peer peer' sys.pool pool cleared
  have fewer := congrArg List.length held
  rw [List.length_cons] at fewer
  have total := (flatMap_perm sys.peers names s peer there).length_eq
  rw [← conserved.counted, List.length_append, names_length] at total
  have detached : sys.pool.detach.outstanding = sys.pool.outstanding - 1 := rfl
  have tight : sys.pool.detach.free.length + sys.pool.detach.outstanding ≤
      sys.pool.detach.capacity := by
    rw [detached]
    change sys.pool.free.length + _ ≤ sys.pool.capacity
    omega
  obtain ⟨fixed, capped, outstanding, made, room, pooled, counts⟩ :=
    donate_spec sys.pool.detach buf
      (by change ∀ other ∈ sys.pool.free, Whole sys.pool.pieceLength other
          rw [pieceLength]
          exact conserved.pooled) tight
  rw [released, SharedPool.release]
  apply conserved_exchange sys conserved s peer peer' (sys.pool.detach.donate buf) sys.jobs there
    ⟨fixed, capped⟩
  · omega
  · change _ ≤ sys.pool.capacity at room
    omega
  · rw [← pieceLength]
    exact pooled
  · intro other inside
    apply conserved.slotted peer member other
    rw [held]
    exact List.mem_cons_of_mem buf inside
  · intro gone
    rw [phase] at gone
    exact absurd gone alive
  · exact le_of_eq made.symm
  · intro id
    have donated := counts id
    change _ + (peer'.held.map Held.id).count id + _ ≤ _ + (peer.held.map Held.id).count id + _ + _
    rw [held, List.map_cons, List.count_cons]
    change _ ≤ (sys.pool.free.map Held.id).count id + _ at donated
    omega

theorem conserved_join : Conserved size capacity { sys with peers := sys.peers ++ [Peer.fromPool sys.pool] } := by
  have listed : (sys.peers ++ [Peer.fromPool sys.pool]).flatMap names = sys.peers.flatMap names := by
    rw [List.flatMap_append]
    exact List.append_nil _
  have same : holdings { sys with peers := sys.peers ++ [Peer.fromPool sys.pool] } = holdings sys := by
    rw [holdings, holdings]
    dsimp only
    rw [listed]
  constructor
  · exact conserved.fixed
  · dsimp only
    rw [listed]
    exact conserved.counted
  · exact conserved.bounded
  · exact conserved.pooled
  · intro peer member
    rcases List.mem_append.1 member with old | new
    · exact conserved.slotted peer old
    · rw [List.mem_singleton.1 new]
      nofun
  · rw [same]
    exact conserved.distinct
  · rw [same]
    exact conserved.made
  · intro peer member gone
    rcases List.mem_append.1 member with old | new
    · exact conserved.gone peer old gone
    · rw [List.mem_singleton.1 new]
      rfl

omit conserved in
/-- A peer in the loop of `clear`, on its way out or not. -/
theorem inLoop_some (s : Nat) (peer : Peer)
    (there : (sys.inPhase s .clearing).or (sys.inPhase s .dropping) = some peer) :
    sys.peers[s]? = some peer ∧ peer.phase ≠ .gone := by
  rcases Option.or_eq_some_iff.1 there with first | ⟨_, second⟩
  · obtain ⟨found, phase⟩ := inPhase_some sys s .clearing peer first
    exact ⟨found, by rw [phase]; decide⟩
  · obtain ⟨found, phase⟩ := inPhase_some sys s .dropping peer second
    exact ⟨found, by rw [phase]; decide⟩

theorem step_conserved (event : Event) (after : Sharing) (taken : step sys event = some after) :
    Conserved size capacity after := by
  cases event with
  | join =>
    cases taken
    exact conserved_join sys conserved
  | start s index length =>
    obtain ⟨peer, there, same⟩ := Option.map_eq_some_iff.1 taken
    obtain ⟨found, running⟩ := inPhase_some sys s .running peer there
    rw [← same]
    exact conserved_start sys conserved s peer found running index length
  | ingest s index begin' data =>
    obtain ⟨peer, there, same⟩ := Option.map_eq_some_iff.1 taken
    obtain ⟨found, running⟩ := inPhase_some sys s .running peer there
    have member := List.mem_of_getElem? found
    rw [← same]
    split
    · rename_i complete peer' ok
      obtain ⟨named, phase, whole⟩ := ingestIfStaged_held peer peer' size index begin' data complete ok
        (conserved.slotted peer member)
      apply conserved_setPeer sys conserved s peer peer' found named whole
      intro gone
      rw [phase, running] at gone
      cases gone
    · exact conserved
  | pieces s update =>
    obtain ⟨peer, there, same⟩ := Option.map_eq_some_iff.1 taken
    obtain ⟨found, running⟩ := inPhase_some sys s .running peer there
    have member := List.mem_of_getElem? found
    have held := mapPieces_held peer update
    rw [← same]
    apply conserved_setPeer sys conserved s peer _ found
    · rw [names, names, held]
    · rw [held]
      exact conserved.slotted peer member
    · intro gone
      rw [held]
      exact conserved.gone peer member gone
  | takeForHash s index =>
    obtain ⟨peer, there, same⟩ := Option.map_eq_some_iff.1 taken
    obtain ⟨found, running⟩ := inPhase_some sys s .running peer there
    rw [← same]
    split
    · rename_i buf peer' pool answer
      exact conserved_takeForHash sys conserved s peer peer' pool index buf found running answer
    · exact conserved
  | reclaim j returned =>
    obtain ⟨job, waiting, later⟩ := Option.bind_eq_some_iff.1 taken
    obtain ⟨peer, there, same⟩ := Option.map_eq_some_iff.1 later
    obtain ⟨found, running⟩ := inPhase_some sys job.owner .running peer there
    rw [← same]
    exact conserved_reclaim sys conserved j job waiting peer found running returned
  | discard j =>
    obtain ⟨job, waiting, same⟩ := Option.map_eq_some_iff.1 taken
    rw [← same]
    exact conserved_discard sys conserved j job waiting
  | clear s =>
    obtain ⟨peer, there, same⟩ := Option.map_eq_some_iff.1 taken
    have found := (inPhase_some sys s .running peer there).1
    rw [← same]
    exact conserved_setPeer sys conserved s peer _ found rfl
      (conserved.slotted peer (List.mem_of_getElem? found)) (fun clash => by cases clash)
  | drop s =>
    obtain ⟨peer, there, same⟩ := Option.map_eq_some_iff.1 taken
    have found := (inPhase_some sys s .running peer there).1
    rw [← same]
    exact conserved_setPeer sys conserved s peer _ found rfl
      (conserved.slotted peer (List.mem_of_getElem? found)) (fun clash => by cases clash)
  | clearNext s =>
    obtain ⟨peer, there, later⟩ := Option.bind_eq_some_iff.1 taken
    obtain ⟨found, alive⟩ := inLoop_some sys s peer there
    obtain ⟨⟨peer', pool⟩, cleared, same⟩ := Option.map_eq_some_iff.1 later
    rw [← same]
    exact conserved_clearNext sys conserved s peer peer' pool found alive cleared
  | finish s =>
    obtain ⟨peer, there, later⟩ := Option.bind_eq_some_iff.1 taken
    have found := (inLoop_some sys s peer there).1
    have member := List.mem_of_getElem? found
    split_ifs at later with left clearing
    · cases later
      exact conserved_setPeer sys conserved s peer _ found rfl (conserved.slotted peer member)
        (fun clash => by cases clash)
    · cases later
      have none_ : Peer.firstHeld peer.slots = none := by
        cases first : Peer.firstHeld peer.slots with
        | none => rfl
        | some _ => rw [first] at left; exact absurd rfl left
      have empty := (firstHeld_none peer.slots none_).1
      apply conserved_setPeer sys conserved s peer _ found
      · rw [names, names, Peer.held, Peer.held, empty]
        rfl
      · intro slot member
        cases member
      · exact fun _ => rfl

end

theorem start_conserved (pieceLength limitBytes : Nat) :
    Conserved (max pieceLength 1)
      (bufferCountForLimit (max pieceLength 1) (effectiveLimit limitBytes))
      (start pieceLength limitBytes) where
  fixed := ⟨rfl, rfl⟩
  counted := rfl
  bounded := Nat.zero_le _
  pooled := nofun
  slotted := nofun
  distinct := fun _ => Nat.zero_le _
  made := fun _ _ => rfl
  gone := nofun

/-- In every run of any number of peers over one freelist the budget counts the buffers in
assembling slots, stays within the capacity together with the freelist, every buffer is whole and
held once, and nothing is outstanding when all peers are gone. -/
theorem buffers_conserved (pieceLength limitBytes : Nat) (events : List Event) (sys : Sharing)
    (ran : exec step (start pieceLength limitBytes) events = some sys) :
    sys.pool.outstanding = (sys.peers.flatMap Peer.held).length ∧
      sys.pool.outstanding ≤ sys.pool.capacity ∧
      sys.pool.free.length + sys.pool.outstanding ≤ sys.pool.capacity ∧
      sys.pool.capacity = bufferCountForLimit (max pieceLength 1) (effectiveLimit limitBytes) ∧
      (∀ buf ∈ sys.pool.free, buf.bytes.length = max pieceLength 1) ∧
      (∀ peer ∈ sys.peers, ∀ buf ∈ peer.held, buf.bytes.length = max pieceLength 1) ∧
      (holdings sys).Nodup ∧
      ((∀ peer ∈ sys.peers, peer.phase = .gone) → sys.pool.outstanding = 0) := by
  have conserved := exec_invariant_free step
    (Conserved (max pieceLength 1) (bufferCountForLimit (max pieceLength 1) (effectiveLimit limitBytes)))
    (fun sys event after conserved taken => step_conserved sys conserved event after taken)
    _ sys events (start_conserved pieceLength limitBytes) ran
  have counted : sys.pool.outstanding = (sys.peers.flatMap Peer.held).length := by
    have listed : sys.peers.flatMap names = (sys.peers.flatMap Peer.held).map Held.id := by
      rw [List.map_flatMap]
      rfl
    rw [conserved.counted, listed, List.length_map]
  have bounded := conserved.bounded
  have capacity := conserved.fixed.2
  refine ⟨counted, by omega, by omega, capacity, conserved.pooled, conserved.slotted,
    List.nodup_iff_count_le_one.2 conserved.distinct, ?_⟩
  intro gone
  have empty : sys.peers.flatMap Peer.held = [] := by
    rw [List.flatMap_eq_nil_iff]
    exact fun peer member => conserved.gone peer member (gone peer member)
  rw [counted, empty]
  rfl

/-- Two peers; one piece is hashed and its buffer comes back, the other is dropped with its peer. -/
def handOver : List Event :=
  [.join, .join, .start 0 0 2, .start 1 1 2, .ingest 0 0 0 [7, 8], .takeForHash 0 0, .reclaim 0 [],
    .drop 1, .clearNext 1, .finish 1, .drop 0, .finish 0]

theorem buffers_conserved_handOver :
    ∃ sys, exec step (start 2 0) handOver = some sys ∧ sys.pool.free.length = 2 ∧
      sys.pool.outstanding = 0 := by
  obtain ⟨sys, ran, free, gone⟩ : ∃ sys, exec step (start 2 0) handOver = some sys ∧
      sys.pool.free.length = 2 ∧ ∀ peer ∈ sys.peers, peer.phase = .gone :=
    ⟨_, rfl, by decide, by decide⟩
  exact ⟨sys, ran, free, (buffers_conserved 2 0 handOver sys ran).2.2.2.2.2.2.2 gone⟩

end Seedchamp.Staging.Conservation
