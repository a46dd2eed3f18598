import Seedchamp.Catalog.Table
import Seedchamp.Foundation.TransitionSystem
import Seedchamp.Foundation.Tasks
import Seedchamp.Library.Ingest

/-!
The lifetime upload of a torrent: a counter in RAM that peers add to, seeded from the catalog by a
start, written back with MAX by flushes, and written back and dropped by a stop. Each of these takes
the counter map and the catalog one after the other.
-/

namespace Seedchamp.Session.Counters
open Foundation.KeyedRows Foundation.TransitionSystem Foundation.Tasks Catalog.Table Library.Ingest
open Disk.Spans

/-! ### The counter map -/

/-- `torrent_bytes`. -/
abbrev Bytes := Rows (Prod.fst : Nat × Nat → Nat)

def counter (b : Bytes) (id : Nat) : Option Nat := (b.find? id).map Prod.snd

/-- `entry(id).and_modify(change).or_insert(fresh)`. -/
def upsert (b : Bytes) (id : Nat) (change : Nat → Nat) (fresh : Nat) : Bytes :=
  if listed : id ∈ b.list.map Prod.fst then b.update id (fun e => (e.1, change e.2)) (fun _ => rfl)
  else b.append (id, fresh) listed

theorem counter_upsert (b : Bytes) (id : Nat) (change : Nat → Nat) (fresh j : Nat) :
    counter (upsert b id change fresh) j =
      if j = id then some (((counter b id).map change).getD fresh) else counter b j := by
  rw [upsert]
  by_cases named : j = id
  · rw [if_pos named, named]
    split_ifs with listed
    · rw [counter, Rows.find?_update_self]
      cases found : b.find? id with
      | none => exact absurd listed ((Rows.find?_eq_none b id).1 found)
      | some e => simp [counter, found]
    · have none : b.find? id = none := (Rows.find?_eq_none b id).2 listed
      rw [counter, Rows.find?_append, if_pos rfl, counter, none]
      rfl
  · rw [if_neg named]
    split_ifs with listed
    · rw [counter, Rows.find?_update_other b id _ _ j named]
      rfl
    · rw [counter, Rows.find?_append, if_neg named]
      rfl

theorem counter_delete (b : Bytes) (id j : Nat) :
    counter (b.delete id) j = if j = id then none else counter b j := by
  rw [counter, Rows.find?_delete]
  split_ifs
  · rfl
  · rfl

/-- `on_upload`: the entry is made when it is not there. -/
def onUpload (b : Bytes) (id n : Nat) : Bytes := upsert b id (· + n) n

/-- The map section of `seed_byte_counters_from_catalog`: a running counter is never lowered. -/
def mergeSeed (b : Bytes) (id catalogUp : Nat) : Bytes := upsert b id (max · catalogUp) catalogUp

def ensureByteCounters (b : Bytes) (id : Nat) : Bytes := upsert b id (fun up => up) 0

def rawUploaded (b : Bytes) (id : Nat) : Nat := (counter b id).getD 0

/-- What `flush_uploaded_to_catalog` collects. -/
def snapshot (b : Bytes) : List (Nat × Nat) := b.list.filter (fun e => 0 < e.2)

theorem mem_snapshot (b : Bytes) (id up : Nat) :
    (id, up) ∈ snapshot b ↔ counter b id = some up ∧ 0 < up := by
  rw [snapshot, List.mem_filter, decide_eq_true_eq]
  refine and_congr_left (fun _ => ?_)
  rw [Rows.mem_iff_find?, counter]
  constructor
  · intro found
    rw [found]
    rfl
  · intro found
    obtain ⟨e, present, value⟩ := Option.map_eq_some_iff.1 found
    have keyed := Rows.find?_key b id e present
    rw [present, ← keyed, ← value]

/-! ### The catalog column -/

theorem statsUploaded_raise (t : TorrentTable) (id up j : Nat) (listed : (t.find? id).isSome = true) :
    statsUploaded (set t id (fun r =>
      { r.columns with stats := some (raisedStats r.columns.stats up) })) j =
      if j = id then max (statsUploaded t j) up else statsUploaded t j := by
  rw [statsUploaded, find?_set]
  split_ifs with named
  · rw [named]
    obtain ⟨r, found⟩ := Option.isSome_iff_exists.1 listed
    rw [statsUploaded, found]
    cases stats : r.columns.stats <;> simp [raisedStats, stats]
  · rfl

/-- A batch goes through where every torrent it names has its row. -/
theorem setUploadedBatch_isOk (t : TorrentTable) (rows : List (Nat × Nat))
    (listed : ∀ e ∈ rows, (t.find? e.1).isSome = true) : ∃ t', setUploadedBatch t rows = .ok t' := by
  induction rows generalizing t with
  | nil => exact ⟨t, rfl⟩
  | cons row rest ih =>
    obtain ⟨id, value⟩ := row
    obtain ⟨r, found⟩ := Option.isSome_iff_exists.1 (listed (id, value) List.mem_cons_self)
    rw [setUploadedBatch, found]
    apply ih
    intro e member
    have there := listed e (List.mem_cons_of_mem _ member)
    rw [find?_set]
    split_ifs
    · rw [Option.isSome_map]
      exact there
    · exact there

/-- A batch of raises lands between what it must reach and what it may reach. -/
theorem setUploadedBatch_spec (t t' : TorrentTable) (rows : List (Nat × Nat)) (id : Nat)
    (ran : setUploadedBatch t rows = .ok t') :
    statsUploaded t id ≤ statsUploaded t' id ∧
    (∀ up, (id, up) ∈ rows → up ≤ statsUploaded t' id) ∧
    ∀ bound, statsUploaded t id ≤ bound → (∀ up, (id, up) ∈ rows → up ≤ bound) →
      statsUploaded t' id ≤ bound := by
  induction rows generalizing t with
  | nil =>
    cases ran
    exact ⟨Nat.le_refl _, fun _ none => absurd none List.not_mem_nil, fun _ low _ => low⟩
  | cons row rest ih =>
    obtain ⟨j, value⟩ := row
    rw [setUploadedBatch] at ran
    cases found : t.find? j with
    | none =>
      rw [found] at ran
      cases ran
    | some r =>
      simp only [found] at ran
      obtain ⟨grows, reached, bounded⟩ := ih _ ran
      have raised := statsUploaded_raise t j value id (by rw [found]; rfl)
      rw [raised] at grows bounded
      refine ⟨?_, ?_, ?_⟩
      · split_ifs at grows
        · omega
        · exact grows
      · intro up member
        rcases List.mem_cons.1 member with here | later
        · cases here
          rw [if_pos rfl] at grows
          omega
        · exact reached up later
      · intro bound low every
        apply bounded bound
        · split_ifs with named
          · have own := every value (named ▸ List.mem_cons_self)
            omega
          · exact low
        · exact fun up later => every up (List.mem_cons_of_mem _ later)

/-! ### Runs -/

inductive Task where
  /-- `seed_byte_counters_from_catalog` has read the column. -/
  | seeding (id catalogUp : Nat)
  /-- The start goes on to `reset_announce_baseline`. -/
  | seeded (id : Nat)
  | flushing (rows : List (Nat × Nat))
  /-- `stop_torrent` has read the counter. -/
  | stopping (id up : Nat)
  /-- It has removed the counter and has the catalog section left. -/
  | dropped (id up : Nat)
  | returned
  deriving DecidableEq, Repr

/-- `reported` is history: the bytes reported for each torrent. -/
structure State where
  bytes : Bytes
  catalog : TorrentTable
  tasks : List Task
  reported : Nat → Nat

inductive Event where
  | onUpload (id n : Nat)
  | setWantStart (id : Nat) (want : Bool)
  | seed (id : Nat)
  | merge (k : Nat)
  | ensure (k : Nat)
  | flush
  | write (k : Nat) (sql : Bool)
  | stop (id : Nat)
  | drop (k : Nat)
  | persist (k : Nat) (sql : Bool)

/-- The catalog section of a stop: the counter first, then `want_start`. -/
def persistStop (t : TorrentTable) (id up : Nat) : Except Error TorrentTable :=
  if 0 < up then
    match setUploadedAtLeast t id up with
    | .ok t' => setWantStart t' id false
    | .error problem => .error problem
  else setWantStart t id false

def step (s : State) : Event → Option State
  | .onUpload id n =>
    some { s with
      bytes := onUpload s.bytes id n
      reported := fun j => if j = id then s.reported j + n else s.reported j }
  | .setWantStart id want =>
    some { s with catalog := settled s.catalog (setWantStart s.catalog id want) }
  | .seed id => some { s with tasks := s.tasks ++ [.seeding id (statsUploaded s.catalog id)] }
  | .merge k =>
    match s.tasks[k]? with
    | some (.seeding id catalogUp) =>
      some { s with bytes := mergeSeed s.bytes id catalogUp, tasks := s.tasks.set k (.seeded id) }
    | _ => none
  | .ensure k =>
    match s.tasks[k]? with
    | some (.seeded id) =>
      some { s with bytes := ensureByteCounters s.bytes id, tasks := s.tasks.set k .returned }
    | _ => none
  | .flush => some { s with tasks := s.tasks ++ [.flushing (snapshot s.bytes)] }
  | .write k sql =>
    match s.tasks[k]? with
    | some (.flushing rows) =>
      some { s with
        catalog := if sql then settled s.catalog (setUploadedBatch s.catalog rows) else s.catalog
        tasks := s.tasks.set k .returned }
    | _ => none
  | .stop id => some { s with tasks := s.tasks ++ [.stopping id (rawUploaded s.bytes id)] }
  | .drop k =>
    match s.tasks[k]? with
    | some (.stopping id up) =>
      some { s with bytes := s.bytes.delete id, tasks := s.tasks.set k (.dropped id up) }
    | _ => none
  | .persist k sql =>
    match s.tasks[k]? with
    | some (.dropped id up) =>
      some { s with
        catalog := if sql then settled s.catalog (persistStop s.catalog id up) else s.catalog
        tasks := s.tasks.set k .returned }
    | _ => none

def initial (catalog : TorrentTable) : State := ⟨Rows.empty, catalog, [], fun _ => 0⟩

/-! ### What the statements do to the column -/

theorem statsUploaded_set (t : TorrentTable) (id : Nat) (change : Row → Columns) (j : Nat)
    (same : ∀ r, (change r).stats = r.columns.stats) :
    statsUploaded (set t id change) j = statsUploaded t j := by
  rw [statsUploaded, statsUploaded, find?_set]
  split_ifs
  · cases t.find? j with
    | none => rfl
    | some r => simp [same]
  · rfl

theorem statsUploaded_setWantStart (t : TorrentTable) (id : Nat) (want : Bool) (j : Nat) :
    statsUploaded (settled t (setWantStart t id want)) j = statsUploaded t j := by
  rw [setWantStart]
  split_ifs
  · rfl
  · apply statsUploaded_set
    intro r
    rw [wantColumns]
    split_ifs
    · rfl
    · rfl
    · rfl

theorem setWantStart_false (t : TorrentTable) (id : Nat) :
    ∃ t', setWantStart t id false = .ok t' ∧ ∀ j, statsUploaded t' j = statsUploaded t j := by
  have ran : setWantStart t id false = .ok (set t id (fun r => wantColumns r.columns false)) := by
    simp [setWantStart]
  refine ⟨_, ran, fun j => ?_⟩
  have same := statsUploaded_setWantStart t id false j
  rwa [ran] at same

theorem setUploadedAtLeast_isOk (t : TorrentTable) (id up : Nat) (listed : (t.find? id).isSome = true) :
    ∃ t', setUploadedAtLeast t id up = .ok t' := by
  apply setUploadedBatch_isOk
  intro e member
  rw [List.mem_singleton.1 member]
  exact listed

/-- The catalog section of a stop raises its own torrent's column, and no other. -/
theorem statsUploaded_persistStop (t : TorrentTable) (id up j : Nat) :
    statsUploaded t j ≤ statsUploaded (settled t (persistStop t id up)) j ∧
    (∀ bound, statsUploaded t j ≤ bound → (j = id → up ≤ bound) →
      statsUploaded (settled t (persistStop t id up)) j ≤ bound) ∧
    (j = id → (t.find? id).isSome = true → up ≤ statsUploaded (settled t (persistStop t id up)) j) := by
  rw [persistStop]
  by_cases some : 0 < up
  · rw [if_pos some]
    cases raised : setUploadedAtLeast t id up with
    | error problem =>
      refine ⟨Nat.le_refl _, fun _ low _ => low, ?_⟩
      intro _ listed
      obtain ⟨t', ok⟩ := setUploadedAtLeast_isOk t id up listed
      rw [raised] at ok
      cases ok
    | ok t' =>
      obtain ⟨grows, reached, bounded⟩ := setUploadedBatch_spec t t' [(id, up)] j raised
      obtain ⟨t'', stopped, same⟩ := setWantStart_false t' id
      simp only [stopped, settled, same]
      refine ⟨grows, ?_, ?_⟩
      · intro bound low own
        apply bounded bound low
        intro value member
        cases List.mem_singleton.1 member
        exact own rfl
      · rintro rfl _
        exact reached up List.mem_cons_self
  · rw [if_neg some]
    obtain ⟨t', stopped, same⟩ := setWantStart_false t id
    simp only [stopped, settled, same]
    exact ⟨Nat.le_refl _, fun _ low _ => low, fun _ _ => by omega⟩

/-! ### The invariant -/

/-- The task has this value for this torrent in its hands. -/
def Task.Holds (id value : Nat) : Task → Prop
  | seeding i up => i = id ∧ up = value
  | flushing rows => (id, value) ∈ rows
  | stopping i up => i = id ∧ up = value
  | dropped i up => i = id ∧ up = value
  | _ => False

/-- Every byte reported for the torrent, on top of what its column began with. -/
def total (base : Nat → Nat) (s : State) (id : Nat) : Nat := base id + s.reported id

/-- The total is in the column, or a stop is about to write it there. -/
def Saved (base : Nat → Nat) (s : State) (id : Nat) : Prop :=
  statsUploaded s.catalog id = total base s id ∨ Task.dropped id (total base s id) ∈ s.tasks

structure Exact (base : Nat → Nat) (s : State) (id : Nat) : Prop where
  low : statsUploaded s.catalog id ≤ total base s id
  held : ∀ task ∈ s.tasks, ∀ value, task.Holds id value → value ≤ total base s id
  counted : ∀ up, counter s.bytes id = some up → up = total base s id
  absent : counter s.bytes id = none → Saved base s id
  reading : ∀ up, Task.stopping id up ∈ s.tasks → up = total base s id ∨ Saved base s id

/-- Neither the column nor a stop about to write it has more than `value`. -/
def known (s : State) (id value : Nat) : Bool :=
  statsUploaded s.catalog id ≤ value && s.tasks.all (fun task =>
    match task with
    | .dropped i up => i ≠ id || up ≤ value
    | _ => true)

def stopReading (s : State) (id : Nat) : Bool :=
  s.tasks.any (fun task =>
    match task with
    | .stopping i _ => i = id
    | _ => false)

/-- A report finds the seeded counter, with no stop between reading it and removing it; a seed that
makes the counter has the whole total; and a stop's write does not fail. -/
def careful (s : State) : Event → Bool
  | .onUpload id _ =>
    !stopReading s id && ((counter s.bytes id).isSome || known s id 0)
  | .merge k =>
    match s.tasks[k]? with
    | some (.seeding id catalogUp) => (counter s.bytes id).isSome || known s id catalogUp
    | _ => true
  | .ensure k =>
    match s.tasks[k]? with
    | some (.seeded id) => (counter s.bytes id).isSome || known s id 0
    | _ => true
  | .persist k sql =>
    match s.tasks[k]? with
    | some (.dropped id up) =>
      up ≤ statsUploaded s.catalog id || (sql && (s.catalog.find? id).isSome)
    | _ => true
  | _ => true

theorem Saved.le {base : Nat → Nat} {s : State} {id value : Nat} (saved : Saved base s id)
    (bound : known s id value = true) : total base s id ≤ value := by
  simp only [known, Bool.and_eq_true, decide_eq_true_eq, List.all_eq_true] at bound
  rcases saved with stored | pending
  · omega
  · simpa using bound.2 _ pending

theorem not_stopReading (s : State) (id up : Nat) (none : stopReading s id = false) :
    Task.stopping id up ∉ s.tasks := by
  intro member
  simp only [stopReading, List.any_eq_false] at none
  simpa using none _ member

/-- The column may rise towards the total; the counter and the reports stay. -/
theorem Exact.keep {base : Nat → Nat} {s : State} {id : Nat} (exact' : Exact base s id) (s' : State)
    (reported : s'.reported id = s.reported id)
    (grows : statsUploaded s.catalog id ≤ statsUploaded s'.catalog id)
    (low : statsUploaded s'.catalog id ≤ total base s id)
    (same : counter s'.bytes id = counter s.bytes id)
    (held : ∀ task ∈ s'.tasks, ∀ value, task.Holds id value → value ≤ total base s id)
    (stops : ∀ up, Task.stopping id up ∈ s'.tasks →
      Task.stopping id up ∈ s.tasks ∨ up = total base s id ∨ Saved base s id)
    (drops : Task.dropped id (total base s id) ∈ s.tasks →
      Task.dropped id (total base s id) ∈ s'.tasks ∨
        statsUploaded s'.catalog id = total base s id) : Exact base s' id := by
  have totals : total base s' id = total base s id := by rw [total, total, reported]
  have saved : Saved base s id → Saved base s' id := by
    rintro (stored | pending)
    · left
      rw [totals]
      omega
    · rw [Saved, totals]
      exact (drops pending).symm
  refine ⟨?_, ?_, ?_, ?_, ?_⟩
  · rw [totals]
    exact low
  · rw [totals]
    exact held
  · rw [same, totals]
    exact exact'.counted
  · rw [same]
    exact fun none => saved (exact'.absent none)
  · intro up member
    rw [totals]
    rcases stops up member with old | whole | kept
    · exact (exact'.reading up old).imp_right saved
    · exact .inl whole
    · exact .inr (saved kept)

/-- A task of this torrent or another moves; nothing else changes for this torrent. -/
theorem Exact.moved {base : Nat → Nat} {s : State} {id : Nat} (exact' : Exact base s id) (k : Nat)
    (before after : Task) (running : s.tasks[k]? = some before)
    (other : ∀ value, before ≠ .dropped id value) (held : ∀ value, ¬ after.Holds id value)
    (bytes : Bytes) (same : counter bytes id = counter s.bytes id) :
    Exact base { s with bytes := bytes, tasks := s.tasks.set k after } id := by
  refine exact'.keep { s with bytes := bytes, tasks := s.tasks.set k after } rfl (Nat.le_refl _)
    exact'.low same ?_ ?_ ?_
  · apply forall_mem_set _ _ _ _ exact'.held
    exact fun value holds => absurd holds (held value)
  · intro up member
    rcases List.mem_or_eq_of_mem_set member with old | new
    · exact .inl old
    · exact absurd (show after.Holds id up by rw [← new]; exact ⟨rfl, rfl⟩) (held up)
  · intro pending
    exact .inl (mem_set_of_ne s.tasks k before after _ running pending (fun clash => other _ clash.symm))

/-- A task begins, with what it has just read. -/
theorem Exact.begin {base : Nat → Nat} {s : State} {id : Nat} (exact' : Exact base s id) (task : Task)
    (held : ∀ value, task.Holds id value → value ≤ total base s id)
    (stops : ∀ up, task = .stopping id up → up = total base s id ∨ Saved base s id) :
    Exact base { s with tasks := s.tasks ++ [task] } id := by
  refine exact'.keep { s with tasks := s.tasks ++ [task] } rfl (Nat.le_refl _) exact'.low rfl ?_ ?_ ?_
  · exact forall_mem_append _ _ _ exact'.held held
  · intro up member
    rcases List.mem_append.1 member with old | new
    · exact .inl old
    · exact .inr (stops up (List.mem_singleton.1 new).symm)
  · exact fun pending => .inl (List.mem_append_left _ pending)

/-- The counter is made or changed by a task of its own torrent, to hold the whole total. -/
theorem Exact.counts {base : Nat → Nat} {s : State} {id : Nat} (exact' : Exact base s id) (k : Nat)
    (before after : Task) (running : s.tasks[k]? = some before)
    (other : ∀ value, before ≠ .dropped id value) (held : ∀ value, ¬ after.Holds id value)
    (bytes : Bytes) (whole : counter bytes id = some (total base s id)) :
    Exact base { s with bytes := bytes, tasks := s.tasks.set k after } id := by
  have moved := exact'.moved k before after running other held s.bytes rfl
  refine ⟨moved.low, moved.held, ?_, ?_, moved.reading⟩
  · intro up found
    exact Option.some.inj (found.symm.trans whole)
  · intro none
    rw [whole] at none
    cases none

def reportedAfter (s : State) (id n : Nat) : State :=
  { s with
    bytes := onUpload s.bytes id n
    reported := fun j => if j = id then s.reported j + n else s.reported j }

theorem exact_onUpload (base : Nat → Nat) (s : State) (i n id : Nat) (exact' : Exact base s id)
    (free : careful s (.onUpload i n) = true) : Exact base (reportedAfter s i n) id := by
  have lookup : counter (reportedAfter s i n).bytes id =
      if id = i then some (((counter s.bytes i).map (· + n)).getD n) else counter s.bytes id :=
    counter_upsert s.bytes i (· + n) n id
  by_cases named : id = i
  · subst named
    rw [if_pos rfl] at lookup
    simp only [careful, Bool.and_eq_true, Bool.not_eq_true', Bool.or_eq_true] at free
    obtain ⟨unread, counts⟩ := free
    have totals : total base (reportedAfter s id n) id = total base s id + n := by
      simp only [total, reportedAfter, if_true]
      omega
    refine ⟨?_, ?_, ?_, ?_, ?_⟩
    · rw [totals]
      exact Nat.le_add_right_of_le exact'.low
    · rw [totals]
      exact fun task member value holds => Nat.le_add_right_of_le (exact'.held task member value holds)
    · intro up found
      rw [lookup] at found
      rw [totals]
      cases before : counter s.bytes id with
      | some old =>
        rw [before] at found
        cases found
        show old + n = total base s id + n
        rw [exact'.counted old before]
      | none =>
        rw [before] at found counts
        cases found
        have nothing := (exact'.absent before).le (counts.resolve_left Bool.false_ne_true)
        show n = total base s id + n
        omega
    · intro none
      rw [lookup] at none
      cases none
    · exact fun up member => absurd member (not_stopReading s id up unread)
  · rw [if_neg named] at lookup
    exact exact'.keep (reportedAfter s i n) (if_neg named) (Nat.le_refl _) exact'.low lookup exact'.held
      (fun up member => .inl member) (fun pending => .inl pending)

/-- A seed that is merged, or a counter that is ensured, of this torrent or another. -/
theorem exact_upsert (base : Nat → Nat) (s : State) (k i fresh id : Nat) (change : Nat → Nat)
    (before after : Task) (exact' : Exact base s id) (running : s.tasks[k]? = some before)
    (other : ∀ value, before ≠ .dropped id value) (held : ∀ value, ¬ after.Holds id value)
    (stays : id = i → change (total base s id) = total base s id)
    (small : id = i → fresh ≤ total base s id)
    (free : ((counter s.bytes i).isSome || known s i fresh) = true) :
    Exact base { s with bytes := upsert s.bytes i change fresh, tasks := s.tasks.set k after } id := by
  have lookup := counter_upsert s.bytes i change fresh id
  by_cases named : id = i
  · subst named
    rw [if_pos rfl] at lookup
    apply exact'.counts k before after running other held
    rw [lookup]
    cases found : counter s.bytes id with
    | some up =>
      rw [exact'.counted up found]
      exact congrArg some (stays rfl)
    | none =>
      rw [found, Bool.or_eq_true] at free
      have whole := (exact'.absent found).le (free.resolve_left Bool.false_ne_true)
      exact congrArg some (Nat.le_antisymm (small rfl) whole)
  · rw [if_neg named] at lookup
    exact exact'.moved k before after running other held _ lookup

theorem exact_write (base : Nat → Nat) (s : State) (k id : Nat) (rows : List (Nat × Nat)) (sql : Bool)
    (exact' : Exact base s id) (running : s.tasks[k]? = some (.flushing rows)) :
    Exact base { s with
      catalog := if sql then settled s.catalog (setUploadedBatch s.catalog rows) else s.catalog
      tasks := s.tasks.set k .returned } id := by
  have column : ∀ t, (t = s.catalog ∨ setUploadedBatch s.catalog rows = .ok t) →
      Exact base { s with catalog := t, tasks := s.tasks.set k .returned } id := by
    intro t written
    have bounds : statsUploaded s.catalog id ≤ statsUploaded t id ∧
        statsUploaded t id ≤ total base s id := by
      rcases written with same | ran
      · rw [same]
        exact ⟨Nat.le_refl _, exact'.low⟩
      · obtain ⟨grows, -, bounded⟩ := setUploadedBatch_spec s.catalog t rows id ran
        exact ⟨grows, bounded _ exact'.low (exact'.held _ (List.mem_of_getElem? running))⟩
    refine exact'.keep { s with catalog := t, tasks := s.tasks.set k .returned } rfl bounds.1 bounds.2
      rfl ?_ ?_ ?_
    · exact forall_mem_set _ _ _ _ exact'.held (fun value holds => False.elim holds)
    · intro up member
      rcases List.mem_or_eq_of_mem_set member with old | new
      · exact .inl old
      · cases new
    · exact fun pending => .inl (mem_set_of_ne s.tasks k _ _ _ running pending (by simp))
  cases sql with
  | false => exact column s.catalog (.inl rfl)
  | true =>
    cases ran : setUploadedBatch s.catalog rows with
    | error problem => exact column s.catalog (.inl rfl)
    | ok t => exact column t (.inr ran)

theorem exact_drop (base : Nat → Nat) (s : State) (k i up id : Nat) (exact' : Exact base s id)
    (running : s.tasks[k]? = some (.stopping i up)) :
    Exact base { s with bytes := s.bytes.delete i, tasks := s.tasks.set k (.dropped i up) } id := by
  have lookup := counter_delete s.bytes i id
  have reader := List.mem_of_getElem? running
  have held : ∀ task ∈ s.tasks.set k (.dropped i up), ∀ value, task.Holds id value →
      value ≤ total base s id :=
    forall_mem_set _ _ _ _ exact'.held (fun value holds => exact'.held _ reader value holds)
  have stops : ∀ value, Task.stopping id value ∈ s.tasks.set k (.dropped i up) →
      Task.stopping id value ∈ s.tasks := by
    intro value member
    rcases List.mem_or_eq_of_mem_set member with old | new
    · exact old
    · cases new
  have drops : Task.dropped id (total base s id) ∈ s.tasks →
      Task.dropped id (total base s id) ∈ s.tasks.set k (.dropped i up) :=
    fun pending => mem_set_of_ne s.tasks k _ _ _ running pending (by simp)
  have saved : Saved base s id →
      Saved base { s with bytes := s.bytes.delete i, tasks := s.tasks.set k (.dropped i up) } id :=
    fun before => before.imp (fun stored => stored) drops
  refine ⟨exact'.low, held, ?_, ?_, ?_⟩
  · intro value found
    change counter (s.bytes.delete i) id = some value at found
    rw [lookup] at found
    split_ifs at found
    exact exact'.counted value found
  · intro none
    change counter (s.bytes.delete i) id = Option.none at none
    rw [lookup] at none
    by_cases named : id = i
    · subst named
      rcases exact'.reading up reader with whole | before
      · right
        change Task.dropped id (total base s id) ∈ s.tasks.set k (.dropped id up)
        rw [← whole]
        exact mem_set_self s.tasks k _ _ running
      · exact saved before
    · rw [if_neg named] at none
      exact saved (exact'.absent none)
  · exact fun value member => (exact'.reading value (stops value member)).imp_right saved

theorem exact_persist (base : Nat → Nat) (s : State) (k i up id : Nat) (sql : Bool)
    (exact' : Exact base s id) (running : s.tasks[k]? = some (.dropped i up))
    (free : (up ≤ statsUploaded s.catalog i || (sql && (s.catalog.find? i).isSome)) = true) :
    Exact base { s with
      catalog := if sql then settled s.catalog (persistStop s.catalog i up) else s.catalog
      tasks := s.tasks.set k .returned } id := by
  generalize written : (if sql then settled s.catalog (persistStop s.catalog i up) else s.catalog) = t
  have own : id = i → up ≤ total base s id := by
    rintro rfl
    exact exact'.held _ (List.mem_of_getElem? running) up ⟨rfl, rfl⟩
  obtain ⟨grows, bounded, reached⟩ := statsUploaded_persistStop s.catalog i up id
  have column : statsUploaded s.catalog id ≤ statsUploaded t id ∧
      statsUploaded t id ≤ total base s id ∧ (id = i → up ≤ statsUploaded t id) := by
    rw [Bool.or_eq_true, decide_eq_true_eq, Bool.and_eq_true] at free
    cases sql with
    | false =>
      rw [← written]
      refine ⟨Nat.le_refl _, exact'.low, ?_⟩
      rintro rfl
      exact free.resolve_right (fun clash => Bool.false_ne_true clash.1)
    | true =>
      rw [← written]
      refine ⟨grows, bounded _ exact'.low own, ?_⟩
      rintro rfl
      rcases free with low | listed
      · exact low.trans grows
      · exact reached rfl listed.2
  refine exact'.keep { s with catalog := t, tasks := s.tasks.set k .returned } rfl column.1 column.2.1
    rfl ?_ ?_ ?_
  · exact forall_mem_set _ _ _ _ exact'.held (fun value holds => False.elim holds)
  · intro value member
    rcases List.mem_or_eq_of_mem_set member with old | new
    · exact .inl old
    · cases new
  · intro pending
    by_cases same : Task.dropped id (total base s id) = .dropped i up
    · cases same
      exact .inr (Nat.le_antisymm column.2.1 (column.2.2 rfl))
    · exact .inl (mem_set_of_ne s.tasks k _ _ _ running pending same)

theorem exact_step (base : Nat → Nat) (s : State) (event : Event) (s' : State)
    (exact' : ∀ id, Exact base s id) (free : careful s event = true) (taken : step s event = some s') :
    ∀ id, Exact base s' id := by
  intro id
  cases event with
  | onUpload i n =>
    cases taken
    exact exact_onUpload base s i n id (exact' id) free
  | setWantStart i want =>
    cases taken
    have column := statsUploaded_setWantStart s.catalog i want id
    refine (exact' id).keep { s with catalog := settled s.catalog (setWantStart s.catalog i want) } rfl
      (Nat.le_of_eq column.symm) ?_ rfl (exact' id).held (fun up member => .inl member)
      (fun pending => .inl pending)
    change statsUploaded (settled s.catalog (setWantStart s.catalog i want)) id ≤ _
    rw [column]
    exact (exact' id).low
  | seed i =>
    cases taken
    apply (exact' id).begin
    · rintro value ⟨rfl, rfl⟩
      exact (exact' i).low
    · intro up clash
      cases clash
  | merge k =>
    rw [step] at taken
    split at taken
    case h_1 i catalogUp running =>
      cases taken
      simp only [careful, running] at free
      have read : id = i → catalogUp ≤ total base s id := by
        rintro rfl
        exact (exact' id).held _ (List.mem_of_getElem? running) catalogUp ⟨rfl, rfl⟩
      exact exact_upsert base s k i catalogUp id _ _ (.seeded i) (exact' id) running (by simp)
        (fun value holds => holds) (fun named => Nat.max_eq_left (read named)) read free
    case h_2 => cases taken
  | ensure k =>
    rw [step] at taken
    split at taken
    case h_1 i running =>
      cases taken
      simp only [careful, running] at free
      exact exact_upsert base s k i 0 id _ _ .returned (exact' id) running (by simp)
        (fun value holds => holds) (fun _ => rfl) (fun _ => Nat.zero_le _) free
    case h_2 => cases taken
  | flush =>
    cases taken
    apply (exact' id).begin
    · intro value collected
      exact Nat.le_of_eq ((exact' id).counted value ((mem_snapshot s.bytes id value).1 collected).1)
    · intro up clash
      cases clash
  | write k sql =>
    rw [step] at taken
    split at taken
    case h_1 rows running =>
      cases taken
      exact exact_write base s k id rows sql (exact' id) running
    case h_2 => cases taken
  | stop i =>
    cases taken
    have read : rawUploaded s.bytes i = total base s i ∨ rawUploaded s.bytes i = 0 ∧ Saved base s i := by
      rw [rawUploaded]
      cases found : counter s.bytes i with
      | some up => exact .inl ((exact' i).counted up found)
      | none => exact .inr ⟨rfl, (exact' i).absent found⟩
    apply (exact' id).begin
    · rintro value ⟨rfl, rfl⟩
      rcases read with whole | ⟨nothing, -⟩
      · omega
      · omega
    · intro up same
      cases same
      exact read.imp_right (fun kept => kept.2)
  | drop k =>
    rw [step] at taken
    split at taken
    case h_1 i up running =>
      cases taken
      exact exact_drop base s k i up id (exact' id) running
    case h_2 => cases taken
  | persist k sql =>
    rw [step] at taken
    split at taken
    case h_1 i up running =>
      cases taken
      simp only [careful, running] at free
      exact exact_persist base s k i up id sql (exact' id) running free
    case h_2 => cases taken

/-- The column never goes down, whatever happens. -/
theorem statsUploaded_mono (s s' : State) (event : Event) (id : Nat) (taken : step s event = some s') :
    statsUploaded s.catalog id ≤ statsUploaded s'.catalog id := by
  cases event with
  | setWantStart i want =>
    cases taken
    exact Nat.le_of_eq (statsUploaded_setWantStart s.catalog i want id).symm
  | write k sql =>
    rw [step] at taken
    split at taken
    case h_1 rows running =>
      cases taken
      cases sql with
      | false => exact Nat.le_refl _
      | true =>
        cases ran : setUploadedBatch s.catalog rows with
        | error problem => simp [settled]
        | ok t =>
          simp only [settled, if_true]
          exact (setUploadedBatch_spec s.catalog t rows id ran).1
    case h_2 => cases taken
  | persist k sql =>
    rw [step] at taken
    split at taken
    case h_1 i up running =>
      cases taken
      cases sql with
      | false => exact Nat.le_refl _
      | true => exact (statsUploaded_persistStop s.catalog i up id).1
    case h_2 => cases taken
  | onUpload i n =>
    cases taken
    exact Nat.le_refl _
  | seed i =>
    cases taken
    exact Nat.le_refl _
  | flush =>
    cases taken
    exact Nat.le_refl _
  | stop i =>
    cases taken
    exact Nat.le_refl _
  | merge k =>
    rw [step] at taken
    split at taken
    · cases taken
      exact Nat.le_refl _
    · cases taken
  | ensure k =>
    rw [step] at taken
    split at taken
    · cases taken
      exact Nat.le_refl _
    · cases taken
  | drop k =>
    rw [step] at taken
    split at taken
    · cases taken
      exact Nat.le_refl _
    · cases taken

/-- The task is a stop of the torrent that has yet to write. -/
def Task.stops (id : Nat) : Task → Bool
  | stopping i _ => i = id
  | dropped i _ => i = id
  | _ => false

/-- Every torrent that a flush would collect has its row; the batch fails as a whole otherwise. -/
def flushable (s : State) : Bool := (snapshot s.bytes).all (fun e => (s.catalog.find? e.1).isSome)

/-- In a careful run, once no stop of a torrent is under way, its column after one more flush, which goes
through where it is `flushable`, or at once where a stop has dropped the counter, is what it began with
and every byte reported since; and no step of any run lowers it. -/
theorem lifetime_uploaded_exact (catalog : TorrentTable) (events : List Event) (s : State)
    (free : Guarded step (fun s event => careful s event = true) (initial catalog) events)
    (ran : exec step (initial catalog) events = some s) (id : Nat)
    (settledStops : ∀ task ∈ s.tasks, task.stops id = false) :
    (counter s.bytes id = none →
      statsUploaded s.catalog id = statsUploaded catalog id + s.reported id) ∧
    (flushable s = true → ∃ catalog', setUploadedBatch s.catalog (snapshot s.bytes) = .ok catalog' ∧
      statsUploaded catalog' id = statsUploaded catalog id + s.reported id) ∧
    ∀ event s', step s event = some s' → statsUploaded s.catalog id ≤ statsUploaded s'.catalog id := by
  have start : ∀ id, Exact (statsUploaded catalog) (initial catalog) id := by
    intro id
    refine ⟨Nat.le_refl _, ?_, ?_, ?_, ?_⟩
    · exact fun task member => absurd member List.not_mem_nil
    · intro up found
      cases found
    · exact fun _ => .inl rfl
    · exact fun up member => absurd member List.not_mem_nil
  have reached := exec_invariant step _ _ (exact_step (statsUploaded catalog)) (initial catalog) s events
    start free ran id
  have stored : Saved (statsUploaded catalog) s id →
      statsUploaded s.catalog id = total (statsUploaded catalog) s id := by
    rintro (whole | pending)
    · exact whole
    · have none := settledStops _ pending
      simp [Task.stops] at none
  refine ⟨?_, ?_, ?_⟩
  · exact fun none => stored (reached.absent none)
  · intro rowed
    obtain ⟨catalog', flushed⟩ := setUploadedBatch_isOk s.catalog (snapshot s.bytes)
      (List.all_eq_true.1 rowed)
    refine ⟨catalog', flushed, ?_⟩
    obtain ⟨grows, collected, bounded⟩ := setUploadedBatch_spec _ _ _ id flushed
    apply Nat.le_antisymm
    · apply bounded _ reached.low
      intro up member
      exact Nat.le_of_eq (reached.counted up ((mem_snapshot s.bytes id up).1 member).1)
    · cases found : counter s.bytes id with
      | none =>
        have whole := stored (reached.absent found)
        exact (Nat.le_of_eq whole.symm).trans grows
      | some up =>
        have whole := reached.counted up found
        by_cases some : 0 < up
        · rw [← total, ← whole]
          exact collected up ((mem_snapshot s.bytes id up).2 ⟨found, some⟩)
        · rw [← total, ← whole]
          omega
  · exact fun event s' taken => statsUploaded_mono s s' event id taken

/-- Torrent 1, imported with 100 bytes uploaded. -/
def imported : TorrentTable := importRtorrent Rows.empty (byteTorrent 1) ["data"] none 100 0 true

/-- A start, uploads, a periodic flush, a stop, and another start. -/
def twoStarts : List Event :=
  [.setWantStart 1 true, .seed 1, .merge 0, .ensure 0, .onUpload 1 5, .flush, .onUpload 1 3, .write 1 true,
    .stop 1, .drop 2, .persist 2 true, .setWantStart 1 true, .seed 1, .merge 3, .ensure 3, .onUpload 1 2]

def startedTwice : State := (exec step (initial imported) twoStarts).getD (initial imported)

theorem lifetime_uploaded_exact_twoStarts :
    counter startedTwice.bytes 1 ≠ none ∧
      ∃ catalog', setUploadedBatch startedTwice.catalog (snapshot startedTwice.bytes) = .ok catalog' ∧
        statsUploaded catalog' 1 = statsUploaded imported 1 + 10 := by
  have exact' := lifetime_uploaded_exact imported twoStarts startedTwice
    (guarded_of_guardedB step careful (initial imported) twoStarts (by decide +kernel))
    (Option.some_get (by decide +kernel)).symm 1 (by decide +kernel)
  exact ⟨by decide +kernel, exact'.2.1 (by decide +kernel)⟩

/-- A peer that reports between the stop's reading and its dropping of the counter is not counted. -/
theorem report_lost_by_stop :
    ¬ ∀ catalog events s id, exec step (initial catalog) events = some s →
      (∀ task ∈ s.tasks, task.stops id = false) → counter s.bytes id = none →
      statsUploaded s.catalog id = statsUploaded catalog id + s.reported id := by
  intro always
  have lost := always imported [.setWantStart 1 true, .seed 1, .merge 0, .ensure 0, .stop 1,
    .onUpload 1 5, .drop 1, .persist 1 true] _ 1 (Option.some_get (by decide +kernel)).symm
    (by decide +kernel) (by decide +kernel)
  revert lost
  decide +kernel

end Seedchamp.Session.Counters
