import Seedchamp.Session.AnnounceViews

/-!
Every section of the announce code, taken undisturbed, keeps the invariant of the schedule.
-/

namespace Seedchamp.Session.AnnounceSteps
open Foundation.KeyedMap Foundation.Tasks Hot.Torrent Session.Announces Session.AnnounceViews

/-! ### One torrent moves -/

theorem view_congr (s s' : State) (j : Nat) (registry : get? s'.registry j = get? s.registry j)
    (sched : get? s'.sched j = get? s.sched j) (baseline : get? s'.baseline j = get? s.baseline j)
    (start : s'.start j = s.start j)
    (running : s'.tasks.countP (Task.runs j) = s.tasks.countP (Task.runs j))
    (stopping : s'.tasks.countP (Task.stops j) = s.tasks.countP (Task.stops j)) :
    view s' j = view s j := by
  simp only [view, registry, sched, baseline, start, running, stopping]

/-- The step changes what is seen of one torrent, and every task about it still knows the truth. -/
theorem inv_of (cfg : Config) (s s' : State) (id : Nat) (inv : Inv cfg s)
    (others : ∀ j, j ≠ id → view s' j = view s j) (coherent : Coherent cfg (view s' id))
    (tasks : ∀ task ∈ s'.tasks,
      (task ∈ s.tasks ∧
        (Task.about task = some id → Fits cfg (view s id) task → Fits cfg (view s' id) task)) ∨
      (Task.about task = some id ∧ Fits cfg (view s' id) task) ∨ task = .returned) : Inv cfg s' := by
  constructor
  · intro j
    by_cases here : j = id
    · rw [here]
      exact coherent
    · rw [others j here]
      exact inv.coherent j
  · intro task member j about
    rcases tasks task member with ⟨old, kept⟩ | ⟨mine, fits⟩ | gone
    · by_cases here : j = id
      · rw [here] at about ⊢
        exact kept about (inv.fits task old id about)
      · rw [others j here]
        exact inv.fits task old j about
    · rw [mine] at about
      cases about
      exact fits
    · rw [gone] at about
      cases about
  · intro hotIds now member
    rcases tasks _ member with ⟨old, _⟩ | ⟨mine, _⟩ | gone
    · exact inv.polls hotIds now old
    · cases mine
    · cases gone

/-- One task about a torrent moves on, and only that torrent is written. -/
structure Moves (s s' : State) (k id : Nat) (before after : Task) : Prop where
  running : s.tasks[k]? = some before
  tasks : s'.tasks = s.tasks.set k after
  aboutBefore : Task.about before = some id
  aboutAfter : Task.about after = some id ∨ after = .returned
  others : ∀ j, j ≠ id → get? s'.registry j = get? s.registry j ∧ get? s'.sched j = get? s.sched j ∧
    get? s'.baseline j = get? s.baseline j ∧ s'.start j = s.start j

theorem runs_other (task : Task) (id j : Nat) (about : Task.about task = some id ∨ task = .returned)
    (other : j ≠ id) : Task.runs j task = false ∧ Task.stops j task = false := by
  have apart : Task.about task ≠ some j := by
    rcases about with mine | gone
    · rw [mine]
      exact fun same => other (Option.some.inj same).symm
    · rw [gone]
      exact fun clash => by cases clash
  constructor
  · cases runs : Task.runs j task with
    | false => rfl
    | true => exact absurd (about_of_runs task j runs) apart
  · cases stops : Task.stops j task with
    | false => rfl
    | true => exact absurd (about_of_stops task j stops) apart

namespace Moves

variable {s s' : State} {k id : Nat} {before after : Task} (m : Moves s s' k id before after)
include m

theorem counts (p : Task → Bool) :
    s'.tasks.countP p + (if p before then 1 else 0) = s.tasks.countP p + (if p after then 1 else 0) := by
  rw [m.tasks]
  exact countP_set s.tasks k before after p m.running

theorem view_other (j : Nat) (other : j ≠ id) : view s' j = view s j := by
  obtain ⟨registry, sched, baseline, start⟩ := m.others j other
  obtain ⟨noRunBefore, noStopBefore⟩ := runs_other before id j (Or.inl m.aboutBefore) other
  obtain ⟨noRunAfter, noStopAfter⟩ := runs_other after id j m.aboutAfter other
  have running := m.counts (Task.runs j)
  have stopping := m.counts (Task.stops j)
  rw [noRunBefore, noRunAfter] at running
  rw [noStopBefore, noStopAfter] at stopping
  exact view_congr s s' j registry sched baseline start running stopping

/-- A move that writes nothing of the torrent and counts for the same leaves its view. -/
theorem view_same (registry : get? s'.registry id = get? s.registry id)
    (sched : get? s'.sched id = get? s.sched id) (baseline : get? s'.baseline id = get? s.baseline id)
    (start : s'.start id = s.start id) (runs : Task.runs id before = Task.runs id after)
    (stops : Task.stops id before = Task.stops id after) : view s' id = view s id := by
  have running := m.counts (Task.runs id)
  have stopping := m.counts (Task.stops id)
  rw [runs] at running
  rw [stops] at stopping
  exact view_congr s s' id registry sched baseline start (by omega) (by omega)

/-- A move that writes the entry and no more shows the new entry's flags. -/
theorem view_entry (e : TorrentAnnounce) (registry : s'.registry = s.registry)
    (sched : get? s'.sched id = some e) (baseline : s'.baseline = s.baseline) (start : s'.start = s.start)
    (stops : Task.stops id before = Task.stops id after) :
    view s' id = { view s id with
      inFlight := e.inFlight
      sentStarted := e.sentStarted
      sentCompleted := e.sentCompleted
      pending := e.pendingCompleted
      running := s'.tasks.countP (Task.runs id) } := by
  have stopping := m.counts (Task.stops id)
  rw [stops] at stopping
  have ended : s'.tasks.countP (Task.stops id) = s.tasks.countP (Task.stops id) := by omega
  simp only [view, registry, sched, baseline, start, ended]
  rfl

theorem inv (cfg : Config) (inv : Inv cfg s) (coherent : Coherent cfg (view s' id))
    (fits : Fits cfg (view s' id) after)
    (rest : ∀ j task, j ≠ k → s.tasks[j]? = some task → Task.about task = some id →
      Fits cfg (view s id) task → Fits cfg (view s' id) task) : Inv cfg s' := by
  apply inv_of cfg s s' id inv m.view_other coherent
  intro task member
  rw [m.tasks] at member
  rcases mem_set_cases s.tasks k after task member with moved | ⟨j, elsewhere, found⟩
  · rw [moved]
    rcases m.aboutAfter with mine | gone
    · exact Or.inr (Or.inl ⟨mine, fits⟩)
    · exact Or.inr (Or.inr gone)
  · exact Or.inl ⟨mem_of_getElem? s.tasks j task found, rest j task elsewhere found⟩

/-- A move that keeps the start, and keeps sent what was sent, keeps what the others know. -/
theorem inv_kept (cfg : Config) (inv : Inv cfg s) (coherent : Coherent cfg (view s' id))
    (fits : Fits cfg (view s' id) after) (start : (view s' id).start = (view s id).start)
    (missing : (view s' id).hot = some false → (view s id).hot = some false)
    (sent : (view s id).sentCompleted = true → (view s' id).sentCompleted = true) : Inv cfg s' :=
  m.inv cfg inv coherent fits
    (fun _ task _ _ _ known => fits_same cfg _ _ task start missing sent known)

/-- While the moving task is the torrent's announce, no other task about it is. -/
theorem rest_idle (cfg : Config) (inv : Inv cfg s) (runs : Task.runs id before = true) (j : Nat)
    (task : Task) (elsewhere : j ≠ k) (found : s.tasks[j]? = some task) : Task.runs id task = false := by
  by_contra also
  rw [Bool.not_eq_false] at also
  have one : s.tasks.countP (Task.runs id) ≤ 1 := by
    have single := (inv.coherent id).single
    exact (Nat.le_add_right _ _).trans single
  exact elsewhere (position_unique s.tasks _ one j k task before found m.running also runs)

end Moves

/-- A running announce finds its torrent hot and its entry claimed. -/
theorem claimed_of_runs (cfg : Config) (s : State) (id k : Nat) (task : Task) (inv : Inv cfg s)
    (found : s.tasks[k]? = some task) (runs : Task.runs id task = true) :
    (view s id).inFlight = true ∧ (view s id).hot.isSome = true := by
  have positive : 0 < (view s id).running := countP_pos s.tasks k task _ found runs
  have counted := (inv.coherent id).running
  have claimed : (view s id).inFlight = true := by
    by_contra free
    rw [if_neg free] at counted
    omega
  exact ⟨claimed, (inv.coherent id).hot claimed⟩

theorem idle_of_none_running (s : State) (id j : Nat) (task : Task) (none : (view s id).running = 0)
    (found : s.tasks[j]? = some task) : Task.runs id task = false := by
  by_contra runs
  rw [Bool.not_eq_false] at runs
  have positive : 0 < (view s id).running := countP_pos s.tasks j task _ found runs
  omega

/-! ### Flags of an entry -/

theorem field_getD (field : TorrentAnnounce → Bool) (now : Nat) (e : Option TorrentAnnounce)
    (clear : field (.fresh now) = false) : field (e.getD (.fresh now)) = flag field e := by
  cases e with
  | none => exact clear
  | some e => rfl

theorem isSome_of_flag (field : TorrentAnnounce → Bool) (e : Option TorrentAnnounce)
    (set : flag field e = true) : ∃ entry, e = some entry := by
  cases e with
  | none => cases set
  | some entry => exact ⟨entry, rfl⟩

theorem flags_of_entry (s : State) (id : Nat) (e : TorrentAnnounce) (entry : get? s.sched id = some e) :
    e.inFlight = (view s id).inFlight ∧ e.sentStarted = (view s id).sentStarted ∧
      e.sentCompleted = (view s id).sentCompleted ∧ e.pendingCompleted = (view s id).pending := by
  rw [view, entry]
  exact ⟨rfl, rfl, rfl, rfl⟩

theorem owes_of_entry (s : State) (id : Nat) (e : TorrentAnnounce) (entry : get? s.sched id = some e) :
    (view s id).owes = e.owesCompleted := by
  obtain ⟨_, started, completed, pending⟩ := flags_of_entry s id e entry
  rw [View.owes, TorrentAnnounce.owesCompleted, started, completed, pending]

/-! ### Each section keeps the invariant -/

/-- A task that is no announce moves on, and what is seen of its torrent stays. -/
theorem inv_move (cfg : Config) (s s' : State) (k id : Nat) (before after : Task)
    (m : Moves s s' k id before after) (inv : Inv cfg s) (same : view s' id = view s id)
    (fits : Fits cfg (view s id) after) : Inv cfg s' := by
  apply m.inv cfg inv
  · rw [same]
    exact inv.coherent id
  · rw [same]
    exact fits
  · intro j task _ _ _ known
    rw [same]
    exact known

theorem inv_publish (cfg : Config) (s s' : State) (k : Nat) (torrent : HotTorrent) (user : Bool)
    (inv : Inv cfg s) (found : s.tasks[k]? = some (.publishing torrent user))
    (guard : undisturbed cfg s (.publish k) = true)
    (taken : advance cfg s k (.publishing torrent user) (.publish k) = some s') : Inv cfg s' := by
  simp only [advance, Option.some.injEq] at taken
  by_cases hot : (get? s.registry torrent.id).isSome = true
  · rw [if_pos hot] at taken
    cases taken
    have m : Moves s (s.move k (.reading torrent.id user)) k torrent.id _ _ :=
      ⟨found, rfl, rfl, Or.inl rfl, fun _ _ => ⟨rfl, rfl, rfl, rfl⟩⟩
    exact inv_move cfg s _ k torrent.id _ _ m inv (m.view_same rfl rfl rfl rfl rfl rfl) trivial
  · rw [if_neg hot] at taken
    have cold : (view s torrent.id).hot.isSome = false := by
      rw [view, Option.isSome_map]
      simpa using hot
    have clean : (view s torrent.id).sentStarted = false ∧ (view s torrent.id).pending = false ∧
        ((view s torrent.id).baseline = some true → torrent.isComplete = false) := by
      simp only [undisturbed, Event.position, Option.bind_some, found, cold, Bool.false_or,
        Bool.and_eq_true, Bool.not_eq_true', Bool.or_eq_true, decide_eq_true_eq] at guard
      exact ⟨guard.1.1, guard.1.2, fun based => guard.2.resolve_left (not_not.2 based)⟩
    have before := inv.coherent torrent.id
    have free : (view s torrent.id).inFlight = false := by
      by_contra claimed
      rw [Bool.not_eq_false] at claimed
      rw [before.hot claimed] at cold
      cases cold
    have m : Moves s s' k torrent.id (.publishing torrent user) (.reading torrent.id user) := by
      rw [← taken]
      refine ⟨found, rfl, rfl, Or.inl rfl, fun j other => ⟨?_, rfl, rfl, Function.update_of_ne other ..⟩⟩
      exact (get?_insert ..).trans (if_neg other)
    have seen : view s' torrent.id =
        { (view s torrent.id).begun (!torrent.isComplete) with hot := some torrent.isComplete } := by
      rw [← taken] at m ⊢
      apply View.ext
      · show (get? (insert s.registry torrent.id torrent) torrent.id).map _ = _
        rw [get?_insert, if_pos rfl]
        rfl
      · rfl
      · rfl
      · rfl
      · rfl
      · rfl
      · exact Function.update_self ..
      · exact m.counts (Task.runs torrent.id)
      · exact m.counts (Task.stops torrent.id)
    apply m.inv cfg inv
    · rw [seen]
      exact coherent_published cfg _ torrent.isComplete before clean.1 clean.2.1 clean.2.2
    · trivial
    · intro j task _ at_ about fits
      rw [seen]
      apply fits_of_read cfg (view s torrent.id) _ task torrent.id about _ _ fits
      · apply idle_of_none_running s torrent.id j task _ at_
        have counted := before.running
        rw [free] at counted
        exact counted
      · exact fun incomplete begun read => read_next _ _ incomplete begun read rfl

theorem incomplete_iff (s : State) (id : Nat) :
    ((get? s.registry id).map (fun t => !t.isComplete)).getD false = true ↔
      (view s id).hot = some false := by
  rw [view]
  cases get? s.registry id with
  | _ => simp

theorem inv_readBaseline (cfg : Config) (s s' : State) (k id : Nat) (user : Bool) (inv : Inv cfg s)
    (found : s.tasks[k]? = some (.reading id user))
    (taken : advance cfg s k (.reading id user) (.readBaseline k) = some s') : Inv cfg s' := by
  simp only [advance, Option.some.injEq] at taken
  rw [← taken]
  have m : Moves s (s.move k (.baselining id
      (((get? s.registry id).map (fun t => !t.isComplete)).getD false) (s.start id).number user)) k id _ _ :=
    ⟨found, rfl, rfl, Or.inl rfl, fun _ _ => ⟨rfl, rfl, rfl, rfl⟩⟩
  apply inv_move cfg s _ k id _ _ m inv (m.view_same rfl rfl rfl rfl rfl rfl)
  refine ⟨Nat.le_refl _, fun _ => ⟨?_, (incomplete_iff s id).2⟩⟩
  exact fun incomplete => (inv.coherent id).missing ((incomplete_iff s id).1 incomplete)

theorem inv_putBaseline (cfg : Config) (s s' : State) (k id : Nat) (incomplete : Bool) (begun : Nat)
    (user : Bool) (inv : Inv cfg s) (found : s.tasks[k]? = some (.baselining id incomplete begun user))
    (guard : undisturbed cfg s (.putBaseline k) = true)
    (taken : advance cfg s k (.baselining id incomplete begun user) (.putBaseline k) = some s') :
    Inv cfg s' := by
  simp only [advance, Option.some.injEq] at taken
  have m : Moves s s' k id (.baselining id incomplete begun user)
      (.scheduling id incomplete begun user) := by
    rw [← taken]
    refine ⟨found, rfl, rfl, Or.inl rfl, fun j other => ⟨rfl, rfl, ?_, rfl⟩⟩
    exact (get?_insert ..).trans (if_neg other)
  have seen : view s' id = { view s id with baseline := some incomplete } := by
    rw [← taken] at m ⊢
    apply View.ext
    · rfl
    · rfl
    · rfl
    · rfl
    · rfl
    · show (get? (insert s.baseline id ⟨incomplete⟩) id).map _ = _
      rw [get?_insert, if_pos rfl]
      rfl
    · rfl
    · exact m.counts (Task.runs id)
    · exact m.counts (Task.stops id)
  have read : Read (view s id) incomplete begun :=
    inv.fits _ (mem_of_getElem? _ _ _ found) id rfl
  have current : begun = (view s id).start.number := by
    simpa [undisturbed, Event.position, found] using guard
  apply m.inv_kept cfg inv
  · rw [seen]
    exact coherent_based cfg _ incomplete (inv.coherent id) (read.2 current).1
  · rw [seen]
    exact read
  · rw [seen]
  · rw [seen]
    exact fun same => same
  · rw [seen]
    exact fun same => same

theorem inv_schedule (cfg : Config) (s s' : State) (k id : Nat) (incomplete : Bool) (begun : Nat)
    (inv : Inv cfg s) (found : s.tasks[k]? = some (.scheduling id incomplete begun true))
    (guard : undisturbed cfg s (.schedule k) = true)
    (taken : advance cfg s k (.scheduling id incomplete begun true) (.schedule k) = some s') :
    Inv cfg s' := by
  simp only [advance, Option.some.injEq] at taken
  have m : Moves s s' k id (.scheduling id incomplete begun true) (.kicking id) := by
    rw [← taken]
    refine ⟨found, rfl, rfl, Or.inl rfl, fun j other => ⟨rfl, ?_, rfl, Function.update_of_ne other ..⟩⟩
    exact (get?_insert ..).trans (if_neg other)
  have seen : view s' id = (view s id).blank.begun incomplete := by
    have entry : get? s'.sched id = some (.fresh s.now) := by
      rw [← taken]
      exact (get?_insert ..).trans (if_pos rfl)
    rw [view, entry]
    rw [← taken] at m ⊢
    apply View.ext
    · rfl
    · rfl
    · rfl
    · rfl
    · rfl
    · rfl
    · exact Function.update_self ..
    · exact m.counts (Task.runs id)
    · exact m.counts (Task.stops id)
  have read : Read (view s id) incomplete begun :=
    inv.fits _ (mem_of_getElem? _ _ _ found) id rfl
  simp only [undisturbed, Event.position, Option.bind_some, found, Bool.and_eq_true, Bool.or_eq_true,
    decide_eq_true_eq] at guard
  obtain ⟨⟨idle, current⟩, based⟩ := guard
  apply m.inv cfg inv
  · rw [seen]
    exact coherent_scheduled cfg _ incomplete (inv.coherent id) idle
      (fun before => based.resolve_left (not_not.2 before)) (read.2 current).2
  · trivial
  · intro j task _ at_ about fits
    rw [seen]
    apply fits_of_read cfg (view s id) _ task id about (idle_of_none_running s id j task idle at_) _ fits
    exact fun incomplete begun read => read_next _ _ incomplete begun read rfl

/-- The flags of an entry; a torrent without one shows what a fresh one shows. -/
def flags (e : TorrentAnnounce) : Bool × Bool × Bool × Bool :=
  (e.inFlight, e.sentStarted, e.sentCompleted, e.pendingCompleted)

def shown (sched : Schedule) (id : Nat) : Bool × Bool × Bool × Bool :=
  ((get? sched id).map flags).getD (false, false, false, false)

theorem shown_orInsertWith (sched : Schedule) (id due : Nat) (change : TorrentAnnounce → TorrentAnnounce)
    (same : ∀ e, flags (change e) = flags e) (j : Nat) :
    shown (orInsertWith sched id (.fresh due) change) j = shown sched j := by
  rw [shown, shown, get?_orInsertWith]
  split_ifs with here
  · rw [here, Option.map_some, Option.getD_some, same]
    cases get? sched id with
    | _ => rfl
  · rfl

theorem shown_modify (sched : Schedule) (id : Nat) (change : TorrentAnnounce → TorrentAnnounce)
    (same : ∀ e, flags (change e) = flags e) (j : Nat) :
    shown (modify sched id change) j = shown sched j := by
  rw [shown, shown, get?_modify]
  split_ifs
  · cases get? sched j with
    | none => rfl
    | some e =>
      show flags (change e) = flags e
      exact same e
  · rfl

theorem flags_stagger (due : Nat) (e : TorrentAnnounce) : flags (e.stagger due) = flags e := by
  unfold TorrentAnnounce.stagger
  split_ifs
  · rfl
  · rfl

theorem flags_starve (now : Nat) (e : TorrentAnnounce) : flags (e.starve now) = flags e := by
  unfold TorrentAnnounce.starve
  dsimp only
  split_ifs
  · rfl
  · rfl

theorem shown_stagger (dues : List (Nat × Nat)) (sched : Schedule) (j : Nat) :
    shown (dues.foldl
      (fun sched due => orInsertWith sched due.1 (.fresh due.2) (TorrentAnnounce.stagger due.2)) sched) j =
      shown sched j := by
  induction dues generalizing sched with
  | nil => rfl
  | cons due rest ih =>
    rw [List.foldl_cons, ih]
    exact shown_orInsertWith sched due.1 due.2 _ (flags_stagger due.2) j

/-- A step that rewrites entries but none of their flags leaves the view. -/
theorem view_shown (s s' : State) (id : Nat) (registry : s'.registry = s.registry)
    (sched : shown s'.sched id = shown s.sched id) (baseline : s'.baseline = s.baseline)
    (start : s'.start id = s.start id)
    (running : s'.tasks.countP (Task.runs id) = s.tasks.countP (Task.runs id))
    (stopping : s'.tasks.countP (Task.stops id) = s.tasks.countP (Task.stops id)) :
    view s' id = view s id := by
  have each : ∀ (s : State) (field : TorrentAnnounce → Bool) (part : Bool × Bool × Bool × Bool → Bool),
      (∀ e, part (flags e) = field e) → part (false, false, false, false) = false →
      flag field (get? s.sched id) = part (shown s.sched id) := by
    intro s field part reads clear
    rw [flag, shown]
    cases get? s.sched id with
    | none => exact clear.symm
    | some e => exact (reads e).symm
  simp only [view, registry, baseline, start, running, stopping,
    each _ TorrentAnnounce.inFlight (fun parts => parts.1) (fun _ => rfl) rfl,
    each _ TorrentAnnounce.sentStarted (fun parts => parts.2.1) (fun _ => rfl) rfl,
    each _ TorrentAnnounce.sentCompleted (fun parts => parts.2.2.1) (fun _ => rfl) rfl,
    each _ TorrentAnnounce.pendingCompleted (fun parts => parts.2.2.2) (fun _ => rfl) rfl, sched]

theorem inv_activated (cfg : Config) (s s' : State) (k id : Nat) (incomplete : Bool) (begun : Nat)
    (inv : Inv cfg s) (found : s.tasks[k]? = some (.scheduling id incomplete begun false))
    (taken : advance cfg s k (.scheduling id incomplete begun false) (.schedule k) = some s') :
    Inv cfg s' := by
  simp only [advance, Option.some.injEq] at taken
  have m : Moves s s' k id (.scheduling id incomplete begun false) .returned := by
    rw [← taken]
    refine ⟨found, rfl, rfl, Or.inr rfl, fun j other => ⟨rfl, ?_, rfl, rfl⟩⟩
    exact (get?_orInsertWith ..).trans (if_neg other)
  apply inv_move cfg s _ k id _ _ m inv _ trivial
  rw [← taken] at m ⊢
  exact view_shown s _ id rfl (shown_orInsertWith _ _ _ _ (fun _ => rfl) id) rfl rfl
    (m.counts (Task.runs id)) (m.counts (Task.stops id))

theorem inv_check (cfg : Config) (s s' : State) (k id : Nat) (inv : Inv cfg s)
    (found : s.tasks[k]? = some (.kicking id))
    (taken : advance cfg s k (.kicking id) (.check k) = some s') : Inv cfg s' := by
  simp only [advance, Option.some.injEq] at taken
  rw [← taken]
  split_ifs
  · have m : Moves s (s.move k (.claiming id)) k id (.kicking id) (.claiming id) :=
      ⟨found, rfl, rfl, Or.inl rfl, fun _ _ => ⟨rfl, rfl, rfl, rfl⟩⟩
    exact inv_move cfg s _ k id _ _ m inv (m.view_same rfl rfl rfl rfl rfl rfl) trivial
  · have m : Moves s (s.move k .returned) k id (.kicking id) .returned :=
      ⟨found, rfl, rfl, Or.inr rfl, fun _ _ => ⟨rfl, rfl, rfl, rfl⟩⟩
    exact inv_move cfg s _ k id _ _ m inv (m.view_same rfl rfl rfl rfl rfl rfl) trivial

/-! ### Claims -/

theorem view_claimNow (now : Nat) (s : State) (id : Nat) (free : (view s id).inFlight = false)
    (takes : s.shut = false) : view (claimNow now s id) id = (view s id).claimed := by
  have absent : ¬ flag TorrentAnnounce.inFlight (get? s.sched id) = true := by
    rw [Bool.not_eq_true]
    exact free
  rw [claimNow, if_neg absent, takes]
  have entry : get? (orInsertWith s.sched id (.fresh now) (fun e => { e with inFlight := true })) id =
      some { (get? s.sched id).getD (.fresh now) with inFlight := true } :=
    (get?_orInsertWith ..).trans (if_pos rfl)
  apply View.ext
  · rfl
  · show flag _ (get? _ id) = true
    rw [entry]
    rfl
  · show flag _ (get? _ id) = flag _ (get? s.sched id)
    rw [entry]
    exact field_getD TorrentAnnounce.sentStarted now _ rfl
  · show flag _ (get? _ id) = flag _ (get? s.sched id)
    rw [entry]
    exact field_getD TorrentAnnounce.sentCompleted now _ rfl
  · show flag _ (get? _ id) = flag _ (get? s.sched id)
    rw [entry]
    exact field_getD TorrentAnnounce.pendingCompleted now _ rfl
  · rfl
  · rfl
  · show (s.tasks ++ [_]).countP (Task.runs id) = _
    rw [countP_append_singleton]
    simp [Task.runs, View.claimed, view]
  · show (s.tasks ++ [_]).countP (Task.stops id) = _
    rw [countP_append_singleton]
    rfl

theorem view_claimNow_other (now : Nat) (s : State) (id j : Nat) (other : j ≠ id) :
    view (claimNow now s id) j = view s j := by
  rw [claimNow]
  split_ifs
  · rfl
  · apply view_congr
    · rfl
    · exact (get?_orInsertWith ..).trans (if_neg other)
    · rfl
    · rfl
    · exact congrArg _ (List.append_nil s.tasks)
    · exact congrArg _ (List.append_nil s.tasks)
  · obtain ⟨noRun, noStop⟩ :=
      runs_other (.spawned id (s.start id).number) id j (Or.inl rfl) other
    apply view_congr
    · rfl
    · exact (get?_orInsertWith ..).trans (if_neg other)
    · rfl
    · rfl
    · exact (countP_append_singleton ..).trans (by rw [noRun]; rfl)
    · exact (countP_append_singleton ..).trans (by rw [noStop]; rfl)

theorem inv_claimNow (cfg : Config) (now : Nat) (s : State) (id : Nat) (inv : Inv cfg s)
    (guard : (view s id).inFlight = true ∨ claimable s id = true) : Inv cfg (claimNow now s id) := by
  by_cases claimed : flag TorrentAnnounce.inFlight (get? s.sched id) = true
  · rw [claimNow, if_pos claimed]
    exact inv
  · have able : claimable s id = true := guard.resolve_left claimed
    rw [claimable, Bool.and_eq_true, Bool.and_eq_true, decide_eq_true_eq, Bool.not_eq_true'] at able
    obtain ⟨⟨hot, quiet⟩, takes⟩ := able
    rw [Bool.not_eq_true] at claimed
    have seen := view_claimNow now s id claimed takes
    apply inv_of cfg s _ id inv (fun j other => view_claimNow_other now s id j other)
    · rw [seen]
      exact coherent_claimed cfg _ (inv.coherent id) claimed hot quiet
    · intro task member
      rw [seen]
      have tasks : (claimNow now s id).tasks = s.tasks ++ [.spawned id (s.start id).number] := by
        rw [claimNow, claimed, takes]
        rfl
      rw [tasks] at member
      rcases List.mem_append.1 member with old | new
      · exact Or.inl ⟨old, fun _ fits =>
          fits_same cfg (view s id) _ task rfl (fun same => same) (fun same => same) fits⟩
      · rw [List.mem_singleton.1 new]
        exact Or.inr (Or.inl ⟨rfl, rfl⟩)

/-- A claim leaves another torrent as claimable as it was. -/
theorem claimable_claimNow (now : Nat) (s : State) (id j : Nat) (able : claimable s j = true) :
    (view (claimNow now s id) j).inFlight = true ∨ claimable (claimNow now s id) j = true := by
  by_cases claimed : flag TorrentAnnounce.inFlight (get? s.sched id) = true
  · rw [claimNow, if_pos claimed]
    exact Or.inr able
  · by_cases here : j = id
    · rw [here] at able ⊢
      rw [claimable, Bool.and_eq_true, Bool.and_eq_true, Bool.not_eq_true'] at able
      rw [Bool.not_eq_true] at claimed
      rw [view_claimNow now s id claimed able.2]
      exact Or.inl rfl
    · have shut : (claimNow now s id).shut = s.shut := by
        rw [claimNow, if_neg claimed]
      rw [claimable, view_claimNow_other now s id j here, shut]
      exact Or.inr able

theorem inv_foldl_claimNow (cfg : Config) (now : Nat) (ids : List Nat) (s : State) (inv : Inv cfg s)
    (guard : ∀ id ∈ ids, (view s id).inFlight = true ∨ claimable s id = true) :
    Inv cfg (ids.foldl (claimNow now) s) := by
  induction ids generalizing s with
  | nil => exact inv
  | cons id rest ih =>
    rw [List.foldl_cons]
    apply ih
    · exact inv_claimNow cfg now s id inv (guard id List.mem_cons_self)
    · intro j member
      rcases guard j (List.mem_cons_of_mem _ member) with claimed | able
      · by_cases here : j = id
        · left
          rw [here] at claimed ⊢
          have flight : flag TorrentAnnounce.inFlight (get? s.sched id) = true := claimed
          rw [claimNow, if_pos flight]
          exact claimed
        · left
          rw [view_claimNow_other now s id j here]
          exact claimed
      · exact claimable_claimNow now s id j able

theorem inv_claim (cfg : Config) (s s' : State) (k id : Nat) (inv : Inv cfg s)
    (found : s.tasks[k]? = some (.claiming id)) (guard : undisturbed cfg s (.claim k) = true)
    (taken : advance cfg s k (.claiming id) (.claim k) = some s') : Inv cfg s' := by
  simp only [advance, Option.some.injEq] at taken
  have m : Moves s (s.move k .returned) k id (.claiming id) .returned :=
    ⟨found, rfl, rfl, Or.inr rfl, fun _ _ => ⟨rfl, rfl, rfl, rfl⟩⟩
  have same := m.view_same rfl rfl rfl rfl rfl rfl
  rw [← taken]
  apply inv_claimNow cfg s.now _ id (inv_move cfg s _ k id _ _ m inv same trivial)
  simp only [undisturbed, Event.position, Option.bind_some, found, Bool.or_eq_true] at guard
  rw [claimable, same]
  exact guard

theorem inv_claimDue (cfg : Config) (s s' : State) (k now : Nat) (hotIds : List Nat) (inv : Inv cfg s)
    (found : s.tasks[k]? = some (.polling hotIds now)) (guard : undisturbed cfg s (.claimDue k) = true)
    (taken : advance cfg s k (.polling hotIds now) (.claimDue k) = some s') : Inv cfg s' := by
  simp only [advance, Option.some.injEq] at taken
  have same : ∀ id, view (s.move k .returned) id = view s id := by
    intro id
    exact view_congr _ _ _ rfl rfl rfl rfl
      (countP_set s.tasks k (.polling hotIds now) .returned (Task.runs id) found)
      (countP_set s.tasks k (.polling hotIds now) .returned (Task.stops id) found)
  have moved : Inv cfg (s.move k .returned) := by
    constructor
    · intro id
      rw [same]
      exact inv.coherent id
    · intro task member id about
      rw [same]
      rcases List.mem_or_eq_of_mem_set member with old | gone
      · exact inv.fits task old id about
      · rw [gone]
        trivial
    · intro ids at_ member
      rcases List.mem_or_eq_of_mem_set member with old | gone
      · exact inv.polls ids at_ old
      · cases gone
  rw [← taken]
  apply inv_foldl_claimNow cfg now _ _ moved
  intro id member
  simp only [undisturbed, Event.position, Option.bind_some, found] at guard
  have able := List.all_eq_true.1 guard id member
  rw [claimable, same]
  exact Or.inr able

/-! ### The announce itself -/

theorem inv_lookup (cfg : Config) (s s' : State) (k id issued : Nat) (inv : Inv cfg s)
    (found : s.tasks[k]? = some (.spawned id issued))
    (taken : advance cfg s k (.spawned id issued) (.lookup k) = some s') : Inv cfg s' := by
  simp only [advance, Option.some.injEq] at taken
  obtain ⟨_, hot⟩ := claimed_of_runs cfg s id k _ inv found (decide_eq_true rfl)
  have present : (get? s.registry id).isSome = true := by
    rw [view, Option.isSome_map] at hot
    exact hot
  rw [if_pos present] at taken
  rw [← taken]
  have m : Moves s (s.move k (.found id issued)) k id (.spawned id issued) (.found id issued) :=
    ⟨found, rfl, rfl, Or.inl rfl, fun _ _ => ⟨rfl, rfl, rfl, rfl⟩⟩
  exact inv_move cfg s _ k id _ _ m inv (m.view_same rfl rfl rfl rfl rfl rfl)
    (inv.fits _ (mem_of_getElem? _ _ _ found) id rfl)

theorem inv_pick (cfg : Config) (s s' : State) (k id issued : Nat) (inv : Inv cfg s)
    (found : s.tasks[k]? = some (.found id issued))
    (taken : advance cfg s k (.found id issued) (.pick k) = some s') : Inv cfg s' := by
  simp only [advance, Option.some.injEq] at taken
  obtain ⟨claimed, hot⟩ := claimed_of_runs cfg s id k _ inv found (decide_eq_true rfl)
  obtain ⟨e, entry⟩ := isSome_of_flag _ _ claimed
  have event : ((get? s.sched id).getD (.fresh s.now)).nextEvent = (view s id).nextEvent := by
    rw [entry, Option.getD_some, TorrentAnnounce.nextEvent, View.nextEvent, owes_of_entry s id e entry,
      (flags_of_entry s id e entry).2.1]
  rw [event] at taken
  have m : Moves s s' k id (.found id issued) (.announcing id issued (view s id).nextEvent) := by
    rw [← taken]
    refine ⟨found, rfl, rfl, Or.inl rfl, fun j other => ⟨rfl, ?_, rfl, rfl⟩⟩
    exact (get?_orInsertWith ..).trans (if_neg other)
  have seen : view s' id = (view s id).picked := by
    have written : get? s'.sched id = some e.pick := by
      rw [← taken, get?_orInsertWith, if_pos rfl, entry]
      rfl
    have running := m.counts (Task.runs id)
    simp only [Task.runs, decide_true, if_true, Nat.add_right_cancel_iff] at running
    rw [m.view_entry e.pick (by rw [← taken]) written (by rw [← taken]) (by rw [← taken]) rfl, running,
      View.picked, owes_of_entry s id e entry, TorrentAnnounce.pick]
    have shows := flags_of_entry s id e entry
    split_ifs
    · exact View.ext rfl claimed.symm shows.2.1 rfl rfl rfl rfl rfl rfl
    · exact View.ext rfl claimed.symm shows.2.1 shows.2.2.1 shows.2.2.2 rfl rfl rfl rfl
  have own : issued = (view s id).start.number := inv.fits _ (mem_of_getElem? _ _ _ found) id rfl
  apply m.inv cfg inv
  · rw [seen]
    exact coherent_picked cfg _ (inv.coherent id)
  · rw [seen, own]
    exact carries_picked cfg _ (inv.coherent id) hot id
  · intro j task elsewhere at_ about fits
    rw [seen]
    have idle := m.rest_idle cfg inv (decide_eq_true rfl) j task elsewhere at_
    apply fits_of_read cfg (view s id) _ task id about idle _ fits
    intro incomplete begun read
    apply read_same _ _ incomplete begun read
    · rw [View.picked]
      split_ifs
      · rfl
      · rfl
    · rw [View.picked]
      split_ifs
      · rfl
      · rfl
    · rw [View.picked]
      split_ifs
      · exact fun same => same
      · exact fun same => same

/-- The history of a start, once one of its announces has succeeded. -/
theorem carries_announced (cfg : Config) (v : View) (issued : Nat) (event next : Option AnnounceEvent)
    (carries : Carries cfg v issued event) : Carries cfg (v.announced next) issued event :=
  ⟨carries.own, carries.completed⟩

theorem inv_answer (cfg : Config) (s s' : State) (k id issued : Nat) (event : Option AnnounceEvent)
    (reply : Option (Nat × Nat)) (inv : Inv cfg s)
    (found : s.tasks[k]? = some (.announcing id issued event))
    (taken : advance cfg s k (.announcing id issued event) (.answer k reply) = some s') : Inv cfg s' := by
  simp only [advance, Option.some.injEq] at taken
  have fits : Fits cfg (view s id) (.announcing id issued event) :=
    inv.fits _ (mem_of_getElem? _ _ _ found) id rfl
  obtain ⟨carries, _, fresh⟩ := fits
  -- where nothing is announced, the answer only moves the task
  have unheard : ∀ anyOk, (anyOk = true → cfg.announce = false) →
      Inv cfg (s.move k (.landed id issued event anyOk ANNOUNCE_DEFAULT_SECS)) := by
    intro anyOk silent
    have m : Moves s (s.move k (.landed id issued event anyOk ANNOUNCE_DEFAULT_SECS)) k id
        (.announcing id issued event) (.landed id issued event anyOk ANNOUNCE_DEFAULT_SECS) :=
      ⟨found, rfl, rfl, Or.inl rfl, fun _ _ => ⟨rfl, rfl, rfl, rfl⟩⟩
    apply inv_move cfg s _ k id _ _ m inv (m.view_same rfl rfl rfl rfl rfl rfl)
    refine ⟨carries, ?_, fun _ completes => fresh completes⟩
    intro ok announces
    rw [silent ok] at announces
    cases announces
  cases reply with
  | none =>
    rw [← taken]
    apply unheard
    intro silent
    simpa using silent
  | some intervals =>
    obtain ⟨interval, minInterval⟩ := intervals
    by_cases announces : cfg.announce = true
    · simp only [answered, if_pos announces] at taken
      have m : Moves s s' k id (.announcing id issued event)
          (.answered id issued event (clampAnnounceInterval interval) (clampMinInterval minInterval)) := by
        rw [← taken]
        exact ⟨found, rfl, rfl, Or.inl rfl, fun j other => ⟨rfl, rfl, rfl, Function.update_of_ne other ..⟩⟩
      have seen : view s' id = (view s id).announced event := by
        have running := m.counts (Task.runs id)
        simp only [Task.runs, decide_true, if_true, Nat.add_right_cancel_iff] at running
        rw [← taken] at m running ⊢
        apply View.ext
        · rfl
        · rfl
        · rfl
        · rfl
        · rfl
        · rfl
        · exact Function.update_self ..
        · exact running
        · exact m.counts (Task.stops id)
      apply m.inv cfg inv
      · rw [seen]
        exact coherent_announced cfg _ event announces (inv.coherent id) id issued
          (inv.fits _ (mem_of_getElem? _ _ _ found) id rfl)
      · rw [seen]
        exact ⟨carries_announced cfg _ issued event event carries,
          List.append_ne_nil_of_right_ne_nil _ (List.cons_ne_nil _ _)⟩
      · intro j task elsewhere at_ about fits
        rw [seen]
        have idle := m.rest_idle cfg inv (decide_eq_true rfl) j task elsewhere at_
        apply fits_of_read cfg (view s id) _ task id about idle _ fits
        exact fun incomplete begun read => read_same _ _ incomplete begun read rfl rfl (fun same => same)
    · rw [Bool.not_eq_true] at announces
      simp only [answered, announces, Bool.false_eq_true, if_false] at taken
      rw [← taken]
      exact unheard true (fun _ => announces)

theorem inv_land (cfg : Config) (s s' : State) (k id issued : Nat) (event : Option AnnounceEvent)
    (interval minInterval : Nat) (inv : Inv cfg s)
    (found : s.tasks[k]? = some (.answered id issued event interval minInterval))
    (taken : advance cfg s k (.answered id issued event interval minInterval) (.land k) = some s') :
    Inv cfg s' := by
  simp only [advance, Option.some.injEq] at taken
  have m : Moves s s' k id (.answered id issued event interval minInterval)
      (.landed id issued event true interval) := by
    rw [← taken]
    refine ⟨found, rfl, rfl, Or.inl rfl, fun j other => ⟨rfl, ?_, rfl, rfl⟩⟩
    exact (get?_modify ..).trans (if_neg other)
  have same : view s' id = view s id := by
    have running := m.counts (Task.runs id)
    simp only [Task.runs, decide_true, if_true, Nat.add_right_cancel_iff] at running
    rw [← taken] at m running ⊢
    exact view_shown s _ id rfl
      (shown_modify _ id (TorrentAnnounce.noteSuccess minInterval s.now) (fun _ => rfl) id) rfl rfl running
      (m.counts (Task.stops id))
  have fits : Fits cfg (view s id) (.answered id issued event interval minInterval) :=
    inv.fits _ (mem_of_getElem? _ _ _ found) id rfl
  obtain ⟨carries, announced⟩ := fits
  exact inv_move cfg s s' k id _ _ m inv same
    ⟨carries, fun _ _ => announced, fun clash => by cases clash⟩

theorem finish_flags (e : TorrentAnnounce) (event : Option AnnounceEvent) (anyOk : Bool)
    (interval now : Nat) :
    flags (e.finish event anyOk interval now) =
      (false, e.sentStarted || (anyOk && event = some .started),
        if event = some .completed then anyOk else e.sentCompleted,
        if event = some .completed then !anyOk else e.pendingCompleted) := by
  cases anyOk with
  | false =>
    cases event with
    | none => simp [flags, TorrentAnnounce.finish, TorrentAnnounce.unsent]
    | some event => cases event <;> simp [flags, TorrentAnnounce.finish, TorrentAnnounce.unsent]
  | true =>
    cases event with
    | none => simp [flags, TorrentAnnounce.finish, TorrentAnnounce.sent]
    | some event => cases event <;> simp [flags, TorrentAnnounce.finish, TorrentAnnounce.sent]

/-- A task that changes its own entry and ends with a kick or without. -/
theorem moves_kick (cfg : Config) (s : State) (k id : Nat) (before : Task) (kick : Bool)
    (change : TorrentAnnounce → TorrentAnnounce) (running : s.tasks[k]? = some before)
    (about : Task.about before = some id) :
    ∃ next, Moves s { s with
        sched := modify s.sched id change
        tasks := s.tasks.set k (if kick then .kicking id else .returned) } k id before next ∧
      Task.runs id next = false ∧ Task.stops id next = false ∧ ∀ v, Fits cfg v next := by
  have others : ∀ j, j ≠ id → get? s.registry j = get? s.registry j ∧
      get? (modify s.sched id change) j = get? s.sched j ∧ get? s.baseline j = get? s.baseline j ∧
      s.start j = s.start j := fun j other => ⟨rfl, (get?_modify ..).trans (if_neg other), rfl, rfl⟩
  cases kick with
  | true => exact ⟨.kicking id, ⟨running, rfl, about, Or.inl rfl, others⟩, rfl, rfl, fun _ => trivial⟩
  | false => exact ⟨.returned, ⟨running, rfl, about, Or.inr rfl, others⟩, rfl, rfl, fun _ => trivial⟩

theorem inv_finish (cfg : Config) (s s' : State) (k id issued : Nat) (event : Option AnnounceEvent)
    (anyOk : Bool) (interval : Nat) (inv : Inv cfg s)
    (found : s.tasks[k]? = some (.landed id issued event anyOk interval))
    (taken : advance cfg s k (.landed id issued event anyOk interval) (.finish k) = some s') :
    Inv cfg s' := by
  simp only [advance, Option.some.injEq] at taken
  obtain ⟨claimed, _⟩ := claimed_of_runs cfg s id k _ inv found (decide_eq_true rfl)
  obtain ⟨e, entry⟩ := isSome_of_flag _ _ claimed
  obtain ⟨next, m, quiet⟩ := moves_kick cfg s k id _ _ _ found rfl
  rw [taken] at m
  have seen : view s' id = (view s id).finished event anyOk := by
    have written : get? s'.sched id = some (e.finish event anyOk interval s.now) := by
      rw [← taken, get?_modify, if_pos rfl, entry]
      rfl
    have running := m.counts (Task.runs id)
    rw [quiet.1] at running
    simp only [Task.runs, decide_true, if_true, Bool.false_eq_true, if_false, Nat.add_zero] at running
    have ended := finish_flags e event anyOk interval s.now
    simp only [flags, Prod.mk.injEq] at ended
    obtain ⟨flight, started, completed, pending⟩ := ended
    obtain ⟨_, wasStarted, wasCompleted, wasPending⟩ := flags_of_entry s id e entry
    rw [m.view_entry _ (by rw [← taken]) written (by rw [← taken]) (by rw [← taken])
      quiet.2.1.symm, flight, started, completed, pending, wasStarted, wasCompleted, wasPending]
    have counted : s'.tasks.countP (Task.runs id) = (view s id).running - 1 := by
      show _ = s.tasks.countP (Task.runs id) - 1
      omega
    rw [counted]
    rfl
  apply m.inv cfg inv
  · rw [seen]
    exact coherent_finished cfg _ event anyOk (inv.coherent id) id issued interval
      (inv.fits _ (mem_of_getElem? _ _ _ found) id rfl)
  · exact quiet.2.2 _
  · intro j task elsewhere at_ about fits
    rw [seen]
    have idle := m.rest_idle cfg inv (decide_eq_true rfl) j task elsewhere at_
    apply fits_of_read cfg (view s id) _ task id about idle _ fits
    exact fun incomplete begun read => read_same _ _ incomplete begun read rfl rfl (fun same => same)

/-! ### Requests and stops -/

theorem inv_requestHot (cfg : Config) (s s' : State) (k id : Nat) (inv : Inv cfg s)
    (found : s.tasks[k]? = some (.requesting id))
    (taken : advance cfg s k (.requesting id) (.requestHot k) = some s') : Inv cfg s' := by
  simp only [advance, Option.some.injEq] at taken
  rw [← taken]
  split_ifs
  · have m : Moves s (s.move k (.requestingComplete id)) k id (.requesting id) (.requestingComplete id) :=
      ⟨found, rfl, rfl, Or.inl rfl, fun _ _ => ⟨rfl, rfl, rfl, rfl⟩⟩
    exact inv_move cfg s _ k id _ _ m inv (m.view_same rfl rfl rfl rfl rfl rfl) trivial
  · have m : Moves s (s.move k .returned) k id (.requesting id) .returned :=
      ⟨found, rfl, rfl, Or.inr rfl, fun _ _ => ⟨rfl, rfl, rfl, rfl⟩⟩
    exact inv_move cfg s _ k id _ _ m inv (m.view_same rfl rfl rfl rfl rfl rfl) trivial

theorem inv_requestPend (cfg : Config) (s s' : State) (k id : Nat) (inv : Inv cfg s)
    (found : s.tasks[k]? = some (.requestingComplete id))
    (guard : undisturbed cfg s (.requestPend k) = true)
    (taken : advance cfg s k (.requestingComplete id) (.requestPend k) = some s') : Inv cfg s' := by
  simp only [advance, Option.some.injEq] at taken
  obtain ⟨next, m, quiet⟩ := moves_kick cfg s k id _ _ _ found rfl
  rw [taken] at m
  have running := m.counts (Task.runs id)
  rw [quiet.1] at running
  have counted : s'.tasks.countP (Task.runs id) = s.tasks.countP (Task.runs id) := running
  have registry : s'.registry = s.registry := by rw [← taken]
  have baseline : s'.baseline = s.baseline := by rw [← taken]
  have start : s'.start = s.start := by rw [← taken]
  have written : get? s'.sched id = (get? s.sched id).map (TorrentAnnounce.requestCompleted s.now) := by
    rw [← taken, get?_modify, if_pos rfl]
  cases entry : get? s.sched id with
  | none =>
    rw [entry] at written
    have same := m.view_same (by rw [registry]) (written.trans entry.symm) (by rw [baseline])
      (by rw [start]) quiet.1.symm quiet.2.1.symm
    exact inv_move cfg s s' k id _ _ m inv same (quiet.2.2 _)
  | some e =>
    obtain ⟨wasFlight, wasStarted, wasCompleted, wasPending⟩ := flags_of_entry s id e entry
    rw [entry] at written
    have seen := m.view_entry (e.requestCompleted s.now) registry written baseline start quiet.2.1.symm
    rw [counted] at seen
    by_cases already : e.sentCompleted || e.pendingCompleted
    · rw [TorrentAnnounce.requestCompleted, if_pos already, wasFlight, wasStarted, wasCompleted,
        wasPending] at seen
      exact inv_move cfg s s' k id _ _ m inv seen (quiet.2.2 _)
    · rw [TorrentAnnounce.requestCompleted, if_neg already] at seen
      have pended : view s' id = { view s id with pending := true } := by
        rw [seen]
        exact View.ext rfl wasFlight wasStarted wasCompleted rfl rfl rfl rfl rfl
      have based : (view s id).baseline = some true := by
        simp only [undisturbed, Event.position, Option.bind_some, found, entry, ← wasCompleted,
          ← wasPending, Option.isNone_some, Bool.false_or, Bool.or_eq_true, decide_eq_true_eq] at guard
        rcases guard with before | based
        · exact absurd (by simpa using before) already
        · exact based
      apply m.inv_kept cfg inv
      · rw [pended]
        exact coherent_requested cfg _ (inv.coherent id) based
      · exact quiet.2.2 _
      · rw [pended]
      · rw [pended]
        exact fun same => same
      · rw [pended]
        exact fun same => same

theorem inv_answerStopped (cfg : Config) (s s' : State) (k id : Nat) (inv : Inv cfg s)
    (found : s.tasks[k]? = some (.stoppedAnnounce id))
    (taken : advance cfg s k (.stoppedAnnounce id) (.answerStopped k) = some s') : Inv cfg s' := by
  simp only [advance, Option.some.injEq] at taken
  rw [← taken]
  have m : Moves s (s.move k .returned) k id (.stoppedAnnounce id) .returned :=
    ⟨found, rfl, rfl, Or.inr rfl, fun _ _ => ⟨rfl, rfl, rfl, rfl⟩⟩
  have stopping := m.counts (Task.stops id)
  simp only [Task.stops, decide_true, if_true, Bool.false_eq_true, if_false, Nat.add_zero] at stopping
  have seen : view (s.move k .returned) id =
      { view s id with stopping := (view (s.move k .returned) id).stopping } :=
    View.ext rfl rfl rfl rfl rfl rfl rfl (m.counts (Task.runs id)) rfl
  have single := (inv.coherent id).single
  have fewer : (view (s.move k .returned) id).stopping ≤ (view s id).stopping := by
    show (s.move k .returned).tasks.countP _ ≤ s.tasks.countP _
    omega
  apply m.inv_kept cfg inv
  · rw [seen]
    exact coherent_stopping cfg _ _ (inv.coherent id) (by omega)
  · trivial
  · rw [seen]
  · rw [seen]
    exact fun same => same
  · rw [seen]
    exact fun same => same

theorem inv_remove (cfg : Config) (s s' : State) (k id : Nat) (inv : Inv cfg s)
    (found : s.tasks[k]? = some (.removing id)) (guard : undisturbed cfg s (.remove k) = true)
    (taken : advance cfg s k (.removing id) (.remove k) = some s') : Inv cfg s' := by
  simp only [advance, Option.some.injEq] at taken
  have m : Moves s s' k id (.removing id) (.unscheduling id) := by
    rw [← taken]
    refine ⟨found, rfl, rfl, Or.inl rfl, fun j other => ⟨?_, rfl, rfl, rfl⟩⟩
    exact (get?_erase ..).trans (if_neg other)
  have seen : view s' id = { view s id with hot := none } := by
    rw [← taken] at m ⊢
    apply View.ext
    · show (get? (erase s.registry id) id).map _ = none
      rw [get?_erase, if_pos rfl]
      rfl
    · rfl
    · rfl
    · rfl
    · rfl
    · rfl
    · rfl
    · exact m.counts (Task.runs id)
    · exact m.counts (Task.stops id)
  simp only [undisturbed, Event.position, Option.bind_some, found, decide_eq_true_eq] at guard
  apply m.inv_kept cfg inv
  · rw [seen]
    exact coherent_cold cfg _ (inv.coherent id) guard
  · trivial
  · rw [seen]
  · rw [seen]
    exact fun clash => by cases clash
  · rw [seen]
    exact fun same => same

theorem inv_unschedule (cfg : Config) (s s' : State) (k id : Nat) (inv : Inv cfg s)
    (found : s.tasks[k]? = some (.unscheduling id)) (guard : undisturbed cfg s (.unschedule k) = true)
    (taken : advance cfg s k (.unscheduling id) (.unschedule k) = some s') : Inv cfg s' := by
  simp only [advance, Option.some.injEq] at taken
  have m : Moves s s' k id (.unscheduling id) (.unbaselining id) := by
    rw [← taken]
    refine ⟨found, rfl, rfl, Or.inl rfl, fun j other => ⟨rfl, ?_, rfl, rfl⟩⟩
    exact (get?_erase ..).trans (if_neg other)
  have seen : view s' id = (view s id).blank := by
    have entry : get? s'.sched id = none := by
      rw [← taken]
      exact (get?_erase ..).trans (if_pos rfl)
    rw [view, entry]
    rw [← taken] at m ⊢
    exact View.ext rfl rfl rfl rfl rfl rfl rfl (m.counts (Task.runs id)) (m.counts (Task.stops id))
  simp only [undisturbed, Event.position, Option.bind_some, found, Bool.and_eq_true, Bool.or_eq_true,
    decide_eq_true_eq, Bool.not_eq_true'] at guard
  obtain ⟨idle, unsent⟩ := guard
  apply m.inv cfg inv
  · rw [seen]
    apply coherent_blank cfg _ (inv.coherent id) idle
    intro hot
    rcases unsent with cold | unsent
    · rw [← Option.not_isSome, hot] at cold
      cases cold
    · exact unsent
  · trivial
  · intro j task _ at_ about fits
    rw [seen]
    apply fits_of_read cfg (view s id) _ task id about (idle_of_none_running s id j task idle at_) _ fits
    exact fun incomplete begun read => read_same _ _ incomplete begun read rfl rfl (fun same => same)

theorem inv_unbaseline (cfg : Config) (s s' : State) (k id : Nat) (inv : Inv cfg s)
    (found : s.tasks[k]? = some (.unbaselining id))
    (taken : advance cfg s k (.unbaselining id) (.unbaseline k) = some s') : Inv cfg s' := by
  simp only [advance, Option.some.injEq] at taken
  have m : Moves s s' k id (.unbaselining id) .returned := by
    rw [← taken]
    refine ⟨found, rfl, rfl, Or.inr rfl, fun j other => ⟨rfl, rfl, ?_, rfl⟩⟩
    exact (get?_erase ..).trans (if_neg other)
  have seen : view s' id = { view s id with baseline := none } := by
    rw [← taken] at m ⊢
    apply View.ext
    · rfl
    · rfl
    · rfl
    · rfl
    · rfl
    · show (get? (erase s.baseline id) id).map _ = none
      rw [get?_erase, if_pos rfl]
      rfl
    · rfl
    · exact m.counts (Task.runs id)
    · exact m.counts (Task.stops id)
  apply m.inv_kept cfg inv
  · rw [seen]
    exact coherent_unbased cfg _ (inv.coherent id)
  · trivial
  · rw [seen]
  · rw [seen]
    exact fun same => same
  · rw [seen]
    exact fun same => same

end Seedchamp.Session.AnnounceSteps
