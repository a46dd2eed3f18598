import Seedchamp.Session.Slots

/-!
The connection limits over whole runs. The invariant ties the tables to what the connections hold of them,
and allows one dial at a time to a key.
-/

namespace Seedchamp.Session.SlotBooks
open Foundation.Tally Foundation.TransitionSystem Session.Slots

/-! ### The invariant -/

/-- An accepted connection before it is bound. -/
def unboundYet : Phase → Bool
  | .admitted | .queued | .entering | .handshaking => true
  | _ => false

def acceptedOnly : Phase → Bool
  | .admitted | .entering | .handshaking => true
  | _ => false

def dialOnly : Phase → Bool
  | .asked | .checked | .keyed | .flagged _ | .cleared | .refused | .reserved | .unkeying => true
  | _ => false

/-- What a connection holds fits its phase. -/
structure Shaped (c : Conn) : Prop where
  key : c.holdsKey = true → c.mayUnkey = true
  entry : c.holdsEntry = true → c.mayHoldEntry = true
  worker : c.worker.isSome = c.phase.onWorker
  unbound : c.outbound = false → unboundYet c.phase = true → c.torrent = 0
  accepted : acceptedOnly c.phase = true → c.outbound = false
  dialled : dialOnly c.phase = true → c.outbound = true
  kept : c.phase ≠ .lost

structure Valid (cfg : Config) (w : State) : Prop where
  shaped : ∀ s, Shaped (w.conns s)
  beyond : ∀ s, w.begun ≤ s → w.conns s = blank
  entries : ∀ s, (w.peers s).isSome = (w.conns s).holdsEntry
  listed : ∀ s p, w.peers s = some p → p.torrentId = (w.conns s).torrent
  keys : ∀ key, key ∈ w.connectedOut ↔ ∃ s, (w.conns s).holdsKey = true ∧ (w.conns s).key = key
  unique : ∀ s t, (w.conns s).mayUnkey = true → (w.conns t).mayUnkey = true → (w.conns s).key = (w.conns t).key →
    s = t
  counts : ∀ i, w.peerCounts i = tally (fun s => (w.conns s).countedOn i) w.begun
  total : w.activePeers = tally (fun s => (w.conns s).worker.isSome) w.begun
  bounded : ∀ tid, tid ≠ 0 → tally (fun s => (w.conns s).active tid) w.begun ≤ max cfg.maxPeers 1

theorem shaped_blank : Shaped blank := ⟨nofun, nofun, rfl, fun _ _ => rfl, nofun, nofun, nofun⟩

theorem initial_valid (cfg : Config) : Valid cfg initial :=
  ⟨fun _ => shaped_blank, fun _ _ => rfl, fun _ => rfl, nofun, fun _ => ⟨nofun, fun ⟨_, holds, _⟩ => by cases holds⟩, nofun,
    fun _ => rfl, rfl, fun _ _ => Nat.zero_le _⟩

/-- A connection with an entry takes a slot of its torrent. -/
theorem active_of_entry (c : Conn) (fits : Shaped c) (holds : c.holdsEntry = true) (tid : Nat)
    (same : c.torrent = tid) (some' : tid ≠ 0) : c.active tid = true := by
  have may := fits.entry holds
  have unbound := fits.unbound
  rw [same] at unbound
  unfold Conn.mayHoldEntry at may
  unfold Conn.active
  rw [decide_eq_true same, Bool.true_and]
  cases at' : c.phase with
  | reserved | queued | running | leaving => rfl
  | handshaking =>
    rw [at'] at may unbound
    dsimp only at may
    rw [Bool.not_eq_true'] at may
    exact absurd (unbound may rfl) some'
  | _ =>
    rw [at'] at may
    cases may

section
variable {cfg : Config} (w : State) (valid : Valid cfg w)
include valid

/-- The slots of a torrent are what the table lists and what it does not list. -/
theorem active_eq (tid : Nat) (some' : tid ≠ 0) : tally (fun s => (w.conns s).active tid) w.begun =
    w.peerCountForTorrent tid + w.unlisted tid := by
  rw [tally_split (fun s => (w.conns s).active tid) (fun s => (w.peers s).isSome) w.begun]
  congr 1
  apply tally_congr
  intro s _
  cases entry : w.peers s with
  | none =>
    rw [Option.isSome_none, Bool.and_false]
    rfl
  | some p =>
    have same := valid.listed s p entry
    have holds : (w.conns s).holdsEntry = true := by
      rw [← valid.entries s, entry]
      rfl
    rw [Option.isSome_some, Bool.and_true, bound, Option.any_some, same]
    by_cases mine : (w.conns s).torrent = tid
    · rw [decide_eq_true mine, active_of_entry _ (valid.shaped s) holds tid mine some']
    · rw [Conn.active, decide_eq_false mine, Bool.false_and]

/-- The connections that were let in are those in the table and those that it does not show. -/
theorem live_eq : tally (fun s => (w.conns s).live) w.begun = w.peersLen + w.unseen := by
  rw [tally_split (fun s => (w.conns s).live) (fun s => (w.peers s).isSome) w.begun]
  congr 1
  apply tally_congr
  intro s _
  cases entry : w.peers s with
  | none =>
    rw [Option.isSome_none, Bool.and_false]
  | some p =>
    have holds : (w.conns s).holdsEntry = true := by
      rw [← valid.entries s, entry]
      rfl
    have may := (valid.shaped s).entry holds
    rw [Option.isSome_some, Bool.and_true]
    unfold Conn.mayHoldEntry at may
    unfold Conn.live
    cases at' : (w.conns s).phase with
    | reserved | admitted | queued | entering | handshaking | running | leaving => rfl
    | _ =>
      rw [at'] at may
      cases may

theorem holder_inside (s : Nat) (there : w.conns s ≠ blank) : s < w.begun := by
  by_contra outside
  exact there (valid.beyond s (Nat.not_lt.1 outside))

/-! ### Steps of one connection -/

/-- One connection moves; the tables and counts follow it. -/
structure Moves (w' : State) (s : Nat) (c : Conn) : Prop where
  conns : w'.conns = Function.update w.conns s c
  begun : w'.begun = w.begun
  peers : ∀ t, t ≠ s → w'.peers t = w.peers t
  entry : (w'.peers s).isSome = c.holdsEntry
  listed : ∀ p, w'.peers s = some p → p.torrentId = c.torrent
  counts : ∀ i, w'.peerCounts i + ((w.conns s).countedOn i).toNat = w.peerCounts i + (c.countedOn i).toNat
  total : w'.activePeers + (w.conns s).worker.isSome.toNat = w.activePeers + c.worker.isSome.toNat

omit valid in
theorem tally_moved (w' : State) (s : Nat) (c : Conn) (p : Conn → Bool) (inside : s < w.begun)
    (conns : w'.conns = Function.update w.conns s c) :
    tally (fun t => p (w'.conns t)) w.begun + (p (w.conns s)).toNat =
      tally (fun t => p (w.conns t)) w.begun + (p c).toNat := by
  have moved := tally_update (fun t => p (w.conns t)) (fun t => p (w'.conns t)) w.begun s inside (by
    intro t _ other
    rw [conns, Function.update_of_ne other])
  rw [conns, Function.update_self] at moved
  rw [conns]
  exact moved

theorem valid_moved (w' : State) (s : Nat) (c : Conn) (inside : s < w.begun) (moves : Moves w w' s c)
    (fits : Shaped c)
    (keys : ∀ key, key ∈ w'.connectedOut ↔
      (∃ t, t ≠ s ∧ (w.conns t).holdsKey = true ∧ (w.conns t).key = key) ∨ c.holdsKey = true ∧ c.key = key)
    (alone : c.mayUnkey = true → ∀ t, t ≠ s → (w.conns t).mayUnkey = true → (w.conns t).key ≠ c.key)
    (room : ∀ tid, tid ≠ 0 → c.active tid = true → (w.conns s).active tid = true ∨
      tally (fun t => (w.conns t).active tid) w.begun < max cfg.maxPeers 1) : Valid cfg w' := by
  have session : ∀ t, w'.conns t = c ∧ t = s ∨ w'.conns t = w.conns t ∧ t ≠ s := by
    intro t
    by_cases mine : t = s
    · exact Or.inl ⟨by rw [moves.conns, mine, Function.update_self], mine⟩
    · exact Or.inr ⟨by rw [moves.conns, Function.update_of_ne mine], mine⟩
  refine ⟨?_, ?_, ?_, ?_, ?_, ?_, ?_, ?_, ?_⟩
  · intro t
    rcases session t with ⟨new, _⟩ | ⟨old, _⟩
    · rw [new]
      exact fits
    · rw [old]
      exact valid.shaped t
  · intro t outside
    rw [moves.begun] at outside
    rcases session t with ⟨_, mine⟩ | ⟨old, _⟩
    · omega
    · rw [old]
      exact valid.beyond t outside
  · intro t
    rcases session t with ⟨new, rfl⟩ | ⟨old, other⟩
    · rw [new]
      exact moves.entry
    · rw [old, moves.peers t other]
      exact valid.entries t
  · intro t p entry
    rcases session t with ⟨new, rfl⟩ | ⟨old, other⟩
    · rw [new]
      exact moves.listed p entry
    · rw [old]
      exact valid.listed t p (by rw [← moves.peers t other]; exact entry)
  · intro key
    rw [keys key]
    constructor
    · rintro (⟨t, other, holds, same⟩ | ⟨holds, same⟩)
      · refine ⟨t, ?_⟩
        rw [moves.conns, Function.update_of_ne other]
        exact ⟨holds, same⟩
      · refine ⟨s, ?_⟩
        rw [moves.conns, Function.update_self]
        exact ⟨holds, same⟩
    · rintro ⟨t, holds, same⟩
      rcases session t with ⟨new, _⟩ | ⟨old, other⟩
      · rw [new] at holds same
        exact Or.inr ⟨holds, same⟩
      · rw [old] at holds same
        exact Or.inl ⟨t, other, holds, same⟩
  · intro t u first second same
    rcases session t with ⟨new, rfl⟩ | ⟨old, other⟩
    · rcases session u with ⟨new', rfl⟩ | ⟨old', other'⟩
      · rfl
      · rw [new] at first same
        rw [old'] at second same
        exact absurd same.symm (alone first u other' second)
    · rcases session u with ⟨new', rfl⟩ | ⟨old', other'⟩
      · rw [old] at first same
        rw [new'] at second same
        exact absurd same (alone second t other first)
      · rw [old] at first same
        rw [old'] at second same
        exact valid.unique t u first second same
  · intro i
    have moved := tally_moved w w' s c (Conn.countedOn i) inside moves.conns
    have before := valid.counts i
    have count := moves.counts i
    rw [moves.begun]
    omega
  · have moved := tally_moved w w' s c (fun c => c.worker.isSome) inside moves.conns
    have before := valid.total
    have count := moves.total
    rw [moves.begun]
    omega
  · intro tid some'
    have moved := tally_moved w w' s c (Conn.active tid) inside moves.conns
    have before := valid.bounded tid some'
    rw [moves.begun]
    cases now : c.active tid with
    | false =>
      rw [now, Bool.toNat_false] at moved
      omega
    | true =>
      rcases room tid some' now with same | free
      · rw [now, same] at moved
        omega
      · rw [now] at moved
        have one : Bool.toNat true = 1 := rfl
        omega

/-- The keys where the connection's own flag stays. -/
theorem keys_kept (s : Nat) (c : Conn) (same : c.holdsKey = (w.conns s).holdsKey) (key : c.key = (w.conns s).key) :
    ∀ k, k ∈ w.connectedOut ↔
      (∃ t, t ≠ s ∧ (w.conns t).holdsKey = true ∧ (w.conns t).key = k) ∨ c.holdsKey = true ∧ c.key = k := by
  intro k
  rw [valid.keys k, same, key]
  constructor
  · rintro ⟨t, holds, named⟩
    by_cases mine : t = s
    · rw [mine] at holds named
      exact Or.inr ⟨holds, named⟩
    · exact Or.inl ⟨t, mine, holds, named⟩
  · rintro (⟨t, _, holds, named⟩ | ⟨holds, named⟩)
    · exact ⟨t, holds, named⟩
    · exact ⟨s, holds, named⟩

theorem alone_kept (s : Nat) (c : Conn) (may : c.mayUnkey = true → (w.conns s).mayUnkey = true)
    (key : c.key = (w.conns s).key) :
    c.mayUnkey = true → ∀ t, t ≠ s → (w.conns t).mayUnkey = true → (w.conns t).key ≠ c.key := by
  intro mine t other theirs same
  exact other (valid.unique t s theirs (may mine) (same.trans key))

/-- Only the phase changes. -/
theorem valid_move (s : Nat) (phase : Phase) (inside : s < w.begun)
    (may : ({ w.conns s with phase := phase } : Conn).mayUnkey = (w.conns s).mayUnkey)
    (entry : (w.conns s).mayHoldEntry = true → ({ w.conns s with phase := phase } : Conn).mayHoldEntry = true)
    (worker : phase.onWorker = (w.conns s).phase.onWorker)
    (unbound : unboundYet phase = true → unboundYet (w.conns s).phase = true)
    (accepted : acceptedOnly phase = true → (w.conns s).outbound = false)
    (dialled : dialOnly phase = true → (w.conns s).outbound = true) (kept : phase ≠ .lost)
    (active : ∀ tid, tid ≠ 0 → ({ w.conns s with phase := phase } : Conn).active tid = true →
      (w.conns s).active tid = true) : Valid cfg (w.move s phase) := by
  have fits := valid.shaped s
  refine valid_moved w valid _ s { w.conns s with phase := phase } inside
    ⟨rfl, rfl, fun _ _ => rfl, valid.entries s, valid.listed s, fun _ => rfl, rfl⟩ ?_
    (keys_kept w valid s _ rfl rfl) (alone_kept w valid s _ (fun now => may ▸ now) rfl)
    (fun tid some' now => Or.inl (active tid some' now))
  exact ⟨fun holds => may.trans (fits.key holds), fun holds => entry (fits.entry holds),
    fits.worker.trans worker.symm, fun inbound yet => fits.unbound inbound (unbound yet), accepted, dialled, kept⟩

/-- A connection that ends, or is on its way, before it holds anything of the tables. -/
theorem inside_of_phase (s : Nat) (some' : (w.conns s).phase ≠ .absent) : s < w.begun :=
  holder_inside w valid s (fun same => some' (by rw [same]; rfl))

/-! ### Phases -/

/-- The moves of a connection that touch no table. -/
inductive Follows (c : Conn) : Phase → Prop where
  | checked (at' : c.phase = .asked) : Follows c .checked
  | known (at' : c.phase = .asked) : Follows c .done
  | taken (at' : c.phase = .checked) : Follows c .done
  | flagged (at' : c.phase = .keyed) (flag : Option Nat) : Follows c (.flagged flag)
  | cancelled (flag : Option Nat) (at' : c.phase = .flagged flag) : Follows c .refused
  | full (at' : c.phase = .cleared) : Follows c .refused
  | unspawned (at' : c.phase = .admitted) : Follows c .done
  | runs (at' : c.phase = .queued) (dialled : c.outbound = true) : Follows c .running
  | stopped (at' : c.phase = .queued) (dialled : c.outbound = true) : Follows c .leaving
  | enters (at' : c.phase = .queued) (accepted : c.outbound = false) : Follows c .entering
  | fails (at' : c.phase = .entering) : Follows c .released
  | ends (at' : c.phase = .running) : Follows c .leaving
  | rejected (at' : c.phase = .handshaking) : Follows c .leaving

theorem valid_follows (s : Nat) (phase : Phase) (follows : Follows (w.conns s) phase) :
    Valid cfg (w.move s phase) := by
  have fits := valid.shaped s
  have inside : s < w.begun := by
    apply inside_of_phase w valid s
    cases follows with
    | cancelled flag at' =>
      rw [at']
      nofun
    | _ at' =>
      rw [at']
      nofun
  cases follows with
  | checked at' | full at' =>
    exact valid_move w valid s _ inside (by simp [Conn.mayUnkey, at']) (by simp [Conn.mayHoldEntry, at'])
      (by rw [at']; rfl) nofun nofun (fun _ => fits.dialled (by rw [at']; rfl)) nofun (by simp [Conn.active])
  | known at' | taken at' | unspawned at' | fails at' =>
    exact valid_move w valid s _ inside (by simp [Conn.mayUnkey, at']) (by simp [Conn.mayHoldEntry, at'])
      (by rw [at']; rfl) nofun nofun nofun nofun (by simp [Conn.active])
  | flagged at' flag =>
    exact valid_move w valid s _ inside (by simp [Conn.mayUnkey, at']) (by simp [Conn.mayHoldEntry, at'])
      (by rw [at']; rfl) nofun nofun (fun _ => fits.dialled (by rw [at']; rfl)) nofun (by simp [Conn.active])
  | cancelled flag at' =>
    exact valid_move w valid s _ inside (by simp [Conn.mayUnkey, at']) (by simp [Conn.mayHoldEntry, at'])
      (by rw [at']; rfl) nofun nofun (fun _ => fits.dialled (by rw [at']; rfl)) nofun (by simp [Conn.active])
  | runs at' dialled | stopped at' dialled =>
    exact valid_move w valid s _ inside (by simp [Conn.mayUnkey, at']) (by simp [Conn.mayHoldEntry])
      (by rw [at']; rfl) nofun nofun nofun nofun (by simp [Conn.active, at'])
  | enters at' accepted =>
    exact valid_move w valid s _ inside (by simp [Conn.mayUnkey, accepted]) (by simp [Conn.mayHoldEntry, at', accepted])
      (by rw [at']; rfl) (by simp [unboundYet, at']) (fun _ => accepted) nofun nofun (by simp [Conn.active])
  | ends at' =>
    exact valid_move w valid s _ inside (by simp [Conn.mayUnkey, at']) (by simp [Conn.mayHoldEntry])
      (by rw [at']; rfl) nofun nofun nofun nofun (by simp [Conn.active, at'])
  | rejected at' =>
    have accepted := fits.accepted (by rw [at']; rfl)
    have unbound := fits.unbound accepted (by rw [at']; rfl)
    refine valid_move w valid s _ inside (by simp [Conn.mayUnkey, accepted]) (by simp [Conn.mayHoldEntry])
      (by rw [at']; rfl) nofun nofun nofun nofun ?_
    intro tid some' now
    simp only [Conn.active, unbound, Bool.and_true, decide_eq_true_eq] at now
    exact absurd now.symm some'

/-! ### Keys -/

theorem noEntry (s : Nat) (may : (w.conns s).mayHoldEntry = false) : (w.conns s).holdsEntry = false := by
  rw [Bool.eq_false_iff]
  intro holds
  rw [(valid.shaped s).entry holds] at may
  cases may

theorem noKey (s : Nat) (may : (w.conns s).mayUnkey = false) : (w.conns s).holdsKey = false := by
  rw [Bool.eq_false_iff]
  intro holds
  rw [(valid.shaped s).key holds] at may
  cases may

/-- A key is taken while nobody is left who would remove it. -/
theorem valid_insertKey (s : Nat) (at' : (w.conns s).phase = .checked)
    (guard : limitGuard cfg w (.insertKey s) = true) : Valid cfg (insertKey w s) := by
  have fits := valid.shaped s
  have dialled := fits.dialled (by rw [at']; rfl)
  have unkeyed := noKey w valid s (by simp [Conn.mayUnkey, at'])
  have unlisted := noEntry w valid s (by simp [Conn.mayHoldEntry, at'])
  unfold insertKey
  dsimp only
  split_ifs with taken
  · exact valid_follows w valid s .done (.taken at')
  refine valid_moved w valid _ s { w.conns s with phase := .keyed, holdsKey := true }
    (inside_of_phase w valid s (by rw [at']; nofun))
    ⟨rfl, rfl, fun _ _ => rfl, valid.entries s, valid.listed s, fun _ => rfl, rfl⟩ ?_ ?_ ?_ ?_
  · refine ⟨fun _ => by simp [Conn.mayUnkey, dialled], fun holds => ?_, ?_, nofun, nofun, fun _ => dialled, nofun⟩
    · dsimp only at holds
      rw [unlisted] at holds
      cases holds
    · dsimp only
      rw [fits.worker, at']
      rfl
  · intro key
    dsimp only
    rw [Finset.mem_insert, valid.keys key]
    constructor
    · rintro (same | ⟨t, holds, same⟩)
      · exact Or.inr ⟨rfl, same.symm⟩
      · refine Or.inl ⟨t, ?_, holds, same⟩
        rintro rfl
        rw [unkeyed] at holds
        cases holds
    · rintro (⟨t, _, holds, same⟩ | ⟨_, same⟩)
      · exact Or.inr ⟨t, holds, same⟩
      · exact Or.inl same.symm
  · intro _ t other theirs same
    rw [limitGuard, decide_eq_true_eq] at guard
    have inside := holder_inside w valid t (fun blank' => by rw [blank'] at theirs; cases theirs)
    cases holds : (w.conns t).holdsKey with
    | true => exact taken ((valid.keys _).2 ⟨t, holds, same⟩)
    | false =>
      rw [guard t inside other same holds] at theirs
      cases theirs
  · intro tid _ now
    simp [Conn.active] at now

theorem valid_checkFlag (s : Nat) (flag : Option Nat) (at' : (w.conns s).phase = .flagged flag) :
    Valid cfg (checkFlag w s flag) := by
  have fits := valid.shaped s
  have dialled := fits.dialled (by rw [at']; rfl)
  have unlisted := noEntry w valid s (by simp [Conn.mayHoldEntry, at'])
  unfold checkFlag
  split_ifs
  · exact valid_follows w valid s .refused (.cancelled flag at')
  refine valid_moved w valid _ s { w.conns s with phase := .cleared, cancel := flag }
    (inside_of_phase w valid s (by rw [at']; nofun))
    ⟨rfl, rfl, fun _ _ => rfl, valid.entries s, valid.listed s, fun _ => rfl, rfl⟩ ?_
    (keys_kept w valid s _ rfl rfl) (alone_kept w valid s _ (by simp [Conn.mayUnkey, at']) rfl) ?_
  · refine ⟨fun _ => by simp [Conn.mayUnkey, dialled], fun holds => ?_, ?_, nofun, nofun, fun _ => dialled, nofun⟩
    · dsimp only at holds
      rw [unlisted] at holds
      cases holds
    · dsimp only
      rw [fits.worker, at']
      rfl
  · intro tid _ now
    simp [Conn.active] at now

/-- A dial gives back its own key, or finds that a stop has taken it. -/
theorem valid_takeKey (s : Nat) (next : Phase) (at' : (w.conns s).phase = .refused ∧ next = .done ∨
    (w.conns s).phase = .unkeying ∧ next = .released) : Valid cfg (takeKey w s next) := by
  have fits := valid.shaped s
  have dialled : (w.conns s).outbound = true := by
    rcases at' with ⟨at', _⟩ | ⟨at', _⟩
    · exact fits.dialled (by rw [at']; rfl)
    · exact fits.dialled (by rw [at']; rfl)
  have may : (w.conns s).mayUnkey = true := by
    rcases at' with ⟨at', _⟩ | ⟨at', _⟩
    · simp [Conn.mayUnkey, at', dialled]
    · simp [Conn.mayUnkey, at', dialled]
  have unlisted : (w.conns s).holdsEntry = false := by
    rcases at' with ⟨at', _⟩ | ⟨at', _⟩
    · exact noEntry w valid s (by simp [Conn.mayHoldEntry, at'])
    · exact noEntry w valid s (by simp [Conn.mayHoldEntry, at'])
  refine valid_moved w valid _ s { w.conns s with phase := next, holdsKey := false }
    (inside_of_phase w valid s (by rcases at' with ⟨at', _⟩ | ⟨at', _⟩ <;> rw [at'] <;> nofun))
    ⟨rfl, rfl, fun _ _ => rfl, valid.entries s, valid.listed s, fun _ => rfl, rfl⟩ ?_ ?_ ?_ ?_
  · refine ⟨nofun, fun holds => ?_, ?_, ?_, ?_, ?_, ?_⟩
    · dsimp only at holds
      rw [unlisted] at holds
      cases holds
    · dsimp only
      rw [fits.worker]
      rcases at' with ⟨at', rfl⟩ | ⟨at', rfl⟩ <;> rw [at'] <;> rfl
    · rcases at' with ⟨_, rfl⟩ | ⟨_, rfl⟩ <;> nofun
    · rcases at' with ⟨_, rfl⟩ | ⟨_, rfl⟩ <;> nofun
    · exact fun _ => dialled
    · rcases at' with ⟨_, rfl⟩ | ⟨_, rfl⟩ <;> nofun
  · intro key
    dsimp only [takeKey]
    rw [Finset.mem_erase, valid.keys key]
    constructor
    · rintro ⟨other, t, holds, same⟩
      refine Or.inl ⟨t, ?_, holds, same⟩
      rintro rfl
      exact other same.symm
    · rintro (⟨t, other, holds, same⟩ | ⟨holds, _⟩)
      · refine ⟨?_, t, holds, same⟩
        intro mine
        exact other (valid.unique t s ((valid.shaped t).key holds) may (same.trans mine))
      · cases holds
  · intro now
    rcases at' with ⟨_, rfl⟩ | ⟨_, rfl⟩ <;> simp [Conn.mayUnkey] at now
  · intro tid _ now
    rcases at' with ⟨_, rfl⟩ | ⟨_, rfl⟩ <;> simp [Conn.active] at now

/-! ### Slots of a torrent -/

/-- Where the guard sees room for one more, there is room under the limit. -/
theorem room_of_guard (tid : Nat) (some' : tid ≠ 0) (open' : ¬max cfg.maxPeers 1 ≤ w.peerCountForTorrent tid)
    (guard : (decide (max cfg.maxPeers 1 ≤ w.peerCountForTorrent tid) ||
      decide (w.peerCountForTorrent tid + w.unlisted tid < max cfg.maxPeers 1)) = true) :
    tally (fun t => (w.conns t).active tid) w.begun < max cfg.maxPeers 1 := by
  rw [decide_eq_false open', Bool.false_or, decide_eq_true_eq] at guard
  rw [active_eq w valid tid some']
  exact guard

theorem valid_reserve (s : Nat) (at' : (w.conns s).phase = .cleared)
    (guard : limitGuard cfg w (.reserve s) = true) : Valid cfg (reserve cfg w s) := by
  have fits := valid.shaped s
  have dialled := fits.dialled (by rw [at']; rfl)
  unfold reserve
  dsimp only
  split_ifs with full
  · exact valid_follows w valid s .refused (.full at')
  refine valid_moved w valid _ s { w.conns s with phase := .reserved, holdsEntry := true }
    (inside_of_phase w valid s (by rw [at']; nofun)) ⟨rfl, rfl, ?_, ?_, ?_, fun _ => rfl, rfl⟩ ?_
    (keys_kept w valid s _ rfl rfl) (alone_kept w valid s _ (by simp [Conn.mayUnkey, at']) rfl) ?_
  · intro t other
    exact Function.update_of_ne other ..
  · dsimp only
    rw [Function.update_self]
    rfl
  · intro p entry
    dsimp only at entry
    rw [Function.update_self] at entry
    cases entry
    rfl
  · refine ⟨fun _ => by simp [Conn.mayUnkey, dialled], fun _ => rfl, ?_, nofun, nofun, fun _ => dialled, nofun⟩
    dsimp only
    rw [fits.worker, at']
    rfl
  · intro tid some' now
    right
    have same : (w.conns s).torrent = tid := by
      simp only [Conn.active, Bool.and_true, decide_eq_true_eq] at now
      exact now
    rw [same] at full
    rw [limitGuard, same] at guard
    exact room_of_guard w valid tid some' full guard

theorem valid_onBound (s tid : Nat) (at' : (w.conns s).phase = .handshaking)
    (guard : limitGuard cfg w (.bind s tid) = true) : Valid cfg (onBound cfg w s tid) := by
  have fits := valid.shaped s
  have accepted := fits.accepted (by rw [at']; rfl)
  have unkeyed := noKey w valid s (by simp [Conn.mayUnkey, accepted])
  unfold onBound
  split_ifs with full
  · exact valid_follows w valid s .leaving (.rejected at')
  refine valid_moved w valid _ s { w.conns s with phase := .running, torrent := tid }
    (inside_of_phase w valid s (by rw [at']; nofun)) ⟨rfl, rfl, ?_, ?_, ?_, fun _ => rfl, rfl⟩ ?_ ?_ ?_ ?_
  · intro t other
    exact Function.update_of_ne other ..
  · dsimp only
    rw [Function.update_self, Option.isSome_map]
    exact valid.entries s
  · intro p entry
    dsimp only at entry
    rw [Function.update_self, Option.map_eq_some_iff] at entry
    obtain ⟨_, _, rfl⟩ := entry
    rfl
  · refine ⟨fun holds => ?_, fun _ => rfl, ?_, nofun, nofun, nofun, nofun⟩
    · dsimp only at holds
      rw [unkeyed] at holds
      cases holds
    · dsimp only
      rw [fits.worker, at']
      rfl
  · intro key
    change key ∈ w.connectedOut ↔ _
    rw [valid.keys key]
    constructor
    · rintro ⟨t, holds, same⟩
      refine Or.inl ⟨t, ?_, holds, same⟩
      rintro rfl
      rw [unkeyed] at holds
      cases holds
    · rintro (⟨t, _, holds, same⟩ | ⟨holds, _⟩)
      · exact ⟨t, holds, same⟩
      · rw [unkeyed] at holds
        cases holds
  · intro now
    simp [Conn.mayUnkey, accepted] at now
  · intro other some' now
    right
    have same : tid = other := by
      simp only [Conn.active, Bool.and_true, decide_eq_true_eq] at now
      exact now
    subst same
    exact room_of_guard w valid tid some' full guard

theorem valid_enter (s : Nat) (at' : (w.conns s).phase = .entering) : Valid cfg (enter w s) := by
  have fits := valid.shaped s
  have accepted := fits.accepted (by rw [at']; rfl)
  have unbound := fits.unbound accepted (by rw [at']; rfl)
  unfold enter
  refine valid_moved w valid _ s { w.conns s with phase := .handshaking, holdsEntry := true }
    (inside_of_phase w valid s (by rw [at']; nofun)) ⟨rfl, rfl, ?_, ?_, ?_, fun _ => rfl, rfl⟩ ?_
    (keys_kept w valid s _ rfl rfl) (alone_kept w valid s _ (by simp [Conn.mayUnkey]) rfl) ?_
  · intro t other
    exact Function.update_of_ne other ..
  · dsimp only
    rw [Function.update_self]
    rfl
  · intro p entry
    dsimp only at entry
    rw [Function.update_self] at entry
    cases entry
    exact unbound.symm
  · refine ⟨fun holds => ?_, fun _ => by simp [Conn.mayHoldEntry, accepted], ?_, fun _ _ => unbound,
      fun _ => accepted, nofun, nofun⟩
    · dsimp only at holds
      rw [noKey w valid s (by simp [Conn.mayUnkey, accepted])] at holds
      cases holds
    · dsimp only
      rw [fits.worker, at']
      rfl
  · intro tid _ now
    simp [Conn.active] at now

theorem valid_removeEntry (s : Nat) (at' : (w.conns s).phase = .leaving) : Valid cfg (removeEntry w s) := by
  have fits := valid.shaped s
  unfold removeEntry
  dsimp only
  refine valid_moved w valid _ s { w.conns s with
      phase := if (w.conns s).outbound then .unkeying else .released, holdsEntry := false }
    (inside_of_phase w valid s (by rw [at']; nofun)) ⟨rfl, rfl, ?_, ?_, ?_, fun _ => rfl, rfl⟩ ?_
    (keys_kept w valid s _ rfl rfl) (alone_kept w valid s _ ?_ rfl) ?_
  · intro t other
    exact Function.update_of_ne other ..
  · dsimp only
    rw [Function.update_self]
    rfl
  · intro p entry
    dsimp only at entry
    rw [Function.update_self] at entry
    cases entry
  · have key := fits.key
    cases direction : (w.conns s).outbound with
    | true =>
      refine ⟨fun _ => by simp [Conn.mayUnkey, direction], nofun, ?_, nofun, nofun, fun _ => direction, nofun⟩
      dsimp only
      rw [fits.worker, at']
      rfl
    | false =>
      refine ⟨fun holds => ?_, nofun, ?_, nofun, nofun, nofun, nofun⟩
      · have may := key holds
        rw [Conn.mayUnkey, direction] at may
        cases may
      · dsimp only
        rw [fits.worker, at']
        rfl
  · cases direction : (w.conns s).outbound with
    | true => simp [Conn.mayUnkey, at', direction]
    | false => simp [Conn.mayUnkey, direction]
  · intro tid _ now
    cases direction : (w.conns s).outbound with
    | true | false => simp [Conn.active, direction] at now

/-! ### Workers -/

theorem noWorker (s : Nat) (off : (w.conns s).phase.onWorker = false) : (w.conns s).worker = none := by
  rw [← Option.not_isSome_iff_eq_none, (valid.shaped s).worker, off]
  nofun

theorem valid_spawn (s i : Nat) (outcome : Spawn)
    (at' : (w.conns s).phase = .reserved ∨ (w.conns s).phase = .admitted)
    (guard : limitGuard cfg w (.spawn s i outcome) = true) : Valid cfg (spawn w s i outcome) := by
  have fits := valid.shaped s
  have direction : (w.conns s).outbound = true ∧ (w.conns s).phase = .reserved ∨
      (w.conns s).outbound = false ∧ (w.conns s).phase = .admitted := by
    rcases at' with at' | at'
    · exact Or.inl ⟨fits.dialled (by rw [at']; rfl), at'⟩
    · exact Or.inr ⟨fits.accepted (by rw [at']; rfl), at'⟩
  cases outcome with
  | closed =>
    rw [limitGuard, decide_eq_false nofun, decide_eq_false nofun, Bool.and_false] at guard
    cases guard
  | shut =>
    rcases direction with ⟨dialled, _⟩ | ⟨accepted, at'⟩
    · rw [limitGuard, dialled] at guard
      cases guard
    · rw [spawn, accepted]
      exact valid_follows w valid s .done (.unspawned at')
  | ok =>
    have none' : (w.conns s).worker = none := by
      rcases at' with at' | at'
      · exact noWorker w valid s (by rw [at']; rfl)
      · exact noWorker w valid s (by rw [at']; rfl)
    refine valid_moved w valid _ s { w.conns s with phase := .queued, worker := some i }
      (inside_of_phase w valid s (by rcases at' with at' | at' <;> rw [at'] <;> nofun))
      ⟨rfl, rfl, fun _ _ => rfl, valid.entries s, valid.listed s, ?_, ?_⟩ ?_
      (keys_kept w valid s _ rfl rfl) (alone_kept w valid s _ ?_ rfl) ?_
    · intro j
      dsimp only [spawn]
      unfold Conn.countedOn
      rw [none']
      by_cases here : j = i
      · rw [here, Function.update_self, decide_eq_true rfl, decide_eq_false nofun]
        rfl
      · rw [Function.update_of_ne here, decide_eq_false nofun,
          decide_eq_false (fun same => here (Option.some.inj same).symm)]
    · dsimp only [spawn]
      rw [none']
      rfl
    · refine ⟨fun holds => ?_, fun holds => ?_, rfl, fun inbound _ => ?_, nofun, nofun, nofun⟩
      · rcases direction with ⟨dialled, _⟩ | ⟨accepted, _⟩
        · simp [Conn.mayUnkey, dialled]
        · dsimp only at holds
          rw [noKey w valid s (by simp [Conn.mayUnkey, accepted])] at holds
          cases holds
      · rcases direction with ⟨dialled, _⟩ | ⟨_, at'⟩
        · exact dialled
        · dsimp only at holds
          rw [noEntry w valid s (by simp [Conn.mayHoldEntry, at'])] at holds
          cases holds
      · rcases direction with ⟨dialled, _⟩ | ⟨accepted, at'⟩
        · dsimp only at inbound
          rw [dialled] at inbound
          cases inbound
        · exact fits.unbound accepted (by rw [at']; rfl)
    · rcases direction with ⟨dialled, at'⟩ | ⟨accepted, _⟩
      · simp [Conn.mayUnkey, at', dialled]
      · simp [Conn.mayUnkey, accepted]
    · intro tid some' now
      rcases direction with ⟨_, at'⟩ | ⟨accepted, at'⟩
      · left
        simp only [Conn.active, Bool.and_true, decide_eq_true_eq] at now
        simp [Conn.active, at', now]
      · have unbound := fits.unbound accepted (by rw [at']; rfl)
        simp only [Conn.active, unbound, Bool.and_true, decide_eq_true_eq] at now
        exact absurd now.symm some'

theorem valid_release (s i : Nat) (at' : (w.conns s).phase = .released) (on : (w.conns s).worker = some i) :
    Valid cfg (release w s i) := by
  have inside := inside_of_phase w valid s (by rw [at']; nofun)
  have counted : ∀ (p : Conn → Bool), p (w.conns s) = true → 0 < tally (fun t => p (w.conns t)) w.begun := by
    intro p mine
    rw [tally_eq_card]
    exact Finset.card_pos.2 ⟨s, Finset.mem_filter.2 ⟨Finset.mem_range.2 inside, mine⟩⟩
  have one := counted (Conn.countedOn i) (decide_eq_true on)
  have some' := counted (fun c => c.worker.isSome) (by rw [on]; rfl)
  refine valid_moved w valid _ s { w.conns s with phase := .done, worker := none } inside
    ⟨rfl, rfl, fun _ _ => rfl, valid.entries s, valid.listed s, ?_, ?_⟩ ?_
    (keys_kept w valid s _ rfl rfl) (alone_kept w valid s _ (by simp [Conn.mayUnkey]) rfl)
    (by simp [Conn.active])
  · intro j
    dsimp only [release]
    unfold Conn.countedOn
    rw [on]
    by_cases here : j = i
    · have before := valid.counts i
      unfold Conn.countedOn at before one
      rw [here, Function.update_self, decide_eq_true rfl]
      change w.peerCounts i - 1 + 1 = w.peerCounts i + 0
      omega
    · rw [Function.update_of_ne here, decide_eq_false (fun same => here (Option.some.inj same).symm)]
      rfl
  · have before := valid.total
    dsimp only [release]
    rw [on]
    change w.activePeers - 1 + 1 = w.activePeers + 0
    omega
  · refine ⟨fun holds => ?_, fun holds => ?_, rfl, nofun, nofun, nofun, nofun⟩
    · dsimp only at holds
      rw [noKey w valid s (by simp [Conn.mayUnkey, at'])] at holds
      cases holds
    · dsimp only at holds
      rw [noEntry w valid s (by simp [Conn.mayHoldEntry, at'])] at holds
      cases holds

/-! ### Arrivals and stops -/

/-- A new connection holds nothing. -/
theorem valid_open (c : Conn) (fits : Shaped c) (unkeyed : c.holdsKey = false) (unlisted : c.holdsEntry = false)
    (idle : c.worker = none) (may : c.mayUnkey = false) (inactive : ∀ tid, tid ≠ 0 → c.active tid = false) :
    Valid cfg (w.open c) := by
  have last := valid.beyond w.begun (Nat.le_refl _)
  have none' : w.peers w.begun = none := by
    have entry := valid.entries w.begun
    rw [last] at entry
    exact Option.not_isSome_iff_eq_none.1 (by rw [entry]; nofun)
  have grown : Valid cfg { w with begun := w.begun + 1 } := by
    refine ⟨valid.shaped, fun s outside => valid.beyond s (Nat.le_of_succ_le outside), valid.entries, valid.listed,
      valid.keys, valid.unique, ?_, ?_, ?_⟩
    · intro i
      dsimp only
      rw [tally_succ, last, ← valid.counts i]
      rfl
    · dsimp only
      rw [tally_succ, last, ← valid.total]
      rfl
    · intro tid some'
      dsimp only
      rw [tally_succ, last]
      have small := valid.bounded tid some'
      have absent : (blank.active tid).toNat = 0 := by simp [Conn.active, blank]
      omega
  refine valid_moved _ grown (w.open c) w.begun c (Nat.lt_succ_self _)
    ⟨rfl, rfl, fun _ _ => rfl, ?_, ?_, ?_, ?_⟩ fits ?_ ?_ ?_
  · change (w.peers w.begun).isSome = c.holdsEntry
    rw [none', unlisted]
    rfl
  · intro p entry
    change w.peers w.begun = some p at entry
    rw [none'] at entry
    cases entry
  · intro i
    dsimp only
    rw [last, Conn.countedOn, Conn.countedOn, idle]
    rfl
  · dsimp only
    rw [last, idle]
    rfl
  · intro key
    change key ∈ w.connectedOut ↔ _
    rw [valid.keys key]
    constructor
    · rintro ⟨t, holds, same⟩
      refine Or.inl ⟨t, ?_, holds, same⟩
      rintro rfl
      rw [last] at holds
      cases holds
    · rintro (⟨t, _, holds, same⟩ | ⟨holds, _⟩)
      · exact ⟨t, holds, same⟩
      · rw [unkeyed] at holds
        cases holds
  · intro now
    rw [may] at now
    cases now
  · intro tid some' now
    rw [inactive tid some'] at now
    cases now

/-- A sweep that only takes flags back keeps what does not depend on them. -/
theorem valid_swept (w' : State) (begun : w'.begun = w.begun) (counts : w'.peerCounts = w.peerCounts)
    (total : w'.activePeers = w.activePeers)
    (kept : ∀ s, ∃ key entry, w'.conns s = { w.conns s with holdsKey := key, holdsEntry := entry } ∧
      (key = true → (w.conns s).holdsKey = true) ∧ (entry = true → (w.conns s).holdsEntry = true))
    (entries : ∀ s, (w'.peers s).isSome = (w'.conns s).holdsEntry)
    (listed : ∀ s p, w'.peers s = some p → w.peers s = some p)
    (keys : ∀ key, key ∈ w'.connectedOut ↔ ∃ s, (w'.conns s).holdsKey = true ∧ (w'.conns s).key = key) :
    Valid cfg w' := by
  have same : ∀ (p : Conn → Bool), (∀ c key entry, p { c with holdsKey := key, holdsEntry := entry } = p c) →
      ∀ s, p (w'.conns s) = p (w.conns s) := by
    intro p blind s
    obtain ⟨_, _, changed, _⟩ := kept s
    rw [changed, blind]
  refine ⟨?_, ?_, entries, ?_, keys, ?_, ?_, ?_, ?_⟩
  · intro s
    obtain ⟨_, _, changed, keyed, entered⟩ := kept s
    have fits := valid.shaped s
    rw [changed]
    exact ⟨fun now => fits.key (keyed now), fun now => fits.entry (entered now), fits.worker, fits.unbound,
      fits.accepted, fits.dialled, fits.kept⟩
  · intro s outside
    obtain ⟨key, entry, changed, keyed, entered⟩ := kept s
    rw [valid.beyond s (begun ▸ outside)] at changed keyed entered
    rw [changed, Bool.eq_false_iff.2 (fun now => absurd (keyed now) Bool.false_ne_true),
      Bool.eq_false_iff.2 (fun now => absurd (entered now) Bool.false_ne_true)]
    rfl
  · intro s p entry
    obtain ⟨_, _, changed, _⟩ := kept s
    rw [changed]
    exact valid.listed s p (listed s p entry)
  · intro s t first second named
    rw [same Conn.mayUnkey (fun _ _ _ => rfl)] at first second
    obtain ⟨_, _, changed, _⟩ := kept s
    obtain ⟨_, _, changed', _⟩ := kept t
    rw [changed, changed'] at named
    exact valid.unique s t first second named
  · intro i
    rw [begun, counts, tally_congr _ _ _ (fun s _ => same (Conn.countedOn i) (fun _ _ _ => rfl) s)]
    exact valid.counts i
  · rw [begun, total, tally_congr _ _ _ (fun s _ => same (fun c => c.worker.isSome) (fun _ _ _ => rfl) s)]
    exact valid.total
  · intro tid some'
    rw [begun, tally_congr _ _ _ (fun s _ => same (Conn.active tid) (fun _ _ _ => rfl) s)]
    exact valid.bounded tid some'

/-- A stop takes the keys of its torrent back on behalf of its dials. -/
theorem valid_sweepKeys (id : Nat) : Valid cfg (sweepKeys w id) := by
  refine valid_swept w valid _ rfl rfl rfl ?_ ?_ (fun _ _ same => same) ?_
  · intro s
    dsimp only [sweepKeys]
    split_ifs
    · exact ⟨false, (w.conns s).holdsEntry, rfl, nofun, fun holds => holds⟩
    · exact ⟨(w.conns s).holdsKey, (w.conns s).holdsEntry, rfl, fun holds => holds, fun holds => holds⟩
  · intro s
    dsimp only [sweepKeys]
    split_ifs <;> exact valid.entries s
  · intro key
    dsimp only [sweepKeys]
    rw [Finset.mem_filter, valid.keys key]
    constructor
    · rintro ⟨⟨s, holds, rfl⟩, other⟩
      have mine : (w.conns s).torrent ≠ id := other
      refine ⟨s, ?_⟩
      rw [if_neg mine]
      exact ⟨holds, rfl⟩
    · rintro ⟨s, holds, named⟩
      by_cases mine : (w.conns s).torrent = id
      · rw [if_pos mine] at holds
        cases holds
      · rw [if_neg mine] at holds named
        refine ⟨⟨s, holds, named⟩, ?_⟩
        rw [← named]
        exact mine

/-- And the entries. -/
theorem valid_sweepEntries (id : Nat) : Valid cfg (sweepEntries w id) := by
  refine valid_swept w valid _ rfl rfl rfl ?_ ?_ ?_ ?_
  · intro s
    dsimp only [sweepEntries]
    split_ifs
    · exact ⟨(w.conns s).holdsKey, false, rfl, fun holds => holds, nofun⟩
    · exact ⟨(w.conns s).holdsKey, (w.conns s).holdsEntry, rfl, fun holds => holds, fun holds => holds⟩
  · intro s
    dsimp only [sweepEntries]
    split_ifs
    · rfl
    · exact valid.entries s
  · intro s p entry
    dsimp only [sweepEntries] at entry
    split_ifs at entry
    exact entry
  · intro key
    change key ∈ w.connectedOut ↔ _
    rw [valid.keys key]
    refine exists_congr (fun s => ?_)
    dsimp only [sweepEntries]
    split_ifs <;> exact Iff.rfl

/-! ### Every step -/

/-- A step that only touches flags, or what is still to be swept. -/
theorem valid_frame (w' : State) (conns : w'.conns = w.conns) (begun : w'.begun = w.begun) (peers : w'.peers = w.peers)
    (keys : w'.connectedOut = w.connectedOut) (counts : w'.peerCounts = w.peerCounts)
    (total : w'.activePeers = w.activePeers) : Valid cfg w' := by
  refine ⟨?_, ?_, ?_, ?_, ?_, ?_, ?_, ?_, ?_⟩
  · rw [conns]
    exact valid.shaped
  · rw [conns, begun]
    exact valid.beyond
  · rw [conns, peers]
    exact valid.entries
  · rw [conns, peers]
    exact valid.listed
  · rw [conns, keys]
    exact valid.keys
  · rw [conns]
    exact valid.unique
  · rw [conns, begun, counts]
    exact valid.counts
  · rw [conns, begun, total]
    exact valid.total
  · rw [conns, begun]
    exact valid.bounded

theorem step_valid (event : Event) (w' : State) (guard : limitGuard cfg w event = true)
    (taken : step cfg w event = some w') : Valid cfg w' := by
  cases event with
  | dial torrent addr =>
    rw [step] at taken
    split_ifs at taken
    cases taken
    exact valid_open w valid _ ⟨nofun, nofun, rfl, nofun, nofun, fun _ => rfl, nofun⟩ rfl rfl rfl rfl
      (by simp [Conn.active, Conn.dialled])
  | look s =>
    rw [step] at taken
    split_ifs at taken with at' known
    · cases taken
      exact valid_follows w valid s .done (.known at')
    · cases taken
      exact valid_follows w valid s .checked (.checked at')
  | cooledDown s =>
    rw [step] at taken
    split_ifs at taken with at'
    cases taken
    exact valid_follows w valid s .done (.taken at')
  | insertKey s =>
    rw [step] at taken
    split_ifs at taken with at'
    cases taken
    exact valid_insertKey w valid s at' guard
  | readFlag s =>
    rw [step] at taken
    split_ifs at taken with at'
    cases taken
    exact valid_follows w valid s _ (.flagged at' _)
  | checkFlag s =>
    rw [step] at taken
    split at taken
    · rename_i flag at'
      cases taken
      exact valid_checkFlag w valid s flag at'
    · cases taken
  | dropKey s =>
    rw [step] at taken
    split_ifs at taken with at'
    cases taken
    exact valid_takeKey w valid s .done (Or.inl ⟨at', rfl⟩)
  | reserve s =>
    rw [step] at taken
    split_ifs at taken with at'
    cases taken
    exact valid_reserve w valid s at' guard
  | accept addr =>
    rw [step] at taken
    split_ifs at taken
    cases taken
    exact valid_open w valid _ ⟨nofun, nofun, rfl, fun _ _ => rfl, fun _ => rfl, nofun, nofun⟩ rfl rfl rfl rfl
      (by simp [Conn.active, Conn.accepted])
  | spawn s i outcome =>
    rw [step] at taken
    split_ifs at taken with at'
    cases taken
    exact valid_spawn w valid s i outcome at'.1 guard
  | begin s =>
    rw [step] at taken
    split_ifs at taken with at'
    cases taken
    unfold begin'
    dsimp only
    split_ifs with dialled
    · exact valid_follows w valid s .leaving (.stopped at' dialled)
    · exact valid_follows w valid s .running (.runs at' dialled)
    · exact valid_follows w valid s .entering (.enters at' (Bool.eq_false_of_not_eq_true dialled))
  | fromStdFails s =>
    rw [step] at taken
    split_ifs at taken with at'
    cases taken
    exact valid_follows w valid s .released (.fails at')
  | enter s =>
    rw [step] at taken
    split_ifs at taken with at'
    cases taken
    exact valid_enter w valid s at'
  | bind s tid =>
    rw [step] at taken
    split_ifs at taken with at'
    cases taken
    exact valid_onBound w valid s tid at' guard
  | finish s =>
    rw [step] at taken
    split_ifs at taken with at'
    cases taken
    rcases at' with at' | at'
    · exact valid_follows w valid s .leaving (.ends at')
    · exact valid_follows w valid s .leaving (.rejected at')
  | removeEntry s =>
    rw [step] at taken
    split_ifs at taken with at'
    cases taken
    exact valid_removeEntry w valid s at'
  | removeKey s =>
    rw [step] at taken
    split_ifs at taken with at'
    cases taken
    exact valid_takeKey w valid s .released (Or.inr ⟨at', rfl⟩)
  | release s =>
    rw [step] at taken
    split at taken
    · rename_i i at' on
      cases taken
      exact valid_release w valid s i at' on
    · cases taken
  | activate id =>
    cases taken
    unfold activate
    split_ifs
    · exact valid
    · exact valid_frame w valid _ rfl rfl rfl rfl rfl rfl
  | sweep k =>
    rw [step] at taken
    split at taken
    · rename_i id _
      cases taken
      exact valid_frame _ (valid_sweepKeys w valid id) _ rfl rfl rfl rfl rfl rfl
    · rename_i id _
      cases taken
      exact valid_frame _ (valid_sweepEntries w valid id) _ rfl rfl rfl rfl rfl rfl
    · cases taken
  | start id | stop id | shutdown =>
    cases taken
    exact valid_frame w valid _ rfl rfl rfl rfl rfl rfl

/-! ### What a step lets in and takes back -/

omit valid in
theorem accept_bounded (addr : SocketAddr) (w' : State) (valid' : Valid cfg w)
    (guard : limitGuard cfg w (.accept addr) = true) (taken : step cfg w (.accept addr) = some w') :
    tally (fun s => (w'.conns s).live) w'.begun ≤ max cfg.maxConnections 1 := by
  rw [step] at taken
  split_ifs at taken with full
  cases taken
  have room : w.peersLen + w.unseen < max cfg.maxConnections 1 := by
    rw [limitGuard, decide_eq_false full, Bool.false_or] at guard
    exact of_decide_eq_true guard
  have before := live_eq w valid'
  change tally (fun s => ((Function.update w.conns w.begun (Conn.accepted addr)) s).live) (w.begun + 1) ≤ _
  rw [tally_succ, Function.update_self, tally_congr _ (fun s => (w.conns s).live)]
  · change _ + 1 ≤ _
    omega
  · intro s inside
    rw [Function.update_of_ne (by omega)]

omit valid in
/-- A step that changes one connection, and releases what the event says. -/
theorem orderly_of_update (event : Event) (w' : State) (s : Nat) (c : Conn)
    (conns : w'.conns = Function.update w.conns s c)
    (admits : ∀ addr, event = .accept addr → tally (fun t => (w'.conns t).live) w'.begun ≤ max cfg.maxConnections 1)
    (key : (w.conns s).holdsKey = true → c.holdsKey = true ∨ KeyReleased w event s)
    (entry : (w.conns s).holdsEntry = true → c.holdsEntry = true ∨ EntryReleased w event s)
    (worker : (w.conns s).worker.isSome = true → c.worker = (w.conns s).worker ∨ event = .release s) :
    Orderly cfg w event w' := by
  have own : w'.conns s = c := by rw [conns, Function.update_self]
  have others : ∀ t, t ≠ s → w'.conns t = w.conns t := by
    intro t other
    rw [conns, Function.update_of_ne other]
  refine ⟨admits, ?_, ?_, ?_⟩
  · intro t holds
    by_cases mine : t = s
    · rw [mine] at holds ⊢
      rw [own]
      exact key holds
    · rw [others t mine]
      exact Or.inl holds
  · intro t holds
    by_cases mine : t = s
    · rw [mine] at holds ⊢
      rw [own]
      exact entry holds
    · rw [others t mine]
      exact Or.inl holds
  · intro t on
    by_cases mine : t = s
    · rw [mine] at on ⊢
      rw [own]
      exact worker on
    · rw [others t mine]
      exact Or.inl rfl

omit valid in
theorem orderly_of_same (event : Event) (w' : State) (conns : w'.conns = w.conns)
    (other : ∀ addr, event ≠ .accept addr) : Orderly cfg w event w' := by
  refine ⟨fun addr mine => absurd mine (other addr), ?_, ?_, ?_⟩
  · intro s holds
    rw [conns]
    exact Or.inl holds
  · intro s holds
    rw [conns]
    exact Or.inl holds
  · intro s _
    rw [conns]
    exact Or.inl rfl

omit valid in
theorem orderly_move (event : Event) (s : Nat) (phase : Phase) (other : ∀ addr, event ≠ .accept addr) :
    Orderly cfg w event (w.move s phase) :=
  orderly_of_update w event _ s { w.conns s with phase := phase } rfl (fun addr mine => absurd mine (other addr))
    Or.inl Or.inl (fun _ => Or.inl rfl)

theorem orderly_open (event : Event) (c : Conn)
    (admits : ∀ addr, event = .accept addr →
      tally (fun t => ((w.open c).conns t).live) (w.open c).begun ≤ max cfg.maxConnections 1) :
    Orderly cfg w event (w.open c) := by
  have last := valid.beyond w.begun (Nat.le_refl _)
  refine orderly_of_update w event _ w.begun c rfl admits ?_ ?_ ?_
  · intro holds
    rw [last] at holds
    cases holds
  · intro holds
    rw [last] at holds
    cases holds
  · intro on
    rw [last] at on
    cases on

theorem orderly_sweep (k : Nat) (w' : State) (taken : step cfg w (.sweep k) = some w') :
    Orderly cfg w (.sweep k) w' := by
  rw [step] at taken
  split at taken
  · rename_i id next
    cases taken
    refine ⟨nofun, ?_, ?_, ?_⟩
    · intro s holds
      dsimp only [sweepKeys]
      split_ifs with mine
      · rw [← mine] at next
        exact Or.inr (Or.inr (Or.inr ⟨k, rfl, next⟩))
      · exact Or.inl holds
    · intro s holds
      dsimp only [sweepKeys]
      split_ifs <;> exact Or.inl holds
    · intro s _
      dsimp only [sweepKeys]
      split_ifs <;> exact Or.inl rfl
  · rename_i id next
    cases taken
    refine ⟨nofun, ?_, ?_, ?_⟩
    · intro s holds
      dsimp only [sweepEntries]
      split_ifs <;> exact Or.inl holds
    · intro s holds
      dsimp only [sweepEntries]
      split_ifs with mine
      · rw [bound, Option.any_eq_true] at mine
        obtain ⟨p, entry, named⟩ := mine
        have same : (w.conns s).torrent = id := (valid.listed s p entry).symm.trans (of_decide_eq_true named)
        rw [← same] at next
        exact Or.inr (Or.inr ⟨k, rfl, next⟩)
      · exact Or.inl holds
    · intro s _
      dsimp only [sweepEntries]
      split_ifs <;> exact Or.inl rfl
  · cases taken

theorem step_orderly (event : Event) (w' : State) (guard : limitGuard cfg w event = true)
    (taken : step cfg w event = some w') : Orderly cfg w event w' := by
  have bounded := fun addr (same : event = .accept addr) =>
    accept_bounded w addr w' valid (same ▸ guard) (same ▸ taken)
  cases event with
  | dial torrent addr =>
    rw [step] at taken
    split_ifs at taken
    cases taken
    exact orderly_open w valid _ _ nofun
  | accept addr =>
    rw [step] at taken
    split_ifs at taken
    cases taken
    exact orderly_open w valid _ _ bounded
  | look s =>
    rw [step] at taken
    split_ifs at taken <;> cases taken <;> exact orderly_move w _ s _ nofun
  | cooledDown s | readFlag s | fromStdFails s | finish s =>
    rw [step] at taken
    split_ifs at taken
    cases taken
    exact orderly_move w _ s _ nofun
  | insertKey s =>
    rw [step] at taken
    split_ifs at taken
    cases taken
    unfold insertKey
    dsimp only
    split_ifs
    · exact orderly_move w _ s _ nofun
    · exact orderly_of_update w _ _ s _ rfl nofun (fun _ => Or.inl rfl) Or.inl (fun _ => Or.inl rfl)
  | checkFlag s =>
    rw [step] at taken
    split at taken
    · cases taken
      unfold checkFlag
      split_ifs
      · exact orderly_move w _ s _ nofun
      · exact orderly_of_update w _ _ s _ rfl nofun Or.inl Or.inl (fun _ => Or.inl rfl)
    · cases taken
  | dropKey s =>
    rw [step] at taken
    split_ifs at taken
    cases taken
    exact orderly_of_update w _ _ s _ rfl nofun (fun _ => Or.inr (Or.inl rfl)) Or.inl (fun _ => Or.inl rfl)
  | removeKey s =>
    rw [step] at taken
    split_ifs at taken
    cases taken
    exact orderly_of_update w _ _ s _ rfl nofun (fun _ => Or.inr (Or.inr (Or.inl rfl))) Or.inl
      (fun _ => Or.inl rfl)
  | reserve s =>
    rw [step] at taken
    split_ifs at taken
    cases taken
    unfold reserve
    dsimp only
    split_ifs
    · exact orderly_move w _ s _ nofun
    · exact orderly_of_update w _ _ s _ rfl nofun Or.inl (fun _ => Or.inl rfl) (fun _ => Or.inl rfl)
  | spawn s i outcome =>
    rw [step] at taken
    split_ifs at taken with at'
    cases taken
    have idle := (valid.shaped s).worker
    cases outcome with
    | ok =>
      refine orderly_of_update w _ _ s _ rfl nofun Or.inl Or.inl (fun on => ?_)
      rcases at'.1 with at' | at'
      · rw [on, at'] at idle
        cases idle
      · rw [on, at'] at idle
        cases idle
    | shut => exact orderly_move w _ s _ nofun
    | closed => exact orderly_of_update w _ _ s _ rfl nofun Or.inl Or.inl (fun _ => Or.inl rfl)
  | begin s =>
    rw [step] at taken
    split_ifs at taken
    cases taken
    unfold begin'
    dsimp only
    split_ifs <;> exact orderly_move w _ s _ nofun
  | enter s =>
    rw [step] at taken
    split_ifs at taken
    cases taken
    exact orderly_of_update w _ _ s _ rfl nofun Or.inl (fun _ => Or.inl rfl) (fun _ => Or.inl rfl)
  | bind s tid =>
    rw [step] at taken
    split_ifs at taken
    cases taken
    unfold onBound
    split_ifs
    · exact orderly_move w _ s _ nofun
    · exact orderly_of_update w _ _ s _ rfl nofun Or.inl Or.inl (fun _ => Or.inl rfl)
  | removeEntry s =>
    rw [step] at taken
    split_ifs at taken
    cases taken
    exact orderly_of_update w _ _ s _ rfl nofun Or.inl (fun _ => Or.inr (Or.inl rfl)) (fun _ => Or.inl rfl)
  | release s =>
    rw [step] at taken
    split at taken
    · cases taken
      exact orderly_of_update w _ _ s _ rfl nofun Or.inl Or.inl (fun _ => Or.inr rfl)
    · cases taken
  | activate id =>
    cases taken
    unfold activate
    split_ifs <;> exact orderly_of_same w _ _ rfl nofun
  | sweep k => exact orderly_sweep w valid k w' taken
  | start id | stop id | shutdown =>
    cases taken
    exact orderly_of_same w _ _ rfl nofun

/-- Where a stop finds nothing to sweep, only the connections themselves release. -/
theorem ownOnly_of_orderly (event : Event) (w' : State) (orderly : Orderly cfg w event w')
    (unswept : sweepGuard w event = true) : OwnOnly w event w' := by
  constructor
  · intro s holds
    rcases orderly.key s holds with kept | dropped | removed | ⟨k, rfl, next⟩
    · exact Or.inl kept
    · exact Or.inr (Or.inl dropped)
    · exact Or.inr (Or.inr removed)
    · have inside := holder_inside w valid s (fun blank => by rw [blank] at holds; cases holds)
      rw [sweepGuard, next] at unswept
      exact absurd holds (Bool.eq_false_iff.1 (of_decide_eq_true unswept s inside rfl))
  · intro s holds
    rcases orderly.entry s holds with kept | removed | ⟨k, rfl, next⟩
    · exact Or.inl kept
    · exact Or.inr removed
    · have inside := holder_inside w valid s (fun blank => by rw [blank] at holds; cases holds)
      rw [sweepGuard, next] at unswept
      exact absurd holds (Bool.eq_false_iff.1 (of_decide_eq_true unswept s inside rfl))

/-! ### The limits -/

theorem respected_of_valid : Respected cfg w := by
  refine ⟨?_, ?_, valid.entries, valid.keys, ?_, valid.counts, valid.total, ?_⟩
  · intro tid some'
    refine (tally_mono _ (fun s => (w.conns s).active tid) _ ?_).trans (valid.bounded tid some')
    intro s _ running
    rw [Conn.runs, Bool.and_eq_true] at running
    rw [Conn.active, running.1, of_decide_eq_true running.2]
    rfl
  · intro s t first second running running' same
    refine valid.unique s t ?_ ?_ same
    · rw [Conn.mayUnkey, first, running]
      rfl
    · rw [Conn.mayUnkey, second, running']
      rfl
  · intro s t holds holds' same
    exact valid.unique s t ((valid.shaped s).key holds) ((valid.shaped t).key holds') same
  · intro s ended
    have done : (w.conns s).phase = .done := ended.resolve_right (valid.shaped s).kept
    refine ⟨noKey w valid s ?_, noEntry w valid s ?_, ?_⟩
    · rw [Conn.mayUnkey, done]
      exact Bool.and_false _
    · rw [Conn.mayHoldEntry, done]
    · have idle := (valid.shaped s).worker
      rw [done] at idle
      exact Option.not_isSome_iff_eq_none.1 (by rw [idle]; nofun)

end

/-- The limits hold in every state of a guarded run, and every step from there lets in and takes back only
what it may. -/
theorem limits_respected (cfg : Config) (events : List Event) (w : State)
    (guarded : Guarded (step cfg) (fun w event => limitGuard cfg w event = true) initial events)
    (reached : exec (step cfg) initial events = some w) :
    Respected cfg w ∧ ∀ event w', limitGuard cfg w event = true → step cfg w event = some w' →
      Orderly cfg w event w' ∧ (sweepGuard w event = true → OwnOnly w event w') := by
  have valid : Valid cfg w := exec_invariant (step cfg) (fun w event => limitGuard cfg w event = true) (Valid cfg)
    (fun w event w' valid guard taken => step_valid w valid event w' guard taken)
    initial w events (initial_valid cfg) guarded reached
  refine ⟨respected_of_valid w valid, ?_⟩
  intro event w' guard taken
  have orderly := step_orderly w valid event w' guard taken
  exact ⟨orderly, ownOnly_of_orderly w valid event w' orderly⟩

/-! ### Runs -/

def dialOnce (s torrent : Nat) (addr : SocketAddr) : List Event :=
  [.dial torrent addr, .look s, .insertKey s, .readFlag s, .checkFlag s, .reserve s, .spawn s 0 .ok, .begin s]

/-- A dial runs, and an accepted connection takes the second slot. -/
def dialledAndAccepted : List Event :=
  .start 1 :: dialOnce 0 1 ⟨7, 6881⟩ ++ [.accept ⟨9, 4000⟩, .spawn 1 0 .ok, .begin 1, .enter 1, .bind 1 1]

def twoSlots : Config := ⟨2, 2, 1⟩

def bothRunning : State := (exec (step twoSlots) initial dialledAndAccepted).getD initial

theorem limits_respected_dialledAndAccepted :
    tally (fun s => (bothRunning.conns s).runs 1) bothRunning.begun = 2 ∧ Respected twoSlots bothRunning := by
  have kept := guarded_of_guardedB (step twoSlots) (limitGuard twoSlots) initial dialledAndAccepted
    (by decide +kernel)
  have ran : exec (step twoSlots) initial dialledAndAccepted = some bothRunning :=
    (Option.getD_of_ne_none (Option.isSome_iff_ne_none.1 (by decide +kernel)) _).symm
  exact ⟨by decide +kernel, (limits_respected twoSlots dialledAndAccepted bothRunning kept ran).1⟩

/-- A torrent is stopped and started again while its dial still runs. -/
def stoppedAndStarted : List Event :=
  .start 1 :: dialOnce 0 1 ⟨7, 6881⟩ ++ [.stop 1, .sweep 0, .sweep 0, .start 1] ++ dialOnce 1 1 ⟨7, 6881⟩

def oneSlot : Config := ⟨1, 2, 1⟩

def twiceRunning : State := (exec (step oneSlot) initial stoppedAndStarted).getD initial

theorem restart_exceeds_limit :
    ¬∀ (cfg : Config) (events : List Event) (w : State), exec (step cfg) initial events = some w →
      Respected cfg w := by
  intro always
  have ran : exec (step oneSlot) initial stoppedAndStarted = some twiceRunning :=
    (Option.getD_of_ne_none (Option.isSome_iff_ne_none.1 (by decide +kernel)) _).symm
  have few := (always oneSlot stoppedAndStarted twiceRunning ran).perTorrent 1 (by decide)
  exact absurd few (by decide +kernel)

end Seedchamp.Session.SlotBooks
