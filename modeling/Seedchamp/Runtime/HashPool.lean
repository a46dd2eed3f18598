import Seedchamp.Disk.Spans
import Seedchamp.Foundation.Custody
import Seedchamp.Foundation.Tasks
import Seedchamp.Foundation.TransitionSystem

/-!
The hash workers and their two queues. Every worker empties the queue of downloaded pieces before it
takes one piece of a recheck.
-/

namespace Seedchamp.Runtime.HashPool
open Disk.Spans Foundation.Custody Foundation.Tasks Foundation.TransitionSystem

/-- A downloaded piece; `reply` names the channel that its outcome goes to. -/
structure HashJob where
  index : Nat
  plen : Nat
  data : List UInt8
  expected : List UInt8
  layout : StorageLayout
  reply : Nat
  deriving DecidableEq, Repr

structure RecheckJob where
  index : Nat
  expected : List UInt8
  layout : StorageLayout
  reply : Nat
  deriving DecidableEq, Repr

/-- Where a worker goes on after `handle_verify`. -/
inductive Next where
  | loop
  | recheck (job : RecheckJob)
  | leechOnly
  deriving DecidableEq, Repr

/-- The places of `hash_worker_main`. `recheckOnly` and `leechOnly` are the loops that run once the
other side is closed. -/
inductive Point where
  | leechFirst
  | tryRecheck
  | recvLeech
  | select
  | selected (job : RecheckJob)
  | verify (job : HashJob) (next : Next)
  | recheck (job : RecheckJob) (leechClosed : Bool)
  | recheckOnly
  | leechOnly
  | returned
  deriving DecidableEq, Repr

/-- The channels, open while a sender lives, the workers, and what they were given and have done. -/
structure State where
  leech : List HashJob
  recheck : List RecheckJob
  leechOpen : Bool
  recheckOpen : Bool
  workers : List Point
  accepted : List HashJob
  acceptedRechecks : List RecheckJob
  verified : List HashJob
  begun : List RecheckJob
  checked : List RecheckJob

/-- `leech` is the side that `select!` picks where it has a choice. -/
inductive Event where
  | submit (job : HashJob)
  | submitRecheck (job : RecheckJob)
  | dropLeech
  | dropRecheck
  | run (k : Nat) (leech : Bool)

namespace State

def goto (s : State) (k : Nat) (point : Point) : State := { s with workers := s.workers.set k point }

/-- `handle_recheck` is called. -/
def beginRecheck (s : State) (k : Nat) (job : RecheckJob) (leechClosed : Bool) : State :=
  { s with begun := s.begun ++ [job], workers := s.workers.set k (.recheck job leechClosed) }

/-- The next downloaded piece, or what a worker does without one. -/
def takeLeech (s : State) (k : Nat) (next : Next) (otherwise : Option State) : Option State :=
  match s.leech with
  | job :: rest => some ({ s with leech := rest }.goto k (.verify job next))
  | [] => otherwise

def leechFirst (s : State) (k : Nat) : Option State := s.takeLeech k .loop (some (s.goto k .tryRecheck))

def tryRecheck (s : State) (k : Nat) : Option State :=
  match s.recheck with
  | job :: rest => some ({ s with recheck := rest }.beginRecheck k job false)
  | [] => some (s.goto k (if s.recheckOpen then .select else .recvLeech))

def recvLeech (s : State) (k : Nat) : Option State :=
  s.takeLeech k .loop (if s.leechOpen then none else some (s.goto k .returned))

/-- An arm of `select!` is ready when its channel has a job or is closed. -/
def select (s : State) (k : Nat) (leech : Bool) : Option State :=
  if leech then s.takeLeech k .loop (if s.leechOpen then none else some (s.goto k .recheckOnly))
  else
    match s.recheck with
    | job :: rest => some ({ s with recheck := rest }.goto k (.selected job))
    | [] => if s.recheckOpen then none else some (s.goto k .leechOnly)

/-- A downloaded piece may have come in the meantime, and goes first. -/
def selected (s : State) (k : Nat) (job : RecheckJob) : Option State :=
  s.takeLeech k (.recheck job) (some (s.beginRecheck k job false))

def verify (s : State) (k : Nat) (job : HashJob) (next : Next) : State :=
  let s' := { s with verified := s.verified ++ [job] }
  match next with
  | .loop => s'.goto k .leechFirst
  | .recheck job => s'.beginRecheck k job false
  | .leechOnly => s'.goto k .leechOnly

def recheckDone (s : State) (k : Nat) (job : RecheckJob) (leechClosed : Bool) : State :=
  { s with checked := s.checked ++ [job] }.goto k (if leechClosed then .recheckOnly else .leechFirst)

def recheckOnly (s : State) (k : Nat) : Option State :=
  match s.recheck with
  | job :: rest => some ({ s with recheck := rest }.beginRecheck k job true)
  | [] => if s.recheckOpen then none else some (s.goto k .returned)

def leechOnly (s : State) (k : Nat) : Option State :=
  s.takeLeech k .leechOnly (if s.leechOpen then none else some (s.goto k .returned))

/-- The next operation of a worker; `none` where it blocks. -/
def work (s : State) (k : Nat) (leech : Bool) : Point → Option State
  | .leechFirst => s.leechFirst k
  | .tryRecheck => s.tryRecheck k
  | .recvLeech => s.recvLeech k
  | .select => s.select k leech
  | .selected job => s.selected k job
  | .verify job next => some (s.verify k job next)
  | .recheck job leechClosed => some (s.recheckDone k job leechClosed)
  | .recheckOnly => s.recheckOnly k
  | .leechOnly => s.leechOnly k
  | .returned => none

end State

def step (s : State) : Event → Option State
  | .submit job =>
    if s.leechOpen then some { s with leech := s.leech ++ [job], accepted := s.accepted ++ [job] }
    else none
  | .submitRecheck job =>
    if s.recheckOpen then
      some { s with recheck := s.recheck ++ [job], acceptedRechecks := s.acceptedRechecks ++ [job] }
    else none
  | .dropLeech => some { s with leechOpen := false }
  | .dropRecheck => some { s with recheckOpen := false }
  | .run k leech =>
    match s.workers[k]? with
    | none => none
    | some point => s.work k leech point

/-- `spawn_n`. -/
def spawnN (n : Nat) : State where
  leech := []
  recheck := []
  leechOpen := true
  recheckOpen := true
  workers := List.replicate (max n 1) .leechFirst
  accepted := []
  acceptedRechecks := []
  verified := []
  begun := []
  checked := []

/-! ### Closed channels -/

def State.leechShut (s : State) : Prop := s.leechOpen = false ∧ s.leech = []

def State.recheckShut (s : State) : Prop := s.recheckOpen = false ∧ s.recheck = []

/-- What the place of a worker says about the channels. -/
def Stands (s : State) : Point → Prop
  | .recvLeech => s.recheckShut
  | .verify _ .leechOnly => s.recheckShut
  | .leechOnly => s.recheckShut
  | .recheck _ true => s.leechShut
  | .recheckOnly => s.leechShut
  | .returned => s.leechShut ∧ s.recheckShut
  | _ => True

def AllStand (s : State) : Prop := ∀ point ∈ s.workers, Stands s point

/-- What is shut stays shut, so that the other workers stand where they stood. -/
theorem stands_mono (s s' : State) (leech : s.leechShut → s'.leechShut)
    (recheck : s.recheckShut → s'.recheckShut) (point : Point) (stands : Stands s point) :
    Stands s' point := by
  cases point with
  | recvLeech | leechOnly => exact recheck stands
  | recheckOnly => exact leech stands
  | returned => exact ⟨leech stands.1, recheck stands.2⟩
  | verify job next =>
    cases next with
    | leechOnly => exact recheck stands
    | _ => trivial
  | recheck job leechClosed =>
    cases leechClosed with
    | true => exact leech stands
    | false => trivial
  | _ => trivial

/-! ### What an operation can do -/

/-- The points at which a worker takes a downloaded piece, and where it goes on afterwards. -/
inductive Takes : Point → Next → Prop where
  | leechFirst : Takes .leechFirst .loop
  | recvLeech : Takes .recvLeech .loop
  | select : Takes .select .loop
  | selected (job : RecheckJob) : Takes (.selected job) (.recheck job)
  | leechOnly : Takes .leechOnly .leechOnly

/-- The moves that change no queue and no record. -/
inductive Goes (s : State) : Point → Point → Prop where
  | empty (none : s.leech = []) : Goes s .leechFirst .tryRecheck
  | wait : Goes s .tryRecheck .select
  | onlyLeech (shut : s.recheckShut) : Goes s .tryRecheck .recvLeech
  | noRecheck (shut : s.recheckShut) : Goes s .select .leechOnly
  | noLeech (shut : s.leechShut) : Goes s .select .recheckOnly
  | recvReturns (shut : s.leechShut) : Goes s .recvLeech .returned
  | leechReturns (shut : s.leechShut) : Goes s .leechOnly .returned
  | recheckReturns (shut : s.recheckShut) : Goes s .recheckOnly .returned

inductive Moves (s : State) (k : Nat) : Point → State → Prop where
  | take (before : Point) (job : HashJob) (rest : List HashJob) (next : Next) (takes : Takes before next)
      (queued : s.leech = job :: rest) :
      Moves s k before ({ s with leech := rest }.goto k (.verify job next))
  | goes (before after : Point) (goes : Goes s before after) : Moves s k before (s.goto k after)
  | pick (job : RecheckJob) (rest : List RecheckJob) (queued : s.recheck = job :: rest) :
      Moves s k .select ({ s with recheck := rest }.goto k (.selected job))
  | beginNext (job : RecheckJob) (rest : List RecheckJob) (queued : s.recheck = job :: rest) :
      Moves s k .tryRecheck ({ s with recheck := rest }.beginRecheck k job false)
  | beginLast (job : RecheckJob) (rest : List RecheckJob) (queued : s.recheck = job :: rest) :
      Moves s k .recheckOnly ({ s with recheck := rest }.beginRecheck k job true)
  | beginSelected (job : RecheckJob) (none : s.leech = []) :
      Moves s k (.selected job) (s.beginRecheck k job false)
  | verified (job : HashJob) (next : Next) : Moves s k (.verify job next) (s.verify k job next)
  | checked (job : RecheckJob) (leechClosed : Bool) :
      Moves s k (.recheck job leechClosed) (s.recheckDone k job leechClosed)

theorem takeLeech_moves (s s' : State) (k : Nat) (before : Point) (next : Next) (takes : Takes before next)
    (otherwise : Option State) (taken : s.takeLeech k next otherwise = some s')
    (moves : s.leech = [] → otherwise = some s' → Moves s k before s') : Moves s k before s' := by
  rw [State.takeLeech] at taken
  cases queued : s.leech with
  | nil =>
    rw [queued] at taken
    exact moves queued taken
  | cons job rest =>
    rw [queued] at taken
    cases taken
    exact .take before job rest next takes queued

/-- Where a receive fails the channel is shut. -/
theorem closed_goes (s s' : State) (k : Nat) (isOpen : Bool) (before after : Point)
    (taken : (if isOpen then none else some (s.goto k after)) = some s')
    (goes : isOpen = false → Goes s before after) : Moves s k before s' := by
  cases isOpen with
  | true => cases taken
  | false =>
    cases taken
    exact .goes before after (goes rfl)

theorem work_moves (s s' : State) (k : Nat) (leech : Bool) (point : Point)
    (taken : s.work k leech point = some s') : Moves s k point s' := by
  cases point with
  | leechFirst =>
    apply takeLeech_moves s s' k _ _ .leechFirst _ taken
    intro none same
    cases same
    exact .goes _ _ (.empty none)
  | tryRecheck =>
    rw [State.work, State.tryRecheck] at taken
    cases queued : s.recheck with
    | cons job rest =>
      rw [queued] at taken
      cases taken
      exact .beginNext job rest queued
    | nil =>
      rw [queued] at taken
      cases taken
      cases closed : s.recheckOpen with
      | true => exact .goes _ _ .wait
      | false => exact .goes _ _ (.onlyLeech ⟨closed, queued⟩)
  | recvLeech =>
    apply takeLeech_moves s s' k _ _ .recvLeech _ taken
    intro none same
    exact closed_goes s s' k s.leechOpen _ _ same (fun closed => .recvReturns ⟨closed, none⟩)
  | select =>
    rw [State.work, State.select] at taken
    cases leech with
    | true =>
      apply takeLeech_moves s s' k _ _ .select _ taken
      intro none same
      exact closed_goes s s' k s.leechOpen _ _ same (fun closed => .noLeech ⟨closed, none⟩)
    | false =>
      rw [if_neg Bool.false_ne_true] at taken
      cases queued : s.recheck with
      | cons job rest =>
        rw [queued] at taken
        cases taken
        exact .pick job rest queued
      | nil =>
        rw [queued] at taken
        exact closed_goes s s' k s.recheckOpen _ _ taken (fun closed => .noRecheck ⟨closed, queued⟩)
  | selected job =>
    apply takeLeech_moves s s' k _ _ (.selected job) _ taken
    intro none same
    cases same
    exact .beginSelected job none
  | verify job next =>
    cases taken
    exact .verified job next
  | recheck job leechClosed =>
    cases taken
    exact .checked job leechClosed
  | recheckOnly =>
    rw [State.work, State.recheckOnly] at taken
    cases queued : s.recheck with
    | cons job rest =>
      rw [queued] at taken
      cases taken
      exact .beginLast job rest queued
    | nil =>
      rw [queued] at taken
      exact closed_goes s s' k s.recheckOpen _ _ taken (fun closed => .recheckReturns ⟨closed, queued⟩)
  | leechOnly =>
    apply takeLeech_moves s s' k _ _ .leechOnly _ taken
    intro none same
    exact closed_goes s s' k s.leechOpen _ _ same (fun closed => .leechReturns ⟨closed, none⟩)
  | returned => cases taken

theorem step_submit (s s' : State) (job : HashJob) (taken : step s (.submit job) = some s') :
    s.leechOpen = true ∧ s' = { s with leech := s.leech ++ [job], accepted := s.accepted ++ [job] } := by
  rw [step] at taken
  split_ifs at taken with isOpen
  exact ⟨isOpen, (Option.some.inj taken).symm⟩

theorem step_submitRecheck (s s' : State) (job : RecheckJob)
    (taken : step s (.submitRecheck job) = some s') :
    s.recheckOpen = true ∧
      s' = { s with recheck := s.recheck ++ [job], acceptedRechecks := s.acceptedRechecks ++ [job] } := by
  rw [step] at taken
  split_ifs at taken with isOpen
  exact ⟨isOpen, (Option.some.inj taken).symm⟩

theorem step_run (s s' : State) (k : Nat) (leech : Bool) (taken : step s (.run k leech) = some s') :
    ∃ before, s.workers[k]? = some before ∧ Moves s k before s' := by
  rw [step] at taken
  cases running : s.workers[k]? with
  | none =>
    rw [running] at taken
    cases taken
  | some before =>
    rw [running] at taken
    exact ⟨before, rfl, work_moves s s' k leech before taken⟩

theorem allStand_set (s s' : State) (k : Nat) (after : Point) (workers : s'.workers = s.workers.set k after)
    (leech : s.leechShut → s'.leechShut) (recheck : s.recheckShut → s'.recheckShut)
    (all : AllStand s) (new : Stands s' after) : AllStand s' := by
  intro point member
  rw [workers] at member
  exact forall_mem_set s.workers k after (Stands s')
    (fun point old => stands_mono s s' leech recheck point (all point old)) new point member

theorem shut_tail {α : Type} (first : α) (rest queue : List α) (queued : queue = first :: rest)
    (none : queue = []) : rest = [] := by
  rw [queued] at none
  cases none

theorem moves_stand (s s' : State) (k : Nat) (before : Point) (all : AllStand s)
    (running : s.workers[k]? = some before) (moves : Moves s k before s') : AllStand s' := by
  have here := all before (mem_of_getElem? s.workers k before running)
  cases moves with
  | take _ job rest next takes queued =>
    refine allStand_set s _ k _ rfl (fun shut => ⟨shut.1, shut_tail job rest _ queued shut.2⟩)
      (fun shut => shut) all ?_
    cases takes with
    | leechOnly => exact here
    | _ => trivial
  | goes _ after goes =>
    refine allStand_set s _ k _ rfl (fun shut => shut) (fun shut => shut) all ?_
    cases goes with
    | onlyLeech shut => exact shut
    | noRecheck shut => exact shut
    | noLeech shut => exact shut
    | recvReturns shut => exact ⟨shut, here⟩
    | leechReturns shut => exact ⟨shut, here⟩
    | recheckReturns shut => exact ⟨here, shut⟩
    | _ => trivial
  | pick job rest queued =>
    exact allStand_set s _ k _ rfl (fun shut => shut)
      (fun shut => ⟨shut.1, shut_tail job rest _ queued shut.2⟩) all trivial
  | beginNext job rest queued =>
    exact allStand_set s _ k _ rfl (fun shut => shut)
      (fun shut => ⟨shut.1, shut_tail job rest _ queued shut.2⟩) all trivial
  | beginLast job rest queued =>
    exact allStand_set s _ k _ rfl (fun shut => shut)
      (fun shut => ⟨shut.1, shut_tail job rest _ queued shut.2⟩) all here
  | beginSelected job none =>
    exact allStand_set s _ k _ rfl (fun shut => shut) (fun shut => shut) all trivial
  | verified job next =>
    cases next with
    | loop | recheck _ => exact allStand_set s _ k _ rfl (fun shut => shut) (fun shut => shut) all trivial
    | leechOnly => exact allStand_set s _ k _ rfl (fun shut => shut) (fun shut => shut) all here
  | checked job leechClosed =>
    cases leechClosed with
    | true => exact allStand_set s _ k _ rfl (fun shut => shut) (fun shut => shut) all here
    | false => exact allStand_set s _ k _ rfl (fun shut => shut) (fun shut => shut) all trivial

theorem allStand_same (s s' : State) (workers : s'.workers = s.workers)
    (leech : s.leechShut → s'.leechShut) (recheck : s.recheckShut → s'.recheckShut)
    (all : AllStand s) : AllStand s' := by
  intro point member
  rw [workers] at member
  exact stands_mono s s' leech recheck point (all point member)

theorem step_stand (s : State) (event : Event) (s' : State) (all : AllStand s)
    (taken : step s event = some s') : AllStand s' := by
  cases event with
  | submit job =>
    obtain ⟨isOpen, rfl⟩ := step_submit s s' job taken
    exact allStand_same s _ rfl (fun shut => absurd (isOpen.symm.trans shut.1) (by decide))
      (fun shut => shut) all
  | submitRecheck job =>
    obtain ⟨isOpen, rfl⟩ := step_submitRecheck s s' job taken
    exact allStand_same s _ rfl (fun shut => shut)
      (fun shut => absurd (isOpen.symm.trans shut.1) (by decide)) all
  | dropLeech =>
    cases taken
    exact allStand_same s _ rfl (fun shut => ⟨rfl, shut.2⟩) (fun shut => shut) all
  | dropRecheck =>
    cases taken
    exact allStand_same s _ rfl (fun shut => shut) (fun shut => ⟨rfl, shut.2⟩) all
  | run k leech =>
    obtain ⟨before, running, moves⟩ := step_run s s' k leech taken
    exact moves_stand s s' k before all running moves

theorem spawnN_stand (n : Nat) : AllStand (spawnN n) := by
  intro point member
  rw [List.eq_of_mem_replicate member]
  trivial

/-! ### Every job once -/

/-- The downloaded piece that a worker has taken. -/
def hand : Point → List HashJob
  | .verify job _ => [job]
  | _ => []

def handRecheck : Point → List RecheckJob
  | .selected job => [job]
  | .verify _ (.recheck job) => [job]
  | .recheck job _ => [job]
  | _ => []

/-- Every accepted job is done, in the hand of one worker or queued. -/
structure Accounts (s : State) : Prop where
  leech : ∀ job, s.accepted.count job =
    s.verified.count job + (s.workers.flatMap hand).count job + s.leech.count job
  recheck : ∀ job, s.acceptedRechecks.count job =
    s.checked.count job + (s.workers.flatMap handRecheck).count job + s.recheck.count job

theorem accounts_set (s s' : State) (k : Nat) (before after : Point) (accounts : Accounts s)
    (running : s.workers[k]? = some before) (workers : s'.workers = s.workers.set k after)
    (accepted : s'.accepted = s.accepted ∧ s'.acceptedRechecks = s.acceptedRechecks)
    (leech : ∀ job, s'.verified.count job + (hand after).count job + s'.leech.count job =
      s.verified.count job + (hand before).count job + s.leech.count job)
    (recheck : ∀ job, s'.checked.count job + (handRecheck after).count job + s'.recheck.count job =
      s.checked.count job + (handRecheck before).count job + s.recheck.count job) : Accounts s' where
  leech := by
    intro job
    have moved := count_flatMap_set s.workers hand k before after running job
    have old := accounts.leech job
    have change := leech job
    rw [accepted.1, workers]
    omega
  recheck := by
    intro job
    have moved := count_flatMap_set s.workers handRecheck k before after running job
    have old := accounts.recheck job
    have change := recheck job
    rw [accepted.2, workers]
    omega

theorem takes_hands (before : Point) (next : Next) (takes : Takes before next) (job : HashJob) :
    hand before = [] ∧ handRecheck (.verify job next) = handRecheck before := by
  cases takes with
  | _ => exact ⟨rfl, rfl⟩

theorem goes_hands (s : State) (before after : Point) (goes : Goes s before after) :
    hand before = hand after ∧ handRecheck before = handRecheck after := by
  cases goes with
  | _ => exact ⟨rfl, rfl⟩

theorem moves_accounts (s s' : State) (k : Nat) (before : Point) (accounts : Accounts s)
    (running : s.workers[k]? = some before) (moves : Moves s k before s') : Accounts s' := by
  cases moves with
  | take _ job rest next takes queued =>
    obtain ⟨free, same⟩ := takes_hands before next takes job
    refine accounts_set s _ k before (.verify job next) accounts running rfl ⟨rfl, rfl⟩ ?_ ?_
    · intro other
      rw [free, queued]
      simp only [State.goto, hand, List.count_cons, List.count_nil]
      omega
    · intro other
      simp only [State.goto, same]
  | goes _ after goes =>
    obtain ⟨first, second⟩ := goes_hands s before after goes
    refine accounts_set s _ k before after accounts running rfl ⟨rfl, rfl⟩ ?_ ?_
    · intro job
      simp only [State.goto, first]
    · intro job
      simp only [State.goto, second]
  | pick job rest queued =>
    refine accounts_set s _ k .select (.selected job) accounts running rfl ⟨rfl, rfl⟩
      (fun _ => rfl) ?_
    intro other
    simp only [State.goto, handRecheck, queued, List.count_cons, List.count_nil]
    omega
  | beginNext job rest queued =>
    refine accounts_set s _ k .tryRecheck (.recheck job false) accounts running rfl ⟨rfl, rfl⟩
      (fun _ => rfl) ?_
    intro other
    simp only [State.beginRecheck, handRecheck, queued, List.count_cons, List.count_nil]
    omega
  | beginLast job rest queued =>
    refine accounts_set s _ k .recheckOnly (.recheck job true) accounts running rfl ⟨rfl, rfl⟩
      (fun _ => rfl) ?_
    intro other
    simp only [State.beginRecheck, handRecheck, queued, List.count_cons, List.count_nil]
    omega
  | beginSelected job none =>
    exact accounts_set s _ k (.selected job) (.recheck job false) accounts running rfl ⟨rfl, rfl⟩
      (fun _ => rfl) (fun _ => rfl)
  | verified job next =>
    cases next with
    | loop =>
      refine accounts_set s _ k (.verify job .loop) .leechFirst accounts running rfl ⟨rfl, rfl⟩ ?_
        (fun _ => rfl)
      intro other
      simp only [State.verify, State.goto, hand, List.count_append, List.count_nil]
      omega
    | recheck again =>
      refine accounts_set s _ k (.verify job (.recheck again)) (.recheck again false) accounts running
        rfl ⟨rfl, rfl⟩ ?_ (fun _ => rfl)
      intro other
      simp only [State.verify, State.beginRecheck, hand, List.count_append, List.count_nil]
      omega
    | leechOnly =>
      refine accounts_set s _ k (.verify job .leechOnly) .leechOnly accounts running rfl ⟨rfl, rfl⟩ ?_
        (fun _ => rfl)
      intro other
      simp only [State.verify, State.goto, hand, List.count_append, List.count_nil]
      omega
  | checked job leechClosed =>
    refine accounts_set s _ k (.recheck job leechClosed)
      (if leechClosed then .recheckOnly else .leechFirst) accounts running rfl ⟨rfl, rfl⟩ ?_ ?_
    · intro other
      cases leechClosed <;> rfl
    · intro other
      cases leechClosed with
      | _ =>
        simp only [State.recheckDone, State.goto, handRecheck, List.count_append, if_true,
          Bool.false_eq_true, if_false, List.count_nil]
        omega

theorem step_accounts (s : State) (event : Event) (s' : State) (accounts : Accounts s)
    (taken : step s event = some s') : Accounts s' := by
  cases event with
  | submit job =>
    obtain ⟨-, rfl⟩ := step_submit s s' job taken
    refine ⟨?_, accounts.recheck⟩
    intro other
    simp only [List.count_append, accounts.leech other]
    omega
  | submitRecheck job =>
    obtain ⟨-, rfl⟩ := step_submitRecheck s s' job taken
    refine ⟨accounts.leech, ?_⟩
    intro other
    simp only [List.count_append, accounts.recheck other]
    omega
  | dropLeech =>
    cases taken
    exact ⟨accounts.leech, accounts.recheck⟩
  | dropRecheck =>
    cases taken
    exact ⟨accounts.leech, accounts.recheck⟩
  | run k leech =>
    obtain ⟨before, running, moves⟩ := step_run s s' k leech taken
    exact moves_accounts s s' k before accounts running moves

/-- A worker's move replaces its own place. -/
theorem moves_workers (s s' : State) (k : Nat) (before : Point) (moves : Moves s k before s') :
    ∃ after, s'.workers = s.workers.set k after := by
  cases moves with
  | verified job next =>
    cases next with
    | _ => exact ⟨_, rfl⟩
  | _ => exact ⟨_, rfl⟩

/-- The number of workers stays. -/
theorem step_workers (s : State) (event : Event) (s' : State) (taken : step s event = some s') :
    s'.workers.length = s.workers.length := by
  cases event with
  | submit job =>
    obtain ⟨-, rfl⟩ := step_submit s s' job taken
    rfl
  | submitRecheck job =>
    obtain ⟨-, rfl⟩ := step_submitRecheck s s' job taken
    rfl
  | dropLeech =>
    cases taken
    rfl
  | dropRecheck =>
    cases taken
    rfl
  | run k leech =>
    obtain ⟨before, -, moves⟩ := step_run s s' k leech taken
    obtain ⟨after, same⟩ := moves_workers s s' k before moves
    rw [same, List.length_set]

theorem exec_workers (n : Nat) (events : List Event) (s : State)
    (ran : exec step (spawnN n) events = some s) : s.workers.length = max n 1 := by
  apply exec_invariant_free step (fun s => s.workers.length = max n 1) _ (spawnN n) s events _ ran
  · intro s event s' before taken
    rw [step_workers s event s' taken, before]
  · simp [spawnN]

theorem spawnN_accounts (n : Nat) : Accounts (spawnN n) := by
  have idle : ∀ m : Nat, (List.replicate m Point.leechFirst).flatMap hand = [] ∧
      (List.replicate m Point.leechFirst).flatMap handRecheck = [] := by
    intro m
    constructor <;> simp [hand, handRecheck]
  constructor
  · intro job
    simp only [spawnN, (idle (max n 1)).1, List.count_nil]
  · intro job
    simp only [spawnN, (idle (max n 1)).2, List.count_nil]

/-! ### Rest -/

theorem takeLeech_queued (s : State) (k : Nat) (next : Next) (otherwise : Option State)
    (queued : s.leech ≠ []) : ∃ s', s.takeLeech k next otherwise = some s' := by
  rw [State.takeLeech]
  cases here : s.leech with
  | nil => exact absurd here queued
  | cons job rest => exact ⟨_, rfl⟩

theorem takeLeech_otherwise (s : State) (k : Nat) (next : Next) (otherwise : State) :
    ∃ s', s.takeLeech k next (some otherwise) = some s' := by
  rw [State.takeLeech]
  cases s.leech with
  | nil => exact ⟨otherwise, rfl⟩
  | cons job rest => exact ⟨_, rfl⟩

theorem tryRecheck_goes_on (s : State) (k : Nat) : ∃ s', s.tryRecheck k = some s' := by
  rw [State.tryRecheck]
  cases s.recheck with
  | nil => exact ⟨_, rfl⟩
  | cons job rest => exact ⟨_, rfl⟩

/-- A worker that has not returned has an enabled operation while any job is queued. -/
theorem work_enabled (s : State) (k : Nat) (point : Point) (stands : Stands s point)
    (queued : s.leech ≠ [] ∨ s.recheck ≠ []) (running : point ≠ .returned) :
    ∃ leech s', s.work k leech point = some s' := by
  cases point with
  | leechFirst => exact ⟨true, takeLeech_otherwise s k _ _⟩
  | tryRecheck => exact ⟨true, tryRecheck_goes_on s k⟩
  | recvLeech => exact ⟨true, takeLeech_queued s k _ _ (queued.resolve_right (not_not.2 stands.2))⟩
  | select =>
    by_cases none : s.leech = []
    · have waiting := queued.resolve_left (not_not.2 none)
      refine ⟨false, ?_⟩
      change ∃ s', s.select k false = some s'
      rw [State.select, if_neg Bool.false_ne_true]
      cases here : s.recheck with
      | nil => exact absurd here waiting
      | cons job rest => exact ⟨_, rfl⟩
    · refine ⟨true, ?_⟩
      change ∃ s', s.select k true = some s'
      rw [State.select, if_pos rfl]
      exact takeLeech_queued s k _ _ none
  | selected job => exact ⟨true, takeLeech_otherwise s k _ _⟩
  | verify _ _ | recheck _ _ => exact ⟨true, _, rfl⟩
  | recheckOnly =>
    have waiting : s.recheck ≠ [] := queued.resolve_left (not_not.2 stands.2)
    refine ⟨true, ?_⟩
    change ∃ s', s.recheckOnly k = some s'
    rw [State.recheckOnly]
    cases here : s.recheck with
    | nil => exact absurd here waiting
    | cons job rest => exact ⟨_, rfl⟩
  | leechOnly => exact ⟨true, takeLeech_queued s k _ _ (queued.resolve_right (not_not.2 stands.2))⟩
  | returned => exact absurd rfl running

theorem run_enabled (s : State) (all : AllStand s) (queued : s.leech ≠ [] ∨ s.recheck ≠ []) (k : Nat)
    (inside : k < s.workers.length) : ∃ leech s', step s (.run k leech) = some s' := by
  have running := List.getElem?_eq_getElem inside
  have stands := all _ (List.getElem_mem inside)
  have busy : s.workers[k] ≠ .returned := by
    intro returned
    rw [returned] at stands
    rcases queued with waiting | waiting
    · exact waiting stands.1.2
    · exact waiting stands.2.2
  obtain ⟨leech, s', worked⟩ := work_enabled s k _ stands queued busy
  exact ⟨leech, s', by rw [step, running]; exact worked⟩

/-- Every worker blocks or has returned. -/
def AtRest (s : State) : Prop := ∀ k leech, step s (.run k leech) = none

theorem not_some (result : Option State) (none : result = .none) (found : ∃ s', result = some s') :
    False := by
  obtain ⟨s', same⟩ := found
  rw [none] at same
  cases same

/-- A blocked worker holds no job; once both sides are closed it has returned. -/
theorem rest_point (s : State) (k : Nat) (point : Point) (none : s.leech = [] ∧ s.recheck = [])
    (rests : ∀ leech, s.work k leech point = .none) :
    hand point = [] ∧ handRecheck point = [] ∧
      (s.leechOpen = false → s.recheckOpen = false → point = .returned) := by
  cases point with
  | leechFirst => exact (not_some _ (rests true) (takeLeech_otherwise s k _ _)).elim
  | tryRecheck => exact (not_some _ (rests true) (tryRecheck_goes_on s k)).elim
  | selected job => exact (not_some _ (rests true) (takeLeech_otherwise s k _ _)).elim
  | verify _ _ | recheck _ _ => cases rests true
  | returned => exact ⟨rfl, rfl, fun _ _ => rfl⟩
  | recvLeech =>
    refine ⟨rfl, rfl, ?_⟩
    intro closed _
    have blocked : s.recvLeech k = .none := rests true
    rw [State.recvLeech, State.takeLeech, none.1, closed] at blocked
    cases blocked
  | leechOnly =>
    refine ⟨rfl, rfl, ?_⟩
    intro closed _
    have blocked : s.leechOnly k = .none := rests true
    rw [State.leechOnly, State.takeLeech, none.1, closed] at blocked
    cases blocked
  | recheckOnly =>
    refine ⟨rfl, rfl, ?_⟩
    intro _ closed
    have blocked : s.recheckOnly k = .none := rests true
    rw [State.recheckOnly, none.2, closed] at blocked
    cases blocked
  | select =>
    refine ⟨rfl, rfl, ?_⟩
    intro closed _
    have blocked : s.select k true = .none := rests true
    rw [State.select, if_pos rfl, State.takeLeech, none.1, closed] at blocked
    cases blocked

/-- How many operations the workers can still do before they rest. -/
def cost : Point → Nat
  | .leechFirst => 4
  | .tryRecheck => 3
  | .select => 2
  | .recvLeech => 1
  | .selected _ => 6
  | .verify _ .loop => 5
  | .verify _ (.recheck _) => 6
  | .verify _ .leechOnly => 2
  | .recheck _ false => 5
  | .recheck _ true => 2
  | .recheckOnly => 1
  | .leechOnly => 1
  | .returned => 0

def State.remaining (s : State) : Nat :=
  5 * s.leech.length + 5 * s.recheck.length + (s.workers.map cost).sum

theorem remaining_set (s s' : State) (k : Nat) (before after : Point)
    (running : s.workers[k]? = some before) (workers : s'.workers = s.workers.set k after)
    (paid : 5 * s'.leech.length + 5 * s'.recheck.length + cost after <
      5 * s.leech.length + 5 * s.recheck.length + cost before) : s'.remaining < s.remaining := by
  have moved := sum_map_set s.workers cost k before after running
  rw [State.remaining, State.remaining, workers]
  omega

theorem moves_remaining (s s' : State) (k : Nat) (before : Point)
    (running : s.workers[k]? = some before) (moves : Moves s k before s') :
    s'.remaining < s.remaining := by
  cases moves with
  | take _ job rest next takes queued =>
    apply remaining_set s _ k before (.verify job next) running rfl
    rw [queued]
    cases takes with
    | _ =>
      simp only [State.goto, cost, List.length_cons]
      omega
  | goes _ after goes =>
    apply remaining_set s _ k before after running rfl
    cases goes with
    | _ => simp [State.goto, cost]
  | pick job rest queued =>
    apply remaining_set s _ k .select (.selected job) running rfl
    simp only [State.goto, cost, queued, List.length_cons]
    omega
  | beginNext job rest queued =>
    apply remaining_set s _ k .tryRecheck (.recheck job false) running rfl
    simp only [State.beginRecheck, cost, queued, List.length_cons]
    omega
  | beginLast job rest queued =>
    apply remaining_set s _ k .recheckOnly (.recheck job true) running rfl
    simp only [State.beginRecheck, cost, queued, List.length_cons]
    omega
  | beginSelected job none =>
    apply remaining_set s _ k (.selected job) (.recheck job false) running rfl
    simp [State.beginRecheck, cost]
  | verified job next =>
    cases next with
    | loop =>
      apply remaining_set s _ k (.verify job .loop) .leechFirst running rfl
      simp [State.verify, State.goto, cost]
    | leechOnly =>
      apply remaining_set s _ k (.verify job .leechOnly) .leechOnly running rfl
      simp [State.verify, State.goto, cost]
    | recheck again =>
      apply remaining_set s _ k (.verify job (.recheck again)) (.recheck again false) running rfl
      simp [State.verify, State.beginRecheck, cost]
  | checked job leechClosed =>
    cases leechClosed with
    | true =>
      apply remaining_set s _ k (.recheck job true) .recheckOnly running rfl
      simp [State.recheckDone, State.goto, cost]
    | false =>
      apply remaining_set s _ k (.recheck job false) .leechFirst running rfl
      simp [State.recheckDone, State.goto, cost]

/-- The workers alone rest after a bounded number of operations. -/
theorem exec_remaining (events : List Event) (s s' : State)
    (alone : ∀ event ∈ events, ∃ k leech, event = .run k leech)
    (ran : exec step s events = some s') : events.length + s'.remaining ≤ s.remaining := by
  induction events generalizing s with
  | nil =>
    cases ran
    exact Nat.le_of_eq (Nat.zero_add _)
  | cons event rest ih =>
    obtain ⟨next, taken, later⟩ := (exec_cons step s s' event rest).1 ran
    obtain ⟨k, leech, rfl⟩ := alone event List.mem_cons_self
    obtain ⟨before, running, moves⟩ := step_run s next k leech taken
    have less := moves_remaining s next k before running moves
    have tail := ih next (fun event member => alone event (List.mem_cons_of_mem _ member)) later
    rw [List.length_cons]
    omega

theorem rest_done (s : State) (all : AllStand s) (accounts : Accounts s) (manned : 0 < s.workers.length)
    (rests : AtRest s) :
    s.verified.Perm s.accepted ∧ s.checked.Perm s.acceptedRechecks ∧
      (s.leechOpen = false → s.recheckOpen = false → ∀ point ∈ s.workers, point = .returned) := by
  have none : s.leech = [] ∧ s.recheck = [] := by
    by_contra queued
    rw [not_and_or] at queued
    obtain ⟨leech, s', taken⟩ := run_enabled s all queued 0 manned
    rw [rests 0 leech] at taken
    cases taken
  have idle : ∀ point ∈ s.workers, hand point = [] ∧ handRecheck point = [] ∧
      (s.leechOpen = false → s.recheckOpen = false → point = .returned) := by
    intro point member
    obtain ⟨k, inside, rfl⟩ := List.getElem_of_mem member
    apply rest_point s k _ none
    intro leech
    have blocked := rests k leech
    rw [step, List.getElem?_eq_getElem inside] at blocked
    exact blocked
  have hands := List.flatMap_eq_nil_iff.2 (fun point member => (idle point member).1)
  have rechecks := List.flatMap_eq_nil_iff.2 (fun point member => (idle point member).2.1)
  refine ⟨?_, ?_, fun first second point member => (idle point member).2.2 first second⟩
  · rw [List.perm_iff_count]
    intro job
    rw [accounts.leech job, hands, none.1]
    simp
  · rw [List.perm_iff_count]
    intro job
    rw [accounts.recheck job, rechecks, none.2]
    simp

/-- No job is lost: the workers come to rest by themselves, every accepted job has then been handled
once, and after both sides are closed every worker has returned. -/
theorem no_job_lost (n : Nat) (events alone : List Event) (s s' : State)
    (ran : exec step (spawnN n) events = some s)
    (workers : ∀ event ∈ alone, ∃ k leech, event = .run k leech)
    (went : exec step s alone = some s') :
    alone.length ≤ s.remaining ∧
    (AtRest s' → s'.verified.Perm s'.accepted ∧ s'.checked.Perm s'.acceptedRechecks ∧
      (s'.leechOpen = false → s'.recheckOpen = false → ∀ point ∈ s'.workers, point = .returned)) := by
  have whole : exec step (spawnN n) (events ++ alone) = some s' := by
    rw [exec_append, ran]
    exact went
  have all := exec_invariant_free step AllStand step_stand (spawnN n) s' _ (spawnN_stand n) whole
  have accounts := exec_invariant_free step Accounts step_accounts (spawnN n) s' _
    (spawnN_accounts n) whole
  have manned : 0 < s'.workers.length := by
    rw [exec_workers n _ s' whole]
    omega
  have bound := exec_remaining alone s s' workers went
  exact ⟨by omega, rest_done s' all accounts manned⟩

def emptyLayout : StorageLayout where
  dataRoot := []
  pieceLength := 1
  pieceCount := 1
  totalSize := 1
  files := []

def oneJob : HashJob where
  index := 0
  plen := 1
  data := [7]
  expected := []
  layout := emptyLayout
  reply := 0

def oneRecheck : RecheckJob where
  index := 0
  expected := []
  layout := emptyLayout
  reply := 1

/-- Two workers, a downloaded piece and a recheck; then both sides close. -/
def closedRun : List Event :=
  [.submit oneJob, .submitRecheck oneRecheck, .run 0 true, .run 1 true, .run 1 true, .dropLeech,
    .dropRecheck]

def lastOperations : List Event :=
  [.run 0 true, .run 1 true, .run 0 true, .run 0 true, .run 0 true, .run 1 true, .run 1 true, .run 1 true]

theorem closedRun_loses_none : ∃ s s', exec step (spawnN 2) closedRun = some s ∧
    exec step s lastOperations = some s' ∧ lastOperations.length ≤ s.remaining ∧
    s'.verified.Perm s'.accepted ∧ s'.checked.Perm s'.acceptedRechecks ∧
    (∀ point ∈ s'.workers, point = .returned) := by
  have alone : ∀ event ∈ lastOperations, ∃ k leech, event = Event.run k leech := by
    simp [lastOperations]
  have result := no_job_lost 2 closedRun lastOperations _ _ rfl alone rfl
  refine ⟨_, _, rfl, rfl, result.1, ?_⟩
  have done := result.2 (by
    intro k leech
    rcases k with _ | _ | k
    · rfl
    · rfl
    · rfl)
  exact ⟨done.1, done.2.1, done.2.2 rfl rfl⟩

/-! ### Downloaded pieces first -/

/-- Whether a worker may begin a recheck before it looks at the downloaded pieces again. -/
def committed : Point → Nat
  | .tryRecheck => 1
  | .select => 1
  | .selected _ => 1
  | .verify _ (.recheck _) => 1
  | _ => 0

def State.rechecks (s : State) : Nat := s.begun.length + (s.workers.map committed).sum

theorem committed_le (points : List Point) : (points.map committed).sum ≤ points.length := by
  induction points with
  | nil => exact Nat.le_refl 0
  | cons point rest ih =>
    have one : committed point ≤ 1 := by
      cases point with
      | verify job next =>
        cases next with
        | _ => simp [committed]
      | _ => simp [committed]
    rw [List.map_cons, List.sum_cons, List.length_cons]
    omega

theorem rechecks_set (s s' : State) (k : Nat) (before after : Point)
    (running : s.workers[k]? = some before) (workers : s'.workers = s.workers.set k after)
    (paid : s'.begun.length + committed after ≤ s.begun.length + committed before) :
    s'.rechecks ≤ s.rechecks := by
  have moved := sum_map_set s.workers committed k before after running
  rw [State.rechecks, State.rechecks, workers]
  omega

/-- While a downloaded piece waits, a worker begins a recheck only where it was committed to one. -/
theorem moves_rechecks (s s' : State) (k : Nat) (before : Point) (all : AllStand s)
    (waiting : s.leech ≠ []) (running : s.workers[k]? = some before) (moves : Moves s k before s') :
    s'.rechecks ≤ s.rechecks := by
  have here := all before (mem_of_getElem? s.workers k before running)
  cases moves with
  | take _ job rest next takes queued =>
    apply rechecks_set s _ k before (.verify job next) running rfl
    cases takes with
    | _ => simp [State.goto, committed]
  | goes _ after goes =>
    apply rechecks_set s _ k before after running rfl
    cases goes with
    | empty none => exact absurd none waiting
    | _ => simp [State.goto, committed]
  | pick job rest queued =>
    exact rechecks_set s _ k .select (.selected job) running rfl (Nat.le_refl _)
  | beginNext job rest queued =>
    apply rechecks_set s _ k .tryRecheck (.recheck job false) running rfl
    simp [State.beginRecheck, committed]
  | beginLast job rest queued => exact absurd here.2 waiting
  | beginSelected job none => exact absurd none waiting
  | verified job next =>
    cases next with
    | loop => exact rechecks_set s _ k (.verify job .loop) .leechFirst running rfl (Nat.le_refl _)
    | leechOnly =>
      exact rechecks_set s _ k (.verify job .leechOnly) .leechOnly running rfl (Nat.le_refl _)
    | recheck again =>
      apply rechecks_set s _ k (.verify job (.recheck again)) (.recheck again false) running rfl
      simp [State.verify, State.beginRecheck, committed]
  | checked job leechClosed =>
    cases leechClosed with
    | true => exact absurd here.2 waiting
    | false =>
      exact rechecks_set s _ k (.recheck job false) .leechFirst running rfl (Nat.le_refl _)

theorem step_rechecks (s : State) (event : Event) (s' : State) (all : AllStand s)
    (waiting : s.leech ≠ []) (taken : step s event = some s') : s'.rechecks ≤ s.rechecks := by
  cases event with
  | submit job =>
    obtain ⟨-, rfl⟩ := step_submit s s' job taken
    exact Nat.le_refl _
  | submitRecheck job =>
    obtain ⟨-, rfl⟩ := step_submitRecheck s s' job taken
    exact Nat.le_refl _
  | dropLeech =>
    cases taken
    exact Nat.le_refl _
  | dropRecheck =>
    cases taken
    exact Nat.le_refl _
  | run k leech =>
    obtain ⟨before, running, moves⟩ := step_run s s' k leech taken
    exact moves_rechecks s s' k before all waiting running moves

/-- However long downloaded pieces keep waiting, each worker begins at most one recheck meanwhile. -/
theorem leech_first (n : Nat) (events busy : List Event) (s s' : State)
    (ran : exec step (spawnN n) events = some s)
    (waiting : Guarded step (fun s _ => s.leech ≠ []) s busy)
    (went : exec step s busy = some s') : s'.begun.length ≤ s.begun.length + max n 1 := by
  have all := exec_invariant_free step AllStand step_stand (spawnN n) s events (spawnN_stand n) ran
  have kept := exec_invariant step (fun s _ => s.leech ≠ [])
    (fun now => AllStand now ∧ now.rechecks ≤ s.rechecks)
    (fun now event next held waits taken => ⟨step_stand now event next held.1 taken,
      (step_rechecks now event next held.1 waits taken).trans held.2⟩)
    s s' busy ⟨all, Nat.le_refl _⟩ waiting went
  calc s'.begun.length
    _ ≤ s'.rechecks := Nat.le_add_right _ _
    _ ≤ s.rechecks := kept.2
    _ ≤ s.begun.length + s.workers.length := Nat.add_le_add_left (committed_le s.workers) _
    _ = s.begun.length + max n 1 := by rw [exec_workers n events s ran]

/-- A piece comes between the two looks of a worker: the recheck begins although the piece waits. -/
def lateRun : List Event := [.submitRecheck oneRecheck, .run 0 true, .submit oneJob]

theorem lateRun_begins_one : ∃ s s', exec step (spawnN 1) lateRun = some s ∧
    exec step s [.run 0 true, .run 0 true] = some s' ∧ s.begun = [] ∧ s'.begun = [oneRecheck] ∧
    s'.begun.length ≤ s.begun.length + 1 := by
  refine ⟨_, _, rfl, rfl, rfl, rfl, ?_⟩
  apply leech_first 1 lateRun [.run 0 true, .run 0 true] _ _ rfl _ rfl
  apply guarded_mono step (fun s _ => (!s.leech.isEmpty) = true) _ _ _ _
    (guarded_of_guardedB step (fun s _ => !s.leech.isEmpty) _ _ rfl)
  intro s event waits none
  rw [none] at waits
  cases waits

end Seedchamp.Runtime.HashPool
