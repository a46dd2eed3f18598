import Seedchamp.Foundation.KeyedMap
import Seedchamp.Foundation.Tasks
import Seedchamp.Foundation.TransitionSystem
import Seedchamp.Hot.Torrent
import Mathlib.Data.List.Sort

/-!
The announce schedule: one entry for each torrent, kept by starts, stops, ticks and the announces
themselves. Every section under one lock is one step; an announce is a task from the moment its
entry is claimed.
-/

namespace Seedchamp.Session.Announces
open Foundation.KeyedRows Foundation.KeyedMap Hot.Torrent

/-! ### An entry of the schedule -/

/-- Times are in seconds. -/
structure TorrentAnnounce where
  nextDue : Nat
  intervalSecs : Nat
  minIntervalSecs : Nat
  lastSuccess : Option Nat
  sentStarted : Bool
  sentCompleted : Bool
  pendingCompleted : Bool
  inFlight : Bool
  deriving DecidableEq, Repr

def ANNOUNCE_MIN_SECS : Nat := 60
def ANNOUNCE_DEFAULT_SECS : Nat := 1800
def ANNOUNCE_MAX_SECS : Nat := 6 * 3600
def ANNOUNCE_MIN_INTERVAL_FLOOR_SECS : Nat := 300
def ANNOUNCE_DEFAULT_MIN_INTERVAL_SECS : Nat := 600
def ANNOUNCE_MIN_INTERVAL_CEIL_SECS : Nat := 4 * 3600

def clampAnnounceInterval (secs : Nat) : Nat :=
  if secs = 0 then ANNOUNCE_DEFAULT_SECS else min (max secs ANNOUNCE_MIN_SECS) ANNOUNCE_MAX_SECS

def clampMinInterval (secs : Nat) : Nat :=
  if secs = 0 then ANNOUNCE_DEFAULT_MIN_INTERVAL_SECS
  else min (max secs ANNOUNCE_MIN_INTERVAL_FLOOR_SECS) ANNOUNCE_MIN_INTERVAL_CEIL_SECS

/-- The events `announce_and_connect` sends; an announce can also carry none. -/
inductive AnnounceEvent where
  | started
  | completed
  deriving DecidableEq, Repr

namespace TorrentAnnounce

def fresh (now : Nat) : TorrentAnnounce where
  nextDue := now
  intervalSecs := ANNOUNCE_DEFAULT_SECS
  minIntervalSecs := ANNOUNCE_DEFAULT_MIN_INTERVAL_SECS
  lastSuccess := none
  sentStarted := false
  sentCompleted := false
  pendingCompleted := false
  inFlight := false

def owesCompleted (e : TorrentAnnounce) : Bool :=
  e.pendingCompleted && e.sentStarted && !e.sentCompleted

/-- The event of the next announce: started, then completed, then none. -/
def nextEvent (e : TorrentAnnounce) : Option AnnounceEvent :=
  if e.owesCompleted then some .completed
  else if !e.sentStarted then some .started
  else none

/-- The section that claims the slot and picks the event. A completed event counts as sent from
here on, so that no second one is sent meanwhile. -/
def pick (e : TorrentAnnounce) : TorrentAnnounce :=
  if e.owesCompleted then
    { e with inFlight := true, sentCompleted := true, pendingCompleted := false }
  else { e with inFlight := true }

def noteSuccess (minInterval now : Nat) (e : TorrentAnnounce) : TorrentAnnounce :=
  { e with minIntervalSecs := minInterval, lastSuccess := some now }

/-- What a success records about its event. -/
def sent (event : Option AnnounceEvent) (e : TorrentAnnounce) : TorrentAnnounce :=
  match event with
  | some .started => { e with sentStarted := true }
  | some .completed => { e with sentCompleted := true, pendingCompleted := false }
  | none => e

/-- A completed event that did not land is owed again. -/
def unsent (event : Option AnnounceEvent) (e : TorrentAnnounce) : TorrentAnnounce :=
  if event = some .completed then { e with sentCompleted := false, pendingCompleted := true } else e

/-- The section that ends an announce and schedules the next. -/
def finish (event : Option AnnounceEvent) (anyOk : Bool) (interval now : Nat) (e : TorrentAnnounce) :
    TorrentAnnounce :=
  let e := { e with inFlight := false }
  if anyOk then
    let e := { e.sent event with intervalSecs := interval }
    { e with nextDue := if e.owesCompleted then now else now + interval }
  else { e.unsent event with nextDue := now + 300 }

/-- Whether the completed event is to follow at once. -/
def followsUp (event : Option AnnounceEvent) (anyOk : Bool) (e : TorrentAnnounce) : Bool :=
  anyOk && (e.sent event).owesCompleted

/-- The section of `maybe_request_completed_announce`. -/
def requestCompleted (now : Nat) (e : TorrentAnnounce) : TorrentAnnounce :=
  if e.sentCompleted || e.pendingCompleted then e
  else
    { e with
      pendingCompleted := true
      nextDue := if e.inFlight then e.nextDue else now }

/-- Whether that section asks for a kick. -/
def kicks (e : TorrentAnnounce) : Bool :=
  !(e.sentCompleted || e.pendingCompleted) && !e.inFlight

/-- The section of `maybe_starve_announce`: never faster than the tracker's minimum. -/
def starve (now : Nat) (e : TorrentAnnounce) : TorrentAnnounce :=
  let minInterval := max e.minIntervalSecs ANNOUNCE_DEFAULT_MIN_INTERVAL_SECS
  if e.inFlight || e.lastSuccess.any (fun last => now < last + minInterval) then e
  else { e with nextDue := min e.nextDue now }

/-- The section of `batch_announce_hot`. -/
def stagger (due : Nat) (e : TorrentAnnounce) : TorrentAnnounce :=
  if e.inFlight then e else { e with nextDue := due }

end TorrentAnnounce

abbrev Schedule := Map TorrentAnnounce

/-- A flag of a torrent's entry; clear where there is no entry. -/
def flag (field : TorrentAnnounce → Bool) (e : Option TorrentAnnounce) : Bool := (e.map field).getD false

structure AnnounceBaseline where
  incompleteAtStart : Bool
  deriving DecidableEq, Repr

/-! ### Due announces -/

structure Config where
  announce : Bool
  maxInflightAnnounces : Nat

def inflightCount (sched : Schedule) : Nat := sched.list.countP (fun entry => entry.2.inFlight)

def isDue (sched : Schedule) (now id : Nat) : Bool :=
  match get? sched id with
  | some e => !e.inFlight && decide (e.nextDue ≤ now)
  | none => true

def dueTime (sched : Schedule) (now id : Nat) : Nat :=
  ((get? sched id).map TorrentAnnounce.nextDue).getD now

/-- The due torrents, earliest first, as many as the budget allows. -/
def dueIds (cfg : Config) (sched : Schedule) (now : Nat) (hotIds : List Nat) : List Nat :=
  let ids := (hotIds.filter (isDue sched now)).insertionSort
    (fun a b => dueTime sched now a ≤ dueTime sched now b)
  if cfg.maxInflightAnnounces = 0 then ids
  else ids.take (cfg.maxInflightAnnounces - inflightCount sched)

/-! ### Runs -/

/-- One call or background task, by what it does next. -/
inductive Task where
  /-- A start has loaded the torrent; `user` tells `start_torrent` from `sync_want_start`. -/
  | publishing (torrent : HotTorrent) (user : Bool)
  /-- `reset_announce_baseline` is to read whether the torrent is complete. -/
  | reading (id : Nat) (user : Bool)
  | baselining (id : Nat) (incomplete : Bool) (begun : Nat) (user : Bool)
  | scheduling (id : Nat) (incomplete : Bool) (begun : Nat) (user : Bool)
  /-- `kick_announce_now` is to look the torrent up. -/
  | kicking (id : Nat)
  | claiming (id : Nat)
  /-- `poll_announce_due` has the ids of the hot torrents. -/
  | polling (hotIds : List Nat) (now : Nat)
  /-- The entry is claimed and `announce_and_connect` is on its way to the tracker runtime. -/
  | spawned (id issued : Nat)
  | found (id issued : Nat)
  | announcing (id issued : Nat) (event : Option AnnounceEvent)
  | answered (id issued : Nat) (event : Option AnnounceEvent) (interval minInterval : Nat)
  | landed (id issued : Nat) (event : Option AnnounceEvent) (anyOk : Bool) (interval : Nat)
  /-- `maybe_request_completed_announce` has read an incomplete baseline. -/
  | requesting (id : Nat)
  | requestingComplete (id : Nat)
  /-- The stopped event of `stop_torrent`, announced beside the schedule. -/
  | stoppedAnnounce (id : Nat)
  | removing (id : Nat)
  | unscheduling (id : Nat)
  | unbaselining (id : Nat)
  | returned
  deriving DecidableEq

/-- History of the current start of a torrent: how many starts it is, whether the torrent was
incomplete when it began, and the events of its successful announces. -/
structure Start where
  number : Nat
  incomplete : Bool
  announced : List (Option AnnounceEvent)
  deriving DecidableEq

structure State where
  now : Nat
  shut : Bool
  registry : Map HotTorrent
  sched : Schedule
  baseline : Map AnnounceBaseline
  staggerApplied : Bool
  tasks : List Task
  start : Nat → Start

def initial : State where
  now := 0
  shut := false
  registry := Rows.empty
  sched := Rows.empty
  baseline := Rows.empty
  staggerApplied := false
  tasks := []
  start := fun _ => ⟨0, false, []⟩

inductive Event where
  | wait (seconds : Nat)
  | shutdown
  | markHave (id index : Nat)
  | start (id : Nat) (loaded : HotTorrent)
  | activate (id : Nat) (loaded : HotTorrent)
  | publish (k : Nat)
  | readBaseline (k : Nat)
  | putBaseline (k : Nat)
  | schedule (k : Nat)
  | check (k : Nat)
  | claim (k : Nat)
  | poll (hotIds : List Nat)
  | claimDue (k : Nat)
  | lookup (k : Nat)
  | pick (k : Nat)
  | answer (k : Nat) (reply : Option (Nat × Nat))
  | land (k : Nat)
  | finish (k : Nat)
  | request (id : Nat)
  | requestHot (k : Nat)
  | requestPend (k : Nat)
  | starve (id : Nat)
  | stagger (dues : List (Nat × Nat))
  | stop (id : Nat)
  | answerStopped (k : Nat)
  | remove (k : Nat)
  | unschedule (k : Nat)
  | unbaseline (k : Nat)

def State.move (s : State) (k : Nat) (next : Task) : State :=
  { s with tasks := s.tasks.set k next }

/-- The torrent begins another start. -/
def State.begin (s : State) (id : Nat) (incomplete : Bool) : Nat → Start :=
  Function.update s.start id ⟨(s.start id).number + 1, incomplete, []⟩

/-- Claim a torrent's entry and spawn its announce, unless it is in flight. The claim stands where
the pool is shut and takes no task. -/
def claimNow (now : Nat) (s : State) (id : Nat) : State :=
  if flag TorrentAnnounce.inFlight (get? s.sched id) then s
  else
    { s with
      sched := orInsertWith s.sched id (.fresh now) (fun e => { e with inFlight := true })
      tasks := s.tasks ++ (if s.shut then [] else [.spawned id (s.start id).number]) }

/-- The answer of the trackers: `announce_for` gives the intervals of the first success. -/
def answered (cfg : Config) (s : State) (k id issued : Nat) (event : Option AnnounceEvent) :
    Option (Nat × Nat) → State
  | some (interval, minInterval) =>
    if cfg.announce then
      { s with
        tasks := s.tasks.set k (.answered id issued event (clampAnnounceInterval interval)
          (clampMinInterval minInterval))
        start := Function.update s.start id
          { s.start id with announced := (s.start id).announced ++ [event] } }
    else s.move k (.landed id issued event true ANNOUNCE_DEFAULT_SECS)
  | none => s.move k (.landed id issued event (!cfg.announce) ANNOUNCE_DEFAULT_SECS)

/-- One section of the task at a position. -/
def advance (cfg : Config) (s : State) (k : Nat) : Task → Event → Option State
  | .publishing torrent user, .publish _ =>
    some (if (get? s.registry torrent.id).isSome then s.move k (.reading torrent.id user)
      else
        { s with
          registry := insert s.registry torrent.id torrent
          tasks := s.tasks.set k (.reading torrent.id user)
          start := s.begin torrent.id (!torrent.isComplete) })
  | .reading id user, .readBaseline _ =>
    let incomplete := ((get? s.registry id).map (fun t => !t.isComplete)).getD false
    some (s.move k (.baselining id incomplete (s.start id).number user))
  | .baselining id incomplete begun user, .putBaseline _ =>
    some { s with
      baseline := insert s.baseline id ⟨incomplete⟩
      tasks := s.tasks.set k (.scheduling id incomplete begun user) }
  | .scheduling id incomplete _ true, .schedule _ =>
    some { s with
      sched := insert s.sched id (.fresh s.now)
      tasks := s.tasks.set k (.kicking id)
      start := s.begin id incomplete }
  | .scheduling id _ _ false, .schedule _ =>
    let due := if s.staggerApplied then s.now else s.now + 24 * 3600
    some { s with
      sched := orInsertWith s.sched id (.fresh due) (fun e => e)
      tasks := s.tasks.set k .returned }
  | .kicking id, .check _ =>
    some (s.move k (if (get? s.registry id).isSome then .claiming id else .returned))
  | .claiming id, .claim _ => some (claimNow s.now (s.move k .returned) id)
  | .polling hotIds now, .claimDue _ =>
    some ((dueIds cfg s.sched now hotIds).foldl (claimNow now) (s.move k .returned))
  | .spawned id issued, .lookup _ =>
    -- a torrent that is not hot ends the task and leaves the entry claimed
    some (s.move k (if (get? s.registry id).isSome then .found id issued else .returned))
  | .found id issued, .pick _ =>
    let e := (get? s.sched id).getD (.fresh s.now)
    some { s with
      sched := orInsertWith s.sched id (.fresh s.now) TorrentAnnounce.pick
      tasks := s.tasks.set k (.announcing id issued e.nextEvent) }
  | .announcing id issued event, .answer _ reply => some (answered cfg s k id issued event reply)
  | .answered id issued event interval minInterval, .land _ =>
    some { s with
      sched := modify s.sched id (TorrentAnnounce.noteSuccess minInterval s.now)
      tasks := s.tasks.set k (.landed id issued event true interval) }
  | .landed id _ event anyOk interval, .finish _ =>
    let kick := flag (TorrentAnnounce.followsUp event anyOk) (get? s.sched id)
    some { s with
      sched := modify s.sched id (TorrentAnnounce.finish event anyOk interval s.now)
      tasks := s.tasks.set k (if kick then .kicking id else .returned) }
  | .requesting id, .requestHot _ =>
    let complete := ((get? s.registry id).map HotTorrent.isComplete).getD false
    some (s.move k (if complete then .requestingComplete id else .returned))
  | .requestingComplete id, .requestPend _ =>
    let kick := flag TorrentAnnounce.kicks (get? s.sched id)
    some { s with
      sched := modify s.sched id (TorrentAnnounce.requestCompleted s.now)
      tasks := s.tasks.set k (if kick then .kicking id else .returned) }
  | .stoppedAnnounce _, .answerStopped _ => some (s.move k .returned)
  | .removing id, .remove _ =>
    some { s with registry := erase s.registry id, tasks := s.tasks.set k (.unscheduling id) }
  | .unscheduling id, .unschedule _ =>
    some { s with sched := erase s.sched id, tasks := s.tasks.set k (.unbaselining id) }
  | .unbaselining id, .unbaseline _ =>
    some { s with baseline := erase s.baseline id, tasks := s.tasks.set k .returned }
  | _, _ => none

/-- The task an event moves. -/
def Event.position : Event → Option Nat
  | publish k | readBaseline k | putBaseline k | schedule k | check k | claim k | claimDue k | lookup k
  | pick k | answer k _ | land k | finish k | requestHot k | requestPend k | answerStopped k | remove k
  | unschedule k | unbaseline k => some k
  | _ => none

/-- An event that begins a task, or that comes from outside. -/
def arrive (cfg : Config) (s : State) : Event → Option State
  | .wait seconds => some { s with now := s.now + seconds }
  | .shutdown => some { s with shut := true }
  | .markHave id index =>
    some { s with registry := modify s.registry id (fun t => (t.markHave index).1) }
  | .start id loaded =>
    if (get? s.registry id).isSome then some { s with tasks := s.tasks ++ [.reading id true] }
    else if loaded.id = id then some { s with tasks := s.tasks ++ [.publishing loaded true] }
    else none
  | .activate id loaded =>
    if (get? s.registry id).isNone && loaded.id = id then
      some { s with tasks := s.tasks ++ [.publishing loaded false] }
    else none
  | .poll hotIds =>
    if hotIds.Perm (keys s.registry) then
      some { s with tasks := s.tasks ++ [.polling hotIds s.now] }
    else none
  | .request id =>
    if (get? s.baseline id).any AnnounceBaseline.incompleteAtStart then
      some { s with tasks := s.tasks ++ [.requesting id] }
    else none
  | .starve id => some { s with sched := modify s.sched id (TorrentAnnounce.starve s.now) }
  | .stagger dues =>
    some { s with
      sched := dues.foldl
        (fun sched due => orInsertWith sched due.1 (.fresh due.2) (TorrentAnnounce.stagger due.2)) s.sched
      staggerApplied := true }
  | .stop id =>
    let last := cfg.announce && (get? s.registry id).isSome && !s.shut
    some { s with
      tasks := s.tasks ++ (if last then [.stoppedAnnounce id] else []) ++ [.removing id] }
  | _ => none

def step (cfg : Config) (s : State) (event : Event) : Option State :=
  match event.position with
  | some k => (s.tasks[k]?).bind (fun task => advance cfg s k task event)
  | none => arrive cfg s event

/-- A call that has returned takes no further step. -/
theorem advance_returned (cfg : Config) (s : State) (k : Nat) (event : Event) :
    advance cfg s k .returned event = none := by
  simp only [advance]

end Seedchamp.Session.Announces
