import Seedchamp.Foundation.TransitionSystem
import Mathlib.Data.List.Infix
import Mathlib.Data.List.Basic

/-!
The torrent list of the terminal interface and the deletes it asks for. A list is read on a thread of
its own, so it may have been read before a delete that was confirmed by the time it arrives.
-/

namespace Seedchamp.Tui.DeleteFilter

/-! ### Tombstones -/

abbrev Text := List Char

def toAsciiLowercase (text : Text) : Text := text.map Char.toLower

/-- The columns of a list row that a filter or a delete looks at. -/
structure TorrentListRow where
  id : Nat
  infohashHex : Text
  name : Text
  wantStart : Bool
  deriving DecidableEq, Repr

/-- A tombstone: hidden from every list, or from the lists of this generation and before. -/
inductive Stamp where
  | hideFromAll
  | upTo (seq : Nat)
  deriving DecidableEq, Repr

def Stamp.hides : Stamp → Nat → Bool
  | .hideFromAll, _ => true
  | .upTo stamped, seq => seq ≤ stamped

/-- `sent` is the newest generation kicked. -/
structure DeleteTombstones where
  sent : Nat
  tomb : Nat → Option Stamp

namespace DeleteTombstones

def default : DeleteTombstones := ⟨0, fun _ => none⟩

def kicked (d : DeleteTombstones) (seq : Nat) : DeleteTombstones := { d with sent := max d.sent seq }

def optimisticRemove (d : DeleteTombstones) (id : Nat) : DeleteTombstones :=
  { d with tomb := Function.update d.tomb id (some .hideFromAll) }

def confirmed (d : DeleteTombstones) (id : Nat) : DeleteTombstones :=
  { d with tomb := Function.update d.tomb id (some (.upTo d.sent)) }

def failed (d : DeleteTombstones) (id : Nat) : DeleteTombstones :=
  { d with tomb := Function.update d.tomb id none }

def hidden (d : DeleteTombstones) (seq id : Nat) : Bool := (d.tomb id).any (fun t => t.hides seq)

/-- The rows that a list of this generation may show. -/
def retain (d : DeleteTombstones) (rows : List TorrentListRow) (seq : Nat) : List TorrentListRow :=
  rows.filter (fun row => !d.hidden seq row.id)

/-- The tombstones that this generation does not outdate. -/
def collect (d : DeleteTombstones) (seq : Nat) : DeleteTombstones :=
  { d with tomb := fun id => (d.tomb id).filter (fun t => t.hides seq) }

end DeleteTombstones

/-! ### The interface, the reader and the mutation worker -/

inductive DeleteKind where
  | softDelete
  | remove
  deriving DecidableEq, Repr

inductive EngineCommand where
  | listCatalog (filter : Text) (seq : Nat)
  | delete (kind : DeleteKind) (id : Nat)
  deriving DecidableEq, Repr

/-- The rows a list was read with. `stale` is history: the ids whose delete was committed since. -/
structure Reply where
  filter : Text
  rows : List TorrentListRow
  seq : Nat
  stale : List Nat
  deriving DecidableEq, Repr

inductive ControlEvent where
  | catalogList (reply : Reply)
  | catalogListFailed (filter : Text) (seq : Nat)
  | deleted (kind : DeleteKind) (id : Nat)
  | deleteFailed (kind : DeleteKind) (id : Nat)
  deriving DecidableEq, Repr

structure App where
  rows : List TorrentListRow
  filter : Text
  pendingGone : DeleteTombstones

/-- `commands` go to the control thread, which hands them on to `reads` and `jobs`; `reading` and
`outcome` are what the two workers have done and not posted yet. -/
structure World where
  catalog : List TorrentListRow
  app : App
  listSeq : Nat
  commands : List EngineCommand
  reads : List (Text × Nat)
  jobs : List (DeleteKind × Nat)
  reading : Option ControlEvent
  outcome : Option ControlEvent
  events : List ControlEvent

inductive Event where
  | kick
  | setFilter (filter : Text)
  /-- Ctrl-S on a row: the flag on the screen changes at once. -/
  | toggle (id : Nat)
  | delete (kind : DeleteKind) (id : Nat)
  /-- The control thread hands the next command to its worker. -/
  | forward
  /-- The reader takes a job and as many more as it finds, and reads the catalog for the last. -/
  | read (more : Nat) (ok : Bool)
  | postList
  /-- The mutation worker carries out the next delete. -/
  | mutate (ok : Bool)
  | postOutcome
  /-- Another writer changes the catalog: an add, a restore, a watch folder, another process. -/
  | change (catalog : List TorrentListRow)
  | deliver

/-- `list_torrents_filtered`; a row passes by its name, its infohash or its id. -/
def passes (filter : Text) (row : TorrentListRow) : Bool :=
  let wanted := toAsciiLowercase filter
  filter.isEmpty || decide (wanted <:+: toAsciiLowercase row.name) ||
    decide (wanted <:+: row.infohashHex) || (Nat.toDigits 10 row.id = wanted)

/-- What was read of a torrent before this moment is stale from here on. -/
def ControlEvent.outdate (id : Nat) : ControlEvent → ControlEvent
  | .catalogList reply => .catalogList { reply with stale := id :: reply.stale }
  | event => event

namespace World

def kick (w : World) : World :=
  { w with
    listSeq := w.listSeq + 1
    commands := w.commands ++ [.listCatalog w.app.filter (w.listSeq + 1)]
    app := { w.app with pendingGone := w.app.pendingGone.kicked (w.listSeq + 1) } }

def toggle (w : World) (id : Nat) : World :=
  { w with
    app := { w.app with
      rows := w.app.rows.map (fun row =>
        if row.id = id then { row with wantStart := !row.wantStart } else row) } }

/-- Ctrl-D or `:remove`; a torrent that the list shows as started is refused. -/
def delete (w : World) (kind : DeleteKind) (id : Nat) : World :=
  if w.app.rows.any (fun row => row.id = id && row.wantStart) then w
  else
    { w with
      commands := w.commands ++ [.delete kind id]
      app := { w.app with
        pendingGone := w.app.pendingGone.optimisticRemove id
        rows := w.app.rows.filter (fun row => row.id ≠ id) } }

def forward (w : World) : Option World :=
  match w.commands with
  | [] => none
  | .listCatalog filter seq :: rest =>
    some { w with commands := rest, reads := w.reads ++ [(filter, seq)] }
  | .delete kind id :: rest => some { w with commands := rest, jobs := w.jobs ++ [(kind, id)] }

/-- The job that stands for a whole queue prefix: the latest. -/
def latest (first : Text × Nat) (more : List (Text × Nat)) : Text × Nat := more.getLastD first

def read (w : World) (more : Nat) (ok : Bool) : Option World :=
  match w.reading, w.reads with
  | none, first :: rest =>
    let job := latest first (rest.take more)
    some { w with
      reads := rest.drop more
      reading := some (
        if ok then .catalogList ⟨job.1, w.catalog.filter (passes job.1), job.2, []⟩
        else .catalogListFailed job.1 job.2) }
  | _, _ => none

def postList (w : World) : Option World :=
  w.reading.map (fun event => { w with reading := none, events := w.events ++ [event] })

def mutate (w : World) (ok : Bool) : Option World :=
  match w.outcome, w.jobs with
  | none, (kind, id) :: rest =>
    some (
      if ok then
        { w with
          jobs := rest
          catalog := w.catalog.filter (fun row => row.id ≠ id)
          reading := w.reading.map (ControlEvent.outdate id)
          events := w.events.map (ControlEvent.outdate id)
          outcome := some (.deleted kind id) }
      else { w with jobs := rest, outcome := some (.deleteFailed kind id) })
  | _, _ => none

def postOutcome (w : World) : Option World :=
  w.outcome.map (fun event => { w with outcome := none, events := w.events ++ [event] })

/-- `apply_catalog_list`: a list of another filter only asks for a new one. -/
def applyCatalogList (w : World) (reply : Reply) : World :=
  if reply.filter ≠ w.app.filter then w.kick
  else
    { w with
      app := { w.app with
        rows := w.app.pendingGone.retain reply.rows reply.seq
        pendingGone := w.app.pendingGone.collect reply.seq } }

/-- One arm of `poll_control_events`. -/
def handle (w : World) : ControlEvent → World
  | .catalogList reply => w.applyCatalogList reply
  | .catalogListFailed filter _ => if filter = w.app.filter then w else w.kick
  | .deleted _ id =>
    { w with
      app := { w.app with
        pendingGone := w.app.pendingGone.confirmed id
        rows := w.app.rows.filter (fun row => row.id ≠ id) } }.kick
  | .deleteFailed _ id => { w with app := { w.app with pendingGone := w.app.pendingGone.failed id } }.kick

def deliver (w : World) : Option World :=
  match w.events with
  | [] => none
  | event :: rest => some ({ w with events := rest }.handle event)

end World

def step (w : World) : Event → Option World
  | .kick => some w.kick
  | .setFilter filter => some { w with app := { w.app with filter := filter } }.kick
  | .toggle id => some (w.toggle id)
  | .delete kind id => some (w.delete kind id)
  | .forward => w.forward
  | .read more ok => w.read more ok
  | .postList => w.postList
  | .mutate ok => w.mutate ok
  | .postOutcome => w.postOutcome
  | .change catalog => some { w with catalog := catalog }
  | .deliver => w.deliver

def initial (catalog : List TorrentListRow) : World where
  catalog := catalog
  app := ⟨[], [], .default⟩
  listSeq := 0
  commands := []
  reads := []
  jobs := []
  reading := none
  outcome := none
  events := []

end Seedchamp.Tui.DeleteFilter
