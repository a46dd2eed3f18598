import Seedchamp.Disk.Spans
import Seedchamp.Foundation.TransitionSystem
import Mathlib.Data.Option.Basic

/-!
Relocation requests of one torrent against its leech-cache hand-off, one catalog access, registry
access or file at a time. The mutation worker runs one request at a time and the tick loop waits for
its hand-off, so at most one of each is under way.
-/

namespace Seedchamp.Session.Relocate
open Disk.Spans

/-- Which payload files exist under which root. -/
abbrev Payload := PathBuf → Nat → Bool

/-- `publish_file`: a missing source is skipped, and the source stays. -/
def publishFile (payload : Payload) (src dst : PathBuf) (file : Nat) : Payload :=
  fun root i => payload root i || (root == dst && i == file && payload src file)

def removeFile (payload : Payload) (src : PathBuf) (file : Nat) : Payload :=
  fun root i => payload root i && !(root == src && i == file)

/-- Where `switch_payload_root` stands: the next file to publish or to remove, or the next write. -/
inductive Switch where
  | transfer (file : Nat)
  | setDataRoot
  | setDataRootLive
  | unpublish (file : Nat)
  deriving DecidableEq, Repr

/-- `relocate_data_root`, with what it has read so far. -/
inductive Request where
  | getHomeRoot (newRoot : PathBuf)
  | payloadDataRoot (newRoot : PathBuf) (home : Option PathBuf)
  | setHomeRoot (newRoot : PathBuf)
  | switch (src newRoot : PathBuf) (at' : Switch)
  | relocateTorrentData (newRoot : PathBuf)
  deriving DecidableEq, Repr

/-- `maybe_start_leech_cache_handoff` and `run_leech_cache_handoff`. -/
inductive Handoff where
  | getHomeRoot
  | payloadRootAndComplete (home : PathBuf)
  | switch (src home : PathBuf) (at' : Switch)
  | clearHomeRoot
  deriving DecidableEq, Repr

/-- One torrent: its catalog row, its entry in the registry when it is hot, and its files. `due` is
a hand-off the tick loop is about to start, and `answered` the last request that returned `Ok`. -/
structure State where
  hot : Bool
  live : PathBuf
  dataRoot : PathBuf
  homeRoot : Option PathBuf
  files : Nat
  payload : Payload
  downloadComplete : Bool
  complete : Bool
  catalogComplete : Bool
  due : Bool
  request : Option Request
  handoff : Option Handoff
  answered : Option PathBuf

/-- `progress` is a change of the pieces or priorities of the hot torrent, `flush` the tick whose
flush reports the torrent as having become complete. -/
inductive Event where
  | progress (wanted full : Bool)
  | flush
  | startHandoff
  | relocate (newRoot : PathBuf)
  | advanceRequest
  | advanceHandoff
  deriving DecidableEq, Repr

namespace State

def payloadDataRoot (s : State) : PathBuf := if s.hot then s.live else s.dataRoot

/-- `payload_root_and_complete` answers `payloadDataRoot` and this, both of one registry read. -/
def payloadComplete (s : State) : Bool := if s.hot then s.downloadComplete else s.catalogComplete

/-- One step of `switch_payload_root`, and where it then stands. -/
def switchPayloadRoot (s : State) (src dst : PathBuf) : Switch → State × Option Switch
  | .transfer file =>
    if file < s.files then
      ({ s with payload := publishFile s.payload src dst file }, some (.transfer (file + 1)))
    else (s, some .setDataRoot)
  | .setDataRoot => ({ s with dataRoot := dst }, some .setDataRootLive)
  | .setDataRootLive => ({ s with live := if s.hot then dst else s.live }, some (.unpublish 0))
  | .unpublish file =>
    if file < s.files then
      ({ s with payload := removeFile s.payload src file }, some (.unpublish (file + 1)))
    else (s, none)

/-- The cold path: the catalog stays locked from the first file to the last. -/
def relocateTorrentData (s : State) (newRoot : PathBuf) : State :=
  if s.dataRoot = newRoot then s
  else
    let published := (List.range s.files).foldl
      (fun payload file => publishFile payload s.dataRoot newRoot file) s.payload
    { s with
      dataRoot := newRoot
      payload := (List.range s.files).foldl
        (fun payload file => removeFile payload s.dataRoot file) published }

def answer (s : State) (newRoot : PathBuf) : State :=
  { s with request := none, answered := some newRoot }

/-- The payload is not staged: move it. -/
def move (s : State) (newRoot : PathBuf) : State :=
  if s.payloadDataRoot = newRoot then s.answer newRoot
  else if s.hot then { s with request := some (.switch s.payloadDataRoot newRoot (.transfer 0)) }
  else { s with request := some (.relocateTorrentData newRoot) }

def advanceRequest (s : State) : Request → State
  | .getHomeRoot newRoot =>
    if newRoot = [] then { s with request := none }
    else { s with request := some (.payloadDataRoot newRoot s.homeRoot) }
  | .payloadDataRoot newRoot (some home) =>
    if s.payloadDataRoot ≠ home then
      if home = newRoot then s.answer newRoot
      else { s with request := some (.setHomeRoot newRoot) }
    else s.move newRoot
  | .payloadDataRoot newRoot none => s.move newRoot
  | .setHomeRoot newRoot => { s with homeRoot := some newRoot }.answer newRoot
  | .switch src newRoot at' =>
    match s.switchPayloadRoot src newRoot at' with
    | (s', some next) => { s' with request := some (.switch src newRoot next) }
    | (s', none) => s'.answer newRoot
  | .relocateTorrentData newRoot => (s.relocateTorrentData newRoot).answer newRoot

def advanceHandoff (s : State) : Handoff → State
  | .getHomeRoot => { s with handoff := s.homeRoot.map .payloadRootAndComplete }
  | .payloadRootAndComplete home =>
    if s.payloadDataRoot = home then { s with handoff := some .clearHomeRoot }
    else if s.payloadComplete then
      { s with handoff := some (.switch s.payloadDataRoot home (.transfer 0)) }
    else { s with handoff := none }
  | .switch src home at' =>
    match s.switchPayloadRoot src home at' with
    | (s', some next) => { s' with handoff := some (.switch src home next) }
    | (s', none) => { s' with handoff := some .clearHomeRoot }
  | .clearHomeRoot => { s with homeRoot := none, handoff := none }

end State

def step (s : State) : Event → Option State
  | .progress wanted full =>
    if s.hot then
      some { s with
        complete := s.complete || full
        downloadComplete := wanted || s.complete || full }
    else none
  | .flush =>
    if s.complete && !s.catalogComplete && s.handoff.isNone then
      some { s with catalogComplete := true, due := true }
    else none
  | .startHandoff =>
    if s.due && s.handoff.isNone then some { s with due := false, handoff := some .getHomeRoot }
    else none
  | .relocate newRoot =>
    if s.request.isNone then some { s with request := some (.getHomeRoot newRoot) } else none
  | .advanceRequest => s.request.map s.advanceRequest
  | .advanceHandoff => s.handoff.map s.advanceHandoff

/-- A session that has just started: a staged torrent that the catalog has complete is handed off. -/
structure Start (s : State) : Prop where
  live : s.live = s.dataRoot
  placed : ∀ root i, s.payload root i = true → root = s.dataRoot
  downloaded : s.downloadComplete = s.catalogComplete
  complete : s.complete = s.catalogComplete
  due : s.due = (s.catalogComplete && s.homeRoot.isSome)
  request : s.request = none
  handoff : s.handoff = none
  answered : s.answered = none

/-- Nothing is under way and nothing is about to start. -/
structure Quiescent (s : State) : Prop where
  request : s.request = none
  handoff : s.handoff = none
  due : s.due = false
  flushed : s.complete = true → s.catalogComplete = true

/-- The payload is where the last answered request wants it, and is not staged. -/
structure Honoured (origin s : State) : Prop where
  placed : ∀ newRoot, s.answered = some newRoot →
    s.dataRoot = newRoot ∧ s.payloadDataRoot = newRoot ∧
      ∀ root i, i < origin.files →
        s.payload root i = (root == newRoot && origin.payload origin.dataRoot i)
  home : s.homeRoot = none ∨ s.homeRoot = some s.dataRoot

namespace State

/-- The hand-off has switched the root, and all it will still do to the catalog is clear the home. -/
def switched (s : State) : Bool :=
  match s.handoff with
  | some (.switch _ _ (.unpublish _)) | some .clearHomeRoot => true
  | _ => false

/-- The root that the hand-off is still removing files from. -/
def removing (s : State) : Option PathBuf :=
  match s.handoff with
  | some (.switch src _ (.unpublish _)) => some src
  | _ => none

def handedOver (s : State) : Bool := s.homeRoot == none || s.switched

def staged (s : State) : Bool :=
  match s.homeRoot with
  | some home => home != s.payloadDataRoot
  | none => false

end State

/-- The order of steps under which no request is lost: the wanted pieces of a staged torrent become
complete only with the rest of it; a request changes the home only while the home is set and no
hand-off runs; one that finds the home of its choice set already returns only while that still
decides; one that moves the payload does so only when no home will remain; and it publishes nothing
where the hand-off still removes files. -/
def orderly (s : State) : Event → Bool
  | .progress wanted full => s.complete || full || !wanted || !s.staged
  | .advanceRequest =>
    match s.request with
    | some (.payloadDataRoot newRoot (some home)) =>
      if s.payloadDataRoot ≠ home then home != newRoot || !s.handedOver
      else s.payloadDataRoot == newRoot || s.handedOver
    | some (.setHomeRoot _) => s.handoff == none && s.homeRoot != none
    | some (.switch _ newRoot (.transfer _)) | some (.relocateTorrentData newRoot) =>
      s.removing != some newRoot
    | _ => true
  | _ => true

end Seedchamp.Session.Relocate
