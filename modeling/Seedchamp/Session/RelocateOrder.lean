import Seedchamp.Session.Relocate

/-!
What an orderly run keeps between a relocation request and the hand-off: while the payload is staged
the home is what was asked for last, and a switch of the root starts only where no home will remain.
-/

namespace Seedchamp.Session.RelocateOrder
open Disk.Spans Session.Relocate

/-- Where the payload will be once the hand-off is through. -/
def destination (s : State) : PathBuf :=
  match s.homeRoot with
  | some home => if s.switched then s.payloadDataRoot else home
  | none => s.payloadDataRoot

/-- The request in progress has switched the root and not yet returned. -/
def returning (s : State) : Bool :=
  match s.request with
  | some (.switch _ _ (.unpublish _)) => true
  | _ => false

/-- A switch up to its own change of the catalog, between that and the registry, and after both. -/
def Switching (hot : Bool) (live dataRoot src dst : PathBuf) (at' : Switch) : Prop :=
  src ≠ dst ∧
    match at' with
    | .transfer _ | .setDataRoot => dataRoot = src ∧ (hot = true → live = src)
    | .setDataRootLive => dataRoot = dst ∧ (hot = true → live = src)
    | .unpublish _ => src ≠ if hot then live else dataRoot

attribute [grind] State.staged State.payloadDataRoot State.handedOver State.switched State.removing
attribute [grind] destination returning Switching

/-- How far requests and the hand-off can be from each other. -/
structure Settled (s : State) : Prop where
  finished : s.complete = true → s.hot = true → s.downloadComplete = true
  flushed : s.catalogComplete = true → s.complete = true
  due : s.due = true → s.catalogComplete = true
  running : s.handoff ≠ none → s.catalogComplete = true ∧ s.due = false
  settled : s.handoff = none → s.due = false → s.catalogComplete = true → s.staged = false
  wanted : s.downloadComplete = true → s.complete = false → s.staged = false
  level : s.hot = true → (∀ src dst, s.request ≠ some (.switch src dst .setDataRootLive)) →
    (∀ src dst, s.handoff ≠ some (.switch src dst .setDataRootLive)) → s.live = s.dataRoot
  homeSeen : ∀ home, s.handoff = some (.payloadRootAndComplete home) → s.homeRoot = some home
  handing : ∀ src home at', s.handoff = some (.switch src home at') →
    s.homeRoot = some home ∧ Switching s.hot s.live s.dataRoot src home at'
  homeRead : ∀ newRoot home, s.request = some (.payloadDataRoot newRoot home) →
    s.homeRoot = home ∨ s.homeRoot = none
  retargeting : ∀ newRoot, s.request = some (.setHomeRoot newRoot) → s.handoff = none →
    s.homeRoot ≠ none → s.staged = true
  moving : ∀ src newRoot at', s.request = some (.switch src newRoot at') →
    s.hot = true ∧ s.handedOver = true ∧ Switching s.hot s.live s.dataRoot src newRoot at'
  apart : ∀ src newRoot at' cleared, s.request = some (.switch src newRoot at') →
    s.removing = some cleared → src ≠ cleared ∧ (at' = .transfer 0 ∨ newRoot ≠ cleared)
  movingCold : ∀ newRoot, s.request = some (.relocateTorrentData newRoot) →
    s.hot = false ∧ s.handedOver = true
  promised : ∀ newRoot, s.answered = some newRoot → returning s = false →
    destination s = newRoot
  moved : ∀ src newRoot file, s.request = some (.switch src newRoot (.unpublish file)) →
    s.payloadDataRoot = newRoot

theorem settled_start (s : State) (start : Start s) : Settled s := by
  obtain ⟨live, placed, downloaded, complete, due, request, handoff, answered⟩ := start
  constructor <;> grind -ring -linarith [State.staged, cases Option]

theorem settled_progress (s : State) (wanted full : Bool) (settled : Settled s)
    (guarded : orderly s (.progress wanted full) = true) :
    Settled { s with
      complete := s.complete || full, downloadComplete := wanted || s.complete || full } := by
  obtain ⟨finished, flushed, due, running, done, wanted', level, homeSeen, handing, homeRead,
    retargeting, moving, apart, movingCold, promised, moved⟩ := settled
  simp only [orderly] at guarded
  constructor
  all_goals first | assumption | grind -ring -linarith

theorem settled_flush (s : State) (settled : Settled s) (complete : s.complete = true)
    (idle : s.handoff = none) : Settled { s with catalogComplete := true, due := true } := by
  obtain ⟨finished, flushed, due, running, done, wanted', level, homeSeen, handing, homeRead,
    retargeting, moving, apart, movingCold, promised, moved⟩ := settled
  constructor
  all_goals first | assumption | grind -ring -linarith

theorem settled_startHandoff (s : State) (settled : Settled s) (due' : s.due = true)
    (idle : s.handoff = none) : Settled { s with due := false, handoff := some .getHomeRoot } := by
  obtain ⟨finished, flushed, due, running, done, wanted', level, homeSeen, handing, homeRead,
    retargeting, moving, apart, movingCold, promised, moved⟩ := settled
  constructor
  all_goals first | assumption | grind -ring -linarith

theorem settled_relocate (s : State) (newRoot : PathBuf) (settled : Settled s)
    (idle : s.request = none) : Settled { s with request := some (.getHomeRoot newRoot) } := by
  obtain ⟨finished, flushed, due, running, done, wanted', level, homeSeen, handing, homeRead,
    retargeting, moving, apart, movingCold, promised, moved⟩ := settled
  constructor
  all_goals first | assumption | grind -ring -linarith

theorem settled_handoff_getHomeRoot (s : State) (running : s.handoff = some .getHomeRoot)
    (settled : Settled s) : Settled (s.advanceHandoff .getHomeRoot) := by
  obtain ⟨finished, flushed, due, running', done, wanted', level, homeSeen, handing, homeRead,
    retargeting, moving, apart, movingCold, promised, moved⟩ := settled
  simp only [State.advanceHandoff]
  cases home : s.homeRoot with
  | none | some root =>
    constructor
    all_goals first | assumption | grind -ring -linarith

/-- The hand-off started because the catalog has the torrent complete, so it does not give up. -/
theorem settled_payloadComplete (s : State) (settled : Settled s) (running : s.handoff ≠ none) :
    s.payloadComplete = true := by
  have catalog := (settled.running running).1
  unfold State.payloadComplete
  split_ifs with hot
  · exact settled.finished (settled.flushed catalog) hot
  · exact catalog

theorem settled_handoff_payloadRoot (s : State) (home : PathBuf)
    (running : s.handoff = some (.payloadRootAndComplete home)) (settled : Settled s) :
    Settled (s.advanceHandoff (.payloadRootAndComplete home)) := by
  have all := settled_payloadComplete s settled (by simp [running])
  obtain ⟨finished, flushed, due, running', done, wanted', level, homeSeen, handing, homeRead,
    retargeting, moving, apart, movingCold, promised, moved⟩ := settled
  simp only [State.advanceHandoff]
  by_cases same : s.payloadDataRoot = home
  · rw [if_pos same]
    constructor
    all_goals first | assumption | grind -ring -linarith
  · rw [if_neg same, if_pos all]
    constructor
    all_goals first | assumption | grind -ring -linarith

theorem settled_handoff_switch (s : State) (src home : PathBuf) (at' : Switch)
    (running : s.handoff = some (.switch src home at')) (settled : Settled s) :
    Settled (s.advanceHandoff (.switch src home at')) := by
  obtain ⟨finished, flushed, due, running', done, wanted', level, homeSeen, handing, homeRead,
    retargeting, moving, apart, movingCold, promised, moved⟩ := settled
  cases at' with
  | transfer file | unpublish file =>
    simp only [State.advanceHandoff, State.switchPayloadRoot]
    split_ifs
    all_goals
      constructor
      all_goals first | assumption | grind -ring -linarith
  | setDataRoot | setDataRootLive =>
    simp only [State.advanceHandoff, State.switchPayloadRoot]
    constructor
    all_goals first | assumption | grind -ring -linarith

theorem settled_handoff_clearHomeRoot (s : State) (running : s.handoff = some .clearHomeRoot)
    (settled : Settled s) : Settled (s.advanceHandoff .clearHomeRoot) := by
  obtain ⟨finished, flushed, due, running', done, wanted', level, homeSeen, handing, homeRead,
    retargeting, moving, apart, movingCold, promised, moved⟩ := settled
  simp only [State.advanceHandoff]
  constructor
  all_goals first | assumption | grind -ring -linarith

theorem settled_handoff (s : State) (handoff : Handoff) (running : s.handoff = some handoff)
    (settled : Settled s) : Settled (s.advanceHandoff handoff) := by
  cases handoff with
  | getHomeRoot => exact settled_handoff_getHomeRoot s running settled
  | payloadRootAndComplete home => exact settled_handoff_payloadRoot s home running settled
  | switch src home at' => exact settled_handoff_switch s src home at' running settled
  | clearHomeRoot => exact settled_handoff_clearHomeRoot s running settled

/-- A request that returns with the payload on its way to its root. -/
theorem settled_answer (s : State) (newRoot : PathBuf) (settled : Settled s)
    (level' : ∀ src dst, s.request ≠ some (.switch src dst .setDataRootLive))
    (reached : destination s = newRoot) : Settled (s.answer newRoot) := by
  obtain ⟨finished, flushed, due, running, done, wanted', level, homeSeen, handing, homeRead,
    retargeting, moving, apart, movingCold, promised, moved⟩ := settled
  unfold State.answer
  constructor
  all_goals first | assumption | grind -ring -linarith

/-- A move starts only where no home will remain. -/
theorem settled_move (s : State) (newRoot : PathBuf) (home : Option PathBuf) (settled : Settled s)
    (reading : s.request = some (.payloadDataRoot newRoot home)) (atHome : s.staged = false)
    (free : s.payloadDataRoot = newRoot ∨ s.handedOver = true) : Settled (s.move newRoot) := by
  unfold State.move
  split_ifs with same hot
  · apply settled_answer s newRoot settled
    · grind -ring -linarith
    · grind -ring -linarith
  all_goals
    obtain ⟨finished, flushed, due, running, done, wanted', level, homeSeen, handing, homeRead,
      retargeting, moving, apart, movingCold, promised, moved⟩ := settled
    constructor
    all_goals first | assumption | grind -ring -linarith

theorem settled_reading (s : State) (newRoot : PathBuf) (home : Option PathBuf) (settled : Settled s)
    (running' : s.request = some (.payloadDataRoot newRoot home))
    (guarded : orderly s .advanceRequest = true) :
    Settled (s.advanceRequest (.payloadDataRoot newRoot home)) := by
  simp only [orderly, running'] at guarded
  have seen := settled.homeRead newRoot home running'
  cases home with
  | none =>
    have none : s.homeRoot = none := by simpa using seen
    apply settled_move s newRoot _ settled running'
    · rw [State.staged, none]
    · exact Or.inr (by simp [State.handedOver, none])
  | some home =>
    simp only [State.advanceRequest]
    by_cases same : s.payloadDataRoot = home
    · rw [if_neg (not_not_intro same)]
      apply settled_move s newRoot _ settled running'
      · grind -ring -linarith
      · grind -ring -linarith
    · rw [if_pos same]
      by_cases chosen : home = newRoot
      · rw [if_pos chosen]
        apply settled_answer s newRoot settled
        · grind -ring -linarith
        · grind -ring -linarith
      · rw [if_neg chosen]
        obtain ⟨finished, flushed, due, running, done, wanted', level, homeSeen, handing, homeRead,
          retargeting, moving, apart, movingCold, promised, moved⟩ := settled
        constructor
        all_goals first | assumption | grind -ring -linarith

theorem settled_switching_transfer (s : State) (src newRoot : PathBuf) (file : Nat)
    (settled : Settled s) (running' : s.request = some (.switch src newRoot (.transfer file)))
    (guarded : orderly s .advanceRequest = true) :
    Settled (s.advanceRequest (.switch src newRoot (.transfer file))) := by
  simp only [orderly, running'] at guarded
  have moving' := settled.moving src newRoot _ running'
  simp only [State.advanceRequest, State.switchPayloadRoot]
  obtain ⟨finished, flushed, due, running, done, wanted', level, homeSeen, handing, homeRead,
    retargeting, moving, apart, movingCold, promised, moved⟩ := settled
  split_ifs
  all_goals
    constructor
    all_goals first | assumption | grind -ring -linarith

/-- Storing the new root changes no file. -/
theorem settled_switching_store (s : State) (src newRoot : PathBuf) (at' : Switch) (settled : Settled s)
    (stores : at' = .setDataRoot ∨ at' = .setDataRootLive)
    (running' : s.request = some (.switch src newRoot at')) :
    Settled (s.advanceRequest (.switch src newRoot at')) := by
  have moving' := settled.moving src newRoot _ running'
  obtain ⟨finished, flushed, due, running, done, wanted', level, homeSeen, handing, homeRead,
    retargeting, moving, apart, movingCold, promised, moved⟩ := settled
  rcases stores with rfl | rfl
  all_goals
    simp only [State.advanceRequest, State.switchPayloadRoot]
    constructor
    all_goals first | assumption | grind -ring -linarith

theorem settled_switching_unpublish (s : State) (src newRoot : PathBuf) (file : Nat)
    (settled : Settled s) (running' : s.request = some (.switch src newRoot (.unpublish file))) :
    Settled (s.advanceRequest (.switch src newRoot (.unpublish file))) := by
  have moving' := settled.moving src newRoot _ running'
  have moved' := settled.moved src newRoot file running'
  simp only [State.advanceRequest, State.switchPayloadRoot]
  split_ifs
  · obtain ⟨finished, flushed, due, running, done, wanted', level, homeSeen, handing, homeRead,
      retargeting, moving, apart, movingCold, promised, moved⟩ := settled
    constructor
    all_goals first | assumption | grind -ring -linarith
  · apply settled_answer s newRoot settled
    · grind -ring -linarith
    · grind -ring -linarith

theorem settled_cold (s : State) (newRoot : PathBuf) (settled : Settled s)
    (running' : s.request = some (.relocateTorrentData newRoot))
    (guarded : orderly s .advanceRequest = true) :
    Settled (s.advanceRequest (.relocateTorrentData newRoot)) := by
  simp only [orderly, running'] at guarded
  have cold := settled.movingCold newRoot running'
  simp only [State.advanceRequest, State.relocateTorrentData]
  split_ifs with same
  · apply settled_answer s newRoot settled
    · grind -ring -linarith
    · grind -ring -linarith
  · obtain ⟨finished, flushed, due, running, done, wanted', level, homeSeen, handing, homeRead,
      retargeting, moving, apart, movingCold, promised, moved⟩ := settled
    unfold State.answer
    constructor
    all_goals first | assumption | grind -ring -linarith

theorem settled_request (s : State) (request : Request) (running' : s.request = some request)
    (settled : Settled s) (guarded : orderly s .advanceRequest = true) :
    Settled (s.advanceRequest request) := by
  cases request with
  | getHomeRoot newRoot =>
    simp only [State.advanceRequest]
    obtain ⟨finished, flushed, due, running, done, wanted', level, homeSeen, handing, homeRead,
      retargeting, moving, apart, movingCold, promised, moved⟩ := settled
    split_ifs
    all_goals
      constructor
      all_goals first | assumption | grind -ring -linarith
  | payloadDataRoot newRoot home => exact settled_reading s newRoot home settled running' guarded
  | setHomeRoot newRoot =>
    simp only [orderly, running'] at guarded
    simp only [State.advanceRequest, State.answer]
    obtain ⟨finished, flushed, due, running, done, wanted', level, homeSeen, handing, homeRead,
      retargeting, moving, apart, movingCold, promised, moved⟩ := settled
    constructor
    all_goals first | assumption | grind -ring -linarith
  | switch src newRoot at' =>
    cases at' with
    | transfer file =>
      exact settled_switching_transfer s src newRoot file settled running' guarded
    | setDataRoot => exact settled_switching_store s src newRoot _ settled (Or.inl rfl) running'
    | setDataRootLive => exact settled_switching_store s src newRoot _ settled (Or.inr rfl) running'
    | unpublish file =>
      exact settled_switching_unpublish s src newRoot file settled running'
  | relocateTorrentData newRoot => exact settled_cold s newRoot settled running' guarded

theorem settled_step (s : State) (event : Event) (s' : State) (settled : Settled s)
    (guarded : orderly s event = true) (taken : step s event = some s') : Settled s' := by
  cases event with
  | progress wanted full =>
    simp only [step] at taken
    split_ifs at taken
    cases taken
    exact settled_progress s wanted full settled guarded
  | flush =>
    simp only [step] at taken
    split_ifs at taken with ready
    cases taken
    simp only [Bool.and_eq_true, Option.isNone_iff_eq_none] at ready
    exact settled_flush s settled ready.1.1 ready.2
  | startHandoff =>
    simp only [step] at taken
    split_ifs at taken with ready
    cases taken
    simp only [Bool.and_eq_true, Option.isNone_iff_eq_none] at ready
    exact settled_startHandoff s settled ready.1 ready.2
  | relocate newRoot =>
    simp only [step] at taken
    split_ifs at taken with idle
    cases taken
    exact settled_relocate s newRoot settled (Option.isNone_iff_eq_none.1 idle)
  | advanceRequest =>
    obtain ⟨request, running, rfl⟩ := Option.map_eq_some_iff.1 taken
    exact settled_request s request running settled guarded
  | advanceHandoff =>
    obtain ⟨handoff, running, rfl⟩ := Option.map_eq_some_iff.1 taken
    exact settled_handoff s handoff running settled

end Seedchamp.Session.RelocateOrder
