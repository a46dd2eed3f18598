import Seedchamp.Session.RelocateOrder

/-!
The payload files during an orderly run, and what the requests of such a run can rely on.
-/

namespace Seedchamp.Session.RelocateFiles
open Disk.Spans Foundation.TransitionSystem Session.Relocate Session.RelocateOrder

/-- The files that a switch has put under a root, or not yet removed from it. -/
def has (src dst root : PathBuf) (i : Nat) : Switch → Bool
  | .transfer file => root == dst && decide (i < file)
  | .setDataRoot => root == dst
  | .setDataRootLive => root == dst || root == src
  | .unpublish file => root == src && decide (file ≤ i)

def handoffHas (s : State) (root : PathBuf) (i : Nat) : Bool :=
  match s.handoff with
  | some (.switch src home at') => has src home root i at'
  | _ => false

def requestHas (s : State) (root : PathBuf) (i : Nat) : Bool :=
  match s.request with
  | some (.switch src newRoot at') => has src newRoot root i at'
  | _ => false

/-- Every file of the payload is where the torrent reads it, and else only where a switch has it. -/
structure Stored (origin s : State) : Prop where
  files : s.files = origin.files
  stored : ∀ root i, i < s.files → s.payload root i =
    (origin.payload origin.dataRoot i &&
      (root == s.payloadDataRoot || handoffHas s root i || requestHas s root i))

/-- One step of a switch, next to whatever another switch has. -/
theorem stored_switch (s : State) (src dst : PathBuf) (at' : Switch) (present : Nat → Bool)
    (other : PathBuf → Nat → Bool) (switching : Switching s.hot s.live s.dataRoot src dst at')
    (apart : ∀ file, at' = .unpublish file → ∀ i, other src i = false)
    (stored : ∀ root i, i < s.files → s.payload root i =
      (present i && (root == s.payloadDataRoot || has src dst root i at' || other root i)))
    (root : PathBuf) (i : Nat) (below : i < s.files) :
    (s.switchPayloadRoot src dst at').1.payload root i =
      (present i && (root == (s.switchPayloadRoot src dst at').1.payloadDataRoot ||
        (match (s.switchPayloadRoot src dst at').2 with
          | some next => has src dst root i next
          | none => false) || other root i)) := by
  have here := stored root i below
  cases at' with
  | transfer file =>
    simp only [State.switchPayloadRoot]
    split_ifs with more
    · have source := stored src file more
      grind -ring -linarith [publishFile, has, Switching, State.payloadDataRoot]
    · grind -ring -linarith [has]
  | setDataRoot =>
    simp only [State.switchPayloadRoot]
    grind -ring -linarith [has, Switching, State.payloadDataRoot]
  | setDataRootLive =>
    simp only [State.switchPayloadRoot]
    grind -ring -linarith [has, Switching, State.payloadDataRoot]
  | unpublish file =>
    have clear := apart file rfl
    simp only [State.switchPayloadRoot]
    split_ifs with more
    · grind -ring -linarith [removeFile, has, Switching, State.payloadDataRoot]
    · grind -ring -linarith [has]

theorem publishAll_eq (payload : Payload) (src dst : PathBuf) (n : Nat) (root : PathBuf)
    (i : Nat) :
    (List.range n).foldl (fun payload file => publishFile payload src dst file) payload root i =
      (payload root i || (root == dst && decide (i < n) && payload src i)) := by
  induction n generalizing root i with
  | zero => simp
  | succ n ih =>
    rw [List.range_succ, List.foldl_append, List.foldl_cons, List.foldl_nil, publishFile, ih, ih]
    grind -ring -linarith

theorem removeAll_eq (payload : Payload) (src : PathBuf) (n : Nat) (root : PathBuf) (i : Nat) :
    (List.range n).foldl (fun payload file => removeFile payload src file) payload root i =
      (payload root i && !(root == src && decide (i < n))) := by
  induction n with
  | zero => simp
  | succ n ih =>
    rw [List.range_succ, List.foldl_append, List.foldl_cons, List.foldl_nil, removeFile, ih]
    grind -ring -linarith

theorem stored_start (s : State) (start : Start s) : Stored s s := by
  have root : s.payloadDataRoot = s.dataRoot := by
    unfold State.payloadDataRoot
    split_ifs
    · exact start.live
    · rfl
  refine ⟨rfl, ?_⟩
  intro root' i _
  simp only [handoffHas, requestHas, start.handoff, start.request, Bool.or_false, root]
  by_cases same : root' = s.dataRoot
  · rw [same, beq_self_eq_true, Bool.and_true]
  · rw [beq_eq_false_iff_ne.2 same, Bool.and_false]
    exact Bool.eq_false_of_not_eq_true (fun there => same (start.placed root' i there))

theorem has_apart (src dst root : PathBuf) (at' : Switch) (i : Nat) (source : src ≠ root)
    (target : at' = .transfer 0 ∨ dst ≠ root) : has src dst root i at' = false := by
  cases at' <;> grind -ring -linarith [has]

/-- Once the root is switched, the hand-off has files only where it removes them. -/
theorem handoffHas_elsewhere (s : State) (settled : Settled s) (freed : s.handedOver = true)
    (root : PathBuf) (elsewhere : s.removing ≠ some root) (i : Nat) : handoffHas s root i = false := by
  unfold handoffHas
  split
  · rename_i src home at' found
    have set := (settled.handing src home at' found).1
    cases at' with
    | unpublish count =>
      have distinct : root ≠ src := by
        intro same
        exact elsewhere (by rw [State.removing, found, same])
      simp [has, distinct]
    | _ => simp [State.handedOver, State.switched, found, set] at freed
  · rfl

theorem requestHas_apart (s : State) (settled : Settled s) (src home : PathBuf) (file : Nat)
    (running : s.handoff = some (.switch src home (.unpublish file))) (i : Nat) :
    requestHas s src i = false := by
  unfold requestHas
  split
  · rename_i from' newRoot at' found
    have apart := settled.apart from' newRoot at' src found (by rw [State.removing, running])
    exact has_apart from' newRoot src at' i apart.1 apart.2
  · rfl

theorem Stored.frame {origin s : State} (stored : Stored origin s) (s' : State)
    (files : s'.files = s.files) (payload : s'.payload = s.payload)
    (root' : s'.payloadDataRoot = s.payloadDataRoot)
    (handoff : ∀ root i, handoffHas s' root i = handoffHas s root i)
    (request : ∀ root i, requestHas s' root i = requestHas s root i) : Stored origin s' := by
  refine ⟨files.trans stored.files, ?_⟩
  intro root i below
  rw [payload, root', handoff, request]
  exact stored.stored root i (files ▸ below)

theorem switchPayloadRoot_frame (s : State) (src dst : PathBuf) (at' : Switch) :
    (s.switchPayloadRoot src dst at').1.files = s.files ∧
      (s.switchPayloadRoot src dst at').1.request = s.request ∧
      (s.switchPayloadRoot src dst at').1.handoff = s.handoff := by
  cases at' with
  | transfer file | unpublish file =>
    simp only [State.switchPayloadRoot]
    split_ifs <;> exact ⟨rfl, rfl, rfl⟩
  | setDataRoot | setDataRootLive => exact ⟨rfl, rfl, rfl⟩

theorem stored_handoff (origin s : State) (handoff : Handoff) (running : s.handoff = some handoff)
    (settled : Settled s) (stored : Stored origin s) : Stored origin (s.advanceHandoff handoff) := by
  cases handoff with
  | getHomeRoot =>
    refine stored.frame _ rfl rfl rfl ?_ (fun _ _ => rfl)
    intro root i
    simp only [State.advanceHandoff, handoffHas, running]
    cases s.homeRoot <;> rfl
  | payloadRootAndComplete home =>
    simp only [State.advanceHandoff]
    split_ifs
    all_goals
      refine stored.frame _ rfl rfl rfl ?_ (fun _ _ => rfl)
      intro root i
      simp [handoffHas, has, running]
  | clearHomeRoot =>
    refine stored.frame _ rfl rfl rfl ?_ (fun _ _ => rfl)
    intro root i
    simp only [State.advanceHandoff, handoffHas, running]
  | switch src home at' =>
    have switching := (settled.handing src home at' running).2
    have before : ∀ root i, i < s.files → s.payload root i = (origin.payload origin.dataRoot i &&
        (root == s.payloadDataRoot || has src home root i at' || requestHas s root i)) := by
      intro root i below
      have here := stored.stored root i below
      simp only [handoffHas, running] at here
      exact here
    have apart : ∀ file, at' = .unpublish file → ∀ i, requestHas s src i = false :=
      fun file last => requestHas_apart s settled src home file (last ▸ running)
    have after := stored_switch s src home at' _ (requestHas s) switching apart before
    obtain ⟨files, request, _⟩ := switchPayloadRoot_frame s src home at'
    simp only [State.advanceHandoff]
    generalize s.switchPayloadRoot src home at' = result at after files request ⊢
    have same : requestHas result.1 = requestHas s := by
      funext root i
      simp only [requestHas, request]
    rw [← files, ← same] at after
    rcases result with ⟨s', next⟩
    cases next with
    | some _ | none => exact ⟨files.trans stored.files, after⟩

theorem stored_answer (origin s : State) (newRoot : PathBuf) (stored : Stored origin s)
    (idle : ∀ root i, requestHas s root i = false) : Stored origin (s.answer newRoot) := by
  refine stored.frame _ rfl rfl rfl (fun _ _ => rfl) ?_
  intro root i
  rw [idle]
  rfl

theorem stored_move (origin s : State) (newRoot : PathBuf) (stored : Stored origin s)
    (idle : ∀ root i, requestHas s root i = false) : Stored origin (s.move newRoot) := by
  unfold State.move
  split_ifs
  · exact stored_answer origin s newRoot stored idle
  all_goals
    refine stored.frame _ rfl rfl rfl (fun _ _ => rfl) ?_
    intro root i
    rw [idle]
    simp [requestHas, has]

theorem stored_cold (origin s : State) (newRoot : PathBuf) (cold : s.hot = false)
    (settled : Settled s) (freed : s.handedOver = true)
    (idle : ∀ root i, requestHas s root i = false) (stored : Stored origin s) :
    Stored origin (s.relocateTorrentData newRoot) := by
  unfold State.relocateTorrentData
  split_ifs with same
  · exact stored
  · refine ⟨stored.files, ?_⟩
    intro root i below
    have here := stored.stored root i below
    have source := stored.stored s.dataRoot i below
    have kept : s.removing ≠ some s.dataRoot := by
      have handing := settled.handing
      grind -ring -linarith [State.removing, Switching]
    have old := handoffHas_elsewhere s settled freed s.dataRoot kept i
    have inside : i < s.files := below
    change (List.range s.files).foldl (fun payload file => removeFile payload s.dataRoot file)
        ((List.range s.files).foldl (fun payload file => publishFile payload s.dataRoot newRoot file)
          s.payload) root i =
      (origin.payload origin.dataRoot i && (root == (if s.hot then s.live else newRoot) ||
        handoffHas s root i || requestHas s root i))
    rw [removeAll_eq, publishAll_eq, here, source]
    grind -ring -linarith [State.payloadDataRoot, handoffHas_elsewhere]

theorem stored_request (origin s : State) (request : Request) (running : s.request = some request)
    (settled : Settled s) (stored : Stored origin s) :
    Stored origin (s.advanceRequest request) := by
  have idle : (∀ src newRoot at', request ≠ .switch src newRoot at') →
      ∀ root i, requestHas s root i = false := by
    intro other root i
    rw [requestHas, running]
    cases request with
    | switch src newRoot at' => exact absurd rfl (other src newRoot at')
    | _ => rfl
  cases request with
  | getHomeRoot newRoot =>
    simp only [State.advanceRequest]
    split_ifs
    all_goals
      refine stored.frame _ rfl rfl rfl (fun _ _ => rfl) ?_
      intro root i
      rw [idle (by simp)]
      rfl
  | payloadDataRoot newRoot home =>
    have none := idle (by simp)
    cases home with
    | none => exact stored_move origin s newRoot stored none
    | some home =>
      simp only [State.advanceRequest]
      split_ifs
      · exact stored_answer origin s newRoot stored none
      · refine stored.frame _ rfl rfl rfl (fun _ _ => rfl) ?_
        intro root i
        rw [none]
        rfl
      · exact stored_move origin s newRoot stored none
  | setHomeRoot newRoot =>
    refine stored.frame _ rfl rfl rfl (fun _ _ => rfl) ?_
    intro root i
    rw [idle (by simp)]
    rfl
  | switch src newRoot at' =>
    have moving := settled.moving src newRoot at' running
    have before : ∀ root i, i < s.files → s.payload root i = (origin.payload origin.dataRoot i &&
        (root == s.payloadDataRoot || has src newRoot root i at' || handoffHas s root i)) := by
      intro root i below
      have here := stored.stored root i below
      simp only [requestHas, running] at here
      rw [here, Bool.or_right_comm]
    have apart : ∀ file, at' = .unpublish file → ∀ i, handoffHas s src i = false := by
      intro file last
      apply handoffHas_elsewhere s settled moving.2.1 src
      intro removing
      exact (settled.apart src newRoot at' src running removing).1 rfl
    have after := stored_switch s src newRoot at' _ (handoffHas s) moving.2.2 apart before
    obtain ⟨files, _, handoff⟩ := switchPayloadRoot_frame s src newRoot at'
    simp only [State.advanceRequest]
    generalize s.switchPayloadRoot src newRoot at' = result at after files handoff ⊢
    have same : handoffHas result.1 = handoffHas s := by
      funext root i
      simp only [handoffHas, handoff]
    rw [← files, ← same] at after
    rcases result with ⟨s', next⟩
    cases next with
    | some next =>
      refine ⟨files.trans stored.files, ?_⟩
      intro root i below
      exact (after root i below).trans (by rw [Bool.or_right_comm]; rfl)
    | none =>
      refine ⟨files.trans stored.files, ?_⟩
      intro root i below
      exact (after root i below).trans (by rw [Bool.or_right_comm]; rfl)
  | relocateTorrentData newRoot =>
    have cold := settled.movingCold newRoot running
    have none := idle (by simp)
    have moved := stored_cold origin s newRoot cold.1 settled cold.2 none stored
    apply stored_answer origin _ newRoot moved
    intro root i
    rw [← none root i]
    unfold State.relocateTorrentData
    split_ifs <;> rfl

theorem stored_step (origin s : State) (event : Event) (s' : State) (settled : Settled s)
    (stored : Stored origin s) (taken : step s event = some s') : Stored origin s' := by
  cases event with
  | progress wanted full =>
    simp only [step] at taken
    split_ifs at taken
    cases taken
    exact stored.frame _ rfl rfl rfl (fun _ _ => rfl) (fun _ _ => rfl)
  | flush =>
    simp only [step] at taken
    split_ifs at taken
    cases taken
    exact stored.frame _ rfl rfl rfl (fun _ _ => rfl) (fun _ _ => rfl)
  | startHandoff =>
    simp only [step] at taken
    split_ifs at taken with ready
    cases taken
    refine stored.frame _ rfl rfl rfl ?_ (fun _ _ => rfl)
    simp only [Bool.and_eq_true, Option.isNone_iff_eq_none] at ready
    intro root i
    rw [handoffHas, handoffHas, ready.2]
  | relocate newRoot =>
    simp only [step] at taken
    split_ifs at taken with idle
    cases taken
    refine stored.frame _ rfl rfl rfl (fun _ _ => rfl) ?_
    intro root i
    rw [requestHas, requestHas, Option.isNone_iff_eq_none.1 idle]
  | advanceRequest =>
    obtain ⟨request, running, rfl⟩ := Option.map_eq_some_iff.1 taken
    exact stored_request origin s request running settled stored
  | advanceHandoff =>
    obtain ⟨handoff, running, rfl⟩ := Option.map_eq_some_iff.1 taken
    exact stored_handoff origin s handoff running settled stored

/-- In every orderly run, whenever nothing is under way and the wanted download is complete, the
payload is where the last answered request wants it and the torrent is no longer staged. -/
theorem relocation_honoured (origin : State) (start : Start origin) (events : List Event) (s : State)
    (guarded : Guarded step (fun s event => orderly s event = true) origin events)
    (ran : exec step origin events = some s) (quiet : Quiescent s)
    (downloaded : s.downloadComplete = true) : Honoured origin s := by
  have invariant := exec_invariant step _ (fun s => Settled s ∧ Stored origin s)
    (fun s event s' both guarded taken => ⟨settled_step s event s' both.1 guarded taken,
      stored_step origin s event s' both.1 both.2 taken⟩)
    origin s events ⟨settled_start origin start, stored_start origin start⟩ guarded ran
  obtain ⟨settled, stored⟩ := invariant
  have level : s.payloadDataRoot = s.dataRoot := by
    unfold State.payloadDataRoot
    split_ifs with hot
    · exact settled.level hot (by simp [quiet.request]) (by simp [quiet.handoff])
    · rfl
  have home : s.staged = false := by
    by_cases complete : s.complete = true
    · exact settled.settled quiet.handoff quiet.due (quiet.flushed complete)
    · exact settled.wanted downloaded (Bool.eq_false_of_not_eq_true complete)
  constructor
  case placed =>
    intro newRoot answered
    have promised := settled.promised newRoot answered (by rw [returning, quiet.request])
    have root : s.payloadDataRoot = newRoot := by
      rw [← promised]
      grind -ring -linarith [destination, State.staged]
    refine ⟨level.symm.trans root, root, ?_⟩
    intro root' i below
    rw [stored.stored root' i (stored.files ▸ below), handoffHas, requestHas, quiet.handoff,
      quiet.request, root, Bool.or_false, Bool.or_false, Bool.and_comm]
  case home => grind -ring -linarith [State.staged]

/-- A hot torrent of one file, staged in the cache on its way to the library. -/
def stagedTorrent : State where
  hot := true
  live := ["cache"]
  dataRoot := ["cache"]
  homeRoot := some ["library"]
  files := 1
  payload := fun root _ => root == ["cache"]
  downloadComplete := false
  complete := false
  catalogComplete := false
  due := false
  request := none
  handoff := none
  answered := none

theorem start_stagedTorrent : Start stagedTorrent :=
  ⟨rfl, fun _ _ there => beq_iff_eq.1 there, rfl, rfl, rfl, rfl, rfl, rfl⟩

def quiescentB (s : State) : Bool :=
  s.request == none && s.handoff == none && !s.due && (!s.complete || s.catalogComplete)

theorem quiescent_of_quiescentB (s : State) (quiet : quiescentB s = true) : Quiescent s := by
  simp only [quiescentB, Bool.and_eq_true, beq_iff_eq, Bool.not_eq_true', Bool.or_eq_true] at quiet
  obtain ⟨⟨⟨request, handoff⟩, due⟩, flushed⟩ := quiet
  exact ⟨request, handoff, due, fun complete => by simpa [complete] using flushed⟩

def ask (newRoot : PathBuf) (steps : Nat) : List Event :=
  .relocate newRoot :: List.replicate steps .advanceRequest

def hand (steps : Nat) : List Event := List.replicate steps .advanceHandoff

def finish : List Event := [.progress true true, .flush, .startHandoff]

/-- The home is changed while the download runs, and the payload moved on while the hand-off still
cleans up the cache. -/
def orderlyTrace : List Event :=
  ask ["other"] 3 ++ finish ++ hand 6 ++ ask ["third"] 5 ++ hand 1 ++
    List.replicate 3 Event.advanceRequest ++ hand 2

theorem relocation_honoured_orderlyTrace :
    ∃ s, exec step stagedTorrent orderlyTrace = some s ∧ s.answered = some ["third"] ∧
      Honoured stagedTorrent s := by
  have settled : ((exec step stagedTorrent orderlyTrace).any (fun s =>
      quiescentB s && s.downloadComplete && s.answered == some ["third"])) = true := by decide +kernel
  obtain ⟨s, ran, checked⟩ := (Option.any_eq_true _ _).1 settled
  simp only [Bool.and_eq_true, beq_iff_eq] at checked
  refine ⟨s, ran, checked.2, ?_⟩
  exact relocation_honoured stagedTorrent start_stagedTorrent orderlyTrace s
    (guarded_of_guardedB step orderly _ _ (by decide +kernel)) ran (quiescent_of_quiescentB s checked.1.1)
    checked.1.2

/-- The hand-off has read the home and started to copy when the home is changed: the request returns
`Ok`, the payload goes to the old home, and clearing the home forgets the new one. -/
def retargetTrace : List Event :=
  finish ++ hand 3 ++ ask ["other"] 3 ++ hand 6

theorem retarget_during_handoff_lost :
    ¬∀ (origin : State) (events : List Event) (s : State), Start origin →
      exec step origin events = some s → Quiescent s → s.downloadComplete = true →
      Honoured origin s := by
  intro always
  have lost : ((exec step stagedTorrent retargetTrace).any (fun s => quiescentB s &&
      s.downloadComplete && s.answered == some ["other"] && s.dataRoot == ["library"])) = true := by
    decide +kernel
  obtain ⟨s, ran, checked⟩ := (Option.any_eq_true _ _).1 lost
  simp only [Bool.and_eq_true, beq_iff_eq] at checked
  obtain ⟨⟨⟨quiet, downloaded⟩, answered⟩, dataRoot⟩ := checked
  have honoured := always stagedTorrent retargetTrace s start_stagedTorrent ran
    (quiescent_of_quiescentB s quiet) downloaded
  have placed := (honoured.placed ["other"] answered).1
  rw [dataRoot] at placed
  exact absurd placed (by decide)

end Seedchamp.Session.RelocateFiles
