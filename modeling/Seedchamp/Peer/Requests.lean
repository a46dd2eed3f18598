import Seedchamp.Peer.Claims

/-!
Requests and possession. A call of `issue_requests` never looks at the possession of the pieces that
its session assembles already; it hands out what is fresh when the call starts, as long as no other
session completes one of them meanwhile.
-/

namespace Seedchamp.Peer.Requests
open Disk.Spans Foundation.TransitionSystem Hot.Torrent Hot.Torrent.HotTorrent Hot.Possession
open Staging.PiecePool Staging.Pool Staging.Assembly Peer.Download Peer.Claims

/-- The session is inside `issue_requests`. -/
def inCall : Pc → Bool
  | .round _ => true
  | .suggest _ => true
  | .picking _ _ => true
  | .claiming _ _ _ => true
  | .opening _ _ _ => true
  | _ => false

/-- What the running call will hand out. -/
def callOut : Pc → List Request
  | .round call => call.out
  | .suggest call => call.out
  | .picking call _ => call.out
  | .claiming call _ _ => call.out
  | .opening call _ _ => call.out
  | _ => []

/-- A running call works on pieces that are not had. -/
structure Fresh (t : HotTorrent) (x : Session) : Prop where
  slots : inCall x.pc = true → ∀ i ∈ x.dl.staging.indices, t.hasPiece i = false
  picked : ∀ i, pcPick x.pc = some i → t.hasPiece i = false
  asked : ∀ request ∈ callOut x.pc, request.1 ∈ x.dl.staging.indices

def Return.Clean (r : Return) : Prop := r.hadRequests = [] ∧ r.hadSlots = []

structure Tidy (w : Swarm) : Prop where
  sound : Sound w
  fresh : ∀ s, Fresh w.torrent (w.sessions s)
  clean : ∀ r ∈ w.returns, Return.Clean r

/-- A step of session `s` that leaves possession alone. -/
structure Refresh (w w' : Swarm) (s : Nat) (x : Session) : Prop where
  moved : Moved w w' s x
  ledger : ledger w'.torrent = ledger w.torrent
  fresh : Fresh w.torrent x
  returns : ∀ r ∈ w'.returns, r ∈ w.returns ∨ Return.Clean r

theorem fresh_of_ledger (t t' : HotTorrent) (x : Session) (same : ledger t' = ledger t)
    (fresh : Fresh t x) : Fresh t' x := by
  have had := hasPiece_of_ledger _ _ same
  refine ⟨?_, ?_, fresh.asked⟩
  · rw [had]
    exact fresh.slots
  · rw [had]
    exact fresh.picked

theorem fresh_idle (t : HotTorrent) (x : Session) (outside : inCall x.pc = false) : Fresh t x := by
  refine ⟨fun inside => ?_, fun i pick => ?_, fun request asked => ?_⟩
  · rw [outside] at inside
    cases inside
  · cases pc : x.pc <;> simp [pc, pcPick, inCall] at pick outside
  · cases pc : x.pc <;> simp [pc, callOut, inCall] at asked outside

theorem tidy_of_refresh (w w' : Swarm) (s : Nat) (x : Session) (tidy : Tidy w) (sound : Sound w')
    (refresh : Refresh w w' s x) : Tidy w' := by
  refine ⟨sound, ?_, ?_⟩
  · intro t
    apply fresh_of_ledger _ _ _ refresh.ledger
    rw [refresh.moved.sessions]
    by_cases same : t = s
    · rw [same, Function.update_self]
      exact refresh.fresh
    · rw [Function.update_of_ne same]
      exact tidy.fresh t
  · intro r member
    rcases refresh.returns r member with old | new
    · exact tidy.clean r old
    · exact new

/-- What a return leaves in the history is clean, if the slots are fresh and cover the requests. -/
theorem clean_return (w : Swarm) (s : Nat) (out : List Request)
    (slots : ∀ i ∈ (w.sessions s).dl.staging.indices, w.torrent.hasPiece i = false)
    (asked : ∀ request ∈ out, request.1 ∈ (w.sessions s).dl.staging.indices) :
    Return.Clean ⟨s, out, out.filter (fun request => w.torrent.hasPiece request.1), w.hadSlots s⟩ := by
  refine ⟨?_, ?_⟩
  · rw [List.filter_eq_nil_iff]
    intro request member
    rw [slots _ (asked request member)]
    exact Bool.false_ne_true
  · rw [Swarm.hadSlots, List.filter_eq_nil_iff]
    intro i member
    rw [slots i member]
    exact Bool.false_ne_true

/-- The end of a call, after a step `w1` that kept possession. -/
theorem refresh_finish (w w1 : Swarm) (s : Nat) (x : Session) (out : List Request)
    (moved : Moved w w1 s x) (same : ledger w1.torrent = ledger w.torrent)
    (returns : w1.returns = w.returns)
    (slots : ∀ i ∈ x.dl.staging.indices, w.torrent.hasPiece i = false)
    (asked : ∀ request ∈ out, request.1 ∈ x.dl.staging.indices) :
    Refresh w (w1.finish s out) s { x with pc := .idle } := by
  have mine := session_of_moved w w1 s x moved
  have had := hasPiece_of_ledger _ _ same
  have ended := moved_setPc w w1 s x .idle moved
  refine ⟨⟨ended.sessions, ended.joined⟩, same, fresh_idle _ _ rfl, ?_⟩
  intro r member
  rcases List.mem_append.1 member with old | new
  · exact Or.inl (returns ▸ old)
  · rw [List.mem_singleton.1 new]
    apply Or.inr
    apply clean_return w1 s out
    · rw [mine, had]
      exact slots
    · rw [mine]
      exact asked

/-- A call that goes on, after a step `w1` that kept possession. -/
theorem refresh_continue (w w1 : Swarm) (s : Nat) (x : Session) (pc : Pc) (moved : Moved w w1 s x)
    (same : ledger w1.torrent = ledger w.torrent) (returns : w1.returns = w.returns)
    (slots : ∀ i ∈ x.dl.staging.indices, w.torrent.hasPiece i = false)
    (picked : ∀ i, pcPick pc = some i → w.torrent.hasPiece i = false)
    (asked : ∀ request ∈ callOut pc, request.1 ∈ x.dl.staging.indices) :
    Refresh w (w1.setPc s pc) s { x with pc := pc } :=
  ⟨moved_setPc w w1 s x pc moved, same, ⟨fun _ => slots, picked, asked⟩,
    fun _ old => Or.inl (returns ▸ old)⟩

theorem refresh_round (w : Swarm) (s : Nat) (call : Call) (fresh : Fresh w.torrent (w.sessions s))
    (pc : (w.sessions s).pc = .round call) : ∃ x, Refresh w (w.round s call) s x := by
  have filled := fillExisting_fills call.pipeline (w.sessions s).dl.may
    (w.sessions s).dl.staging.indices (w.sessions s).dl.staging
  have slots := fresh.slots (by rw [pc]; rfl)
  have asked : ∀ request ∈ call.out, request.1 ∈ (w.sessions s).dl.staging.indices := by
    have known := fresh.asked
    rw [pc] at known
    exact known
  have more : ∀ request ∈ call.out ++ (StagingPool.fillExisting call.pipeline (w.sessions s).dl.may
      (w.sessions s).dl.staging.indices (w.sessions s).dl.staging).1,
      request.1 ∈ (w.sessions s).dl.staging.indices := by
    intro request member
    exact (List.mem_append.1 member).elim (asked request) (filled.asked request)
  unfold Swarm.round
  dsimp only
  split_ifs
  · exact ⟨_, refresh_finish w w s _ call.out (moved_refl w s) rfl rfl slots asked⟩
  · refine ⟨_, refresh_finish w _ s _ _ (moved_setDl w s _) rfl rfl ?_ ?_⟩
    · rw [filled.indices]
      exact slots
    · rw [filled.indices]
      exact more
  · refine ⟨_, refresh_continue w _ s _ _ (moved_setDl w s _) rfl rfl ?_ ?_ ?_⟩
    · rw [filled.indices]
      exact slots
    · intro i pick
      cases pick
    · rw [filled.indices]
      exact more

theorem refresh_suggest (w : Swarm) (s : Nat) (call : Call) (fresh : Fresh w.torrent (w.sessions s))
    (pc : (w.sessions s).pc = .suggest call) : ∃ x, Refresh w (w.suggest s call) s x := by
  obtain ⟨slots, _, asked⟩ := fresh
  rw [pc] at slots asked
  unfold Swarm.suggest
  dsimp only
  split
  · refine ⟨_, refresh_continue w w s _ _ (moved_refl w s) rfl rfl (slots rfl) ?_ asked⟩
    intro i pick
    cases pick
  · rename_i index rest _
    split_ifs with able
    · refine ⟨_, refresh_continue w _ s _ _ (moved_setDl w s _) rfl rfl (slots rfl) ?_ asked⟩
      rintro i ⟨⟩
      exact able.2.1
    · refine ⟨_, moved_setDl w s _, rfl, ⟨fun _ => slots rfl, ?_, ?_⟩, fun _ old => Or.inl old⟩
      · dsimp only
        rw [pc]
        intro i pick
        cases pick
      · dsimp only
        rw [pc]
        exact asked

theorem refresh_pick (w : Swarm) (s index : Nat) (call : Call) (snapshot : Snapshot)
    (fresh : Fresh w.torrent (w.sessions s)) (pc : (w.sessions s).pc = .picking call snapshot)
    (open' : w.torrent.hasPiece index = false) :
    ∃ x, Refresh w (w.setPc s (.claiming call (some snapshot) index)) s x := by
  obtain ⟨slots, _, asked⟩ := fresh
  rw [pc] at slots asked
  refine ⟨_, refresh_continue w w s _ _ (moved_refl w s) rfl rfl (slots rfl) ?_ asked⟩
  rintro i ⟨⟩
  exact open'

theorem refresh_claim (w : Swarm) (s index : Nat) (call : Call) (snapshot : Option Snapshot)
    (fresh : Fresh w.torrent (w.sessions s)) (pc : (w.sessions s).pc = .claiming call snapshot index) :
    ∃ x, Refresh w (w.claim s call snapshot index) s x := by
  obtain ⟨slots, picked, asked⟩ := fresh
  rw [pc] at slots picked asked
  unfold Swarm.claim insertClaim
  dsimp only
  by_cases grant : ((w.sessions s).dl.endgame || decide (index ∉ w.torrent.inFlight)) = true
  · rw [if_pos grant]
    split
    · refine ⟨_, refresh_continue w _ s _ _ ⟨rfl, rfl⟩ rfl rfl (slots rfl) ?_ asked⟩
      rintro i ⟨⟩
      exact picked index rfl
    · exact ⟨_, refresh_finish w _ s _ _ ⟨rfl, rfl⟩ rfl rfl (slots rfl) asked⟩
  · rw [if_neg grant]
    have same : Moved w { w with torrent := { w.torrent with
        inFlight := insert index w.torrent.inFlight } } s (w.sessions s) :=
      ⟨(Function.update_eq_self s w.sessions).symm, rfl⟩
    split
    · refine ⟨_, refresh_continue w _ s _ _ same rfl rfl (slots rfl) ?_ asked⟩
      intro i pick
      cases pick
    · refine ⟨_, refresh_continue w _ s _ _ same rfl rfl (slots rfl) ?_ asked⟩
      intro i pick
      cases pick

theorem refresh_openPiece (w : Swarm) (s index length : Nat) (call : Call)
    (fresh : Fresh w.torrent (w.sessions s)) (pc : (w.sessions s).pc = .opening call index length) :
    ∃ x, Refresh w (w.openPiece s call index length) s x := by
  obtain ⟨slots, picked, asked⟩ := fresh
  rw [pc] at slots picked asked
  have open' := picked index rfl
  unfold Swarm.openPiece
  dsimp only
  by_cases contained : (w.sessions s).dl.staging.contains index = true
  · rw [if_pos contained]
    exact ⟨_, refresh_finish w w s _ _ (moved_refl w s) rfl rfl (slots rfl) asked⟩
  rw [if_neg contained]
  have stored := storePool_frame w.torrent (w.sessions s).dl.staging
    ((w.sessions s).dl.staging.tryStart (sharedPool w.torrent (w.sessions s).dl.staging) index length).2.2
  rcases tryStart_cases (w.sessions s).dl.staging (sharedPool w.torrent (w.sessions s).dl.staging)
    index length (Bool.eq_false_of_not_eq_true contained) with ⟨started, indices, _⟩ | ⟨refused, _⟩
  · have wider : ∀ staging : StagingPool, staging.indices =
        (w.sessions s).dl.staging.indices ++ [index] →
        (∀ i ∈ staging.indices, w.torrent.hasPiece i = false) ∧
          ∀ request ∈ call.out, request.1 ∈ staging.indices := by
      intro staging same
      rw [same]
      refine ⟨fun i member => ?_, fun request member => List.mem_append_left _ (asked request member)⟩
      rcases List.mem_append.1 member with old | new
      · exact slots rfl i old
      · rw [List.mem_singleton.1 new]
        exact open'
    rw [if_pos started]
    split_ifs
    · refine ⟨_, refresh_continue w _ s _ _ ⟨rfl, rfl⟩ stored.1 rfl (wider _ indices).1 ?_
        (wider _ indices).2⟩
      intro i pick
      cases pick
    · split
      · rename_i request staging next
        obtain ⟨named, _, kept, _⟩ := requestNext_some _ staging index request next
        have wide := wider staging (kept.trans indices)
        refine ⟨_, refresh_continue w _ s _ _ (moved_thenSetDl w _ s _ _ ⟨rfl, rfl⟩) stored.1
          rfl ?_ ?_ ?_⟩
        · exact wide.1
        · intro i pick
          cases pick
        · intro other member
          rcases List.mem_append.1 member with old | new
          · exact wide.2 other old
          · rw [List.mem_singleton.1 new, named]
            dsimp only
            rw [kept, indices]
            exact List.mem_append_right _ (List.mem_singleton_self index)
      · exact ⟨_, refresh_finish w _ s _ _ ⟨rfl, rfl⟩ stored.1 rfl (wider _ indices).1
          (wider _ indices).2⟩
  · rw [refused, if_neg Bool.false_ne_true]
    refine ⟨_, refresh_finish w (w.release s index) s _ _ ⟨rfl, rfl⟩ ?_ rfl (slots rfl) asked⟩
    unfold Swarm.release
    dsimp only
    split_ifs <;> rfl

theorem beginIssue_out (dl : PeerDownload) (t : HotTorrent) (grant : Option Nat) (call : Call)
    (begun : dl.beginIssue t grant = some call) : call.out = [] := by
  unfold PeerDownload.beginIssue at begun
  obtain ⟨blocks, _, later⟩ := Option.bind_eq_some_iff.1 begun
  dsimp only at later
  split_ifs at later
  cases later
  rfl

theorem refresh_issue (w : Swarm) (s : Nat) (grant : Option Nat)
    (slots : ∀ i ∈ (w.sessions s).dl.staging.indices, w.torrent.hasPiece i = false) :
    ∃ x, Refresh w (w.issue s grant) s x := by
  unfold Swarm.issue
  split
  · exact ⟨_, refresh_finish w w s _ [] (moved_refl w s) rfl rfl slots
      (fun _ none' => absurd none' List.not_mem_nil)⟩
  · rename_i call begun
    refine ⟨_, refresh_continue w w s _ (.round call) (moved_refl w s) rfl rfl slots ?_ ?_⟩
    · intro i pick
      cases pick
    · rw [callOut, beginIssue_out _ _ _ _ begun]
      exact fun _ none' => absurd none' List.not_mem_nil

/-- A step that leaves the session outside of a call. -/
theorem refresh_outside (w w' : Swarm) (s : Nat) (x : Session) (moved : Moved w w' s x)
    (same : ledger w'.torrent = ledger w.torrent) (returns : w'.returns = w.returns)
    (outside : inCall x.pc = false) : ∃ x, Refresh w w' s x :=
  ⟨x, moved, same, fresh_idle w.torrent x outside, fun _ old => Or.inl (returns ▸ old)⟩

theorem refresh_leave (w w1 : Swarm) (s : Nat) (x : Session) (moved : Moved w w1 s x)
    (same : ledger w1.torrent = ledger w.torrent) (returns : w1.returns = w.returns) :
    ∃ x, Refresh w (w1.leave s) s x := by
  have stored := storePool_frame w1.torrent (w1.sessions s).dl.staging
    ((w1.sessions s).dl.staging.clear (sharedPool w1.torrent (w1.sessions s).dl.staging)).2
  refine refresh_outside w _ s absent ⟨?_, moved.joined⟩ (stored.1.trans same) returns rfl
  simp only [Swarm.leave, Swarm.setSession, moved.sessions, Function.update_idem]
  rfl

theorem refresh_handlePiece (w : Swarm) (s index begin' : Nat) (block : Buffer) (submitted : Bool)
    (idle : (w.sessions s).pc = .idle) :
    ∃ x, Refresh w (w.handlePiece s index begin' block submitted) s x := by
  have outside : inCall (w.sessions s).pc = false := by
    rw [idle]
    rfl
  have nothing := refresh_outside w w s _ (moved_refl w s) rfl rfl outside
  unfold Swarm.handlePiece
  dsimp only
  split_ifs
  · exact nothing
  · split
    · exact refresh_leave w w s _ (moved_refl w s) rfl rfl
    · exact nothing
    · rename_i complete staging _
      split_ifs
      · split
        · exact refresh_outside w _ s _ (moved_setDl w s _) rfl rfl outside
        · rename_i data taken shared _
          have stored := storePool_frame w.torrent staging shared
          split_ifs
          · exact refresh_outside w _ s _ ⟨rfl, rfl⟩ stored.1 rfl outside
          · have first : Moved w { w.setDl s { (w.sessions s).dl with
                staging := taken, hashing := insert index (w.sessions s).dl.hashing } with
                torrent := storePool w.torrent staging shared } s _ := ⟨rfl, rfl⟩
            have again := reclaim_frame { w.setDl s { (w.sessions s).dl with
                staging := taken, hashing := insert index (w.sessions s).dl.hashing } with
                torrent := storePool w.torrent staging shared } s index data
            exact refresh_leave w _ s _ (moved_trans w _ _ s _ _ first ⟨rfl, rfl⟩)
              (again.1.trans stored.1) rfl
      · exact refresh_outside w _ s _ (moved_setDl w s _) rfl rfl outside

theorem refresh_hashOk (w : Swarm) (s index : Nat) (data : Buffer) (idle : (w.sessions s).pc = .idle) :
    ∃ x, Refresh w (w.hashOk s index data) s x := by
  have frame := reclaim_frame w s index data
  have first : Moved w (w.reclaim s index data) s { w.sessions s with
      dl := reclaimed w s index data } := ⟨rfl, rfl⟩
  unfold Swarm.hashOk
  dsimp only
  split_ifs
  · refine refresh_outside w _ s _ first frame.1 rfl ?_
    rw [idle]
    rfl
  · exact refresh_outside w _ s _ (moved_setPc w _ s _ _ first) frame.1 rfl rfl

theorem refresh_outer (w : Swarm) (s : Nat) (event : Outer) (w' : Swarm)
    (idle : (w.sessions s).pc = .idle) (taken : stepOuter w s event = some w')
    (slots : ∀ grant, event = .issue grant →
      ∀ i ∈ (w.sessions s).dl.staging.indices, w.torrent.hasPiece i = false) :
    ∃ x, Refresh w w' s x := by
  have outside : inCall (w.sessions s).pc = false := by
    rw [idle]
    rfl
  have plain : ∀ dl, ∃ x, Refresh w (w.setDl s dl) s x :=
    fun dl => refresh_outside w _ s _ (moved_setDl w s dl) rfl rfl outside
  unfold stepOuter at taken
  cases event with
  | issue grant =>
    cases taken
    exact refresh_issue w s grant (slots grant rfl)
  | block index begin' data submitted =>
    cases taken
    exact refresh_handlePiece w s index begin' data submitted idle
  | hashOk index data =>
    dsimp only at taken
    split_ifs at taken
    cases taken
    exact refresh_hashOk w s index data idle
  | hashFail index data =>
    dsimp only at taken
    split_ifs at taken
    cases taken
    exact refresh_outside w _ s { w.sessions s with dl := reclaimed w s index data } ⟨rfl, rfl⟩
      (reclaim_frame w s index data).1 rfl outside
  | enterEndgame =>
    cases taken
    unfold Swarm.enterEndgame
    dsimp only
    split_ifs
    · exact plain _
    · exact refresh_outside w w s _ (moved_refl w s) rfl rfl outside
  | clearStaging =>
    cases taken
    exact refresh_outside w _ s _ ⟨rfl, rfl⟩ (storePool_frame _ _ _).1 rfl outside
  | leave =>
    cases taken
    exact refresh_leave w w s _ (moved_refl w s) rfl rfl
  | stall | resume _ | setPipeline _ | choke _ | allowedFast _ | suggestPiece _ | peerHas _
  | reject _ _ _ =>
    cases taken
    exact plain _

/-- The condition on a step: a call starts with no had piece among the slots of its session, and no
piece is completed that another session, inside a call, assembles or has picked. -/
def requestGuard (w : Swarm) : Event → Bool
  | .outer s (.issue _) =>
    decide (∀ i ∈ (w.sessions s).dl.staging.indices, w.torrent.hasPiece i = false)
  | .inner s .setHave =>
    match (w.sessions s).pc with
    | .marking index =>
      decide (∀ t < w.joined, inCall (w.sessions t).pc = true →
        index ∉ (w.sessions t).dl.staging.indices ∧ pcPick (w.sessions t).pc ≠ some index)
    | _ => true
  | _ => true

/-- Completing a piece that no running call works on. -/
theorem fresh_settleMark (t : HotTorrent) (valid : Balanced t) (index : Nat) (below : index < t.pieceCount)
    (x : Session) (fresh : Fresh t x) (apart : inCall x.pc = true →
      index ∉ x.dl.staging.indices ∧ pcPick x.pc ≠ some index) : Fresh (settleMark t index) x := by
  have kept : ∀ i, i ≠ index → t.hasPiece i = false → (settleMark t index).hasPiece i = false := by
    intro i other open'
    rw [← Bool.not_eq_true, hasPiece_settleMark t valid index i below, not_or]
    refine ⟨?_, other⟩
    rw [open']
    exact Bool.false_ne_true
  refine ⟨?_, ?_, fresh.asked⟩
  · intro inside i member
    apply kept i _ (fresh.slots inside i member)
    rintro rfl
    exact (apart inside).1 member
  · intro i pick
    apply kept i _ (fresh.picked i pick)
    rintro rfl
    refine (apart ?_).2 pick
    cases pc : x.pc <;> simp [pc, pcPick] at pick <;> rfl

theorem tidy_setHave (w : Swarm) (s index : Nat) (tidy : Tidy w)
    (marking : (w.sessions s).pc = .marking index)
    (sound : Sound ({ w with torrent := settleMark w.torrent index }.setPc s .idle))
    (guarded : requestGuard w (.inner s .setHave) = true) :
    Tidy ({ w with torrent := settleMark w.torrent index }.setPc s .idle) := by
  have below : index < w.torrent.pieceCount :=
    (tidy.sound.fit s).small index (Or.inr (Or.inr (by rw [marking]; rfl)))
  simp only [requestGuard, marking, decide_eq_true_eq] at guarded
  refine ⟨sound, ?_, tidy.clean⟩
  intro t
  simp only [Swarm.setPc, Swarm.setSession]
  by_cases same : t = s
  · rw [same, Function.update_self]
    exact fresh_idle _ _ rfl
  · rw [Function.update_of_ne same]
    apply fresh_settleMark w.torrent tidy.sound.balanced index below _ (tidy.fresh t)
    intro inside
    by_cases early : t < w.joined
    · exact guarded t early inside
    · rw [tidy.sound.beyond t (Nat.not_lt.1 early)] at inside
      cases inside

theorem tidy_inner (w : Swarm) (s : Nat) (event : Inner) (w' : Swarm) (tidy : Tidy w) (sound : Sound w')
    (guarded : requestGuard w (.inner s event) = true) (taken : stepInner w s event = some w') :
    Tidy w' := by
  have fresh := tidy.fresh s
  have conclude : (∃ x, Refresh w w' s x) → Tidy w' := by
    rintro ⟨x, refresh⟩
    exact tidy_of_refresh w w' s x tidy sound refresh
  unfold stepInner at taken
  split at taken
  · rename_i call pc
    cases taken
    exact conclude (refresh_round w s call fresh pc)
  · rename_i call pc
    cases taken
    exact conclude (refresh_suggest w s call fresh pc)
  · rename_i call snapshot index pc
    split_ifs at taken with able
    cases taken
    exact conclude (refresh_pick w s index call snapshot fresh pc able.2.2)
  · rename_i call snapshot pc
    cases taken
    obtain ⟨slots, _, asked⟩ := fresh
    rw [pc] at slots asked
    exact conclude ⟨_, refresh_finish w w s _ _ (moved_refl w s) rfl rfl (slots rfl) asked⟩
  · rename_i call snapshot index pc
    cases taken
    exact conclude (refresh_claim w s index call snapshot fresh pc)
  · rename_i call index length pc
    cases taken
    exact conclude (refresh_openPiece w s index length call fresh pc)
  · rename_i index pc
    cases taken
    exact conclude (refresh_outside w _ s _ ⟨rfl, rfl⟩ rfl rfl rfl)
  · rename_i index pc
    cases taken
    exact tidy_setHave w s index tidy pc sound guarded
  · cases taken

theorem tidy_join (w : Swarm) (wantDownload : Bool) (memLimit pipeline : Nat) (tidy : Tidy w)
    (sound : Sound (w.join wantDownload memLimit pipeline)) :
    Tidy (w.join wantDownload memLimit pipeline) := by
  have same : ledger (w.join wantDownload memLimit pipeline).torrent = ledger w.torrent := by
    simp only [Swarm.join]
    split_ifs
    · exact ledger_ensureStagingPool _
    · rfl
  refine ⟨sound, ?_, tidy.clean⟩
  intro t
  by_cases new : t = w.joined
  · apply fresh_idle
    simp only [Swarm.join, new, Function.update_self]
    rfl
  · apply fresh_of_ledger w.torrent _ _ same
    simp only [Swarm.join, Function.update_of_ne new]
    exact tidy.fresh t

theorem tidy_setFilePriority (w : Swarm) (fileIdx : Nat) (priority : Int) (tidy : Tidy w)
    (sound : Sound { w with torrent := w.torrent.setFilePriority fileIdx priority }) :
    Tidy { w with torrent := w.torrent.setFilePriority fileIdx priority } := by
  have had := hasPiece_setFilePriority w.torrent fileIdx priority
  refine ⟨sound, fun t => ⟨?_, ?_, (tidy.fresh t).asked⟩, tidy.clean⟩
  · intro inside i member
    rw [had]
    exact (tidy.fresh t).slots inside i member
  · intro i pick
    rw [had]
    exact (tidy.fresh t).picked i pick

theorem tidy_step (w : Swarm) (event : Event) (w' : Swarm) (tidy : Tidy w)
    (guarded : requestGuard w event = true) (taken : step w event = some w') : Tidy w' := by
  have sound := (advances_step w event w' tidy.sound taken).sound
  cases event with
  | join wantDownload memLimit pipeline =>
    cases taken
    exact tidy_join w wantDownload memLimit pipeline tidy sound
  | inner s event =>
    simp only [step] at taken
    split_ifs at taken
    exact tidy_inner w s event w' tidy sound guarded taken
  | outer s event =>
    simp only [step] at taken
    split_ifs at taken with able
    obtain ⟨x, refresh⟩ := refresh_outer w s event w' able.2 taken (by
      rintro grant rfl
      simp only [requestGuard, decide_eq_true_eq] at guarded
      exact guarded)
    exact tidy_of_refresh w w' s x tidy sound refresh
  | setFilePriority fileIdx priority =>
    cases taken
    exact tidy_setFilePriority w fileIdx priority tidy sound

theorem tidy_initial (t : HotTorrent) (start : Start t) : Tidy (initial t) :=
  ⟨sound_initial t start, fun _ => fresh_idle _ _ rfl, fun _ none' => absurd none' List.not_mem_nil⟩

/-- No return of `issue_requests` hands out a request for a had piece or leaves a had piece in a slot,
in every run whose steps meet `requestGuard`. -/
theorem requests_fresh (t : HotTorrent) (start : Start t) (events : List Event) (w : Swarm)
    (kept : Guarded step (fun w event => requestGuard w event = true) (initial t) events)
    (ran : exec step (initial t) events = some w) :
    ∀ r ∈ w.returns, r.hadRequests = [] ∧ r.hadSlots = [] := by
  have tidy : Tidy w := by
    refine exec_invariant step _ Tidy ?_ (initial t) w events (tidy_initial t start) kept ran
    exact fun w event w' tidy guarded taken => tidy_step w event w' tidy guarded taken
  exact tidy.clean

def claimed : Swarm := (exec step (initial tenEmpty) (claimFirst 0)).getD (initial tenEmpty)

theorem requests_fresh_claimFirst :
    (claimed.returns.map Return.requests).flatten = [(0, 0, 1)] ∧
      ∀ r ∈ claimed.returns, r.hadRequests = [] ∧ r.hadSlots = [] := by
  have start : Start tenEmpty := .empty 1 [] (bytePieces 10) _
  have returns : (exec step (initial tenEmpty) (claimFirst 0)).isSome = true := by decide +kernel
  have ran := (Option.getD_of_ne_none (Option.isSome_iff_ne_none.1 returns) (initial tenEmpty)).symm
  have kept := guarded_of_guardedB step requestGuard (initial tenEmpty) (claimFirst 0)
    (by decide +kernel)
  exact ⟨by decide +kernel, requests_fresh tenEmpty start (claimFirst 0) claimed kept ran⟩

/-- Three pieces of one byte: few enough for endgame from the start. -/
def threeEmpty : HotTorrent := newEmpty 1 [] (bytePieces 3) (List.replicate 60 0)

/-- A session joins an unchoked peer that has everything, enters endgame and requests piece 0. -/
def endgameFirst (s : Nat) : List Event :=
  [.join true 0 8, .outer s (.choke false), .outer s (.peerHas [224]), .outer s .enterEndgame,
    .outer s (.issue (some BLOCK_SIZE)), .inner s .round, .inner s .suggest, .inner s (.pick 0),
    .inner s .claim, .inner s .openPiece, .inner s .round]

/-- Both sessions assemble piece 0, the second completes it, and the first one stalls and asks again. -/
def completeThenStall : List Event :=
  endgameFirst 0 ++ endgameFirst 1 ++
    [.outer 1 (.block 0 0 [7] true), .outer 1 (.hashOk 0 [7]), .inner 1 .releaseClaim,
      .inner 1 .setHave, .outer 0 .stall, .outer 0 (.issue (some BLOCK_SIZE)), .inner 0 .round]

def asked : Swarm := (exec step (initial threeEmpty) completeThenStall).getD (initial threeEmpty)

/-- A stalled slot is requested again although another session completed its piece. -/
theorem stalled_piece_asked_again :
    ¬∀ (t : HotTorrent) (events : List Event) (w : Swarm), Start t →
      exec step (initial t) events = some w →
      ∀ r ∈ w.returns, r.hadRequests = [] ∧ r.hadSlots = [] := by
  intro always
  have returns : (exec step (initial threeEmpty) completeThenStall).isSome = true := by decide +kernel
  have ran := (Option.getD_of_ne_none (Option.isSome_iff_ne_none.1 returns) (initial threeEmpty)).symm
  have clean := always threeEmpty completeThenStall asked (.empty 1 [] (bytePieces 3) _) ran
    ⟨0, [(0, 0, 1)], [(0, 0, 1)], [0]⟩ (by decide +kernel)
  exact absurd clean.1 (List.cons_ne_nil _ _)

end Seedchamp.Peer.Requests
