import Seedchamp.Foundation.Leases
import Seedchamp.Peer.Download
import Seedchamp.Staging.Assembly

/-!
Piece claims as leases. The in-flight set of the torrent is the registry and each session keeps its
own list of held pieces; every step of a session is a step of the lease system.
-/

namespace Seedchamp.Peer.Claims
open Catalog.Bitfield Disk.Spans Foundation Foundation.Leases Foundation.TransitionSystem
open Hot.Torrent Hot.Torrent.HotTorrent Hot.Possession Staging.PiecePool Staging.Pool
open Staging.Assembly Peer.Download

/-- The piece a running call works on, once it is claimed. -/
def pcIndex : Pc → Option Nat
  | .opening _ index _ => some index
  | .releasing index => some index
  | .marking index => some index
  | _ => none

def own (session : Session) : Own Nat where
  live := session.live = true
  holds index := index ∈ session.dl.held
  shared index := index ∈ session.endgameHeld
  busy index := index ∈ session.dl.staging.indices ∨ index ∈ session.dl.hashing ∨
    pcIndex session.pc = some index
  closing index := session.pc = .marking index

def registry (w : Swarm) : Registry Nat Nat where
  taken index := index ∈ w.torrent.inFlight
  closed index := w.torrent.hasPiece index = true
  own s := own (w.sessions s)

/-- The piece that `start_piece` settled on, before it has a slot. -/
def pcPick : Pc → Option Nat
  | .claiming _ _ index => some index
  | .opening _ index _ => some index
  | _ => none

/-- What every session of a reachable swarm satisfies, claims aside. -/
structure Fit (pieceCount : Nat) (x : Session) : Prop where
  small : ∀ index, (own x).busy index → index < pieceCount
  picked : ∀ index, pcPick x.pc = some index → index < pieceCount ∧ index ∉ x.dl.hashing

structure Sound (w : Swarm) : Prop where
  balanced : Balanced w.torrent
  beyond : ∀ t, w.joined ≤ t → w.sessions t = absent
  fit : ∀ s, Fit w.torrent.pieceCount (w.sessions s)

/-- A step of one session replaces that session only. -/
structure Moved (w w' : Swarm) (s : Nat) (x : Session) : Prop where
  sessions : w'.sessions = Function.update w.sessions s x
  joined : w'.joined = w.joined

theorem moved_refl (w : Swarm) (s : Nat) : Moved w w s (w.sessions s) :=
  ⟨(Function.update_eq_self s w.sessions).symm, rfl⟩

theorem moved_trans (w w1 w2 : Swarm) (s : Nat) (x y : Session) (first : Moved w w1 s x)
    (second : Moved w1 w2 s y) : Moved w w2 s y :=
  ⟨by rw [second.sessions, first.sessions, Function.update_idem], second.joined.trans first.joined⟩

theorem session_of_moved (w w' : Swarm) (s : Nat) (x : Session) (moved : Moved w w' s x) :
    w'.sessions s = x := by rw [moved.sessions, Function.update_self]

theorem moved_setDl (w : Swarm) (s : Nat) (dl : PeerDownload) :
    Moved w (w.setDl s dl) s { w.sessions s with dl := dl } := ⟨rfl, rfl⟩

theorem moved_thenSetDl (w w1 : Swarm) (s : Nat) (x : Session) (dl : PeerDownload)
    (moved : Moved w w1 s x) : Moved w (w1.setDl s dl) s { x with dl := dl } := by
  refine moved_trans w w1 _ s x _ moved ⟨?_, rfl⟩
  simp only [Swarm.setDl, Swarm.setSession, session_of_moved w w1 s x moved]

theorem moved_setPc (w w1 : Swarm) (s : Nat) (x : Session) (pc : Pc) (moved : Moved w w1 s x) :
    Moved w (w1.setPc s pc) s { x with pc := pc } := by
  refine moved_trans w w1 _ s x _ moved ⟨?_, rfl⟩
  simp only [Swarm.setPc, Swarm.setSession, session_of_moved w w1 s x moved]

theorem frame_of_moved (w w' : Swarm) (s : Nat) (x : Session) (moved : Moved w w' s x) :
    Frame (registry w) (registry w') s := by
  intro t other
  simp only [registry, moved.sessions, Function.update_of_ne other]

theorem own_of_moved (w w' : Swarm) (s : Nat) (x : Session) (moved : Moved w w' s x) :
    (registry w').own s = own x := by
  simp only [registry, moved.sessions, Function.update_self]

theorem storePool_frame (t : HotTorrent) (staging : StagingPool) (shared : Option PieceBufferPool) :
    ledger (storePool t staging shared) = ledger t ∧
      (storePool t staging shared).inFlight = t.inFlight := by
  unfold storePool
  split <;> exact ⟨rfl, rfl⟩

theorem markHave_eq (t : HotTorrent) (index : Nat) :
    (t.markHave index).1 = settleMark (t.releasePieceClaim index) index := by
  unfold markHave settleMark
  dsimp only
  split_ifs <;> rfl

theorem ledger_settleHave_release (t : HotTorrent) (index : Nat) :
    ledger ((t.releasePieceClaim index).recordHave index).settleHave =
      ledger (t.recordHave index).settleHave := by
  have same : ((t.releasePieceClaim index).recordHave index).fullyHad =
      (t.recordHave index).fullyHad := rfl
  unfold settleHave
  rw [same]
  split_ifs <;> rfl

/-- The claim of a piece does not matter to the rest of `mark_have`. -/
theorem ledger_settleMark (t : HotTorrent) (index : Nat) :
    ledger (settleMark t index) = ledger (t.markHave index).1 := by
  rw [markHave_eq]
  unfold settleMark
  by_cases known : (t.pieces.complete || bitfieldGet t.pieces.bitfield index) = true
  · rw [if_pos known, if_pos (show ((t.releasePieceClaim index).pieces.complete ||
      bitfieldGet (t.releasePieceClaim index).pieces.bitfield index) = true from known)]
    rfl
  · rw [if_neg known, if_neg (show ¬((t.releasePieceClaim index).pieces.complete ||
      bitfieldGet (t.releasePieceClaim index).pieces.bitfield index) = true from known),
      ledger_afterHave, ledger_afterHave, ledger_settleHave_release]

theorem inFlight_settleMark (t : HotTorrent) (index : Nat) :
    (settleMark t index).inFlight = t.inFlight := by
  unfold settleMark settleHave afterHave dropPieceHashesIfComplete
  dsimp only
  split_ifs <;> rfl

theorem hasPiece_settleMark (t : HotTorrent) (valid : Balanced t) (index i : Nat)
    (below : index < t.pieceCount) :
    (settleMark t index).hasPiece i = true ↔ t.hasPiece i = true ∨ i = index := by
  rw [hasPiece_of_ledger _ _ (ledger_settleMark t index)]
  by_cases small : i < t.pieceCount
  · rw [hasPiece_markHave t valid index i below small, Bool.or_eq_true, beq_iff_eq, or_comm]
  · have large : t.pieceCount ≤ i := Nat.not_lt.1 small
    unfold hasPiece
    rw [if_pos large, pieceCount_markHave, if_pos large]
    constructor
    · intro absurd'
      cases absurd'
    · rintro (absurd' | same)
      · cases absurd'
      · omega

/-- What a step is known to do: `permits` is the condition under which its claim keeps the registry in
order, `forgets` says whether it is one that gives up a mark and keeps the hold. -/
structure Terms where
  permits : Prop
  forgets : Prop

/-- One step: the swarm stays sound and the lease system takes a step. -/
structure Advances (w w' : Swarm) (s : Nat) (terms : Terms) : Prop where
  sound : Sound w'
  moves : Covered (registry w) → ∃ action, Leases.Step (registry w) (registry w') s action ∧
    (terms.permits → Permitted (registry w) s action) ∧ (Forgets action → terms.forgets)

theorem sound_of_moved (w w' : Swarm) (s : Nat) (x : Session) (sound : Sound w)
    (live : (w.sessions s).live = true) (moved : Moved w w' s x) (balanced : Balanced w'.torrent)
    (count : w'.torrent.pieceCount = w.torrent.pieceCount) (fit : Fit w.torrent.pieceCount x) :
    Sound w' := by
  refine ⟨balanced, ?_, ?_⟩
  · intro t late
    rw [moved.joined] at late
    have other : t ≠ s := by
      rintro rfl
      rw [sound.beyond t late] at live
      cases live
    rw [moved.sessions, Function.update_of_ne other, sound.beyond t late]
  · intro t
    rw [count, moved.sessions]
    by_cases same : t = s
    · rw [same, Function.update_self]
      exact fit
    · rw [Function.update_of_ne same]
      exact sound.fit t

/-- A step that touches no claim: the session may drop work, or pass on what it is busy with. -/
structure Quiet (w w' : Swarm) (s : Nat) (dl : PeerDownload) (pc : Pc) : Prop where
  moved : Moved w w' s { w.sessions s with dl := dl, pc := pc }
  inFlight : w'.torrent.inFlight = w.torrent.inFlight
  ledger : ledger w'.torrent = ledger w.torrent
  held : dl.held = (w.sessions s).dl.held
  busy : ∀ i, (own { w.sessions s with dl := dl, pc := pc }).busy i → (own (w.sessions s)).busy i
  closing : ∀ i, pc ≠ .marking i
  picked : ∀ i, pcPick pc = some i → i < w.torrent.pieceCount ∧ i ∉ dl.hashing

theorem advances_quiet (w w' : Swarm) (s : Nat) (dl : PeerDownload) (pc : Pc) (terms : Terms)
    (sound : Sound w) (live : (w.sessions s).live = true) (quiet : Quiet w w' s dl pc) :
    Advances w w' s terms := by
  have same := hasPiece_of_ledger _ _ quiet.ledger
  refine ⟨?_, fun _ => ⟨.rest, .rest (frame_of_moved w w' s _ quiet.moved) ?_ ?_ ?_ ?_,
    fun _ => trivial, False.elim⟩⟩
  · refine sound_of_moved w w' s _ sound live quiet.moved
      (balanced_of_ledger _ _ quiet.ledger sound.balanced)
      (pieceCount_of_ledger _ _ quiet.ledger) ⟨?_, quiet.picked⟩
    exact fun i busy => (sound.fit s).small i (quiet.busy i busy)
  · intro i
    simp only [registry, quiet.inFlight]
  · intro i
    simp only [registry, same]
  · rw [own_of_moved w w' s _ quiet.moved]
    exact ⟨Iff.rfl, fun i => by simp only [own, registry, quiet.held], fun _ => Iff.rfl, quiet.busy⟩
  · intro i closing
    rw [own_of_moved w w' s _ quiet.moved] at closing
    exact absurd closing (quiet.closing i)

/-- A quiet step of a call that leaves torrent, held pieces and hash jobs alone. -/
theorem quiet_call (w w' : Swarm) (s : Nat) (staging : StagingPool) (suggested : List Nat) (pc : Pc)
    (sessions : w'.sessions = Function.update w.sessions s { w.sessions s with
      dl := { (w.sessions s).dl with staging := staging, suggested := suggested }, pc := pc })
    (joined : w'.joined = w.joined) (torrent : w'.torrent = w.torrent)
    (indices : staging.indices = (w.sessions s).dl.staging.indices) (busy : pcIndex pc = none)
    (picked : ∀ i, pcPick pc = some i → i < w.torrent.pieceCount ∧ i ∉ (w.sessions s).dl.hashing) :
    Quiet w w' s { (w.sessions s).dl with staging := staging, suggested := suggested } pc := by
  refine ⟨⟨sessions, joined⟩, by rw [torrent], by rw [torrent], rfl, ?_, ?_, picked⟩
  · intro i
    simp only [own, indices, busy]
    rintro (assembling | hashing | none')
    · exact Or.inl assembling
    · exact Or.inr (Or.inl hashing)
    · cases none'
  · intro i marking
    rw [marking] at busy
    cases busy

theorem advances_finish (w : Swarm) (s : Nat) (out : List Request) (terms : Terms) (sound : Sound w)
    (live : (w.sessions s).live = true) : Advances w (w.finish s out) s terms :=
  advances_quiet w _ s _ _ terms sound live
    (quiet_call w (w.finish s out) s (w.sessions s).dl.staging (w.sessions s).dl.suggested .idle rfl rfl
      rfl rfl rfl (fun _ none' => by cases none'))

theorem advances_issue (w : Swarm) (s : Nat) (grant : Option Nat) (terms : Terms) (sound : Sound w)
    (live : (w.sessions s).live = true) : Advances w (w.issue s grant) s terms := by
  unfold Swarm.issue
  split
  · exact advances_finish w s [] terms sound live
  · rename_i call _
    exact advances_quiet w _ s _ _ terms sound live
      (quiet_call w _ s (w.sessions s).dl.staging (w.sessions s).dl.suggested (.round call) rfl rfl
        rfl rfl rfl (fun _ none' => by cases none'))

theorem advances_round (w : Swarm) (s : Nat) (call : Call) (terms : Terms) (sound : Sound w)
    (live : (w.sessions s).live = true) : Advances w (w.round s call) s terms := by
  have filled := fillExisting_fills call.pipeline (w.sessions s).dl.may
    (w.sessions s).dl.staging.indices (w.sessions s).dl.staging
  unfold Swarm.round
  dsimp only
  split_ifs
  · exact advances_finish w s call.out terms sound live
  · refine advances_quiet w _ s _ _ terms sound live (quiet_call w _ s _
      (w.sessions s).dl.suggested .idle ?_ rfl rfl filled.indices rfl (fun _ none' => by cases none'))
    simp only [Swarm.finish, Swarm.setPc, Swarm.setDl, Swarm.setSession, Function.update_self,
      Function.update_idem]
  · refine advances_quiet w _ s _ _ terms sound live (quiet_call w _ s _
      (w.sessions s).dl.suggested (.suggest { call with
        turns := call.turns - 1
        queued := !(StagingPool.fillExisting call.pipeline (w.sessions s).dl.may
          (w.sessions s).dl.staging.indices (w.sessions s).dl.staging).1.isEmpty
        out := call.out ++ (StagingPool.fillExisting call.pipeline (w.sessions s).dl.may
          (w.sessions s).dl.staging.indices (w.sessions s).dl.staging).1 }) ?_ rfl rfl
      filled.indices rfl (fun _ none' => by cases none'))
    simp only [Swarm.setPc, Swarm.setDl, Swarm.setSession, Function.update_self,
      Function.update_idem]

theorem advances_suggest (w : Swarm) (s : Nat) (call : Call) (terms : Terms) (sound : Sound w)
    (live : (w.sessions s).live = true) (pc : (w.sessions s).pc = .suggest call) :
    Advances w (w.suggest s call) s terms := by
  unfold Swarm.suggest
  dsimp only
  split
  · exact advances_quiet w _ s _ _ terms sound live
      (quiet_call w _ s (w.sessions s).dl.staging (w.sessions s).dl.suggested (.picking call _) rfl rfl
        rfl rfl rfl (fun _ none' => by cases none'))
  · rename_i index rest _
    split_ifs with able
    · refine advances_quiet w _ s _ _ terms sound live (quiet_call w _ s (w.sessions s).dl.staging
        rest (.claiming call none index) ?_ rfl rfl rfl rfl ?_)
      · simp only [Swarm.setPc, Swarm.setDl, Swarm.setSession, Function.update_self,
          Function.update_idem]
      · rintro i ⟨⟩
        have unstarted := able.2.2.1
        simp only [PeerDownload.unstarted, Bool.and_eq_true, decide_eq_true_eq] at unstarted
        exact ⟨able.2.2.2, unstarted.1.1.2⟩
    · refine advances_quiet w _ s _ _ terms sound live (quiet_call w _ s (w.sessions s).dl.staging
        rest (.suggest call) ?_ rfl rfl rfl rfl (fun _ none' => by cases none'))
      simp only [Swarm.setDl, Swarm.setSession, ← pc]

theorem advances_pick (w : Swarm) (s index : Nat) (call : Call) (snapshot : Snapshot) (terms : Terms)
    (sound : Sound w) (live : (w.sessions s).live = true)
    (eligible : (w.sessions s).dl.eligible snapshot index = true) (below : index < w.torrent.pieceCount) :
    Advances w (w.setPc s (.claiming call (some snapshot) index)) s terms := by
  refine advances_quiet w _ s _ _ terms sound live (quiet_call w _ s (w.sessions s).dl.staging
    (w.sessions s).dl.suggested (.claiming call (some snapshot) index) rfl rfl rfl rfl rfl ?_)
  rintro i ⟨⟩
  simp only [PeerDownload.eligible, PeerDownload.unstarted, Bool.and_eq_true,
    decide_eq_true_eq] at eligible
  exact ⟨below, eligible.1.1.1.1.1.1.2⟩

/-- The piece is neither had nor being marked by any session. -/
def unsettled (w : Swarm) (index : Nat) : Bool :=
  !w.torrent.hasPiece index && decide (∀ t < w.joined, (w.sessions t).pc ≠ .marking index)

/-- No other session holds the piece by a claim made outside endgame, unless this one is in endgame. -/
def Alone (w : Swarm) (s index : Nat) : Prop :=
  (w.sessions s).dl.endgame = true ∨ ∀ t < w.joined, t ≠ s → index ∈ (w.sessions t).dl.held →
    index ∈ (w.sessions t).endgameHeld

theorem permitted_of_alone (w : Swarm) (s index : Nat) (sound : Sound w)
    (open' : unsettled w index = true) (alone : Alone w s index) :
    Permitted (registry w) s (.acquire index ((w.sessions s).dl.endgame = true)) := by
  simp only [unsettled, Bool.and_eq_true, Bool.not_eq_true', decide_eq_true_eq] at open'
  obtain ⟨fresh, unmarked⟩ := open'
  refine ⟨?_, ?_, alone.imp id ?_⟩
  · simp only [registry, fresh]
    exact Bool.false_ne_true
  · intro t marking
    by_cases early : t < w.joined
    · exact unmarked t early marking
    · simp only [registry, own, sound.beyond t (Nat.not_lt.1 early), absent] at marking
      cases marking
  · intro single t other holds
    by_cases early : t < w.joined
    · exact single t early other holds
    · simp only [registry, own, sound.beyond t (Nat.not_lt.1 early), absent, PeerDownload.new] at holds
      exact absurd holds (Finset.notMem_empty index)

/-- The swarm after a granted claim, once the session stands at `pc`. -/
theorem advances_granted (w w' : Swarm) (s index : Nat) (pc : Pc) (call : Call)
    (snapshot : Option Snapshot) (sound : Sound w) (live : (w.sessions s).live = true)
    (claiming : (w.sessions s).pc = .claiming call snapshot index)
    (sessions : w'.sessions = Function.update w.sessions s { w.sessions s with
      dl := { (w.sessions s).dl with held := insert index (w.sessions s).dl.held }
      pc := pc
      endgameHeld :=
        if (w.sessions s).dl.endgame then insert index (w.sessions s).endgameHeld
        else (w.sessions s).endgameHeld.erase index })
    (joined : w'.joined = w.joined)
    (torrent : w'.torrent = { w.torrent with inFlight := insert index w.torrent.inFlight })
    (busy : ∀ i, pcIndex pc = some i → i = index) (picked : ∀ i, pcPick pc = some i → i = index)
    (closing : ∀ i, pc ≠ .marking i) :
    Advances w w' s ⟨unsettled w index = true ∧ Alone w s index, False⟩ := by
  have moved : Moved w w' s _ := ⟨sessions, joined⟩
  have chosen := (sound.fit s).picked index (by rw [claiming]; rfl)
  have old := (sound.fit s).small
  refine ⟨?_, fun _ => ⟨.acquire index ((w.sessions s).dl.endgame = true), .acquire index _
    (frame_of_moved w w' s _ moved) live ?_ ?_ ?_ ?_ ?_ ?_ ?_ ?_,
    fun given => permitted_of_alone w s index sound given.1 given.2, False.elim⟩⟩
  · apply sound_of_moved w w' s _ sound live moved
    · rw [torrent]
      exact balanced_of_ledger w.torrent _ rfl sound.balanced
    · rw [torrent]
    · refine ⟨?_, ?_⟩
      · rintro i (assembling | hashing | working)
        · exact old i (Or.inl assembling)
        · exact old i (Or.inr (Or.inl hashing))
        · rw [busy i working]
          exact chosen.1
      · intro i pick
        rw [picked i pick]
        exact chosen
  all_goals try simp only [own_of_moved w w' s _ moved]
  · exact live
  · intro j
    simp only [registry, torrent, Finset.mem_insert]
    exact or_comm
  · intro j
    simp only [registry, torrent]
    exact Iff.rfl
  · intro j
    simp only [own, registry, Finset.mem_insert]
    exact or_comm
  · simp only [own]
    split_ifs with endgame
    · simp only [Finset.mem_insert, true_or, endgame]
    · simp only [Finset.mem_erase, ne_eq, not_true_eq_false, false_and, endgame,
        Bool.false_eq_true]
  · intro j other
    simp only [own, registry]
    split_ifs
    · simp only [Finset.mem_insert, other, false_or]
    · simp only [Finset.mem_erase, ne_eq, other, not_false_eq_true, true_and]
  · rintro j (assembling | hashing | working)
    · exact Or.inl (Or.inl assembling)
    · exact Or.inl (Or.inr (Or.inl hashing))
    · exact Or.inr (busy j working)
  · exact fun j => closing j

/-- Whether the claim in progress would be granted. -/
def granted (w : Swarm) (s index : Nat) : Bool :=
  (w.sessions s).dl.endgame || decide (index ∉ w.torrent.inFlight)

/-- A piece that passes the test of `try_claim_piece` is claimed there as in the swarm. -/
theorem tryClaimPiece_granted (w : Swarm) (s index : Nat) (below : index < w.torrent.pieceCount)
    (fresh : w.torrent.hasPiece index = false) :
    w.torrent.tryClaimPiece index (w.sessions s).dl.endgame =
      (granted w s index, (insertClaim w.torrent index (w.sessions s).dl.endgame).2) := by
  have passes : ¬(w.torrent.pieceCount ≤ index ∨ w.torrent.hasPiece index = true) := by
    rw [fresh]
    simp only [Nat.not_le.2 below, Bool.false_eq_true, or_self, not_false_eq_true]
  rw [tryClaimPiece, if_neg passes]
  by_cases endgame : (w.sessions s).dl.endgame = true
  · simp only [granted, insertClaim, endgame, if_true, Bool.true_or]
  · simp only [granted, insertClaim, endgame, Bool.false_or, Bool.false_eq_true, if_false]

theorem advances_weaken (w w' : Swarm) (s : Nat) (strong weak : Terms)
    (implies : weak.permits → strong.permits) (forgets : strong.forgets → weak.forgets)
    (advances : Advances w w' s strong) : Advances w w' s weak := by
  refine ⟨advances.sound, fun covered => ?_⟩
  obtain ⟨action, moves, permitted, forgotten⟩ := advances.moves covered
  exact ⟨action, moves, fun given => permitted (implies given), fun left => forgets (forgotten left)⟩

theorem advances_claim (w : Swarm) (s index : Nat) (call : Call) (snapshot : Option Snapshot)
    (sound : Sound w) (live : (w.sessions s).live = true)
    (claiming : (w.sessions s).pc = .claiming call snapshot index) :
    Advances w (w.claim s call snapshot index) s
      ⟨granted w s index = true → unsettled w index = true ∧ Alone w s index, False⟩ := by
  unfold Swarm.claim insertClaim
  dsimp only
  by_cases grant : ((w.sessions s).dl.endgame || decide (index ∉ w.torrent.inFlight)) = true
  · rw [if_pos grant]
    split
    · rename_i length _
      refine advances_weaken w _ s ⟨_, False⟩ _ (fun permits => permits grant) False.elim ?_
      refine advances_granted w _ s index (.opening call index length) call snapshot sound live
        claiming ?_ rfl rfl ?_ ?_ ?_
      · simp only [Swarm.setPc, Swarm.setSession, Function.update_self, Function.update_idem]
      · rintro i ⟨⟩
        rfl
      · rintro i ⟨⟩
        rfl
      · intro i same
        cases same
    · refine advances_weaken w _ s ⟨_, False⟩ _ (fun permits => permits grant) False.elim ?_
      refine advances_granted w _ s index .idle call snapshot sound live claiming ?_ rfl rfl ?_ ?_ ?_
      · simp only [Swarm.finish, Swarm.setPc, Swarm.setSession, Function.update_self,
          Function.update_idem]
      · rintro i ⟨⟩
      · rintro i ⟨⟩
      · intro i same
        cases same
  · rw [if_neg grant]
    simp only [Bool.or_eq_true, decide_eq_true_eq, not_or, not_not] at grant
    have known : insert index w.torrent.inFlight = w.torrent.inFlight :=
      Finset.insert_eq_of_mem grant.2
    rw [known]
    split
    · exact advances_quiet w _ s _ _ _ sound live (quiet_call w _ s (w.sessions s).dl.staging
        (w.sessions s).dl.suggested (.suggest call) rfl rfl rfl rfl rfl
        (fun _ none' => by cases none'))
    · rename_i kept
      exact advances_quiet w _ s _ _ _ sound live (quiet_call w _ s (w.sessions s).dl.staging
        (w.sessions s).dl.suggested (.picking call kept) rfl rfl rfl rfl rfl
        (fun _ none' => by cases none'))

/-- A piece that found no buffer is released; then the call returns. -/
theorem advances_abort (w : Swarm) (s index length : Nat) (call : Call) (terms : Terms)
    (sound : Sound w) (live : (w.sessions s).live = true)
    (opening : (w.sessions s).pc = .opening call index length)
    (absent' : (w.sessions s).dl.staging.contains index = false) :
    Advances w ((w.release s index).finish s call.out) s terms := by
  have unhashed : index ∉ (w.sessions s).dl.hashing :=
    ((sound.fit s).picked index (by rw [opening]; rfl)).2
  have unstaged : index ∉ (w.sessions s).dl.staging.indices := by
    intro member
    rw [contains_of_mem _ _ member] at absent'
    cases absent'
  have moved : Moved w ((w.release s index).finish s call.out) s { w.sessions s with
      dl := { (w.sessions s).dl with held := (w.sessions s).dl.held.erase index }
      pc := .idle
      endgameHeld := (w.sessions s).endgameHeld.erase index } := by
    refine ⟨?_, rfl⟩
    simp only [Swarm.release, Swarm.finish, Swarm.setPc, Swarm.setSession, Function.update_self,
      Function.update_idem]
  have torrent : ((w.release s index).finish s call.out).torrent =
      if index ∈ (w.sessions s).dl.held ∧ w.torrent.hasPiece index = false then
        w.torrent.releasePieceClaim index
      else w.torrent := by
    simp only [Swarm.release, Swarm.finish, Swarm.setPc, Swarm.setSession]
  have same : ledger ((w.release s index).finish s call.out).torrent = ledger w.torrent := by
    rw [torrent]
    split_ifs <;> rfl
  have kept := hasPiece_of_ledger _ _ same
  have busy : ((registry w).own s).busy index := Or.inr (Or.inr (by rw [opening]; rfl))
  refine ⟨?_, fun covered => ⟨.abandon index, .abandon index (frame_of_moved w _ s _ moved)
    (covered s index busy) ?_ ?_ ?_ ?_ ?_ ?_ ?_, fun _ => trivial, False.elim⟩⟩
  · refine sound_of_moved w _ s _ sound live moved (balanced_of_ledger _ _ same sound.balanced)
      (pieceCount_of_ledger _ _ same) ⟨?_, fun _ none' => by cases none'⟩
    rintro i (assembling | hashing | working)
    · exact (sound.fit s).small i (Or.inl assembling)
    · exact (sound.fit s).small i (Or.inr (Or.inl hashing))
    · cases working
  all_goals try simp only [own_of_moved w _ s _ moved]
  · exact Iff.rfl
  · intro j
    have held : index ∈ (w.sessions s).dl.held := covered s index busy
    simp only [registry, torrent, held, true_and]
    split_ifs with fresh
    · simp only [releasePieceClaim, Finset.mem_erase, fresh, Bool.false_eq_true, or_false]
      exact and_comm
    · simp only [Bool.eq_true_of_not_eq_false fresh, or_true, and_true]
  · intro j
    simp only [registry, kept]
  · intro j
    simp only [own, registry, Finset.mem_erase]
    exact and_comm
  · intro j other
    simp only [own, registry, Finset.mem_erase, ne_eq, other, not_false_eq_true, true_and]
  · rintro j (assembling | hashing | working)
    · exact ⟨Or.inl assembling, fun equal => unstaged (equal ▸ assembling)⟩
    · exact ⟨Or.inr (Or.inl hashing), fun equal => unhashed (equal ▸ hashing)⟩
    · cases working
  · intro j closing
    cases closing

/-- A started piece: the slot takes over the claimed index, and the call goes on or returns. -/
theorem advances_started (w w' : Swarm) (s index length : Nat) (call : Call) (pc : Pc)
    (staging : StagingPool) (terms : Terms) (sound : Sound w) (live : (w.sessions s).live = true)
    (opening : (w.sessions s).pc = .opening call index length)
    (indices : staging.indices = (w.sessions s).dl.staging.indices ++ [index])
    (sessions : w'.sessions = Function.update w.sessions s { w.sessions s with
      dl := { (w.sessions s).dl with staging := staging }, pc := pc })
    (joined : w'.joined = w.joined) (same : ledger w'.torrent = ledger w.torrent)
    (inFlight : w'.torrent.inFlight = w.torrent.inFlight) (idle : pcIndex pc = none)
    (unpicked : pcPick pc = none) : Advances w w' s terms := by
  refine advances_quiet w w' s { (w.sessions s).dl with staging := staging } pc terms sound live
    ⟨⟨sessions, joined⟩, inFlight, same, rfl, ?_, ?_, ?_⟩
  · intro i
    simp only [own, indices, idle, List.mem_append, List.mem_singleton]
    rintro ((assembling | new) | hashing | none')
    · exact Or.inl assembling
    · rw [opening, new]
      exact Or.inr (Or.inr rfl)
    · exact Or.inr (Or.inl hashing)
    · cases none'
  · rintro i rfl
    cases idle
  · intro i pick
    rw [unpicked] at pick
    cases pick

theorem advances_openPiece (w : Swarm) (s index length : Nat) (call : Call) (terms : Terms)
    (sound : Sound w) (live : (w.sessions s).live = true)
    (opening : (w.sessions s).pc = .opening call index length) :
    Advances w (w.openPiece s call index length) s terms := by
  unfold Swarm.openPiece
  dsimp only
  by_cases contained : (w.sessions s).dl.staging.contains index = true
  · rw [if_pos contained]
    exact advances_finish w s call.out terms sound live
  rw [if_neg contained]
  have absent' := Bool.eq_false_of_not_eq_true contained
  have stored := storePool_frame w.torrent (w.sessions s).dl.staging
    ((w.sessions s).dl.staging.tryStart (sharedPool w.torrent (w.sessions s).dl.staging) index length).2.2
  rcases tryStart_cases (w.sessions s).dl.staging
    (sharedPool w.torrent (w.sessions s).dl.staging) index length absent' with
    ⟨started, indices, _⟩ | ⟨refused, _⟩
  · rw [if_pos started]
    split_ifs
    · refine advances_started w _ s index length call (.round call) _ terms sound live opening
        indices ?_ rfl stored.1 stored.2 rfl rfl
      simp only [Swarm.setPc, Swarm.setDl, Swarm.setSession, Function.update_self,
        Function.update_idem]
    · split
      · rename_i request staging next
        have kept := (requestNext_some _ staging index request next).2.2.1
        refine advances_started w _ s index length call
          (.round { call with out := call.out ++ [request] }) staging terms sound live opening
          (kept.trans indices) ?_ rfl stored.1 stored.2 rfl rfl
        simp only [Swarm.setPc, Swarm.setDl, Swarm.setSession, Function.update_self,
          Function.update_idem]
      · refine advances_started w _ s index length call .idle _ terms sound live opening
          indices ?_ rfl stored.1 stored.2 rfl rfl
        simp only [Swarm.finish, Swarm.setPc, Swarm.setDl, Swarm.setSession, Function.update_self,
          Function.update_idem]
  · rw [refused, if_neg Bool.false_ne_true]
    exact advances_abort w s index length call terms sound live opening absent'

/-- The end of a session, after a step `w1` that let it finish what it was doing. -/
theorem advances_leave (w w1 : Swarm) (s : Nat) (x : Session) (terms : Terms) (sound : Sound w)
    (live : (w.sessions s).live = true) (moved : Moved w w1 s x)
    (held : x.dl.held = (w.sessions s).dl.held) (same : ledger w1.torrent = ledger w.torrent)
    (inFlight : w1.torrent.inFlight = w.torrent.inFlight) : Advances w (w1.leave s) s terms := by
  have mine : w1.sessions s = x := by rw [moved.sessions, Function.update_self]
  have gone : Moved w (w1.leave s) s absent := by
    refine ⟨?_, moved.joined⟩
    simp only [Swarm.leave, Swarm.setSession, moved.sessions, Function.update_idem]
    rfl
  have stored := storePool_frame w1.torrent (w1.sessions s).dl.staging
    ((w1.sessions s).dl.staging.clear (sharedPool w1.torrent (w1.sessions s).dl.staging)).2
  have kept : ledger (w1.leave s).torrent = ledger w.torrent := stored.1.trans same
  rw [mine] at stored
  have had := hasPiece_of_ledger _ _ kept
  have left : (w1.leave s).torrent.inFlight = w.torrent.inFlight \
      (w.sessions s).dl.held.filter (fun index => w.torrent.hasPiece index = false) := by
    have early := hasPiece_of_ledger _ _ (stored.1.trans same)
    simp only [Swarm.leave, early, stored.2, inFlight, mine, held]
  refine ⟨?_, fun _ => ⟨.leave, .leave (frame_of_moved w _ s _ gone) ?_ ?_ ?_ ?_ ?_ ?_,
    fun _ => trivial, False.elim⟩⟩
  · refine sound_of_moved w _ s _ sound live gone (balanced_of_ledger _ _ kept sound.balanced)
      (pieceCount_of_ledger _ _ kept) ⟨?_, fun _ none' => by cases none'⟩
    rintro i (assembling | hashing | working)
    · cases assembling
    · exact absurd hashing (Finset.notMem_empty i)
    · cases working
  all_goals try simp only [own_of_moved w _ s _ gone]
  · intro j
    simp only [registry, own, left, Finset.mem_sdiff, Finset.mem_filter, Bool.not_eq_true]
  · intro j
    simp only [registry, had]
  · exact Bool.false_ne_true
  · exact fun j => Finset.notMem_empty j
  · rintro j (assembling | hashing | working)
    · cases assembling
    · exact absurd hashing (Finset.notMem_empty j)
    · cases working
  · intro j closing
    cases closing

theorem reclaim_frame (w : Swarm) (s index : Nat) (data : Buffer) :
    ledger (w.reclaim s index data).torrent = ledger w.torrent ∧
      (w.reclaim s index data).torrent.inFlight = w.torrent.inFlight := storePool_frame _ _ _

/-- A step of an idle session that changes no piece it assembles or hashes. -/
theorem advances_local (w w' : Swarm) (s : Nat) (dl : PeerDownload) (terms : Terms) (sound : Sound w)
    (live : (w.sessions s).live = true) (idle : (w.sessions s).pc = .idle)
    (sessions : w'.sessions = Function.update w.sessions s { w.sessions s with dl := dl })
    (joined : w'.joined = w.joined) (same : ledger w'.torrent = ledger w.torrent)
    (inFlight : w'.torrent.inFlight = w.torrent.inFlight)
    (held : dl.held = (w.sessions s).dl.held)
    (indices : ∀ i, i ∈ dl.staging.indices → i ∈ (w.sessions s).dl.staging.indices)
    (hashing : ∀ i, i ∈ dl.hashing → i ∈ (w.sessions s).dl.hashing ∨
      i ∈ (w.sessions s).dl.staging.indices) : Advances w w' s terms := by
  refine advances_quiet w w' s dl .idle terms sound live
    ⟨⟨by rw [sessions, ← idle], joined⟩, inFlight, same, held, ?_, ?_, ?_⟩
  · rintro i (assembling | hashed | working)
    · exact Or.inl (indices i assembling)
    · rcases hashing i hashed with old | new
      · exact Or.inr (Or.inl old)
      · exact Or.inl new
    · cases working
  · intro i marking
    cases marking
  · intro i pick
    cases pick

theorem advances_handlePiece (w : Swarm) (s index begin' : Nat) (block : Buffer) (submitted : Bool)
    (terms : Terms) (sound : Sound w) (live : (w.sessions s).live = true)
    (idle : (w.sessions s).pc = .idle) :
    Advances w (w.handlePiece s index begin' block submitted) s terms := by
  have nothing : Advances w w s terms :=
    advances_local w w s (w.sessions s).dl terms sound live idle
      (Function.update_eq_self s w.sessions).symm rfl rfl rfl rfl (fun _ same => same)
      (fun _ same => Or.inl same)
  unfold Swarm.handlePiece
  dsimp only
  split_ifs
  · exact nothing
  · split
    · exact advances_leave w w s _ terms sound live (moved_refl w s) rfl rfl rfl
    · exact nothing
    · rename_i complete staging ingested
      obtain ⟨member, indices, _⟩ := ingestIfStaged_some _ staging index begin' block complete ingested
      split_ifs
      · split
        · exact advances_local w _ s _ terms sound live idle rfl rfl rfl rfl rfl
            (fun i old => indices ▸ old) (fun _ same => Or.inl same)
        · rename_i data taken shared took
          obtain ⟨_, fewer, _⟩ := takeForHash_some staging taken _ shared index data took
          have stored := storePool_frame w.torrent staging shared
          have hashing : ∀ i, i ∈ insert index (w.sessions s).dl.hashing →
              i ∈ (w.sessions s).dl.hashing ∨ i ∈ (w.sessions s).dl.staging.indices := by
            intro i inside
            rcases Finset.mem_insert.1 inside with new | old
            · exact Or.inr (new ▸ member)
            · exact Or.inl old
          split_ifs
          · exact advances_local w _ s _ terms sound live idle rfl rfl stored.1 stored.2 rfl
              (fun i new => indices ▸ fewer i new) hashing
          · have first : Moved w { w.setDl s { (w.sessions s).dl with
                staging := taken, hashing := insert index (w.sessions s).dl.hashing } with
                torrent := storePool w.torrent staging shared } s _ := ⟨rfl, rfl⟩
            have again := reclaim_frame { w.setDl s { (w.sessions s).dl with
                staging := taken, hashing := insert index (w.sessions s).dl.hashing } with
                torrent := storePool w.torrent staging shared } s index data
            refine advances_leave w _ s _ terms sound live (moved_trans w _ _ s _ _ first ⟨rfl, rfl⟩) ?_
              (again.1.trans stored.1) (again.2.trans stored.2)
            simp only [Swarm.setDl, Swarm.setSession, Function.update_self]
      · exact advances_local w _ s _ terms sound live idle rfl rfl rfl rfl rfl
          (fun i old => indices ▸ old) (fun _ same => Or.inl same)

/-- The session's state once a hash job came back. -/
def reclaimed (w : Swarm) (s index : Nat) (data : Buffer) : PeerDownload :=
  { (w.sessions s).dl with
    staging := ((w.sessions s).dl.staging.reclaim (sharedPool w.torrent (w.sessions s).dl.staging)
      index data).1
    hashing := (w.sessions s).dl.hashing.erase index }

theorem reclaimed_indices (w : Swarm) (s index : Nat) (data : Buffer) (i : Nat)
    (member : i ∈ (reclaimed w s index data).staging.indices) :
    i ∈ (w.sessions s).dl.staging.indices := by
  rw [reclaimed, indices_reclaim] at member
  exact member

theorem reclaimed_busy (w : Swarm) (s index : Nat) (data : Buffer) (pc : Pc)
    (known : ∀ i, pcIndex pc = some i → (own (w.sessions s)).busy i) (i : Nat)
    (busy : (own { w.sessions s with dl := reclaimed w s index data, pc := pc }).busy i) :
    (own (w.sessions s)).busy i := by
  rcases busy with assembling | hashing | working
  · exact Or.inl (reclaimed_indices w s index data i assembling)
  · exact Or.inr (Or.inl (Finset.mem_of_mem_erase hashing))
  · exact known i working

theorem advances_hashOk (w : Swarm) (s index : Nat) (data : Buffer) (terms : Terms) (sound : Sound w)
    (live : (w.sessions s).live = true) (idle : (w.sessions s).pc = .idle)
    (hashed : index ∈ (w.sessions s).dl.hashing) : Advances w (w.hashOk s index data) s terms := by
  have frame := reclaim_frame w s index data
  unfold Swarm.hashOk
  dsimp only
  split_ifs
  · exact advances_local w _ s (reclaimed w s index data) terms sound live idle rfl rfl frame.1
      frame.2 rfl (reclaimed_indices w s index data)
      (fun i left => Or.inl (Finset.mem_of_mem_erase left))
  · refine advances_quiet w _ s (reclaimed w s index data) (.releasing index) terms sound live
      ⟨⟨?_, rfl⟩, frame.2, frame.1, rfl, reclaimed_busy w s index data _ ?_, ?_, ?_⟩
    · simp only [Swarm.reclaim, Swarm.setPc, Swarm.setDl, Swarm.setSession, Function.update_self,
        Function.update_idem]
      rfl
    · rintro i ⟨⟩
      exact Or.inr (Or.inl hashed)
    · intro i other
      cases other
    · intro i pick
      cases pick

/-- A step that takes a piece out of the in-flight set and leaves its session holding it. -/
structure Drops (w w' : Swarm) (s index : Nat) (dl : PeerDownload) (pc : Pc) : Prop where
  moved : Moved w w' s { w.sessions s with dl := dl, pc := pc }
  inFlight : w'.torrent.inFlight = w.torrent.inFlight.erase index
  ledger : ledger w'.torrent = ledger w.torrent
  held : dl.held = (w.sessions s).dl.held
  busy : ∀ i, (own { w.sessions s with dl := dl, pc := pc }).busy i → (own (w.sessions s)).busy i
  unpicked : pcPick pc = none

theorem sound_of_drops (w w' : Swarm) (s index : Nat) (dl : PeerDownload) (pc : Pc) (sound : Sound w)
    (live : (w.sessions s).live = true) (drops : Drops w w' s index dl pc) : Sound w' := by
  refine sound_of_moved w w' s _ sound live drops.moved
    (balanced_of_ledger _ _ drops.ledger sound.balanced) (pieceCount_of_ledger _ _ drops.ledger) ⟨?_, ?_⟩
  · exact fun i busy => (sound.fit s).small i (drops.busy i busy)
  · intro i pick
    rw [drops.unpicked] at pick
    cases pick

theorem drops_taken (w w' : Swarm) (s index : Nat) (dl : PeerDownload) (pc : Pc)
    (drops : Drops w w' s index dl pc) (j : Nat) :
    (registry w').taken j ↔ (registry w).taken j ∧ j ≠ index := by
  simp only [registry, drops.inFlight, Finset.mem_erase]
  exact and_comm

theorem drops_closed (w w' : Swarm) (s index : Nat) (dl : PeerDownload) (pc : Pc)
    (drops : Drops w w' s index dl pc) (j : Nat) : (registry w').closed j ↔ (registry w).closed j := by
  simp only [registry, hasPiece_of_ledger _ _ drops.ledger]

theorem drops_steady (w w' : Swarm) (s index : Nat) (dl : PeerDownload) (pc : Pc)
    (drops : Drops w w' s index dl pc) : Steady ((registry w).own s) ((registry w').own s) := by
  rw [own_of_moved w w' s _ drops.moved]
  exact ⟨Iff.rfl, fun i => by simp only [own, registry, drops.held], fun _ => Iff.rfl, drops.busy⟩

theorem advances_hashFail (w : Swarm) (s index : Nat) (data : Buffer) (terms : Terms)
    (forgets : terms.forgets) (sound : Sound w) (live : (w.sessions s).live = true)
    (idle : (w.sessions s).pc = .idle) (hashed : index ∈ (w.sessions s).dl.hashing) : Advances w (w.hashFail s index data) s terms := by
  have frame := reclaim_frame w s index data
  have drops : Drops w (w.hashFail s index data) s index (reclaimed w s index data) .idle := by
    refine ⟨⟨?_, rfl⟩, ?_, frame.1, rfl, reclaimed_busy w s index data _ ?_, rfl⟩
    · rw [← idle]
      rfl
    · simp only [Swarm.hashFail, releasePieceClaim, frame.2]
    · intro i none'
      cases none'
  refine ⟨sound_of_drops w _ s index _ _ sound live drops, fun _ => ⟨.forget index,
    .forget index (frame_of_moved w _ s _ drops.moved) (Or.inr (Or.inl hashed))
      (drops_taken w _ s index _ _ drops) (drops_closed w _ s index _ _ drops)
      (drops_steady w _ s index _ _ drops) ?_, fun _ => trivial, fun _ => forgets⟩⟩
  intro j closing
  rw [own_of_moved w _ s _ drops.moved] at closing
  cases closing

theorem advances_releaseClaim (w : Swarm) (s index : Nat) (terms : Terms) (forgets : terms.forgets)
    (sound : Sound w) (live : (w.sessions s).live = true)
    (releasing : (w.sessions s).pc = .releasing index) :
    Advances w ({ w with torrent := w.torrent.releasePieceClaim index }.setPc s (.marking index)) s
      terms := by
  have drops : Drops w ({ w with torrent := w.torrent.releasePieceClaim index }.setPc s
      (.marking index)) s index (w.sessions s).dl (.marking index) := by
    refine ⟨⟨rfl, rfl⟩, rfl, rfl, rfl, ?_, rfl⟩
    simp only [own, releasing]
    exact fun i busy => busy
  refine ⟨sound_of_drops w _ s index _ _ sound live drops, fun _ => ⟨.beginClose index,
    .beginClose index (frame_of_moved w _ s _ drops.moved) ?_
      (drops_taken w _ s index _ _ drops) (drops_closed w _ s index _ _ drops)
      (drops_steady w _ s index _ _ drops) ?_, fun _ => trivial, fun _ => forgets⟩⟩
  · simp only [registry, own, releasing]
    exact Or.inr (Or.inr rfl)
  · intro j
    rw [own_of_moved w _ s _ drops.moved]
    simp only [own, Pc.marking.injEq]
    exact eq_comm

theorem advances_setHave (w : Swarm) (s index : Nat) (terms : Terms) (sound : Sound w)
    (live : (w.sessions s).live = true) (marking : (w.sessions s).pc = .marking index) :
    Advances w ({ w with torrent := settleMark w.torrent index }.setPc s .idle) s terms := by
  have below : index < w.torrent.pieceCount :=
    (sound.fit s).small index (Or.inr (Or.inr (by rw [marking]; rfl)))
  have moved : Moved w ({ w with torrent := settleMark w.torrent index }.setPc s .idle) s
      { w.sessions s with pc := .idle } := ⟨rfl, rfl⟩
  have fewer : ∀ i, (own { w.sessions s with pc := .idle }).busy i → (own (w.sessions s)).busy i := by
    rintro i (assembling | hashing | working)
    · exact Or.inl assembling
    · exact Or.inr (Or.inl hashing)
    · cases working
  have count : (settleMark w.torrent index).pieceCount = w.torrent.pieceCount := by
    rw [pieceCount_of_ledger _ _ (ledger_settleMark w.torrent index), pieceCount_markHave]
  refine ⟨?_, fun _ => ⟨.endClose index,
    .endClose index (frame_of_moved w _ s _ moved) marking ?_ ?_ ?_ ?_, fun _ => trivial, False.elim⟩⟩
  · refine sound_of_moved w _ s _ sound live moved ?_ count ⟨?_, ?_⟩
    · exact balanced_of_ledger _ _ (ledger_settleMark w.torrent index)
        (balanced_markHave w.torrent sound.balanced index below)
    · exact fun i busy => (sound.fit s).small i (fewer i busy)
    · intro i pick
      cases pick
  · intro j
    simp only [registry, Swarm.setPc, Swarm.setSession, inFlight_settleMark]
  · intro j
    simp only [registry, Swarm.setPc, Swarm.setSession]
    exact (hasPiece_settleMark w.torrent sound.balanced index j below).1
  · rw [own_of_moved w _ s _ moved]
    exact ⟨Iff.rfl, fun _ => Iff.rfl, fun _ => Iff.rfl, fewer⟩
  · intro j closing
    rw [own_of_moved w _ s _ moved] at closing
    cases closing

theorem inFlight_ensureStagingPool (t : HotTorrent) : t.ensureStagingPool.inFlight = t.inFlight := by
  unfold ensureStagingPool fillStagingPool
  split_ifs <;> rfl

theorem advances_join (w : Swarm) (wantDownload : Bool) (memLimit pipeline : Nat) (terms : Terms)
    (sound : Sound w) : Advances w (w.join wantDownload memLimit pipeline) w.joined terms := by
  have fresh : w.sessions w.joined = absent := sound.beyond w.joined (Nat.le_refl _)
  have same : ledger (w.join wantDownload memLimit pipeline).torrent = ledger w.torrent := by
    simp only [Swarm.join]
    split_ifs
    · exact ledger_ensureStagingPool _
    · rfl
  have inFlight : (w.join wantDownload memLimit pipeline).torrent.inFlight = w.torrent.inFlight := by
    simp only [Swarm.join]
    split_ifs
    · exact inFlight_ensureStagingPool _
    · rfl
  obtain ⟨staging, blank, sessions⟩ : ∃ staging : StagingPool, staging.indices = [] ∧
      ∃ bits speed, (w.join wantDownload memLimit pipeline).sessions =
        Function.update w.sessions w.joined
          ⟨true, PeerDownload.new bits staging speed, .idle, ∅⟩ := by
    simp only [Swarm.join]
    split_ifs
    · split
      · split
        · exact ⟨_, rfl, _, _, rfl⟩
        · exact ⟨_, rfl, _, _, rfl⟩
      · exact ⟨_, rfl, _, _, rfl⟩
    · exact ⟨_, rfl, _, _, rfl⟩
  obtain ⟨bits, speed, sessions⟩ := sessions
  have mine : (registry (w.join wantDownload memLimit pipeline)).own w.joined =
      own ⟨true, PeerDownload.new bits staging speed, .idle, ∅⟩ := by
    simp only [registry, sessions, Function.update_self]
  have unbusy : ∀ i, ¬(own ⟨true, PeerDownload.new bits staging speed, .idle, ∅⟩).busy i := by
    rintro i (assembling | hashing | working)
    · simp only [PeerDownload.new, blank] at assembling
      cases assembling
    · exact absurd hashing (Finset.notMem_empty i)
    · cases working
  refine ⟨⟨balanced_of_ledger _ _ same sound.balanced, ?_, ?_⟩,
    fun _ => ⟨.join, .join ?_ ?_ ?_ ?_ ?_ ?_ ?_ ?_, fun _ => trivial, False.elim⟩⟩
  · intro t late
    have later : w.joined + 1 ≤ t := late
    rw [sessions, Function.update_of_ne (by omega)]
    exact sound.beyond t (by omega)
  · intro t
    rw [pieceCount_of_ledger _ _ same, sessions]
    by_cases new : t = w.joined
    · rw [new, Function.update_self]
      exact ⟨fun i busy => absurd busy (unbusy i), fun i pick => by cases pick⟩
    · rw [Function.update_of_ne new]
      exact sound.fit t
  · intro t other
    simp only [registry, sessions, Function.update_of_ne other]
  · simp only [registry, fresh]
    exact Bool.false_ne_true
  · intro j
    simp only [registry, inFlight]
  · intro j
    simp only [registry, hasPiece_of_ledger _ _ same]
  all_goals rw [mine]
  · rfl
  · exact fun j => Finset.notMem_empty j
  · exact unbusy
  · intro j closing
    cases closing

theorem inFlight_setFilePriority (t : HotTorrent) (fileIdx : Nat) (priority : Int) :
    (t.setFilePriority fileIdx priority).inFlight = t.inFlight := by
  unfold setFilePriority ensureStagingPool fillStagingPool rebuildWantedAndMissing writePriority
  dsimp only
  split_ifs <;> rfl

theorem advances_setFilePriority (w : Swarm) (fileIdx : Nat) (priority : Int) (s : Nat) (terms : Terms)
    (sound : Sound w) :
    Advances w { w with torrent := w.torrent.setFilePriority fileIdx priority } s terms := by
  have had := hasPiece_setFilePriority w.torrent fileIdx priority
  have count := (setFilePriority_frame w.torrent fileIdx priority).2.1
  refine ⟨⟨balanced_setFilePriority w.torrent sound.balanced fileIdx priority, sound.beyond, ?_⟩,
    fun _ => ⟨.rest, .rest (fun _ _ => rfl) ?_ ?_ ?_ (fun _ same => same), fun _ => trivial, False.elim⟩⟩
  · rw [count]
    exact sound.fit
  · intro j
    simp only [registry, inFlight_setFilePriority]
  · intro j
    simp only [registry, had]
  · exact ⟨Iff.rfl, fun _ => Iff.rfl, fun _ => Iff.rfl, fun _ same => same⟩

/-- The session that takes the step; a change of priorities is nobody's. -/
def actor (w : Swarm) : Event → Nat
  | .join _ _ _ => w.joined
  | .inner s _ => s
  | .outer s _ => s
  | .setFilePriority _ _ => w.joined

/-- The steps that release the in-flight mark of a piece and leave it in `held`: a failed hash or
write, and `mark_have` before it sets the bit. -/
def leavesHold : Event → Bool
  | .outer _ (.hashFail _ _) => true
  | .inner _ .releaseClaim => true
  | _ => false

/-- A granted claim is for an unsettled piece that nobody else holds outside endgame. -/
def Orderly (w : Swarm) : Event → Prop
  | .inner s .claim => ∀ call snapshot index, (w.sessions s).pc = .claiming call snapshot index →
      granted w s index = true → unsettled w index = true ∧ Alone w s index
  | _ => True

def termsOf (w : Swarm) (event : Event) : Terms := ⟨Orderly w event, leavesHold event = true⟩

theorem advances_inner (w : Swarm) (s : Nat) (event : Inner) (w' : Swarm) (sound : Sound w)
    (live : (w.sessions s).live = true)
    (taken : stepInner w s event = some w') :
    Advances w w' s (termsOf w (.inner s event)) := by
  unfold stepInner at taken
  split at taken
  · cases taken
    exact advances_round w s _ _ sound live
  · rename_i call pc
    cases taken
    exact advances_suggest w s call _ sound live pc
  · rename_i call snapshot index pc
    split_ifs at taken with able
    cases taken
    exact advances_pick w s index call snapshot _ sound live able.1 able.2.1
  · rename_i call snapshot pc
    cases taken
    exact advances_finish w s call.out _ sound live
  · rename_i call snapshot index pc
    cases taken
    exact advances_weaken w _ s _ _ (fun orderly => orderly call snapshot index pc) False.elim
      (advances_claim w s index call snapshot sound live pc)
  · rename_i call index length pc
    cases taken
    exact advances_openPiece w s index length call _ sound live pc
  · rename_i index pc
    cases taken
    exact advances_releaseClaim w s index _ rfl sound live pc
  · rename_i index pc
    cases taken
    exact advances_setHave w s index _ sound live pc
  · cases taken

theorem advances_outer (w : Swarm) (s : Nat) (event : Outer) (w' : Swarm)
    (sound : Sound w) (live : (w.sessions s).live = true) (idle : (w.sessions s).pc = .idle)
    (taken : stepOuter w s event = some w') : Advances w w' s (termsOf w (.outer s event)) := by
  have plain : ∀ dl : PeerDownload, dl.held = (w.sessions s).dl.held →
      dl.hashing = (w.sessions s).dl.hashing →
      dl.staging.indices = (w.sessions s).dl.staging.indices →
      Advances w (w.setDl s dl) s (termsOf w (.outer s event)) := by
    intro dl held hashing indices
    exact advances_local w _ s dl _ sound live idle rfl rfl rfl rfl held
      (fun i old => indices ▸ old) (fun i same => Or.inl (hashing ▸ same))
  unfold stepOuter at taken
  cases event with
  | issue grant =>
    cases taken
    exact advances_issue w s grant _ sound live
  | block index begin' data submitted =>
    cases taken
    exact advances_handlePiece w s index begin' data submitted _ sound live idle
  | hashOk index data =>
    dsimp only at taken
    split_ifs at taken with hashed
    cases taken
    exact advances_hashOk w s index data _ sound live idle hashed
  | hashFail index data =>
    dsimp only at taken
    split_ifs at taken with hashed
    cases taken
    exact advances_hashFail w s index data _ rfl sound live idle hashed
  | stall =>
    cases taken
    exact plain _ rfl rfl (indices_requeueTimedOut _)
  | enterEndgame =>
    cases taken
    unfold Swarm.enterEndgame
    dsimp only
    split_ifs
    · exact plain _ rfl rfl ((indices_requeueTimedOut _).trans (indices_enableEndgame _))
    · exact advances_local w w s (w.sessions s).dl _ sound live idle
        (Function.update_eq_self s w.sessions).symm rfl rfl rfl rfl (fun _ same => same)
        (fun _ same => Or.inl same)
  | clearStaging =>
    cases taken
    have stored := storePool_frame w.torrent (w.sessions s).dl.staging
      ((w.sessions s).dl.staging.clear (sharedPool w.torrent (w.sessions s).dl.staging)).2
    refine advances_local w _ s _ _ sound live idle rfl rfl stored.1 stored.2 rfl ?_
      (fun _ same => Or.inl same)
    intro i assembling
    rw [indices_clear] at assembling
    cases assembling
  | suggestPiece index =>
    cases taken
    unfold PeerDownload.pushSuggest
    split_ifs
    · exact plain _ rfl rfl rfl
    · exact plain _ rfl rfl rfl
  | reject index begin' length =>
    cases taken
    exact plain _ rfl rfl (indices_clearRequest _ index begin' length)
  | leave =>
    cases taken
    exact advances_leave w w s _ _ sound live (moved_refl w s) rfl rfl rfl
  | resume _ | setPipeline _ | choke _ | allowedFast _ | peerHas _ =>
    cases taken
    exact plain _ rfl rfl rfl

theorem advances_step (w : Swarm) (event : Event) (w' : Swarm) (sound : Sound w)
    (taken : step w event = some w') :
    Advances w w' (actor w event) (termsOf w event) := by
  cases event with
  | join wantDownload memLimit pipeline =>
    cases taken
    exact advances_join w wantDownload memLimit pipeline _ sound
  | inner s event =>
    simp only [step] at taken
    split_ifs at taken with live
    exact advances_inner w s event w' sound live taken
  | outer s event =>
    simp only [step] at taken
    split_ifs at taken with able
    exact advances_outer w s event w' sound able.1 able.2 taken
  | setFilePriority fileIdx priority =>
    cases taken
    exact advances_setFilePriority w fileIdx priority w.joined _ sound

theorem inFlight_start (t : HotTorrent) (start : Start t) : t.inFlight = ∅ := by
  have finished : ∀ t : HotTorrent, t.finishNew.inFlight = t.inFlight := by
    intro t
    unfold finishNew recountCompletedPayload rebuildWantedAndMissing
    dsimp only
    split_ifs <;> rfl
  induction start with
  | empty _ _ _ _ => exact finished _
  | complete _ _ _ _ => exact finished _
  | loaded layout row allowIncomplete t consistent result =>
    unfold loadFromCatalog at result
    split_ifs at result <;> cases result
    · exact finished _
    · exact finished _
  | subscribed t before ih => exact ih

theorem sound_initial (t : HotTorrent) (start : Start t) : Sound (initial t) := by
  refine ⟨balanced_start t start, fun _ _ => rfl, fun s => ⟨?_, ?_⟩⟩
  · rintro i (assembling | hashing | working)
    · cases assembling
    · exact absurd hashing (Finset.notMem_empty i)
    · cases working
  · intro i pick
    cases pick

theorem valid_initial (t : HotTorrent) (start : Start t) : Valid (registry (initial t)) := by
  have nothing : ∀ i, ¬i ∈ (initial t).torrent.inFlight := by
    intro i
    rw [initial, inFlight_start t start]
    exact Finset.notMem_empty i
  have unbusy := (sound_initial t start).fit
  refine ⟨?_, ?_, ?_, ?_, ?_, ?_⟩
  · exact fun s i holds => absurd holds (Finset.notMem_empty i)
  · rintro s i (assembling | hashing | working)
    · cases assembling
    · exact absurd hashing (Finset.notMem_empty i)
    · cases working
  · exact fun s _ i holds => absurd holds (Finset.notMem_empty i)
  · exact fun i taken => absurd taken (nothing i)
  · exact fun i _ => nothing i
  · exact fun _ i _ => nothing i

/-- The holds of a session whose in-flight mark was taken away: by its own failed hash or write or
`mark_have`, or by another session. -/
def leftBehind (left : Nat → Finset Nat) (w : Swarm) (event : Event) (w' : Swarm) (t : Nat) : Finset Nat :=
  left t ∪ (w.torrent.inFlight \ w'.torrent.inFlight).filter (fun index =>
    index ∈ (w.sessions t).dl.held ∧ (leavesHold event = true ∨ t ≠ actor w event))

/-- Where `held` and the in-flight set differ, the mark was taken away as `leftBehind` says. -/
structure Traced (x : Swarm × (Nat → Finset Nat)) : Prop where
  sound : Sound x.1
  covered : Covered (registry x.1)
  kept_or_left : ∀ t index, index ∈ (x.1.sessions t).dl.held →
    index ∈ x.1.torrent.inFlight ∨ index ∈ x.2 t

theorem traced_initial (t : HotTorrent) (start : Start t) : Traced (initial t, fun _ => ∅) :=
  ⟨sound_initial t start, (valid_initial t start).busy,
    fun _ index holds => absurd holds (Finset.notMem_empty index)⟩

theorem traced_step (x : Swarm × (Nat → Finset Nat)) (event : Event) (x' : Swarm × (Nat → Finset Nat))
    (traced : Traced x) (taken : recorded step leftBehind x event = some x') : Traced x' := by
  obtain ⟨stepped, noted⟩ := (recorded_some step leftBehind x x' event).1 taken
  have advances := advances_step x.1 event x'.1 traced.sound stepped
  obtain ⟨action, moved, _, forgotten⟩ := advances.moves traced.covered
  refine ⟨advances.sound, covered_step _ _ _ action traced.covered moved, ?_⟩
  intro t index holds'
  by_cases kept : index ∈ x'.1.torrent.inFlight
  · exact Or.inl kept
  · obtain ⟨holds, why⟩ := lost_hold _ _ _ action moved t index holds' kept
    rw [← noted]
    simp only [leftBehind, Finset.mem_union, Finset.mem_filter, Finset.mem_sdiff]
    rcases traced.kept_or_left t index holds with inFlight | left
    · exact Or.inr (Or.inr ⟨⟨inFlight, kept⟩, holds, ((why inFlight).imp id forgotten).symm⟩)
    · exact Or.inr (Or.inl left)

/-- In every run, a piece held without being in flight was left behind. -/
theorem traced_run (t : HotTorrent) (start : Start t) (events : List Event)
    (x : Swarm × (Nat → Finset Nat))
    (ran : exec (recorded step leftBehind) (initial t, fun _ => ∅) events = some x) : Traced x :=
  exec_invariant_free _ Traced traced_step (initial t, fun _ => ∅) x events (traced_initial t start) ran

/-- No other session lists the piece by a claim outside endgame whose mark was taken away, unless this
one is in endgame. -/
def clearOfResidue (x : Swarm × (Nat → Finset Nat)) (s index : Nat) : Bool :=
  (x.1.sessions s).dl.endgame || decide (∀ t < x.1.joined, t ≠ s → index ∈ (x.1.sessions t).dl.held →
    index ∈ (x.1.sessions t).endgameHeld ∨ index ∉ x.2 t)

/-- The condition on a step: a claim is granted only for an unsettled piece that is clear of residue. -/
def claimGuard (x : Swarm × (Nat → Finset Nat)) : Event → Bool
  | .inner s .claim =>
    match (x.1.sessions s).pc with
    | .claiming _ _ index => !granted x.1 s index || (unsettled x.1 index && clearOfResidue x s index)
    | _ => true
  | _ => true

theorem orderly_of_claimGuard (x : Swarm × (Nat → Finset Nat)) (event : Event) (traced : Traced x)
    (guarded : claimGuard x event = true) : Orderly x.1 event := by
  unfold Orderly
  split
  · rename_i s
    intro call snapshot index pc grant
    simp only [claimGuard, pc, grant, Bool.not_true, Bool.false_or, Bool.and_eq_true, clearOfResidue,
      Bool.or_eq_true, decide_eq_true_eq] at guarded
    refine ⟨guarded.1, ?_⟩
    by_cases endgame : (x.1.sessions s).dl.endgame = true
    · exact Or.inl endgame
    · have clear := guarded.2.resolve_left endgame
      have free : index ∉ x.1.torrent.inFlight := by
        simpa only [granted, endgame, Bool.false_or, decide_eq_true_eq] using grant
      refine Or.inr (fun t early other holds => (clear t early other holds).resolve_right ?_)
      exact fun fresh => fresh ((traced.kept_or_left t index holds).resolve_left free)
  · trivial

theorem valid_run (t : HotTorrent) (start : Start t) (events : List Event)
    (x : Swarm × (Nat → Finset Nat))
    (kept : Guarded (recorded step leftBehind) (fun x event => claimGuard x event = true)
      (initial t, fun _ => ∅) events)
    (ran : exec (recorded step leftBehind) (initial t, fun _ => ∅) events = some x) :
    Valid (registry x.1) := by
  suffices both : Traced x ∧ Valid (registry x.1) from both.2
  refine exec_invariant _ _ (fun x => Traced x ∧ Valid (registry x.1)) ?_ (initial t, fun _ => ∅) x events
    ⟨traced_initial t start, valid_initial t start⟩ kept ran
  rintro x event x' ⟨traced, valid⟩ guarded taken
  have stepped := ((recorded_some step leftBehind x x' event).1 taken).1
  obtain ⟨action, moves, permitted, _⟩ :=
    (advances_step x.1 event x'.1 traced.sound stepped).moves traced.covered
  exact ⟨traced_step x event x' traced taken,
    valid_step _ _ _ action valid moves (permitted (orderly_of_claimGuard x event traced guarded))⟩

/-- No session holds the piece by an endgame claim. -/
def OutsideEndgame (w : Swarm) (index : Nat) : Prop :=
  ∀ s < w.joined, index ∈ (w.sessions s).dl.held → index ∉ (w.sessions s).endgameHeld

instance (w : Swarm) (index : Nat) : Decidable (OutsideEndgame w index) :=
  inferInstanceAs (Decidable (∀ s < w.joined, _))

theorem exclusive_of_outside (w : Swarm) (index : Nat) (sound : Sound w)
    (outside : OutsideEndgame w index) : Exclusive (registry w) index := by
  intro s holds
  by_cases early : s < w.joined
  · exact outside s early holds
  · simp only [registry, own, sound.beyond s (Nat.not_lt.1 early), absent, PeerDownload.new] at holds
    exact absurd holds (Finset.notMem_empty index)

/-- Claims are exclusive outside endgame, in every run whose granted claims meet `claimGuard`. -/
theorem claims_exclusive (t : HotTorrent) (start : Start t) (events : List Event) (w : Swarm)
    (kept : Guarded (recorded step leftBehind) (fun x event => claimGuard x event = true)
      (initial t, fun _ => ∅) events)
    (ran : exec step (initial t) events = some w) (index : Nat)
    (outside : OutsideEndgame w index) :
    (index ∈ w.torrent.inFlight →
      ∃! s, (w.sessions s).live = true ∧ index ∈ (w.sessions s).dl.held) ∧
    (∀ s, index ∈ (w.sessions s).dl.held → ∀ other, other ≠ s →
      index ∉ (w.sessions other).dl.staging.indices ∧ index ∉ (w.sessions other).dl.hashing) ∧
    (∀ event w' s, step w event = some w' → s ≠ actor w event → index ∈ (w.sessions s).dl.held →
      index ∈ w.torrent.inFlight → index ∈ w'.torrent.inFlight) := by
  obtain ⟨left, traced⟩ := exec_recorded step leftBehind (initial t) w (fun _ => ∅) events ran
  have sound := (traced_run t start events (w, left) traced).sound
  have valid := valid_run t start events (w, left) kept traced
  have exclusive := exclusive_of_outside w index sound outside
  refine ⟨?_, ?_, ?_⟩
  · intro taken
    obtain ⟨s, holds, single⟩ := taken_holder _ valid index exclusive taken
    exact ⟨s, ⟨valid.held s index holds, holds⟩, fun other both => single other both.2⟩
  · intro s holds other distinct
    have clash : ¬((registry w).own other).busy index := fun busy =>
      distinct (holder_unique _ valid index exclusive other s (valid.busy other index busy) holds)
    exact ⟨fun assembling => clash (Or.inl assembling), fun hashing => clash (Or.inr (Or.inl hashing))⟩
  · intro event w' s taken distinct holds inFlight
    obtain ⟨action, moves, _⟩ := (advances_step w event w' sound taken).moves valid.busy
    exact taken_kept _ _ _ s action valid moves index exclusive distinct holds inFlight

def tenEmpty : HotTorrent := newEmpty 1 [] (bytePieces 10) (List.replicate 200 0)

/-- A session joins an unchoked peer that has everything and claims piece 0, one block granted. -/
def claimFirst (s : Nat) : List Event :=
  [.join true 0 8, .outer s (.choke false), .outer s (.peerHas [255, 192]),
    .outer s (.issue (some BLOCK_SIZE)), .inner s .round, .inner s .suggest, .inner s (.pick 0),
    .inner s .claim, .inner s .openPiece, .inner s .round]

/-- The first session's piece fails its hash and the session ends; then another claims the piece. -/
def failThenLeave : List Event :=
  claimFirst 0 ++ [.outer 0 (.block 0 0 [7] true), .outer 0 (.hashFail 0 [7]), .outer 0 .leave] ++
    claimFirst 1

def reassigned : Swarm := (exec step (initial tenEmpty) failThenLeave).getD (initial tenEmpty)

theorem claims_exclusive_failThenLeave :
    0 ∈ reassigned.torrent.inFlight ∧
      ∃! s, (reassigned.sessions s).live = true ∧ 0 ∈ (reassigned.sessions s).dl.held := by
  have start : Start tenEmpty := .empty 1 [] (bytePieces 10) _
  have returns : (exec step (initial tenEmpty) failThenLeave).isSome = true := by decide +kernel
  have ran := (Option.getD_of_ne_none (Option.isSome_iff_ne_none.1 returns) (initial tenEmpty)).symm
  have kept := guarded_of_guardedB (recorded step leftBehind) claimGuard (initial tenEmpty, fun _ => ∅)
    failThenLeave (by decide +kernel)
  have outside : OutsideEndgame reassigned 0 := by decide +kernel
  have exclusive := claims_exclusive tenEmpty start failThenLeave reassigned kept ran 0 outside
  exact ⟨by decide +kernel, exclusive.1 (by decide +kernel)⟩

/-- The first session's piece fails its hash; the second session then claims the same piece. -/
def failThenClaim : List Event :=
  claimFirst 0 ++ [.outer 0 (.block 0 0 [7] true), .outer 0 (.hashFail 0 [7])] ++ claimFirst 1

def doubled : Swarm := (exec step (initial tenEmpty) failThenClaim).getD (initial tenEmpty)

/-- A failed hash releases the piece but leaves it among the held pieces of its session. -/
theorem failed_hash_keeps_claim :
    ¬∀ (t : HotTorrent) (events : List Event) (w : Swarm) (index : Nat), Start t →
      exec step (initial t) events = some w → OutsideEndgame w index → index ∈ w.torrent.inFlight →
      ∃! s, (w.sessions s).live = true ∧ index ∈ (w.sessions s).dl.held := by
  intro always
  have returns : (exec step (initial tenEmpty) failThenClaim).isSome = true := by decide +kernel
  have ran := (Option.getD_of_ne_none (Option.isSome_iff_ne_none.1 returns) (initial tenEmpty)).symm
  obtain ⟨holder, _, single⟩ := always tenEmpty failThenClaim doubled 0 (.empty 1 [] (bytePieces 10) _) ran
    (by decide +kernel) (by decide +kernel)
  have first := single 0 (by decide +kernel)
  have second := single 1 (by decide +kernel)
  exact absurd (first.trans second.symm) (by decide)

end Seedchamp.Peer.Claims
