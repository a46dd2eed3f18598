import Seedchamp.Hot.Interleaving

/-!
The missing counter of a hot torrent once all concurrent calls have returned. `Sound` is what
undisturbed runs preserve; the counter is exact whenever no call is between two of its operations.
-/

namespace Seedchamp.Hot.Quiescence
open Catalog.Bitfield Disk.Spans Foundation.Tally Foundation.TransitionSystem Hot.Torrent
open Hot.Torrent.HotTorrent Hot.Wanted Hot.Possession Hot.Interleaving

/-- What the other calls see of a thread: whether it still owes a rebuild from current priorities,
whether its snapshot or its count is waiting to be written, and whether it holds the piece lock
with a decrement outstanding or with completion being settled. -/
inductive Phase where
  | outside
  | stale
  | snapped (wanted : Bits) (missing : Nat)
  | written (missing : Nat)
  | locked (owes : Bool)
  | closing
  deriving DecidableEq, Repr

def phaseOf : Thread → Phase
  | .storeCount _ wanted | .addPayload _ wanted | .takeMissing _ wanted => .locked wanted
  | .testFully _ | .unlockPieces _ _ => .locked false
  | .storeFullCount _ | .zeroMissing _ | .storeFullPayload _ => .closing
  | .readPriority _ | .snapshotPieces _ _ => .stale
  | .writeWanted _ wanted missing => .snapped wanted missing
  | .storeMissing _ missing => .written missing
  | _ => .outside

def phases (threads : List Thread) (tid : Nat) : Phase :=
  match threads[tid]? with
  | some thread => phaseOf thread
  | none => .outside

def missingFor (t : HotTorrent) (wanted : Bits) : Nat :=
  tally (fun i => bitfieldGet wanted i && !bitfieldGet t.pieces.bitfield i) t.pieceCount

/-- The invariant of undisturbed runs, as a fact about the phases of all threads. -/
structure Sound (t : HotTorrent) (writer : Option Nat) (phase : Nat → Phase) : Prop where
  sameCount : t.layout.pieceCount = t.pieceCount
  sized : t.pieces.bitfield.length = bitfieldSizeBytes t.pieceCount
  counted : t.pieces.haveCount = countHaveBits t.pieces.bitfield t.pieceCount
  full : t.pieces.complete = true → ∀ i, i < t.pieceCount → bitfieldGet t.pieces.bitfield i = true
  locked : ∀ k owes, phase k = .locked owes → writer = some k
  closing : ∀ k, phase k = .closing → writer = some k ∧ t.pieces.complete = true
  snapshot : ∀ k wanted missing, phase k = .snapped wanted missing → missing = missingFor t wanted
  count : ∀ k missing, phase k = .written missing → missing = missingFor t t.wantedBf
  agree : ∀ j k first second m n, phase j = .snapped first m → phase k = .snapped second n →
    first = second
  follow : ∀ j k wanted m n, phase j = .snapped wanted m → phase k = .written n →
    t.wantedBf = wanted
  apart : ∀ j k, phase j = .locked true →
    (∀ wanted m, phase k ≠ .snapped wanted m) ∧ ∀ n, phase k ≠ .written n
  owing : ∀ k, phase k = .locked true → t.downloadMissing = missingFor t t.wantedBf + 1
  settled : (∀ k wanted m, phase k ≠ .snapped wanted m) → (∀ k n, phase k ≠ .written n) →
    (∀ k, phase k ≠ .locked true) → t.downloadMissing = missingFor t t.wantedBf
  current : (∃ k, phase k = .stale) ∨
    ((∀ k wanted m, phase k = .snapped wanted m →
        wanted = buildWantedBitfield t.layout t.filePriority) ∧
      (t.wantedBf = buildWantedBitfield t.layout t.filePriority ∨
        ∃ k wanted m, phase k = .snapped wanted m))

theorem phases_set (threads : List Thread) (tid : Nat) (next : Thread) (below : tid < threads.length) :
    phases (threads.set tid next) = Function.update (phases threads) tid (phaseOf next) := by
  funext k
  unfold phases
  rw [List.getElem?_set, Function.update_apply]
  by_cases same : tid = k
  · rw [if_pos same, if_pos below, if_pos same.symm]
  · rw [if_neg same, if_neg (fun equal => same equal.symm)]

theorem phases_append (threads : List Thread) (next : Thread) :
    phases (threads ++ [next]) = Function.update (phases threads) threads.length (phaseOf next) := by
  funext k
  unfold phases
  rw [Function.update_apply, List.getElem?_append]
  by_cases inside : k < threads.length
  · rw [if_pos inside, if_neg (by omega)]
  · rw [if_neg inside]
    by_cases last : k = threads.length
    · rw [if_pos last, last, Nat.sub_self]
      rfl
    · rw [if_neg last, List.getElem?_eq_none (by simp; omega), List.getElem?_eq_none (by omega)]

/-- The fields that the invariant reads. -/
structure SameBooks (t t' : HotTorrent) : Prop where
  layout : t'.layout = t.layout
  pieceCount : t'.pieceCount = t.pieceCount
  pieces : t'.pieces = t.pieces
  filePriority : t'.filePriority = t.filePriority
  wantedBf : t'.wantedBf = t.wantedBf
  downloadMissing : t'.downloadMissing = t.downloadMissing

theorem sound_of_sameBooks (t t' : HotTorrent) (writer : Option Nat) (phase : Nat → Phase)
    (same : SameBooks t t') (sound : Sound t writer phase) : Sound t' writer phase := by
  cases t
  cases t'
  obtain ⟨rfl, rfl, rfl, rfl, rfl, rfl⟩ := same
  exact ⟨sound.sameCount, sound.sized, sound.counted, sound.full, sound.locked, sound.closing,
    sound.snapshot, sound.count, sound.agree, sound.follow, sound.apart, sound.owing, sound.settled,
    sound.current⟩

/-- One thread moves from phase `old` to phase `new`; the others stay where they are. -/
structure Moves (before after : Nat → Phase) (k : Nat) (old new : Phase) : Prop where
  was : before k = old
  now : after k = new
  forward : ∀ j, after j = if j = k then new else before j
  backward : ∀ j, before j = if j = k then old else after j

theorem moves_update (phase : Nat → Phase) (k : Nat) (new : Phase) :
    Moves phase (Function.update phase k new) k (phase k) new := by
  refine ⟨rfl, Function.update_self .., fun j => Function.update_apply .., ?_⟩
  intro j
  rw [Function.update_apply]
  split_ifs with same
  · rw [same]
  · rfl

/-- The bits a completed torrent settles are the ones already counted. -/
theorem bits_of_fullyHad (t : HotTorrent)
    (counted : t.pieces.haveCount = countHaveBits t.pieces.bitfield t.pieceCount)
    (fully : t.fullyHad = true) (i : Nat) (below : i < t.pieceCount) :
    bitfieldGet t.pieces.bitfield i = true := by
  simp only [fullyHad, decide_eq_true_eq] at fully
  have atMost := tally_le (bitfieldGet t.pieces.bitfield) t.pieceCount
  unfold countHaveBits at counted
  exact (tally_eq_bound_iff (bitfieldGet t.pieces.bitfield) t.pieceCount).1 (by omega) i below

theorem missingFor_complete (t : HotTorrent) (wanted : Bits)
    (all : ∀ i, i < t.pieceCount → bitfieldGet t.pieces.bitfield i = true) :
    missingFor t wanted = 0 := by
  unfold missingFor
  rw [tally_eq_zero_iff]
  intro i below
  rw [all i below, Bool.not_true, Bool.and_false]

/-- A newly recorded bit takes one from the count of each wanted set that contains the piece. -/
theorem missingFor_record (t t' : HotTorrent) (index : Nat) (wanted : Bits)
    (sized : t.pieces.bitfield.length = bitfieldSizeBytes t.pieceCount) (below : index < t.pieceCount)
    (fresh : bitfieldGet t.pieces.bitfield index = false)
    (count : t'.pieceCount = t.pieceCount)
    (bits : t'.pieces.bitfield = bitfieldSet t.pieces.bitfield index) :
    missingFor t wanted =
      missingFor t' wanted + if bitfieldGet wanted index then 1 else 0 := by
  have inside : index / 8 < t.pieces.bitfield.length := by
    rw [sized]
    exact index_div_lt_size index _ below
  unfold missingFor
  rw [count, bits]
  have now := bitfieldGet_bitfieldSet_self t.pieces.bitfield index inside
  have frame := bitfieldGet_bitfieldSet_other t.pieces.bitfield index
  split_ifs with counted
  · apply tally_mark _ _ t.pieceCount index below
    · rw [now, Bool.not_true, Bool.and_false]
    · rw [counted, fresh, Bool.not_false, Bool.and_self]
    · intro i _ distinct
      rw [frame i distinct]
  · apply tally_congr
    intro i _
    by_cases same : i = index
    · rw [same, Bool.eq_false_of_not_eq_true counted, Bool.false_and, Bool.false_and]
    · rw [frame i same]

section Steps

variable (t : HotTorrent) (writer : Option Nat) (before after : Nat → Phase) (k : Nat)

theorem sound_begin (moves : Moves before after k .outside .stale) (sound : Sound t writer before)
    (prios : List Int) : Sound { t with filePriority := prios } writer after := by
  obtain ⟨was, now, forward, backward⟩ := moves
  obtain ⟨sameCount, sized, counted, full, locked, closing, snapshot, count, agree, follow, apart,
    owing, settled, current⟩ := sound
  refine ⟨sameCount, sized, counted, full, ?_, ?_, ?_, ?_, ?_, ?_, ?_, ?_, ?_, Or.inl ⟨k, now⟩⟩
  all_goals
    dsimp only [missingFor] at *
    grind -ring -linarith

/-- A snapshot for the current priorities, with no rebuild in flight for another wanted set. -/
theorem sound_snapshot (sound : Sound t writer before) (wanted : Bits)
    (moves : Moves before after k .stale (.snapped wanted (missingFor t wanted)))
    (free : ∀ j, before j ≠ .locked true)
    (fresh : wanted = buildWantedBitfield t.layout t.filePriority)
    (sameSnapped : ∀ j other m, before j = .snapped other m → other = wanted)
    (sameWritten : ∀ j m, before j = .written m → t.wantedBf = wanted) : Sound t writer after := by
  obtain ⟨was, now, forward, backward⟩ := moves
  obtain ⟨sameCount, sized, counted, full, locked, closing, snapshot, count, agree, follow, apart,
    owing, settled, current⟩ := sound
  refine ⟨sameCount, sized, counted, full, ?_, ?_, ?_, ?_, ?_, ?_, ?_, ?_, ?_, Or.inr ⟨?_, Or.inr ⟨k, _, _, now⟩⟩⟩
  all_goals grind -ring -linarith

theorem sound_writeWanted (sound : Sound t writer before) (wanted : Bits) (missing : Nat)
    (moves : Moves before after k (.snapped wanted missing) (.written missing)) :
    Sound { t with wantedBf := wanted } writer after := by
  obtain ⟨was, now, forward, backward⟩ := moves
  obtain ⟨sameCount, sized, counted, full, locked, closing, snapshot, count, agree, follow, apart,
    owing, settled, current⟩ := sound
  refine ⟨sameCount, sized, counted, full, ?_, ?_, ?_, ?_, ?_, ?_, ?_, ?_, ?_, ?_⟩
  all_goals
    dsimp only [missingFor] at *
    grind -ring -linarith

theorem sound_storeMissing (sound : Sound t writer before) (missing : Nat)
    (moves : Moves before after k (.written missing) .outside) :
    Sound { t with downloadMissing := missing } writer after := by
  obtain ⟨was, now, forward, backward⟩ := moves
  obtain ⟨sameCount, sized, counted, full, locked, closing, snapshot, count, agree, follow, apart,
    owing, settled, current⟩ := sound
  refine ⟨sameCount, sized, counted, full, ?_, ?_, ?_, ?_, ?_, ?_, ?_, ?_, ?_, ?_⟩
  all_goals
    dsimp only [missingFor] at *
    grind -ring -linarith

theorem sound_takeMissing (sound : Sound t writer before)
    (moves : Moves before after k (.locked true) (.locked false)) :
    Sound { t with downloadMissing := t.downloadMissing - 1 } writer after := by
  obtain ⟨was, now, forward, backward⟩ := moves
  obtain ⟨sameCount, sized, counted, full, locked, closing, snapshot, count, agree, follow, apart,
    owing, settled, current⟩ := sound
  have owed := owing k was
  refine ⟨sameCount, sized, counted, full, ?_, ?_, ?_, ?_, ?_, ?_, ?_, ?_, ?_, ?_⟩
  all_goals
    dsimp only [missingFor] at *
    grind -ring -linarith

theorem sound_unlock (sound : Sound t writer before)
    (moves : Moves before after k (.locked false) .outside) : Sound t none after := by
  obtain ⟨was, now, forward, backward⟩ := moves
  obtain ⟨sameCount, sized, counted, full, locked, closing, snapshot, count, agree, follow, apart,
    owing, settled, current⟩ := sound
  have holder := locked k false was
  refine ⟨sameCount, sized, counted, full, ?_, ?_, ?_, ?_, ?_, ?_, ?_, ?_, ?_, ?_⟩
  all_goals grind -ring -linarith

theorem sound_settled (sound : Sound t writer before)
    (moves : Moves before after k .closing (.locked false)) : Sound t writer after := by
  obtain ⟨was, now, forward, backward⟩ := moves
  obtain ⟨sameCount, sized, counted, full, locked, closing, snapshot, count, agree, follow, apart,
    owing, settled, current⟩ := sound
  have holder := closing k was
  refine ⟨sameCount, sized, counted, full, ?_, ?_, ?_, ?_, ?_, ?_, ?_, ?_, ?_, ?_⟩
  all_goals grind -ring -linarith

theorem sound_close (sound : Sound t writer before) (fully : t.fullyHad = true)
    (moves : Moves before after k (.locked false) .closing) :
    Sound { t with pieces := ⟨allSetBitfield t.pieceCount, true, t.pieceCount⟩ } writer after := by
  have all := bits_of_fullyHad t sound.counted fully
  have none : ∀ wanted, missingFor t wanted = 0 := fun wanted => missingFor_complete t wanted all
  have stays : ∀ wanted, missingFor
      { t with pieces := ⟨allSetBitfield t.pieceCount, true, t.pieceCount⟩ } wanted = 0 :=
    fun wanted => missingFor_complete _ wanted (bitfieldGet_allSetBitfield t.pieceCount)
  obtain ⟨was, now, forward, backward⟩ := moves
  obtain ⟨sameCount, sized, counted, full, locked, closing, snapshot, count, agree, follow, apart,
    owing, settled, current⟩ := sound
  have holder := locked k false was
  refine ⟨sameCount, allSetBitfield_length _, (countHaveBits_allSetBitfield _).symm,
    fun _ => bitfieldGet_allSetBitfield _, ?_, ?_, ?_, ?_, ?_, ?_, ?_, ?_, ?_, ?_⟩
  all_goals grind -ring -linarith

theorem sound_zeroMissing (sound : Sound t writer before) (was : before k = .closing) :
    Sound { t with downloadMissing := 0 } writer before := by
  have complete := sound.closing k was
  have none : ∀ wanted, missingFor t wanted = 0 :=
    fun wanted => missingFor_complete t wanted (sound.full complete.2)
  have stays : ∀ wanted, missingFor { t with downloadMissing := 0 } wanted = 0 := none
  obtain ⟨sameCount, sized, counted, full, locked, closing, snapshot, count, agree, follow, apart,
    owing, settled, current⟩ := sound
  refine ⟨sameCount, sized, counted, full, ?_, ?_, ?_, ?_, ?_, ?_, ?_, ?_, ?_, ?_⟩
  all_goals grind -ring -linarith

/-- A new bit recorded with a current wanted bit, while no rebuild in flight counts the piece. -/
theorem sound_record (sound : Sound t none before) (index : Nat) (wanted : Bool)
    (moves : Moves before after k .outside (.locked wanted)) (below : index < t.pieceCount)
    (open' : t.pieces.complete = false) (fresh : bitfieldGet t.pieces.bitfield index = false)
    (current' : wanted = bitfieldGet t.wantedBf index)
    (snapped : ∀ j counted m, before j = .snapped counted m →
      wanted = false ∧ bitfieldGet counted index = false)
    (written : ∀ j m, before j = .written m → wanted = false) :
    Sound { t with
      pieces := { t.pieces with
        bitfield := bitfieldSet t.pieces.bitfield index
        haveCount := t.pieces.haveCount + 1 } } (some k) after := by
  have inside : index / 8 < t.pieces.bitfield.length := by
    rw [sound.sized]
    exact index_div_lt_size index _ below
  have bits := countHaveBits_bitfieldSet t.pieces.bitfield t.pieceCount index below inside fresh
  have shift := fun other => missingFor_record t { t with
    pieces := { t.pieces with
      bitfield := bitfieldSet t.pieces.bitfield index
      haveCount := t.pieces.haveCount + 1 } } index other sound.sized below fresh rfl rfl
  obtain ⟨was, now, forward, backward⟩ := moves
  obtain ⟨sameCount, sized, counted, full, locked, closing, snapshot, count, agree, follow, apart,
    owing, settled, current⟩ := sound
  refine ⟨sameCount, (bitfieldSet_length _ _).trans sized, (congrArg (· + 1) counted).trans bits.symm,
    fun done => absurd done (by simp [open']), ?_, ?_, ?_, ?_, ?_, ?_, ?_, ?_, ?_, ?_⟩
  all_goals grind -ring -linarith

end Steps

theorem phases_at (threads : List Thread) (tid : Nat) (thread : Thread)
    (found : threads[tid]? = some thread) : phases threads tid = phaseOf thread := by
  rw [phases, found]

theorem moves_set (threads : List Thread) (tid : Nat) (thread next : Thread)
    (found : threads[tid]? = some thread) :
    Moves (phases threads) (phases (threads.set tid next)) tid (phaseOf thread) (phaseOf next) := by
  obtain ⟨below, _⟩ := List.getElem?_eq_some_iff.1 found
  rw [phases_set threads tid next below, ← phases_at threads tid thread found]
  exact moves_update _ _ _

theorem phases_set_same (threads : List Thread) (tid : Nat) (thread next : Thread)
    (found : threads[tid]? = some thread) (same : phaseOf next = phaseOf thread) :
    phases (threads.set tid next) = phases threads := by
  obtain ⟨below, _⟩ := List.getElem?_eq_some_iff.1 found
  rw [phases_set threads tid next below, same, ← phases_at threads tid thread found,
    Function.update_eq_self]

/-- The piece index that a call has not yet used is one the torrent has. -/
def Bounded (pieceCount : Nat) : Thread → Prop
  | .releaseClaim index | .readWanted index | .lockPieces index _ => index < pieceCount
  | _ => True

/-- One operation changes the moving thread and keeps its index in range. -/
theorem advance_frame (s s' : State) (tid : Nat) (thread : Thread)
    (taken : advance s tid thread = some s') :
    ∃ next, s'.threads = s.threads.set tid next ∧ s'.torrent.pieceCount = s.torrent.pieceCount ∧
      (Bounded s.torrent.pieceCount thread → Bounded s.torrent.pieceCount next) := by
  cases thread <;> simp only [advance] at taken
  case lockPieces index wanted =>
    split_ifs at taken <;> cases taken <;> exact ⟨_, rfl, rfl, fun _ => trivial⟩
  case testFully index =>
    split_ifs at taken <;> cases taken <;> exact ⟨_, rfl, rfl, fun _ => trivial⟩
  case dropHashes =>
    split_ifs at taken
    cases taken
    refine ⟨_, rfl, ?_, fun _ => trivial⟩
    simp only [State.update, dropPieceHashesIfComplete]
    split_ifs <;> rfl
  case snapshotPieces reprio wanted =>
    split_ifs at taken
    cases taken
    exact ⟨_, rfl, rfl, fun _ => trivial⟩
  case writePriority fileIdx priority =>
    cases taken
    refine ⟨_, rfl, ?_, fun _ => trivial⟩
    simp only [State.update, HotTorrent.writePriority]
    split_ifs <;> rfl
  case fillPool =>
    cases taken
    refine ⟨_, rfl, ?_, fun _ => trivial⟩
    simp only [State.update, fillStagingPool]
    split_ifs <;> rfl
  case publish index fully =>
    cases taken
    exact ⟨_, rfl, rfl, fun _ => by cases fully <;> trivial⟩
  case testDone =>
    cases taken
    exact ⟨_, rfl, rfl, fun _ => by split_ifs <;> trivial⟩
  case storeMissing reprio missing =>
    cases taken
    exact ⟨_, rfl, rfl, fun _ => by cases reprio <;> trivial⟩
  case testPool =>
    cases taken
    exact ⟨_, rfl, rfl, fun _ => by split_ifs <;> trivial⟩
  case testEnsure =>
    cases taken
    exact ⟨_, rfl, rfl, fun _ => by split_ifs <;> trivial⟩
  case returned => cases taken
  all_goals
    cases taken
    exact ⟨_, rfl, rfl, fun inside => inside⟩

theorem sound_neutral (s : State) (t : HotTorrent) (tid : Nat) (thread next : Thread)
    (found : s.threads[tid]? = some thread) (same : phaseOf next = phaseOf thread)
    (books : SameBooks s.torrent t) (sound : Sound s.torrent s.writer (phases s.threads)) :
    Sound t s.writer (phases (s.threads.set tid next)) := by
  rw [phases_set_same s.threads tid thread next found same]
  exact sound_of_sameBooks _ t _ _ books sound

theorem sameBooks_refl (t : HotTorrent) : SameBooks t t := ⟨rfl, rfl, rfl, rfl, rfl, rfl⟩

theorem sameBooks_dropPieceHashes (t : HotTorrent) : SameBooks t t.dropPieceHashesIfComplete := by
  unfold dropPieceHashesIfComplete
  split_ifs <;> exact ⟨rfl, rfl, rfl, rfl, rfl, rfl⟩

theorem sameBooks_fillStagingPool (t : HotTorrent) : SameBooks t t.fillStagingPool := by
  unfold fillStagingPool
  split_ifs <;> exact ⟨rfl, rfl, rfl, rfl, rfl, rfl⟩

/-- The window conditions of `undisturbed`, read off the phases. -/
theorem window_of_all (threads : List Thread) (check : Phase → Bool) (pass : check .outside = true)
    (checked : threads.all (fun thread => check (phaseOf thread)) = true) (k : Nat) :
    check (phases threads k) = true := by
  unfold phases
  split
  · rename_i thread found
    exact List.all_eq_true.1 checked thread (List.mem_of_getElem? found)
  · exact pass

/-- What the lock acquisition of a new have is checked against. -/
def recordCheck (index : Nat) (wanted : Bool) : Phase → Bool
  | .snapped counted _ => !wanted && !bitfieldGet counted index
  | .written _ => !wanted
  | _ => true

/-- What a snapshot is checked against. -/
def snapshotCheck (current wanted : Bits) : Phase → Bool
  | .snapped counted _ => counted == wanted
  | .written _ => current == wanted
  | _ => true

theorem sound_lockPieces (s s' : State) (tid index : Nat) (wanted : Bool)
    (found : s.threads[tid]? = some (.lockPieces index wanted))
    (below : index < s.torrent.pieceCount)
    (sound : Sound s.torrent s.writer (phases s.threads))
    (guarded : undisturbed s (.advance tid) = true)
    (taken : advance s tid (.lockPieces index wanted) = some s') :
    Sound s'.torrent s'.writer (phases s'.threads) := by
  simp only [advance] at taken
  split_ifs at taken with busy known
  · cases taken
    exact sound_neutral s s.torrent tid _ _ found rfl (sameBooks_refl _) sound
  · cases taken
    have free : s.writer = none := by simpa using busy
    have parts := Bool.or_eq_false_iff.1 (Bool.eq_false_of_not_eq_true known)
    have had : s.torrent.hasPiece index = false := by
      rw [hasPiece, if_neg (by omega), parts.1, if_neg Bool.false_ne_true, parts.2]
    simp only [undisturbed, found, had, Bool.false_or, Bool.and_eq_true, beq_iff_eq] at guarded
    obtain ⟨current, window⟩ := guarded
    have check : ∀ k, recordCheck index wanted (phases s.threads k) = true := by
      apply window_of_all _ _ rfl
      rw [← window]
      congr 1
      funext thread
      cases thread <;> rfl
    rw [free] at sound
    apply sound_record s.torrent _ _ tid sound index wanted
      (moves_set s.threads tid _ (.storeCount index wanted) found) below parts.1 parts.2
    · rw [current, wantsPiece_eq s.torrent index below]
    · intro j counted m at'
      have passed := check j
      rw [at', recordCheck, Bool.and_eq_true] at passed
      exact ⟨by simpa using passed.1, by simpa using passed.2⟩
    · intro j m at'
      have passed := check j
      rw [at', recordCheck] at passed
      simpa using passed

theorem countMissing_eq (t : HotTorrent) (wanted : Bits)
    (full : t.pieces.complete = true →
      ∀ i, i < t.pieceCount → bitfieldGet t.pieces.bitfield i = true) :
    countMissing t wanted = missingFor t wanted := by
  unfold countMissing
  split_ifs with complete
  · exact (missingFor_complete t wanted (full complete)).symm
  · rfl

theorem sound_snapshotPieces (s s' : State) (tid : Nat) (reprio : Bool) (wanted : Bits)
    (found : s.threads[tid]? = some (.snapshotPieces reprio wanted))
    (sound : Sound s.torrent s.writer (phases s.threads))
    (guarded : undisturbed s (.advance tid) = true)
    (taken : advance s tid (.snapshotPieces reprio wanted) = some s') :
    Sound s'.torrent s'.writer (phases s'.threads) := by
  simp only [advance] at taken
  split_ifs at taken with busy
  cases taken
  have free : s.writer = none := by simpa using busy
  simp only [undisturbed, found, Bool.and_eq_true, beq_iff_eq] at guarded
  obtain ⟨fresh, window⟩ := guarded
  have check : ∀ k, snapshotCheck s.torrent.wantedBf wanted (phases s.threads k) = true := by
    apply window_of_all _ _ rfl
    rw [← window]
    congr 1
    funext thread
    cases thread <;> rfl
  rw [countMissing_eq s.torrent wanted sound.full]
  apply sound_snapshot s.torrent _ _ _ tid sound wanted (moves_set s.threads tid _ _ found) _ fresh
  · intro j other m at'
    have passed := check j
    rw [at', snapshotCheck, beq_iff_eq] at passed
    exact passed
  · intro j m at'
    have passed := check j
    rw [at', snapshotCheck, beq_iff_eq] at passed
    exact passed
  · intro j at'
    have holder := sound.locked j true at'
    rw [free] at holder
    cases holder

theorem sound_testFully (s s' : State) (tid index : Nat)
    (found : s.threads[tid]? = some (.testFully index))
    (sound : Sound s.torrent s.writer (phases s.threads))
    (taken : advance s tid (.testFully index) = some s') :
    Sound s'.torrent s'.writer (phases s'.threads) := by
  simp only [advance] at taken
  split_ifs at taken with fully
  · cases taken
    exact sound_close s.torrent _ _ _ tid sound fully (moves_set s.threads tid _ _ found)
  · cases taken
    exact sound_neutral s s.torrent tid _ _ found rfl (sameBooks_refl _) sound

theorem sound_takeMissing' (s s' : State) (tid index : Nat) (wanted : Bool)
    (found : s.threads[tid]? = some (.takeMissing index wanted))
    (sound : Sound s.torrent s.writer (phases s.threads))
    (taken : advance s tid (.takeMissing index wanted) = some s') :
    Sound s'.torrent s'.writer (phases s'.threads) := by
  simp only [advance] at taken
  cases taken
  cases wanted with
  | true => exact sound_takeMissing s.torrent _ _ _ tid sound (moves_set s.threads tid _ _ found)
  | false => exact sound_neutral s _ tid _ (.testFully index) found rfl (sameBooks_refl _) sound

theorem sound_writePriority (s s' : State) (tid fileIdx : Nat) (priority : Int)
    (found : s.threads[tid]? = some (.writePriority fileIdx priority))
    (sound : Sound s.torrent s.writer (phases s.threads))
    (taken : advance s tid (.writePriority fileIdx priority) = some s') :
    Sound s'.torrent s'.writer (phases s'.threads) := by
  simp only [advance] at taken
  cases taken
  have moves := moves_set s.threads tid _ (.readPriority true) found
  simp only [State.update, HotTorrent.writePriority]
  split_ifs
  · exact sound_begin s.torrent _ _ _ tid moves sound _
  · exact sound_begin s.torrent _ _ _ tid moves sound _
  · exact sound_begin s.torrent _ _ _ tid moves sound s.torrent.filePriority

/-- Every operation of an undisturbed run preserves the invariant. -/
theorem sound_advance (s s' : State) (tid : Nat) (thread : Thread)
    (found : s.threads[tid]? = some thread) (bounded : Bounded s.torrent.pieceCount thread)
    (sound : Sound s.torrent s.writer (phases s.threads))
    (guarded : undisturbed s (.advance tid) = true) (taken : advance s tid thread = some s') :
    Sound s'.torrent s'.writer (phases s'.threads) := by
  have neutral := fun t next => sound_neutral s t tid thread next found
  have moves := fun next => moves_set s.threads tid thread next found
  cases thread with
  | lockPieces index wanted =>
    exact sound_lockPieces s s' tid index wanted found bounded sound guarded taken
  | snapshotPieces reprio wanted =>
    exact sound_snapshotPieces s s' tid reprio wanted found sound guarded taken
  | testFully index => exact sound_testFully s s' tid index found sound taken
  | takeMissing index wanted => exact sound_takeMissing' s s' tid index wanted found sound taken
  | writePriority fileIdx priority =>
    exact sound_writePriority s s' tid fileIdx priority found sound taken
  | dropHashes =>
    simp only [advance] at taken
    split_ifs at taken
    cases taken
    exact neutral _ .testDone rfl (sameBooks_dropPieceHashes _) sound
  | returned => cases taken
  | releaseClaim index | readWanted index | storeCount index wanted | addPayload index wanted
  | storeFullCount index | releasePool | readPriority reprio =>
    cases taken
    exact neutral _ _ rfl ⟨rfl, rfl, rfl, rfl, rfl, rfl⟩ sound
  | fillPool =>
    cases taken
    exact neutral _ .returned rfl (sameBooks_fillStagingPool _) sound
  | zeroMissing index =>
    cases taken
    have zeroed := sound_zeroMissing s.torrent _ _ tid sound (phases_at s.threads tid _ found)
    rw [State.update, phases_set_same s.threads tid _ (.storeFullPayload index) found rfl]
    exact zeroed
  | storeFullPayload index =>
    cases taken
    have settled := sound_settled s.torrent _ _ _ tid sound (moves (.unlockPieces index true))
    exact sound_of_sameBooks s.torrent _ _ _ ⟨rfl, rfl, rfl, rfl, rfl, rfl⟩ settled
  | unlockPieces index fully =>
    cases taken
    exact sound_unlock s.torrent _ _ _ tid sound (moves (.publish index fully))
  | publish index fully =>
    cases taken
    refine neutral _ _ ?_ ⟨rfl, rfl, rfl, rfl, rfl, rfl⟩ sound
    cases fully <;> rfl
  | testDone | testPool | testEnsure =>
    cases taken
    refine neutral _ _ ?_ (sameBooks_refl _) sound
    split_ifs <;> rfl
  | writeWanted reprio wanted missing =>
    cases taken
    exact sound_writeWanted s.torrent _ _ _ tid sound wanted missing (moves _)
  | storeMissing reprio missing =>
    cases taken
    apply sound_storeMissing s.torrent _ _ _ tid sound missing
    have moved := moves (if reprio then .testPool else .returned)
    cases reprio <;> exact moved

structure SoundState (s : State) : Prop where
  sound : Sound s.torrent s.writer (phases s.threads)
  bounded : ∀ thread ∈ s.threads, Bounded s.torrent.pieceCount thread

theorem soundState_start (t : HotTorrent) (valid : Balanced t) : SoundState (start t) := by
  refine ⟨⟨valid.sameCount, valid.sized, valid.counted, ?_, ?_, ?_, ?_, ?_, ?_, ?_, ?_, ?_, ?_, ?_⟩, ?_⟩
  · intro complete i below
    exact (valid.settled (Nat.zero_lt_of_lt below)).1 complete i below
  case refine_10 =>
    intro _ _ _
    change t.downloadMissing = missingFor t t.wantedBf
    rw [valid.missing]
    apply tally_congr
    intro i below
    rw [hasPiece_eq t valid i below, wantsPiece_eq t i below]
  case refine_11 =>
    refine Or.inr ⟨?_, Or.inl valid.wantedCurrent⟩
    intro _ _ _ at'
    cases at'
  case refine_12 =>
    intro thread member
    cases member
  all_goals
    intros
    contradiction

theorem soundState_call (s : State) (thread : Thread) (state : SoundState s)
    (bounded : Bounded s.torrent.pieceCount thread)
    (phase : phaseOf thread = .outside ∨ phaseOf thread = .stale) :
    SoundState { s with threads := s.threads ++ [thread] } := by
  have new : phases s.threads s.threads.length = .outside := by
    rw [phases, List.getElem?_eq_none le_rfl]
  refine ⟨?_, ?_⟩
  · change Sound s.torrent s.writer (phases (s.threads ++ [thread]))
    rw [phases_append]
    rcases phase with outside | stale
    · rw [outside, ← new, Function.update_eq_self]
      exact state.sound
    · rw [stale]
      have moves := moves_update (phases s.threads) s.threads.length .stale
      rw [new] at moves
      exact sound_begin s.torrent _ _ _ s.threads.length moves state.sound s.torrent.filePriority
  · intro other member
    rcases List.mem_append.1 member with old | fresh
    · exact state.bounded other old
    · rw [List.mem_singleton.1 fresh]
      exact bounded

theorem soundState_step (s : State) (event : Event) (s' : State) (state : SoundState s)
    (guarded : undisturbed s event = true) (taken : step s event = some s') : SoundState s' := by
  cases event with
  | call c =>
    cases c with
    | markHave index =>
      simp only [step] at taken
      split_ifs at taken with below
      cases taken
      exact soundState_call s _ state below (Or.inl rfl)
    | rebuildWantedAndMissing =>
      cases taken
      exact soundState_call s _ state trivial (Or.inr rfl)
    | setFilePriority fileIdx priority =>
      cases taken
      exact soundState_call s _ state trivial (Or.inl rfl)
  | advance tid =>
    obtain ⟨thread, found, moved⟩ := Option.bind_eq_some_iff.1 taken
    have bounded := state.bounded thread (List.mem_of_getElem? found)
    refine ⟨sound_advance s s' tid thread found bounded state.sound guarded moved, ?_⟩
    obtain ⟨next, threads, count, inside⟩ := advance_frame s s' tid thread moved
    intro other member
    rw [threads] at member
    rw [count]
    rcases List.mem_or_eq_of_mem_set member with old | new
    · exact state.bounded other old
    · rw [new]
      exact inside bounded

theorem phases_quiescent (s : State) (quiet : Quiescent s) (k : Nat) :
    phases s.threads k = .outside := by
  unfold phases
  split
  · rename_i thread found
    rw [quiet thread (List.mem_of_getElem? found)]
    rfl
  · rfl

/-- Once all calls of an undisturbed run have returned, the missing counter is the number of wanted
pieces not had, for the wanted set of the current priorities. -/
theorem downloadMissing_exact (t : HotTorrent) (events : List Event) (s : State)
    (valid : Balanced t)
    (guarded : Guarded step (fun s event => undisturbed s event = true) (start t) events)
    (ran : exec step (start t) events = some s) (quiet : Quiescent s) :
    s.torrent.downloadMissing =
      ((Finset.range s.torrent.pieceCount).filter
        (fun i => s.torrent.wantsPiece i = true ∧ s.torrent.hasPiece i = false)).card ∧
    (s.torrent.isDownloadComplete = true ↔
      ∀ i, i < s.torrent.pieceCount → s.torrent.wantsPiece i = true → s.torrent.hasPiece i = true) ∧
    s.torrent.wantedBf = buildWantedBitfield s.torrent.layout s.torrent.filePriority ∧
    (Geometry s.torrent.layout → ∀ i, i < s.torrent.pieceCount →
      (s.torrent.wantsPiece i = true ↔ WantedPiece s.torrent.layout s.torrent.filePriority i)) := by
  have state := exec_invariant step _ SoundState soundState_step (start t) s events
    (soundState_start t valid) guarded ran
  have sound := state.sound
  have outside := phases_quiescent s quiet
  have apart : ∀ k phase, phase ≠ .outside → phases s.threads k ≠ phase :=
    fun k phase distinct same => distinct (same.symm.trans (outside k))
  have exact' : s.torrent.downloadMissing =
      tally (fun i => s.torrent.wantsPiece i && !s.torrent.hasPiece i) s.torrent.pieceCount := by
    rw [sound.settled (fun k _ _ => apart k _ (by simp)) (fun k _ => apart k _ (by simp))
      (fun k => apart k _ (by simp))]
    apply tally_congr
    intro i below
    rw [wantsPiece_eq s.torrent i below, hasPiece, if_neg (by omega)]
    split_ifs with complete
    · rw [sound.full complete i below]
    · rfl
  have current : s.torrent.wantedBf =
      buildWantedBitfield s.torrent.layout s.torrent.filePriority := by
    rcases sound.current with ⟨k, stale⟩ | ⟨_, same | ⟨k, _, _, snapped⟩⟩
    · exact absurd stale (apart k _ (by simp))
    · exact same
    · exact absurd snapped (apart k _ (by simp))
  refine ⟨?_, ?_, current, ?_⟩
  · rw [exact', tally_eq_card]
    simp only [Bool.and_eq_true, Bool.not_eq_true']
  · rw [isDownloadComplete, decide_eq_true_eq, exact', tally_eq_zero_iff]
    apply forall_congr'
    intro i
    apply imp_congr_right
    intro _
    cases s.torrent.wantsPiece i <;> cases s.torrent.hasPiece i <;> simp
  · intro geometry i below
    rw [wantsPiece_eq s.torrent i below, current]
    apply buildWantedBitfield_iff s.torrent.layout geometry
    rw [sound.sameCount]
    exact below

/-- A priority change that takes effect between two marks, each call running undisturbed. -/
def quietTrace : List Event :=
  [Event.call (.markHave 0)] ++ List.replicate 11 (Event.advance 0) ++
    [Event.call (.setFilePriority 1 1)] ++ List.replicate 8 (Event.advance 1) ++
    [Event.call (.markHave 1)] ++ List.replicate 15 (Event.advance 2)

theorem downloadMissing_exact_quietTrace :
    ∃ s, exec step (start (newEmpty 1 [] twoFiles [])) quietTrace = some s ∧
      s.torrent.wantedBf = buildWantedBitfield s.torrent.layout s.torrent.filePriority := by
  have returned : ((exec step (start (newEmpty 1 [] twoFiles [])) quietTrace).any
      (fun s => s.threads.all (fun thread => thread == .returned))) = true := by decide
  obtain ⟨s, ran, quiet⟩ := (Option.any_eq_true _ _).1 returned
  refine ⟨s, ran, ?_⟩
  apply (downloadMissing_exact (newEmpty 1 [] twoFiles []) quietTrace s
    (balanced_newEmpty 1 [] twoFiles []) (guarded_of_guardedB step undisturbed _ _ (by decide))
    ran ?_).2.2.1
  intro thread member
  exact beq_iff_eq.1 (List.all_eq_true.1 quiet thread member)

/-- A rebuild takes its snapshot, a whole `mark_have` of the wanted piece runs, and the rebuild then
stores the count it made before. -/
def lostUpdateTrace : List Event :=
  [Event.call .rebuildWantedAndMissing] ++ List.replicate 2 (Event.advance 0) ++
    [Event.call (.markHave 0)] ++ List.replicate 11 (Event.advance 1) ++ List.replicate 2 (Event.advance 0)

/-- The stale store leaves a wanted piece missing forever although every wanted piece is had. -/
theorem stale_store_loses_decrement :
    ¬∀ (t : HotTorrent) (events : List Event) (s : State), Balanced t →
      exec step (start t) events = some s → Quiescent s →
      s.torrent.downloadMissing =
        ((Finset.range s.torrent.pieceCount).filter
          (fun i => s.torrent.wantsPiece i = true ∧ s.torrent.hasPiece i = false)).card ∧
      (s.torrent.isDownloadComplete = true ↔ ∀ i, i < s.torrent.pieceCount →
        s.torrent.wantsPiece i = true → s.torrent.hasPiece i = true) := by
  intro exact'
  have wrong : (exec step (start (newEmpty 1 [] twoFiles [])) lostUpdateTrace).any (fun s =>
      s.threads.all (fun thread => thread == .returned) && s.torrent.downloadMissing == 1 &&
        ((Finset.range s.torrent.pieceCount).filter
          (fun i => s.torrent.wantsPiece i = true ∧ s.torrent.hasPiece i = false)).card == 0) =
      true := by decide
  obtain ⟨s, ran, facts⟩ := (Option.any_eq_true _ _).1 wrong
  simp only [Bool.and_eq_true, beq_iff_eq] at facts
  obtain ⟨⟨returned, one⟩, none⟩ := facts
  have quiet : Quiescent s := by
    intro thread member
    exact beq_iff_eq.1 (List.all_eq_true.1 returned thread member)
  have promised := (exact' (newEmpty 1 [] twoFiles []) lostUpdateTrace s
    (balanced_newEmpty 1 [] twoFiles []) ran quiet).1
  omega

end Seedchamp.Hot.Quiescence
