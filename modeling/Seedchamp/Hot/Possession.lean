import Seedchamp.Hot.Wanted
import Mathlib.Data.List.Nodup

/-!
Possession of one hot torrent under calls made one after another. The derived quantities (count,
atomic mirrors, completion, completed payload, missing counter, HAVE log) are maintained
incrementally; `Balanced` states what each of them equals, and every operation restores it.
-/

namespace Seedchamp.Hot.Possession
open Catalog.Bitfield Disk.Spans Foundation.Tally Hot.Torrent Hot.Torrent.HotTorrent Hot.Wanted

inductive PossessionOp where
  | markHave (index : Nat)
  | setFilePriority (fileIdx : Nat) (priority : Int)
  deriving DecidableEq, Repr

def PossessionOp.apply (t : HotTorrent) : PossessionOp → HotTorrent
  | markHave index => (t.markHave index).1
  | setFilePriority fileIdx priority => t.setFilePriority fileIdx priority

/-- Callers only mark pieces the torrent has. -/
def PossessionOp.Valid (pieceCount : Nat) : PossessionOp → Prop
  | markHave index => index < pieceCount
  | setFilePriority _ _ => True

instance (pieceCount : Nat) (op : PossessionOp) : Decidable (op.Valid pieceCount) := by
  cases op <;> unfold PossessionOp.Valid <;> infer_instance

def run (t : HotTorrent) (ops : List PossessionOp) : HotTorrent := ops.foldl PossessionOp.apply t

/-- The indices passed to `mark_have`, in order. -/
def marks : List PossessionOp → List Nat
  | [] => []
  | .markHave index :: rest => index :: marks rest
  | .setFilePriority _ _ :: rest => marks rest

structure Balanced (t : HotTorrent) : Prop where
  sameCount : t.layout.pieceCount = t.pieceCount
  sized : t.pieces.bitfield.length = bitfieldSizeBytes t.pieceCount
  counted : t.pieces.haveCount = countHaveBits t.pieces.bitfield t.pieceCount
  mirrored : t.haveCountAtomic = t.pieces.haveCount
  settled : 0 < t.pieceCount →
    (t.pieces.complete = true ↔ ∀ i, i < t.pieceCount → bitfieldGet t.pieces.bitfield i = true)
  accounted : t.completedPayload =
    if t.pieces.complete then t.layout.totalSize
    else weigh t.layout.pieceBytes (bitfieldGet t.pieces.bitfield) t.pieceCount
  wantedCurrent : t.wantedBf = buildWantedBitfield t.layout t.filePriority
  missing : t.downloadMissing =
    tally (fun i => t.wantsPiece i && !t.hasPiece i) t.pieceCount

/-- The part of a torrent that possession is about. -/
structure Ledger where
  layout : StorageLayout
  pieceCount : Nat
  pieces : PieceState
  filePriority : List Int
  wantedBf : Bits
  downloadMissing : Nat
  haveCountAtomic : Nat
  completedPayload : Nat

def ledger (t : HotTorrent) : Ledger :=
  ⟨t.layout, t.pieceCount, t.pieces, t.filePriority, t.wantedBf, t.downloadMissing,
    t.haveCountAtomic, t.completedPayload⟩

theorem balanced_of_ledger (t t' : HotTorrent) (same : ledger t' = ledger t)
    (valid : Balanced t) : Balanced t' := by
  simp only [ledger, Ledger.mk.injEq] at same
  obtain ⟨layout, pieceCount, pieces, prios, wanted, missing, mirror, payload⟩ := same
  constructor
  · rw [layout, pieceCount, valid.sameCount]
  · rw [pieces, pieceCount, valid.sized]
  · rw [pieces, pieceCount, valid.counted]
  · rw [mirror, pieces, valid.mirrored]
  · rw [pieces, pieceCount]
    exact valid.settled
  · rw [payload, pieces, layout, pieceCount, valid.accounted]
  · rw [wanted, layout, prios, valid.wantedCurrent]
  · simp only [hasPiece, wantsPiece, pieceCount, pieces, wanted, missing]
    exact valid.missing

theorem ledger_afterHave (t : HotTorrent) (index : Nat) (fully : Bool) :
    ledger (t.afterHave index fully) = ledger t := by
  unfold afterHave dropPieceHashesIfComplete
  dsimp only
  split_ifs <;> rfl

theorem ledger_ensureStagingPool (t : HotTorrent) : ledger t.ensureStagingPool = ledger t := by
  unfold ensureStagingPool fillStagingPool
  split_ifs <;> rfl

/-- Possession of a piece is its bit, also once the torrent is complete. -/
theorem hasPiece_eq (t : HotTorrent) (valid : Balanced t) (index : Nat)
    (below : index < t.pieceCount) : t.hasPiece index = bitfieldGet t.pieces.bitfield index := by
  unfold hasPiece
  rw [if_neg (by omega)]
  split_ifs with complete
  · exact ((valid.settled (by omega)).1 complete index below).symm
  · rfl

theorem wantsPiece_eq (t : HotTorrent) (index : Nat) (below : index < t.pieceCount) :
    t.wantsPiece index = bitfieldGet t.wantedBf index := by
  unfold wantsPiece
  rw [if_neg (by omega)]

/-- Below the piece count the loops read the same bits as `has_piece` and `wants_piece`. -/
theorem missing_eq_bits (t : HotTorrent) (open' : t.pieces.complete = false) :
    tally (fun i => t.wantsPiece i && !t.hasPiece i) t.pieceCount =
      tally (fun i => bitfieldGet t.wantedBf i && !bitfieldGet t.pieces.bitfield i) t.pieceCount := by
  apply tally_congr
  intro i below
  simp only [hasPiece, wantsPiece, if_neg (show ¬t.pieceCount ≤ i by omega), open',
    Bool.false_eq_true, if_false]

/-- Rebuilding re-derives the wanted set and the missing counter from possession alone. -/
theorem balanced_rebuild (t : HotTorrent) (sameCount : t.layout.pieceCount = t.pieceCount)
    (sized : t.pieces.bitfield.length = bitfieldSizeBytes t.pieceCount)
    (counted : t.pieces.haveCount = countHaveBits t.pieces.bitfield t.pieceCount)
    (mirrored : t.haveCountAtomic = t.pieces.haveCount)
    (settled : 0 < t.pieceCount →
      (t.pieces.complete = true ↔ ∀ i, i < t.pieceCount → bitfieldGet t.pieces.bitfield i = true))
    (accounted : t.completedPayload =
      if t.pieces.complete then t.layout.totalSize
      else weigh t.layout.pieceBytes (bitfieldGet t.pieces.bitfield) t.pieceCount) :
    Balanced t.rebuildWantedAndMissing := by
  unfold rebuildWantedAndMissing
  dsimp only
  cases complete : t.pieces.complete with
  | true =>
    rw [if_pos rfl]
    refine ⟨sameCount, sized, counted, mirrored, settled, accounted, rfl, ?_⟩
    symm
    rw [tally_eq_zero_iff]
    intro i below
    have had : ¬t.pieceCount ≤ i := by
      dsimp only at below
      omega
    simp only [hasPiece, if_neg had, complete, if_true, Bool.not_true, Bool.and_false]
  | false =>
    rw [if_neg Bool.false_ne_true]
    exact ⟨sameCount, sized, counted, mirrored, settled, accounted, rfl,
      (missing_eq_bits { t with wantedBf := buildWantedBitfield t.layout t.filePriority } complete).symm⟩

theorem balanced_finishNew (t : HotTorrent) (sameCount : t.layout.pieceCount = t.pieceCount)
    (sized : t.pieces.bitfield.length = bitfieldSizeBytes t.pieceCount)
    (counted : t.pieces.haveCount = countHaveBits t.pieces.bitfield t.pieceCount)
    (mirrored : t.haveCountAtomic = t.pieces.haveCount)
    (settled : 0 < t.pieceCount →
      (t.pieces.complete = true ↔ ∀ i, i < t.pieceCount → bitfieldGet t.pieces.bitfield i = true)) :
    Balanced t.finishNew := by
  have swapped : t.finishNew = t.recountCompletedPayload.rebuildWantedAndMissing := by
    unfold finishNew rebuildWantedAndMissing recountCompletedPayload
    cases complete : t.pieces.complete <;> simp [complete]
  rw [swapped]
  unfold recountCompletedPayload
  cases complete : t.pieces.complete with
  | true =>
    rw [if_pos rfl]
    refine balanced_rebuild { t with completedPayload := t.layout.totalSize } sameCount sized
      counted mirrored settled ?_
    simp only [complete, if_true]
  | false =>
    rw [if_neg Bool.false_ne_true]
    refine balanced_rebuild { t with
      completedPayload := weigh t.layout.pieceBytes (bitfieldGet t.pieces.bitfield) t.pieceCount }
      sameCount sized counted mirrored settled ?_
    simp only [complete, Bool.false_eq_true, if_false]

theorem balanced_newEmpty (id : Nat) (infohash : List UInt8) (layout : StorageLayout)
    (pieceHashes : List UInt8) : Balanced (newEmpty id infohash layout pieceHashes) := by
  apply balanced_finishNew
  · rfl
  · exact emptyBitfield_length _
  · exact (countHaveBits_emptyBitfield _).symm
  · rfl
  · intro positive
    simp only [bare, Bool.false_eq_true, false_iff, not_forall]
    exact ⟨0, positive, by simp⟩

theorem balanced_newComplete (id : Nat) (infohash : List UInt8) (layout : StorageLayout)
    (pieceHashes : List UInt8) : Balanced (newComplete id infohash layout pieceHashes) := by
  apply balanced_finishNew
  · rfl
  · exact allSetBitfield_length _
  · exact (countHaveBits_allSetBitfield _).symm
  · rfl
  · intro _
    exact ⟨fun _ => bitfieldGet_allSetBitfield _, fun _ => rfl⟩

/-- A row whose possession columns agree with one another and with its layout. -/
structure Consistent (layout : StorageLayout) (row : CatalogRow) : Prop where
  sameCount : layout.pieceCount = row.pieceCount
  sized : row.bitfield = [] ∨ row.bitfield.length = bitfieldSizeBytes row.pieceCount
  counted : row.complete = false → row.haveCount = countHaveBits row.bitfield row.pieceCount
  incomplete : row.complete = false → 0 < row.pieceCount → row.haveCount < row.pieceCount

theorem countHaveBits_nil (pieceCount : Nat) : countHaveBits [] pieceCount = 0 :=
  (tally_eq_zero_iff _ _).2 (fun _ _ => by simp [bitfieldGet])

/-- The bits a consistent incomplete row loads agree with its stored count. -/
theorem loadBits_incomplete (layout : StorageLayout) (row : CatalogRow)
    (consistent : Consistent layout row) (complete : row.complete = false) :
    (loadBits row).length = bitfieldSizeBytes row.pieceCount ∧
      countHaveBits (loadBits row) row.pieceCount = row.haveCount := by
  have counted := consistent.counted complete
  unfold loadBits
  rw [complete, if_neg Bool.false_ne_true]
  split_ifs with blank
  · rw [List.isEmpty_iff.1 blank, countHaveBits_nil] at counted
    exact ⟨emptyBitfield_length _, by rw [countHaveBits_emptyBitfield, counted]⟩
  · rcases consistent.sized with none | whole
    · exact absurd (List.isEmpty_iff.2 none) blank
    · exact ⟨whole, counted.symm⟩

theorem balanced_loadFromCatalog (layout : StorageLayout) (row : CatalogRow)
    (allowIncomplete : Bool) (t : HotTorrent) (consistent : Consistent layout row)
    (loaded : loadFromCatalog layout row allowIncomplete = .ok t) : Balanced t := by
  unfold loadFromCatalog at loaded
  split_ifs at loaded with _ _ _ complete
  · cases loaded
    have bits : loadBits row = allSetBitfield row.pieceCount := if_pos complete
    apply balanced_finishNew
    · exact consistent.sameCount
    · rw [bare, bits]
      exact allSetBitfield_length _
    · rw [bare, bits]
      exact (countHaveBits_allSetBitfield _).symm
    · rfl
    · intro _
      rw [bare, bits]
      exact ⟨fun _ => bitfieldGet_allSetBitfield _, fun _ => complete⟩
  · cases loaded
    have incomplete : row.complete = false := Bool.eq_false_of_not_eq_true complete
    obtain ⟨sized, counted⟩ := loadBits_incomplete layout row consistent incomplete
    apply balanced_finishNew
    · exact consistent.sameCount
    · exact sized
    · exact counted.symm
    · rfl
    · intro positive
      have short := consistent.incomplete incomplete positive
      constructor
      · intro done
        exact absurd done complete
      · intro all
        have full := (tally_eq_bound_iff _ _).2 all
        rw [countHaveBits] at counted
        dsimp only [bare] at full
        omega

/-- A bit set by `mark_have` takes one piece off the missing counter exactly when it is wanted. -/
theorem missing_recordHave (t : HotTorrent) (valid : Balanced t) (index : Nat)
    (below : index < t.pieceCount) (open' : t.pieces.complete = false)
    (fresh : bitfieldGet t.pieces.bitfield index = false) :
    (t.recordHave index).downloadMissing =
      tally (fun i => (t.recordHave index).wantsPiece i && !(t.recordHave index).hasPiece i)
        t.pieceCount := by
  have inside : index / 8 < t.pieces.bitfield.length := by
    rw [valid.sized]
    exact index_div_lt_size index _ below
  have before : t.downloadMissing =
      tally (fun i => bitfieldGet t.wantedBf i && !bitfieldGet t.pieces.bitfield i) t.pieceCount := by
    rw [valid.missing, missing_eq_bits t open']
  have after := missing_eq_bits (t.recordHave index) open'
  rw [show (t.recordHave index).pieceCount = t.pieceCount from rfl] at after
  rw [after]
  have frame : ∀ i, i < t.pieceCount → i ≠ index →
      bitfieldGet (t.recordHave index).pieces.bitfield i = bitfieldGet t.pieces.bitfield i :=
    fun i _ distinct => bitfieldGet_bitfieldSet_other _ index i distinct
  have now : bitfieldGet (t.recordHave index).pieces.bitfield index = true :=
    bitfieldGet_bitfieldSet_self _ index inside
  simp only [recordHave, wantsPiece_eq t index below, before]
  by_cases wanted : bitfieldGet t.wantedBf index = true
  · have step : tally (fun i => bitfieldGet t.wantedBf i && !bitfieldGet t.pieces.bitfield i)
        t.pieceCount =
        tally (fun i => bitfieldGet t.wantedBf i &&
          !bitfieldGet (t.recordHave index).pieces.bitfield i) t.pieceCount + 1 := by
      apply tally_mark _ _ t.pieceCount index below
      · simp only [now, Bool.not_true, Bool.and_false]
      · simp only [wanted, fresh, Bool.not_false, Bool.and_self]
      · intro i small distinct
        simp only [frame i small distinct]
    rw [if_pos wanted, step, Nat.add_sub_cancel]
    rfl
  · rw [if_neg wanted]
    apply tally_congr
    intro i small
    by_cases same : i = index
    · subst same
      simp only [Bool.eq_false_of_not_eq_true wanted, Bool.false_and]
    · have kept := frame i small same
      simp only [recordHave] at kept
      simp only [kept]

theorem balanced_recordHave (t : HotTorrent) (valid : Balanced t) (index : Nat)
    (below : index < t.pieceCount) (open' : t.pieces.complete = false)
    (fresh : bitfieldGet t.pieces.bitfield index = false)
    (short : (t.recordHave index).pieces.haveCount < t.pieceCount) : Balanced (t.recordHave index) := by
  have inside : index / 8 < t.pieces.bitfield.length := by
    rw [valid.sized]
    exact index_div_lt_size index _ below
  have counted := countHaveBits_bitfieldSet t.pieces.bitfield t.pieceCount index below inside fresh
  refine ⟨valid.sameCount, ?_, ?_, rfl, ?_, ?_, valid.wantedCurrent, ?_⟩
  · exact (bitfieldSet_length _ _).trans valid.sized
  · exact (congrArg (· + 1) valid.counted).trans counted.symm
  · intro _
    constructor
    · intro done
      exact absurd done (by simp [recordHave, open'])
    · intro all
      have full := (tally_eq_bound_iff _ _).2 all
      have total : (t.recordHave index).pieces.haveCount =
          tally (bitfieldGet (t.recordHave index).pieces.bitfield) t.pieceCount :=
        (congrArg (· + 1) valid.counted).trans counted.symm
      rw [total] at short
      exact absurd full (Nat.ne_of_lt short)
  · have before := valid.accounted
    rw [open', if_neg Bool.false_ne_true] at before
    have after := weigh_mark t.layout.pieceBytes (bitfieldGet t.pieces.bitfield)
      (bitfieldGet (bitfieldSet t.pieces.bitfield index)) t.pieceCount index below fresh
      (bitfieldGet_bitfieldSet_self _ index inside)
      (fun i _ distinct => bitfieldGet_bitfieldSet_other _ index i distinct)
    simp only [recordHave, open', Bool.false_eq_true, if_false, before, after]
  · exact missing_recordHave t valid index below open' fresh

theorem balanced_settleComplete (t : HotTorrent) (sameCount : t.layout.pieceCount = t.pieceCount)
    (wantedCurrent : t.wantedBf = buildWantedBitfield t.layout t.filePriority) :
    Balanced t.settleComplete := by
  refine ⟨sameCount, ?_, ?_, rfl, ?_, rfl, wantedCurrent, ?_⟩
  · exact allSetBitfield_length _
  · exact (countHaveBits_allSetBitfield _).symm
  · intro _
    exact ⟨fun _ => bitfieldGet_allSetBitfield _, fun _ => rfl⟩
  · symm
    rw [settleComplete, tally_eq_zero_iff]
    intro i below
    have had : ¬t.pieceCount ≤ i := Nat.not_le.2 below
    simp only [hasPiece, if_neg had, if_true, Bool.not_true, Bool.and_false]

/-- What one `mark_have` does, by whether the piece was had. -/
theorem markHave_cases (t : HotTorrent) (valid : Balanced t) (index : Nat)
    (below : index < t.pieceCount) :
    (t.hasPiece index = true ∧ t.markHave index = (t.releasePieceClaim index, t.pieces.complete)) ∨
    (t.hasPiece index = false ∧ t.pieces.complete = false ∧
      bitfieldGet t.pieces.bitfield index = false ∧
      (t.markHave index).1 = ((t.releasePieceClaim index).recordHave index).settleHave.afterHave index
        ((t.releasePieceClaim index).recordHave index).fullyHad) := by
  have had := hasPiece_eq t valid index below
  by_cases known : (t.pieces.complete || bitfieldGet t.pieces.bitfield index) = true
  · left
    refine ⟨?_, if_pos known⟩
    rw [had]
    rcases Bool.or_eq_true_iff.1 known with complete | bit
    · exact (valid.settled (by omega)).1 complete index below
    · exact bit
  · right
    have parts := Bool.or_eq_false_iff.1 (Bool.eq_false_of_not_eq_true known)
    refine ⟨had.trans parts.2, parts.1, parts.2, ?_⟩
    exact congrArg Prod.fst (if_neg known)

theorem balanced_releasePieceClaim (t : HotTorrent) (valid : Balanced t) (index : Nat) :
    Balanced (t.releasePieceClaim index) := balanced_of_ledger t _ rfl valid

theorem balanced_settleHave (t : HotTorrent) (valid : Balanced t) (index : Nat)
    (below : index < t.pieceCount) (open' : t.pieces.complete = false)
    (fresh : bitfieldGet t.pieces.bitfield index = false) :
    Balanced (t.recordHave index).settleHave := by
  unfold settleHave
  split_ifs with fully
  · exact balanced_settleComplete _ valid.sameCount valid.wantedCurrent
  · apply balanced_recordHave t valid index below open' fresh
    simp only [fullyHad, decide_eq_true_eq, not_and, Nat.not_lt] at fully
    by_contra long
    have empty : t.pieceCount ≤ 0 := fully (Nat.not_lt.1 long)
    omega

theorem balanced_markHave (t : HotTorrent) (valid : Balanced t) (index : Nat)
    (below : index < t.pieceCount) : Balanced (t.markHave index).1 := by
  have released := balanced_releasePieceClaim t valid index
  rcases markHave_cases t valid index below with ⟨_, same⟩ | ⟨_, open', fresh, result⟩
  · rw [same]
    exact released
  · rw [result]
    apply balanced_of_ledger _ _ (ledger_afterHave _ _ _)
    exact balanced_settleHave _ released index below open' fresh

theorem balanced_setFilePriority (t : HotTorrent) (valid : Balanced t) (fileIdx : Nat)
    (priority : Int) : Balanced (t.setFilePriority fileIdx priority) := by
  have written : Balanced (t.writePriority fileIdx priority).rebuildWantedAndMissing := by
    unfold writePriority
    split_ifs <;> exact balanced_rebuild _ valid.sameCount valid.sized valid.counted
      valid.mirrored valid.settled valid.accounted
  unfold setFilePriority
  dsimp only
  split_ifs
  · exact balanced_of_ledger (t.writePriority fileIdx priority).rebuildWantedAndMissing _ rfl written
  · exact balanced_of_ledger _ _ (ledger_ensureStagingPool _) written

@[simp] theorem pieceCount_recordHave_settle (t : HotTorrent) (index : Nat) :
    (t.recordHave index).settleHave.pieceCount = t.pieceCount := by
  unfold settleHave
  split_ifs <;> rfl

theorem pieceCount_of_ledger (t t' : HotTorrent) (same : ledger t' = ledger t) :
    t'.pieceCount = t.pieceCount := congrArg Ledger.pieceCount same

theorem hasPiece_of_ledger (t t' : HotTorrent) (same : ledger t' = ledger t) :
    t'.hasPiece = t.hasPiece := by
  have pieces : t'.pieces = t.pieces := congrArg Ledger.pieces same
  unfold hasPiece
  rw [pieces, pieceCount_of_ledger t t' same]

@[simp] theorem pieceCount_markHave (t : HotTorrent) (index : Nat) :
    (t.markHave index).1.pieceCount = t.pieceCount := by
  unfold markHave
  dsimp only
  split_ifs
  · rfl
  · exact (pieceCount_of_ledger _ _ (ledger_afterHave _ _ _)).trans
      (pieceCount_recordHave_settle _ _)

theorem settled_bit (t : HotTorrent) (valid : Balanced t) (index i : Nat)
    (below : index < t.pieceCount) (small : i < t.pieceCount)
    (open' : t.pieces.complete = false) (fresh : bitfieldGet t.pieces.bitfield index = false) :
    (t.recordHave index).settleHave.hasPiece i = (i == index || t.hasPiece i) := by
  have inside : index / 8 < t.pieces.bitfield.length := by
    rw [valid.sized]
    exact index_div_lt_size index _ below
  have recorded : bitfieldGet (t.recordHave index).pieces.bitfield i =
      (i == index || bitfieldGet t.pieces.bitfield i) := by
    by_cases same : i = index
    · subst same
      rw [beq_self_eq_true, Bool.true_or]
      exact bitfieldGet_bitfieldSet_self _ _ inside
    · rw [beq_eq_false_iff_ne.2 same, Bool.false_or]
      exact bitfieldGet_bitfieldSet_other _ _ _ same
  rw [hasPiece_eq t valid i small]
  have after := balanced_settleHave t valid index below open' fresh
  rw [hasPiece_eq _ after i (by simpa using small)]
  unfold settleHave
  split_ifs with fully
  · -- Every bit below the piece count was counted, so the settled bitfield adds none.
    have counted := countHaveBits_bitfieldSet t.pieces.bitfield t.pieceCount index below inside fresh
    rw [← valid.counted] at counted
    simp only [fullyHad, decide_eq_true_eq] at fully
    have enough : t.pieceCount ≤ t.pieces.haveCount + 1 := fully.1
    have atMost := tally_le (bitfieldGet (bitfieldSet t.pieces.bitfield index)) t.pieceCount
    unfold countHaveBits at counted
    have all := (tally_eq_bound_iff (bitfieldGet (bitfieldSet t.pieces.bitfield index))
      t.pieceCount).1 (by omega) i small
    exact (bitfieldGet_allSetBitfield _ i small).trans (all.symm.trans recorded)
  · exact recorded

/-- `mark_have` adds its piece to the had pieces and touches no other. -/
theorem hasPiece_markHave (t : HotTorrent) (valid : Balanced t) (index i : Nat)
    (below : index < t.pieceCount) (small : i < t.pieceCount) :
    (t.markHave index).1.hasPiece i = (i == index || t.hasPiece i) := by
  rcases markHave_cases t valid index below with ⟨had, same⟩ | ⟨_, open', fresh, result⟩
  · rw [same]
    change t.hasPiece i = _
    by_cases equal : i = index
    · rw [equal, had, Bool.or_true]
    · rw [beq_eq_false_iff_ne.2 equal, Bool.false_or]
  · rw [result, hasPiece_of_ledger _ _ (ledger_afterHave _ _ _)]
    exact settled_bit _ (balanced_releasePieceClaim t valid index) index i below small open' fresh

theorem haveHub_afterHave (t : HotTorrent) (index : Nat) (fully : Bool) :
    (t.afterHave index fully).haveHub = t.haveHub.publish index := by
  unfold afterHave dropPieceHashesIfComplete
  dsimp only
  split_ifs <;> rfl

/-- A piece is announced by `mark_have` exactly when it was not had. -/
theorem haveHub_markHave (t : HotTorrent) (valid : Balanced t) (index : Nat)
    (below : index < t.pieceCount) :
    (t.markHave index).1.haveHub =
      if t.hasPiece index then t.haveHub else t.haveHub.publish index := by
  rcases markHave_cases t valid index below with ⟨had, same⟩ | ⟨missing, _, _, result⟩
  · rw [same, had, if_pos rfl]
    rfl
  · rw [result, haveHub_afterHave, missing, if_neg Bool.false_ne_true]
    unfold settleHave
    split_ifs <;> rfl

theorem setFilePriority_frame (t : HotTorrent) (fileIdx : Nat) (priority : Int) :
    (t.setFilePriority fileIdx priority).pieces = t.pieces ∧
      (t.setFilePriority fileIdx priority).pieceCount = t.pieceCount ∧
      (t.setFilePriority fileIdx priority).layout = t.layout ∧
      (t.setFilePriority fileIdx priority).haveHub = t.haveHub := by
  unfold setFilePriority ensureStagingPool fillStagingPool rebuildWantedAndMissing writePriority
  dsimp only
  split_ifs <;> exact ⟨rfl, rfl, rfl, rfl⟩

theorem layout_markHave (t : HotTorrent) (index : Nat) :
    (t.markHave index).1.layout = t.layout := by
  unfold markHave afterHave settleHave dropPieceHashesIfComplete
  dsimp only
  split_ifs <;> rfl

theorem hasPiece_setFilePriority (t : HotTorrent) (fileIdx : Nat) (priority : Int) :
    (t.setFilePriority fileIdx priority).hasPiece = t.hasPiece := by
  obtain ⟨pieces, count, _, _⟩ := setFilePriority_frame t fileIdx priority
  unfold hasPiece
  rw [pieces, count]

theorem pieceCount_apply (t : HotTorrent) (op : PossessionOp) :
    (op.apply t).pieceCount = t.pieceCount := by
  cases op with
  | markHave index => exact pieceCount_markHave t index
  | setFilePriority fileIdx priority => exact (setFilePriority_frame t fileIdx priority).2.1

theorem layout_run (t : HotTorrent) (ops : List PossessionOp) : (run t ops).layout = t.layout := by
  induction ops generalizing t with
  | nil => rfl
  | cons op rest ih =>
    refine (ih (op.apply t)).trans ?_
    cases op with
    | markHave index => exact layout_markHave t index
    | setFilePriority fileIdx priority => exact (setFilePriority_frame t fileIdx priority).2.2.1

theorem balanced_apply (t : HotTorrent) (valid : Balanced t) (op : PossessionOp)
    (admitted : op.Valid t.pieceCount) : Balanced (op.apply t) := by
  cases op with
  | markHave index => exact balanced_markHave t valid index admitted
  | setFilePriority fileIdx priority => exact balanced_setFilePriority t valid fileIdx priority

/-- Every run of admitted calls keeps the books balanced. -/
theorem balanced_run (t : HotTorrent) (valid : Balanced t) (ops : List PossessionOp)
    (admitted : ∀ op ∈ ops, op.Valid t.pieceCount) : Balanced (run t ops) := by
  induction ops generalizing t with
  | nil => exact valid
  | cons op rest ih =>
    apply ih (op.apply t) (balanced_apply t valid op (admitted op List.mem_cons_self))
    intro later member
    rw [pieceCount_apply]
    exact admitted later (List.mem_cons_of_mem op member)

theorem marks_valid (ops : List PossessionOp) (pieceCount : Nat)
    (admitted : ∀ op ∈ ops, op.Valid pieceCount) : ∀ i ∈ marks ops, i < pieceCount := by
  induction ops with
  | nil => intro i member; cases member
  | cons op rest ih =>
    have later := ih (fun op' member => admitted op' (List.mem_cons_of_mem op member))
    cases op with
    | markHave index =>
      intro i member
      rcases List.mem_cons.1 member with same | other
      · subst same
        exact admitted _ List.mem_cons_self
      · exact later i other
    | setFilePriority fileIdx priority => exact later

/-- The announcements of a run: each index marked and not had at the start, at its first mark. -/
def announced (t : HotTorrent) (ops : List PossessionOp) : List Nat :=
  ((marks ops).filter (fun i => !t.hasPiece i)).eraseDups

theorem haveHub_run (t : HotTorrent) (valid : Balanced t) (ops : List PossessionOp)
    (admitted : ∀ op ∈ ops, op.Valid t.pieceCount) :
    (run t ops).haveHub = (announced t ops).foldl HaveHub.publish t.haveHub := by
  induction ops generalizing t with
  | nil => rfl
  | cons op rest ih =>
    have head := admitted op List.mem_cons_self
    have tail : ∀ op' ∈ rest, op'.Valid (op.apply t).pieceCount := by
      intro later member
      rw [pieceCount_apply]
      exact admitted later (List.mem_cons_of_mem op member)
    have small : ∀ i ∈ marks rest, i < t.pieceCount := by
      have bounds := marks_valid rest _ tail
      rwa [pieceCount_apply] at bounds
    have step := ih (op.apply t) (balanced_apply t valid op head) tail
    rw [show run t (op :: rest) = run (op.apply t) rest from rfl, step]
    cases op with
    | setFilePriority fileIdx priority =>
      simp only [PossessionOp.apply, announced, marks, hasPiece_setFilePriority,
        (setFilePriority_frame t fileIdx priority).2.2.2]
    | markHave index =>
      simp only [PossessionOp.apply, announced, marks]
      rw [haveHub_markHave t valid index head]
      cases had : t.hasPiece index with
      | true =>
        have same : (marks rest).filter (fun i => !(t.markHave index).1.hasPiece i) =
            (marks rest).filter (fun i => !t.hasPiece i) := by
          apply List.filter_congr
          intro i member
          rw [hasPiece_markHave t valid index i head (small i member)]
          by_cases equal : i = index
          · rw [equal, had, Bool.or_true]
          · rw [beq_eq_false_iff_ne.2 equal, Bool.false_or]
        rw [same, if_pos rfl, List.filter_cons_of_neg (by simp [had])]
      | false =>
        have split : (marks rest).filter (fun i => !(t.markHave index).1.hasPiece i) =
            ((marks rest).filter (fun i => !t.hasPiece i)).filter (fun i => !(i == index)) := by
          rw [List.filter_filter]
          apply List.filter_congr
          intro i member
          rw [hasPiece_markHave t valid index i head (small i member), Bool.not_or]
        rw [split, if_neg Bool.false_ne_true, List.filter_cons_of_pos (by simp [had]),
          List.eraseDups_cons, List.foldl_cons]

theorem nodup_eraseDups (l : List Nat) : l.eraseDups.Nodup := by
  induction len : l.length using Nat.strong_induction_on generalizing l with
  | _ n ih =>
    cases l with
    | nil => simp
    | cons head rest =>
      rw [List.eraseDups_cons, List.nodup_cons]
      refine ⟨by simp, ih _ ?_ _ rfl⟩
      rw [← len]
      exact Nat.lt_succ_of_le (List.length_filter_le _ _)

/-- No index is announced twice. -/
theorem announced_nodup (t : HotTorrent) (ops : List PossessionOp) : (announced t ops).Nodup :=
  nodup_eraseDups _

theorem mem_announced (t : HotTorrent) (ops : List PossessionOp) (index : Nat) :
    index ∈ announced t ops ↔ index ∈ marks ops ∧ t.hasPiece index = false := by
  unfold announced
  rw [List.mem_eraseDups, List.mem_filter]
  simp

theorem hasPiece_run (t : HotTorrent) (valid : Balanced t) (ops : List PossessionOp)
    (admitted : ∀ op ∈ ops, op.Valid t.pieceCount) (index : Nat) (below : index < t.pieceCount) :
    (run t ops).hasPiece index = true ↔ t.hasPiece index = true ∨ index ∈ marks ops := by
  induction ops generalizing t with
  | nil => simp [run, marks]
  | cons op rest ih =>
    have head := admitted op List.mem_cons_self
    rw [show run t (op :: rest) = run (op.apply t) rest from rfl,
      ih (op.apply t) (balanced_apply t valid op head)
        (fun later member => by
          rw [pieceCount_apply]
          exact admitted later (List.mem_cons_of_mem op member))
        (by rwa [pieceCount_apply])]
    cases op with
    | setFilePriority fileIdx priority =>
      simp only [PossessionOp.apply, hasPiece_setFilePriority, marks]
    | markHave marked =>
      simp only [PossessionOp.apply, marks, List.mem_cons,
        hasPiece_markHave t valid marked index head below, Bool.or_eq_true, beq_iff_eq]
      exact (or_congr_left or_comm).trans or_assoc

/-- Where a run may begin: a fresh leecher, a seeder, or a load of a consistent row, with any
number of sessions subscribed to the HAVE channel. -/
inductive Start : HotTorrent → Prop where
  | empty (id : Nat) (infohash : List UInt8) (layout : StorageLayout) (pieceHashes : List UInt8) :
      Start (newEmpty id infohash layout pieceHashes)
  | complete (id : Nat) (infohash : List UInt8) (layout : StorageLayout)
      (pieceHashes : List UInt8) : Start (newComplete id infohash layout pieceHashes)
  | loaded (layout : StorageLayout) (row : CatalogRow) (allowIncomplete : Bool) (t : HotTorrent)
      (consistent : Consistent layout row)
      (result : loadFromCatalog layout row allowIncomplete = .ok t) : Start t
  | subscribed (t : HotTorrent) (before : Start t) : Start t.subscribeHave

theorem balanced_start (t : HotTorrent) (start : Start t) : Balanced t := by
  induction start with
  | empty id infohash layout pieceHashes => exact balanced_newEmpty id infohash layout pieceHashes
  | complete id infohash layout pieceHashes =>
    exact balanced_newComplete id infohash layout pieceHashes
  | loaded layout row allowIncomplete t consistent result =>
    exact balanced_loadFromCatalog layout row allowIncomplete t consistent result
  | subscribed t before ih => exact balanced_of_ledger t _ rfl ih

/-- The completed payload is the sum of the had pieces, once the pieces cover the payload. -/
theorem completedBytes_eq (t : HotTorrent) (valid : Balanced t)
    (covered : t.layout.totalSize ≤ t.layout.pieceCount * t.layout.pieceLength) :
    t.completedBytes = weigh t.layout.pieceBytes t.hasPiece t.pieceCount := by
  have bits := weigh_congr t.layout.pieceBytes t.hasPiece (bitfieldGet t.pieces.bitfield)
    t.pieceCount (hasPiece_eq t valid)
  rw [completedBytes, valid.accounted]
  split_ifs with complete
  · have all := weigh_congr t.layout.pieceBytes t.hasPiece (fun _ => true) t.pieceCount (by
      intro i below
      rw [hasPiece, if_neg (by omega), if_pos complete])
    have total := weigh_pieceBytes_all t.layout covered
    rw [all, ← valid.sameCount, total]
  · exact bits.symm

theorem weigh_le_all (weight : Nat → Nat) (marked : Nat → Bool) (bound : Nat) :
    weigh weight marked bound ≤ weigh weight (fun _ => true) bound := by
  induction bound with
  | zero => exact le_rfl
  | succ bound ih =>
    simp only [weigh, if_true]
    split_ifs <;> omega

theorem completedBytes_le (t : HotTorrent) (valid : Balanced t)
    (covered : t.layout.totalSize ≤ t.layout.pieceCount * t.layout.pieceLength) :
    t.completedBytes ≤ t.layout.totalSize := by
  rw [completedBytes_eq t valid covered, ← weigh_pieceBytes_all t.layout covered, valid.sameCount]
  exact weigh_le_all _ _ _

/-- Every quantity derived from possession is exact after every run of admitted calls, and the
announcements are the newly had indices, each once, in the order of their first marks. -/
theorem possession_exact (t : HotTorrent) (ops : List PossessionOp) (start : Start t)
    (admitted : ∀ op ∈ ops, op.Valid t.pieceCount) :
    let t' := run t ops
    let had := (Finset.range t.pieceCount).filter (fun i => t'.hasPiece i = true)
    (∀ i, i < t.pieceCount → (i ∈ had ↔ t.hasPiece i = true ∨ i ∈ marks ops)) ∧
    (∀ i, i < t.pieceCount → (i ∈ had ↔ bitfieldGet t'.pieces.bitfield i = true)) ∧
    t'.pieces.haveCount = had.card ∧ t'.haveCountAtomic = t'.pieces.haveCount ∧
    (0 < t.pieceCount →
      (t'.isComplete = true ↔ ∀ i, i < t.pieceCount → bitfieldGet t'.pieces.bitfield i = true)) ∧
    (t'.isComplete = true → t'.completedBytes = t'.layout.totalSize) ∧
    (t'.layout.totalSize ≤ t'.layout.pieceCount * t'.layout.pieceLength →
      t'.completedBytes = ∑ i ∈ had, t'.layout.pieceBytes i ∧
      t'.leftBytes + t'.completedBytes = t'.layout.totalSize) ∧
    t'.downloadMissing =
      ((Finset.range t.pieceCount).filter
        (fun i => t'.wantsPiece i = true ∧ t'.hasPiece i = false)).card ∧
    (Geometry t'.layout → ∀ i, i < t.pieceCount →
      (t'.wantsPiece i = true ↔ WantedPiece t'.layout t'.filePriority i)) ∧
    t'.haveHub = (announced t ops).foldl HaveHub.publish t.haveHub ∧ (announced t ops).Nodup ∧
    ∀ i, i ∈ announced t ops ↔ i ∈ marks ops ∧ t.hasPiece i = false := by
  intro t' had
  have before := balanced_start t start
  have after : Balanced t' := balanced_run t before ops admitted
  have count : t'.pieceCount = t.pieceCount := by
    rw [← after.sameCount, ← before.sameCount]
    exact congrArg StorageLayout.pieceCount (layout_run t ops)
  have bit : ∀ i, i < t.pieceCount → t'.hasPiece i = bitfieldGet t'.pieces.bitfield i :=
    fun i below => hasPiece_eq t' after i (by omega)
  have member : ∀ i, i < t.pieceCount → (i ∈ had ↔ t'.hasPiece i = true) := by
    intro i below
    simp only [had, Finset.mem_filter, Finset.mem_range, below, true_and]
  refine ⟨?_, ?_, ?_, after.mirrored, ?_, ?_, ?_, ?_, ?_, haveHub_run t before ops admitted,
    announced_nodup t ops, mem_announced t ops⟩
  · intro i below
    rw [member i below, hasPiece_run t before ops admitted i below]
  · intro i below
    rw [member i below, bit i below]
  · rw [after.counted, countHaveBits, count, ← tally_congr _ _ _ bit, tally_eq_card]
  · intro positive
    have settled := after.settled (by omega)
    rwa [count] at settled
  · intro complete
    rw [completedBytes, after.accounted]
    exact if_pos complete
  · intro covered
    have total := completedBytes_le t' after covered
    refine ⟨?_, ?_⟩
    · rw [completedBytes_eq t' after covered, weigh_eq_sum, count]
    · rw [leftBytes]
      omega
  · rw [after.missing, tally_eq_card, count]
    simp only [Bool.and_eq_true, Bool.not_eq_true']
  · intro geometry i below
    rw [wantsPiece_eq t' i (by omega), after.wantedCurrent]
    apply buildWantedBitfield_iff t'.layout geometry
    rw [after.sameCount]
    omega

/-- Two files of one 32-byte piece each; the second file is off. -/
def twoFiles : StorageLayout where
  dataRoot := ["data"]
  pieceLength := 32
  pieceCount := 2
  totalSize := 64
  files := [⟨["a"], 32, 0, 1⟩, ⟨["b"], 32, 32, 0⟩]

theorem possession_exact_twoFiles :
    let ops := [PossessionOp.markHave 0, .markHave 0, .setFilePriority 1 1, .markHave 1]
    let t := (newEmpty 1 [] twoFiles []).subscribeHave
    (run t ops).haveHub = (announced t ops).foldl HaveHub.publish t.haveHub ∧
      announced t ops = [0, 1] := by
  have all := possession_exact (newEmpty 1 [] twoFiles []).subscribeHave
    [PossessionOp.markHave 0, .markHave 0, .setFilePriority 1 1, .markHave 1]
    (Start.subscribed _ (Start.empty 1 [] twoFiles [])) (by decide)
  exact ⟨all.2.2.2.2.2.2.2.2.2.1, by decide⟩

/-- A mark of a piece that was had from the start announces nothing. -/
theorem mark_of_had_piece_silent :
    ¬∀ (t : HotTorrent) (ops : List PossessionOp), Start t → t.haveHub = [⟨true, []⟩] →
      (∀ op ∈ ops, op.Valid t.pieceCount) → ∀ index ∈ marks ops,
        ∃ sub, (run t ops).haveHub = [sub] ∧ sub.queue.count index = 1 := by
  intro once
  obtain ⟨sub, hub, count⟩ := once (newComplete 1 [] twoFiles []).subscribeHave [.markHave 0]
    (Start.subscribed _ (Start.complete 1 [] twoFiles [])) (by decide) (by decide) 0 (by decide)
  have silent : (run (newComplete 1 [] twoFiles []).subscribeHave [.markHave 0]).haveHub =
      [⟨true, []⟩] := by decide
  rw [silent] at hub
  cases hub
  exact absurd count (by decide)

end Seedchamp.Hot.Possession
