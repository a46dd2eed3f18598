import Seedchamp.Catalog.Statements

/-!
Possession is stored three times over: the bits, their count and the `complete` flag. Every writer
of these columns keeps the three in agreement.
-/

namespace Seedchamp.Catalog.Possession
open Foundation.Tally Foundation.TransitionSystem Catalog.Bitfield Catalog.Table Catalog.Pieces
open Catalog.Statements Library.Ingest Disk.Spans

/-- A stored bitfield: exactly the bytes the pieces need, and no bit after the last piece. -/
structure Fitting (bits : Bits) (pieceCount : Nat) : Prop where
  size : bits.length = bitfieldSizeBytes pieceCount
  spare : ∀ index, pieceCount ≤ index → bitfieldGet bits index = false

structure Agreement (r : Row) : Prop where
  fitting : ∀ bits, r.storedBits = some bits → Fitting bits r.pieceCount
  counted : r.haveCount = tally r.hasPiece r.pieceCount
  completed : r.columns.complete = true ↔ 0 < r.pieceCount ∧ r.haveCount = r.pieceCount
  compact : r.columns.complete = true → r.storedBits = none

theorem fitting_emptyBitfield (pieceCount : Nat) : Fitting (emptyBitfield pieceCount) pieceCount :=
  ⟨emptyBitfield_length pieceCount, fun index _ => bitfieldGet_emptyBitfield pieceCount index⟩

theorem loadBitfieldState_incomplete (r : Row) (incomplete : r.columns.complete = false) :
    r.loadBitfieldState.2.1 = r.storedBits.getD (emptyBitfield r.pieceCount) := by
  rw [Row.loadBitfieldState, if_neg (by simp [incomplete])]

theorem loadBitfieldState_complete (r : Row) (complete : r.columns.complete = true) :
    r.loadBitfieldState.2.1 = allSetBitfield r.pieceCount := by
  rw [Row.loadBitfieldState, if_pos complete]

/-- The bitfield a batch starts from fits the torrent. -/
theorem Agreement.loaded {r : Row} (agreement : Agreement r)
    (incomplete : r.columns.complete = false) : Fitting r.loadBitfieldState.2.1 r.pieceCount := by
  rw [loadBitfieldState_incomplete r incomplete]
  cases stored : r.storedBits with
  | none => exact fitting_emptyBitfield r.pieceCount
  | some bits => exact agreement.fitting bits stored

/-! ### A batch -/

theorem gatherOne_fitting (pieceCount : Nat) (g : Gather) (item : Nat × Nat)
    (fits : Fitting g.bits pieceCount) : Fitting (gatherOne pieceCount g item).bits pieceCount := by
  unfold gatherOne
  split_ifs with skipped
  · exact fits
  · rw [not_or, not_le] at skipped
    refine ⟨by rw [bitfieldSet_length, fits.size], ?_⟩
    intro index spare
    rw [bitfieldGet_bitfieldSet_other _ _ _ (by omega)]
    exact fits.spare index spare

theorem gatherOne_counted (pieceCount : Nat) (g : Gather) (item : Nat × Nat)
    (fits : Fitting g.bits pieceCount) (counted : g.haveCount = countHaveBits g.bits pieceCount) :
    (gatherOne pieceCount g item).haveCount =
      countHaveBits (gatherOne pieceCount g item).bits pieceCount := by
  unfold gatherOne
  split_ifs with skipped
  · exact counted
  · rw [not_or, not_le, Bool.not_eq_true] at skipped
    have inside : item.1 / 8 < g.bits.length := by
      rw [fits.size]
      exact index_div_lt_size _ _ skipped.1
    rw [countHaveBits_bitfieldSet g.bits pieceCount item.1 skipped.1 inside skipped.2, counted]

/-- A bit once set stays set. -/
theorem gatherOne_mono (pieceCount : Nat) (g : Gather) (item : Nat × Nat) (index : Nat)
    (had : bitfieldGet g.bits index = true) :
    bitfieldGet (gatherOne pieceCount g item).bits index = true := by
  unfold gatherOne
  split_ifs with skipped
  · exact had
  · have other : index ≠ item.1 := by
      rintro rfl
      exact skipped (.inr had)
    rw [bitfieldGet_bitfieldSet_other _ _ _ other, had]

theorem gatherOne_marks (pieceCount : Nat) (g : Gather) (item : Nat × Nat)
    (fits : Fitting g.bits pieceCount) (piece : item.1 < pieceCount) :
    bitfieldGet (gatherOne pieceCount g item).bits item.1 = true := by
  unfold gatherOne
  split_ifs with skipped
  · exact skipped.resolve_left (not_le.2 piece)
  · apply bitfieldGet_bitfieldSet_self
    rw [fits.size]
    exact index_div_lt_size _ _ piece

theorem foldl_gatherOne (pieceCount : Nat) (items : List (Nat × Nat)) (g : Gather)
    (fits : Fitting g.bits pieceCount) (counted : g.haveCount = countHaveBits g.bits pieceCount) :
    Fitting (items.foldl (gatherOne pieceCount) g).bits pieceCount ∧
    (items.foldl (gatherOne pieceCount) g).haveCount =
      countHaveBits (items.foldl (gatherOne pieceCount) g).bits pieceCount := by
  induction items generalizing g with
  | nil => exact ⟨fits, counted⟩
  | cons item rest ih =>
    exact ih _ (gatherOne_fitting pieceCount g item fits) (gatherOne_counted pieceCount g item fits counted)

theorem foldl_gatherOne_mono (pieceCount : Nat) (items : List (Nat × Nat)) (g : Gather) (index : Nat)
    (had : bitfieldGet g.bits index = true) :
    bitfieldGet (items.foldl (gatherOne pieceCount) g).bits index = true := by
  induction items generalizing g with
  | nil => exact had
  | cons item rest ih => exact ih _ (gatherOne_mono pieceCount g item index had)

theorem foldl_gatherOne_marks (pieceCount : Nat) (items : List (Nat × Nat)) (g : Gather)
    (fits : Fitting g.bits pieceCount) (item : Nat × Nat) (member : item ∈ items)
    (piece : item.1 < pieceCount) :
    bitfieldGet (items.foldl (gatherOne pieceCount) g).bits item.1 = true := by
  induction items generalizing g with
  | nil => cases member
  | cons first rest ih =>
    rcases List.mem_cons.1 member with here | later
    · rw [← here, List.foldl_cons]
      exact foldl_gatherOne_mono _ _ _ _ (gatherOne_marks pieceCount g item fits piece)
    · exact ih _ (gatherOne_fitting pieceCount g first fits) later

/-- A row that a batch moves was incomplete and has pieces. -/
theorem unmoved_eq_false (r : Row) (items : List (Nat × Nat)) (moved : unmoved r items = false) :
    r.columns.complete = false ∧ 0 < r.pieceCount := by
  simp only [unmoved, Bool.or_eq_false_iff, decide_eq_false_iff_not] at moved
  exact ⟨moved.1.1, Nat.pos_of_ne_zero moved.1.2⟩

theorem agreement_applyHaves (r : Row) (items : List (Nat × Nat)) (agreement : Agreement r) :
    Agreement (r.withColumns (applyHaves r items)) := by
  cases moves : unmoved r items with
  | true =>
    rw [applyHaves, if_pos moves]
    exact agreement
  | false =>
    obtain ⟨incomplete, pieces⟩ := unmoved_eq_false r items moves
    have counted : r.haveCount = countHaveBits r.loadBitfieldState.2.1 r.pieceCount :=
      agreement.counted
    obtain ⟨fits, counts⟩ := foldl_gatherOne r.pieceCount items
      ⟨r.loadBitfieldState.2.1, r.haveCount, 0, false⟩ (agreement.loaded incomplete) counted
    have bound : (gather r items).haveCount ≤ r.pieceCount := by
      rw [gather, counts]
      exact tally_le _ _
    have still : (if r.haveCount = 0 then false else r.columns.complete) = false := by
      rw [incomplete, ite_self]
    simp only [applyHaves, moves, Bool.false_eq_true, if_false, still]
    by_cases all : r.pieceCount ≤ (gather r items).haveCount
    · rw [if_pos all]
      refine ⟨?_, ?_, ?_, ?_⟩
      · intro bits stored
        cases stored
      · exact (countHaveBits_allSetBitfield r.pieceCount).symm
      · exact ⟨fun _ => ⟨pieces, rfl⟩, fun _ => rfl⟩
      · exact fun _ => rfl
    · rw [if_neg all]
      refine ⟨?_, ?_, ?_, ?_⟩
      · intro bits stored
        cases stored
        exact fits
      · exact counts
      · refine ⟨fun complete => absurd complete Bool.false_ne_true, ?_⟩
        rintro ⟨-, full⟩
        exact absurd (Nat.le_of_eq full.symm) all
      · exact fun complete => absurd complete Bool.false_ne_true

theorem gatherOne_changed (pieceCount : Nat) (g : Gather) (item : Nat × Nat)
    (still : (gatherOne pieceCount g item).changed = false) :
    gatherOne pieceCount g item = g ∧ g.changed = false := by
  unfold gatherOne at still ⊢
  split_ifs at still ⊢ with skipped
  exact ⟨rfl, still⟩

theorem foldl_gatherOne_changed (pieceCount : Nat) (items : List (Nat × Nat)) (g : Gather)
    (still : (items.foldl (gatherOne pieceCount) g).changed = false) :
    items.foldl (gatherOne pieceCount) g = g ∧ g.changed = false := by
  induction items generalizing g with
  | nil => exact ⟨rfl, still⟩
  | cons item rest ih =>
    obtain ⟨later, unchanged⟩ := ih _ still
    obtain ⟨same, before⟩ := gatherOne_changed pieceCount g item unchanged
    rw [List.foldl_cons, later, same]
    exact ⟨rfl, before⟩

/-- The bitfield the catalog serves after a batch, on a row that was incomplete. -/
theorem hasPiece_of_gathered (r : Row) (items : List (Nat × Nat)) (index : Nat)
    (incomplete : r.columns.complete = false) (piece : index < r.pieceCount)
    (marked : bitfieldGet (gather r items).bits index = true) :
    (r.withColumns (applyHaves r items)).hasPiece index = true := by
  cases moves : unmoved r items with
  | true =>
    have unchanged : (gather r items).changed = false := by
      simp only [unmoved, incomplete, Bool.false_or, Bool.or_eq_true, decide_eq_true_eq,
        Bool.not_eq_true'] at moves
      exact moves.resolve_left (by omega)
    rw [applyHaves, if_pos moves, Row.withColumns_self]
    rw [gather, (foldl_gatherOne_changed _ _ _ unchanged).1] at marked
    exact marked
  | false =>
    have still : (if r.haveCount = 0 then false else r.columns.complete) = false := by
      rw [incomplete, ite_self]
    simp only [applyHaves, moves, Bool.false_eq_true, if_false, still]
    by_cases all : r.pieceCount ≤ (gather r items).haveCount
    · rw [if_pos all]
      exact bitfieldGet_allSetBitfield _ _ piece
    · rw [if_neg all]
      exact marked

/-- After its events were applied the catalog marks each of their pieces as had. -/
theorem hasPiece_applyHaves (r : Row) (items : List (Nat × Nat)) (agreement : Agreement r)
    (item : Nat × Nat) (member : item ∈ items) (piece : item.1 < r.pieceCount) :
    (r.withColumns (applyHaves r items)).hasPiece item.1 = true := by
  cases complete : r.columns.complete with
  | true =>
    have stays : applyHaves r items = r.columns := by
      rw [applyHaves, if_pos (by simp [unmoved, complete])]
    rw [stays, Row.withColumns_self, Row.hasPiece, loadBitfieldState_complete r complete]
    exact bitfieldGet_allSetBitfield _ _ piece
  | false =>
    exact hasPiece_of_gathered r items item.1 complete piece
      (foldl_gatherOne_marks r.pieceCount items _ (agreement.loaded complete) item member piece)

/-- A row is complete when it has pieces and marks all of them as had. -/
theorem Agreement.complete_iff {r : Row} (agreement : Agreement r) :
    r.columns.complete = true ↔ 0 < r.pieceCount ∧ ∀ i, i < r.pieceCount → r.hasPiece i = true := by
  rw [agreement.completed, agreement.counted, tally_eq_bound_iff]

theorem gatherOne_bit (pieceCount : Nat) (g : Gather) (item : Nat × Nat) (index : Nat)
    (marked : bitfieldGet (gatherOne pieceCount g item).bits index = true) :
    bitfieldGet g.bits index = true ∨ item.1 = index := by
  unfold gatherOne at marked
  split_ifs at marked with skipped
  · exact .inl marked
  · by_cases same : item.1 = index
    · exact .inr same
    · rw [bitfieldGet_bitfieldSet_other _ _ _ (Ne.symm same)] at marked
      exact .inl marked

theorem foldl_gatherOne_bit (pieceCount : Nat) (items : List (Nat × Nat)) (g : Gather) (index : Nat)
    (marked : bitfieldGet (items.foldl (gatherOne pieceCount) g).bits index = true) :
    bitfieldGet g.bits index = true ∨ ∃ item ∈ items, item.1 = index := by
  induction items generalizing g with
  | nil => exact .inl marked
  | cons item rest ih =>
    rcases ih _ marked with before | ⟨later, member, named⟩
    · rcases gatherOne_bit pieceCount g item index before with old | here
      · exact .inl old
      · exact .inr ⟨item, List.mem_cons_self, here⟩
    · exact .inr ⟨later, List.mem_cons_of_mem _ member, named⟩

/-- After a batch the catalog marks the pieces it had marked and those of the batch. -/
theorem hasPiece_applyHaves_iff (r : Row) (items : List (Nat × Nat)) (agreement : Agreement r)
    (index : Nat) (piece : index < r.pieceCount) :
    (r.withColumns (applyHaves r items)).hasPiece index = true ↔
      r.hasPiece index = true ∨ ∃ item ∈ items, item.1 = index := by
  cases complete : r.columns.complete with
  | true =>
    have stays : applyHaves r items = r.columns := by
      rw [applyHaves, if_pos (by simp [unmoved, complete])]
    rw [stays, Row.withColumns_self]
    have had := (agreement.complete_iff.1 complete).2 index piece
    exact ⟨.inl, fun _ => had⟩
  | false =>
    constructor
    · intro marked
      apply foldl_gatherOne_bit r.pieceCount items ⟨r.loadBitfieldState.2.1, r.haveCount, 0, false⟩
      cases moves : unmoved r items with
      | true =>
        rw [applyHaves, if_pos moves, Row.withColumns_self] at marked
        exact foldl_gatherOne_mono _ _ _ _ marked
      | false =>
        obtain ⟨fits, counts⟩ := foldl_gatherOne r.pieceCount items
          ⟨r.loadBitfieldState.2.1, r.haveCount, 0, false⟩ (agreement.loaded complete) agreement.counted
        have still : (if r.haveCount = 0 then false else r.columns.complete) = false := by
          rw [complete, ite_self]
        simp only [applyHaves, moves, Bool.false_eq_true, if_false, still] at marked
        by_cases all : r.pieceCount ≤ (gather r items).haveCount
        · have full : tally (bitfieldGet (gather r items).bits) r.pieceCount = r.pieceCount :=
            Nat.le_antisymm (tally_le _ _) (all.trans (Nat.le_of_eq counts))
          exact (tally_eq_bound_iff _ _).1 full index piece
        · rw [if_neg all] at marked
          exact marked
    · rintro (had | ⟨item, member, rfl⟩)
      · exact hasPiece_of_gathered r items index complete piece (foldl_gatherOne_mono _ _ _ _ had)
      · exact hasPiece_applyHaves r items agreement item member piece

/-- A batch completes a row that was not complete exactly when the row is complete afterwards. -/
theorem becameComplete_iff (r : Row) (items : List (Nat × Nat)) :
    becameComplete r items = true ↔
      r.columns.complete = false ∧ (applyHaves r items).complete = true := by
  cases moves : unmoved r items with
  | true =>
    rw [becameComplete, moves, applyHaves, if_pos moves]
    cases r.columns.complete <;> simp
  | false =>
    have incomplete := (unmoved_eq_false r items moves).1
    simp only [becameComplete, moves, applyHaves, Bool.not_false, Bool.true_and, Bool.false_eq_true,
      if_false, decide_eq_true_eq, incomplete, true_and]
    by_cases all : r.pieceCount ≤ (gather r items).haveCount
    · simp [all]
    · simp [all]

/-! ### A recheck -/

theorem packHave_append (pieceCount : Nat) (good : List Bool) (last : Bool) :
    packHave pieceCount (good ++ [last]) =
      if last then bitfieldSet (packHave pieceCount good) good.length else packHave pieceCount good := by
  rw [packHave, List.zipIdx_append, List.foldl_append]
  simp only [List.zipIdx_singleton, List.foldl_cons, List.foldl_nil, Nat.zero_add]
  rfl

theorem packHave_spec (pieceCount : Nat) (good : List Bool) (bound : good.length ≤ pieceCount) :
    (packHave pieceCount good).length = bitfieldSizeBytes pieceCount ∧
    ∀ index, bitfieldGet (packHave pieceCount good) index = good.getD index false := by
  induction good using List.reverseRecOn with
  | nil => exact ⟨emptyBitfield_length pieceCount, fun index => by simp [packHave]⟩
  | append_singleton good last ih =>
    rw [List.length_append, List.length_singleton] at bound
    obtain ⟨size, bits⟩ := ih (by omega)
    have inside : good.length / 8 < (packHave pieceCount good).length := by
      rw [size]
      exact index_div_lt_size _ _ (by omega)
    have read : ∀ index, (good ++ [last]).getD index false =
        if index = good.length then last else good.getD index false := by
      intro index
      simp only [List.getD_eq_getElem?_getD, List.getElem?_append, List.getElem?_singleton]
      split_ifs <;> first | rfl | omega | simp_all
    rw [packHave_append]
    refine ⟨?_, ?_⟩
    · split_ifs
      · rw [bitfieldSet_length, size]
      · exact size
    · intro index
      rw [read]
      by_cases here : index = good.length
      · rw [if_pos here, here]
        cases last with
        | true => rw [if_pos rfl, bitfieldGet_bitfieldSet_self _ _ inside]
        | false =>
          rw [if_neg Bool.false_ne_true, bits]
          simp
      · rw [if_neg here]
        cases last with
        | true => rw [if_pos rfl, bitfieldGet_bitfieldSet_other _ _ _ here, bits]
        | false => rw [if_neg Bool.false_ne_true, bits]

theorem fitting_packHave (pieceCount : Nat) (good : List Bool) (sized : good.length = pieceCount) :
    Fitting (packHave pieceCount good) pieceCount := by
  obtain ⟨size, bits⟩ := packHave_spec pieceCount good (Nat.le_of_eq sized)
  refine ⟨size, ?_⟩
  intro index spare
  rw [bits, List.getD_eq_getElem?_getD, List.getElem?_eq_none (by omega)]
  rfl

theorem tally_getD (good : List Bool) :
    tally (fun index => good.getD index false) good.length = good.countP id := by
  induction good using List.reverseRecOn with
  | nil => rfl
  | append_singleton good last ih =>
    have before : tally (fun index => (good ++ [last]).getD index false) good.length =
        tally (fun index => good.getD index false) good.length := by
      apply tally_congr
      intro index below
      rw [List.getD_eq_getElem?_getD, List.getElem?_append_left below, List.getD_eq_getElem?_getD]
    have there : (good ++ [last]).getD good.length false = last := by simp
    rw [List.length_append, List.length_singleton, tally, weigh, ← tally, before, ih, there,
      List.countP_append]
    cases last <;> rfl

theorem countHaveBits_packHave (pieceCount : Nat) (good : List Bool)
    (sized : good.length = pieceCount) :
    countHaveBits (packHave pieceCount good) pieceCount = good.countP id := by
  rw [← tally_getD, sized, countHaveBits]
  exact tally_congr _ _ _ (fun index _ => (packHave_spec pieceCount good (Nat.le_of_eq sized)).2 index)

theorem agreement_rechecked (r : Row) (good : List Bool) (sized : good.length = r.pieceCount) :
    Agreement (r.withColumns (recheckedColumns r.columns r.pieceCount good)) := by
  by_cases all : 0 < r.pieceCount ∧ good.countP id = r.pieceCount
  · simp only [recheckedColumns, decide_eq_true all, if_pos all]
    refine ⟨?_, ?_, ?_, ?_⟩
    · intro bits stored
      cases stored
    · exact all.2.trans (countHaveBits_allSetBitfield r.pieceCount).symm
    · exact ⟨fun _ => all, fun _ => rfl⟩
    · exact fun _ => rfl
  · simp only [recheckedColumns, decide_eq_false all, if_neg all]
    refine ⟨?_, ?_, ?_, ?_⟩
    · intro bits stored
      cases stored
      exact fitting_packHave r.pieceCount good sized
    · exact (countHaveBits_packHave r.pieceCount good sized).symm
    · exact ⟨fun complete => absurd complete Bool.false_ne_true, fun full => absurd full all⟩
    · exact fun complete => absurd complete Bool.false_ne_true

/-- Statements that leave the possession columns alone keep the agreement. -/
theorem hasPiece_withColumns (r : Row) (c : Columns) (bits : c.bitfield = r.columns.bitfield)
    (flag : c.complete = r.columns.complete) : (r.withColumns c).hasPiece = r.hasPiece := by
  funext index
  simp only [Row.hasPiece, Row.loadBitfieldState, Row.storedBits, Row.haveCount,
    Row.withColumns_columns, bits, flag, Row.withColumns_pieceCount]

theorem agreement_withColumns (r : Row) (c : Columns) (agreement : Agreement r)
    (bits : c.bitfield = r.columns.bitfield) (flag : c.complete = r.columns.complete) :
    Agreement (r.withColumns c) := by
  have stored : (r.withColumns c).storedBits = r.storedBits := by
    simp only [Row.storedBits, Row.withColumns_columns, bits]
  have counts : (r.withColumns c).haveCount = r.haveCount := by
    simp only [Row.haveCount, Row.withColumns_columns, bits]
  have had := hasPiece_withColumns r c bits flag
  refine ⟨?_, ?_, ?_, ?_⟩
  · rw [stored]
    exact agreement.fitting
  · rw [counts, had]
    exact agreement.counted
  · rw [counts, Row.withColumns_columns, flag]
    exact agreement.completed
  · rw [stored, Row.withColumns_columns, flag]
    exact agreement.compact

theorem agreement_empty (r : Row) (c : Columns) (bits : c.bitfield = some ⟨none, 0⟩)
    (flag : c.complete = false) : Agreement (r.withColumns c) := by
  have stored : (r.withColumns c).storedBits = none := by
    simp only [Row.storedBits, Row.withColumns_columns, bits]
    rfl
  have counts : (r.withColumns c).haveCount = 0 := by
    simp only [Row.haveCount, Row.withColumns_columns, bits]
    rfl
  refine ⟨?_, ?_, ?_, ?_⟩
  · rw [stored]
    exact fun bits clash => absurd clash (Option.some_ne_none bits).symm
  · rw [counts, eq_comm, tally_eq_zero_iff]
    intro index _
    rw [Row.hasPiece, loadBitfieldState_incomplete _ flag, stored]
    exact bitfieldGet_emptyBitfield _ _
  · rw [counts, Row.withColumns_columns, flag]
    exact ⟨fun complete => absurd complete Bool.false_ne_true, fun full => by omega⟩
  · rw [Row.withColumns_columns, flag]
    exact fun complete => absurd complete Bool.false_ne_true

/-! ### An import -/

/-- Resume data that the three columns can take over as they are. -/
structure Sound (out : ResumeData) (pieceCount : Nat) : Prop where
  fitting : ∀ bits, out.bitfield = some bits → Fitting bits pieceCount
  counted : out.complete = false →
    out.haveCount = countHaveBits (out.bitfield.getD (emptyBitfield pieceCount)) pieceCount
  completed : out.complete = true ↔ 0 < pieceCount ∧ out.haveCount = pieceCount
  compact : out.complete = true → out.bitfield = none

/-- A bitmap that is taken over without a spare bit set. -/
def cleanBits (b : Bits) (pieceCount : Nat) : Bool :=
  b.length ≠ bitfieldSizeBytes pieceCount || countHaveBits b pieceCount = pieceCount ||
    decide (∀ index < 8 * b.length, pieceCount ≤ index → bitfieldGet b index = false)

theorem sound_default (pieceCount : Nat) : Sound .default pieceCount := by
  refine ⟨?_, ?_, ?_, ?_⟩
  · exact fun bits clash => absurd clash (Option.some_ne_none bits).symm
  · exact fun _ => (countHaveBits_emptyBitfield pieceCount).symm
  · exact ⟨fun complete => absurd complete Bool.false_ne_true,
      fun full => absurd full.2.symm (Nat.ne_of_gt full.1)⟩
  · exact fun complete => absurd complete Bool.false_ne_true

theorem sound_all (out : ResumeData) (pieceCount : Nat) :
    Sound { out with
      complete := decide (0 < pieceCount), haveCount := pieceCount, bitfield := none } pieceCount := by
  refine ⟨?_, ?_, ?_, ?_⟩
  · exact fun bits clash => absurd clash (Option.some_ne_none bits).symm
  · intro incomplete
    have none : pieceCount = 0 := by simpa using incomplete
    rw [none]
    rfl
  · exact ⟨fun complete => ⟨of_decide_eq_true complete, rfl⟩, fun full => decide_eq_true full.1⟩
  · exact fun _ => rfl

theorem sound_none (out : ResumeData) (pieceCount : Nat) :
    Sound { out with
      complete := false, haveCount := 0, bitfield := some (emptyBitfield pieceCount) } pieceCount := by
  refine ⟨?_, ?_, ?_, ?_⟩
  · intro bits same
    rw [← Option.some.inj same]
    exact fitting_emptyBitfield pieceCount
  · exact fun _ => (countHaveBits_emptyBitfield pieceCount).symm
  · exact ⟨fun complete => absurd complete Bool.false_ne_true,
      fun full => absurd full.2.symm (Nat.ne_of_gt full.1)⟩
  · exact fun complete => absurd complete Bool.false_ne_true

theorem sound_pieceBits (out : ResumeData) (b : Bits) (pieceCount : Nat)
    (sized : b.length = bitfieldSizeBytes pieceCount) (clean : cleanBits b pieceCount = true) :
    Sound (out.pieceBits b pieceCount) pieceCount := by
  by_cases all : countHaveBits b pieceCount = pieceCount ∧ 0 < pieceCount
  · simp only [ResumeData.pieceBits, decide_eq_true all, if_true]
    refine ⟨?_, ?_, ?_, ?_⟩
    · exact fun bits clash => absurd clash (Option.some_ne_none bits).symm
    · exact fun incomplete => absurd incomplete.symm Bool.false_ne_true
    · exact ⟨fun _ => ⟨all.2, all.1⟩, fun _ => rfl⟩
    · exact fun _ => rfl
  · simp only [ResumeData.pieceBits, decide_eq_false all, Bool.false_eq_true, if_false]
    refine ⟨?_, fun _ => rfl, ?_, ?_⟩
    · intro bits same
      rw [← Option.some.inj same]
      refine ⟨sized, ?_⟩
      intro index spare
      by_cases beyond : 8 * b.length ≤ index
      · exact bitfieldGet_beyond b index beyond
      · simp only [cleanBits, Bool.or_eq_true, decide_eq_true_eq] at clean
        rcases clean with (wrong | full) | clear
        · exact absurd sized (by simpa using wrong)
        · have none : pieceCount = 0 := by
            by_contra some
            exact all ⟨full, Nat.pos_of_ne_zero some⟩
          rw [none, bitfieldSizeBytes] at sized
          omega
        · exact clear index (by omega) spare
    · exact ⟨fun complete => absurd complete Bool.false_ne_true, fun full => absurd ⟨full.2, full.1⟩ all⟩
    · exact fun complete => absurd complete Bool.false_ne_true

/-- What an import may find under the key that holds the bitmap. -/
def cleanValue (v : Option Value) (words : List Bits) (pieceCount : Nat) : Bool :=
  match v with
  | some (.bytes b) => words.contains b || cleanBits b pieceCount
  | _ => true

theorem sound_resumeBitfield (v : Option Value) (pieceCount : Nat)
    (clean : cleanValue v [] pieceCount = true) :
    Sound (resumeBitfield .default v pieceCount) pieceCount := by
  cases v with
  | none => exact sound_default pieceCount
  | some value =>
    cases value with
    | bytes b =>
      rw [resumeBitfield]
      split_ifs with sized
      · exact sound_pieceBits _ b pieceCount sized clean
      · exact sound_default pieceCount
    | int n =>
      rw [resumeBitfield]
      split_ifs with all none
      · have flag : decide (0 < pieceCount) = true := decide_eq_true all.2
        rw [← flag]
        exact sound_all _ pieceCount
      · exact sound_none _ pieceCount
      · exact sound_default pieceCount
    | list _ | dict _ => exact sound_default pieceCount

theorem sound_applyBlocksProgress (out : ResumeData) (blocks : Value) (pieceCount : Nat)
    (before : Sound out pieceCount)
    (clean : cleanValue (some blocks) [allWord, noneWord] pieceCount = true) :
    Sound (applyBlocksProgress out blocks pieceCount) pieceCount := by
  cases blocks with
  | bytes b =>
    rw [applyBlocksProgress]
    split_ifs with all none sized
    · exact sound_all _ pieceCount
    · exact sound_none _ pieceCount
    · apply sound_pieceBits _ b pieceCount sized
      have other : [allWord, noneWord].contains b = false := by
        simp only [List.contains_eq_mem, List.mem_cons, List.not_mem_nil, or_false,
          decide_eq_false_iff_not, not_or]
        exact ⟨all, fun word => none (.inl word)⟩
      simp only [cleanValue, other, Bool.false_or] at clean
      exact clean
    · have empty := sound_default pieceCount
      exact ⟨empty.fitting, empty.counted, empty.completed, empty.compact⟩
  | _ => exact before

theorem sound_parseResume (root : Value) (pieceCount : Nat)
    (clean : cleanValue (root.dictGet "bitfield") [] pieceCount = true) :
    Sound (parseResume root pieceCount) pieceCount := by
  have sound := sound_resumeBitfield (root.dictGet "bitfield") pieceCount clean
  exact ⟨sound.fitting, sound.counted, sound.completed, sound.compact⟩

theorem sound_parseTransmissionResume (root : Value) (pieceCount : Nat)
    (clean : cleanValue (progressBlocks root) [allWord, noneWord] pieceCount = true) :
    Sound (parseTransmissionResume root pieceCount) pieceCount := by
  have empty := sound_default pieceCount
  rw [parseTransmissionResume]
  cases found : progressBlocks root with
  | none => exact ⟨empty.fitting, empty.counted, empty.completed, empty.compact⟩
  | some blocks =>
    rw [found] at clean
    exact sound_applyBlocksProgress _ blocks pieceCount
      ⟨empty.fitting, empty.counted, empty.completed, empty.compact⟩ clean

/-- The row of a new torrent agrees with itself where the resume data does. -/
theorem agreement_row (m : Metainfo) (dataRoot : PathBuf) (resume : ResumeData)
    (totalUploaded totalDownloaded : Nat) (startAfter : Bool) (id : Nat)
    (sound : Sound resume m.pieceCount) :
    Agreement ((importInsert m dataRoot resume totalUploaded totalDownloaded startAfter).row id) := by
  generalize built : (importInsert m dataRoot resume totalUploaded totalDownloaded startAfter).row id = r
  have stored : r.storedBits = resume.bitfield := by
    rw [← built]
    cases bits : resume.bitfield <;> cases flag : resume.complete <;>
      simp [importInsert, TorrentInsert.row, TorrentInsert.columns, Row.storedBits, bits, flag]
  have counts : r.haveCount = resume.haveCount := by
    rw [← built]
    rfl
  have flag : r.columns.complete = resume.complete := by
    rw [← built]
    rfl
  have pieces : r.pieceCount = m.pieceCount := by
    rw [← built]
    rfl
  refine ⟨?_, ?_, ?_, ?_⟩
  · rw [stored, pieces]
    exact sound.fitting
  · rw [counts, pieces]
    cases complete : resume.complete with
    | true =>
      have every : tally r.hasPiece m.pieceCount = countHaveBits (allSetBitfield m.pieceCount) m.pieceCount := by
        unfold Row.hasPiece
        rw [loadBitfieldState_complete r (flag.trans complete), pieces]
        rfl
      rw [every, countHaveBits_allSetBitfield]
      exact (sound.completed.1 complete).2
    | false =>
      unfold Row.hasPiece
      rw [loadBitfieldState_incomplete r (flag.trans complete), stored, pieces]
      exact sound.counted complete
  · rw [flag, counts, pieces]
    exact sound.completed
  · rw [flag, stored]
    exact sound.compact

theorem agreement_added (m : Metainfo) (place : Placement) (start : Bool) (id : Nat) :
    Agreement ((addInsert m place start).row id) :=
  agreement_empty ((addInsert m place start).row id) _ rfl rfl

/-! ### Runs -/

/-- A new torrent is imported from a resume file whose bitmap has no spare bit set. -/
def cleanImport (s : State) : Event → Bool
  | .importRtorrent m _ root _ _ _ =>
    s.catalog.list.any (fun r => r.infohash = m.infohash) ||
      cleanValue (root.bind (Value.dictGet · "bitfield")) [] m.pieceCount
  | .importTransmission m _ root _ =>
    s.catalog.list.any (fun r => r.infohash = m.infohash) ||
      cleanValue (root.bind progressBlocks) [allWord, noneWord] m.pieceCount
  | _ => true

structure Invariant (s : State) : Prop where
  rows : ∀ r ∈ s.catalog.list, Agreement r
  prepared : ∀ (k id pieceCount : Nat), s.rechecks[k]? = some (id, pieceCount) →
    ∃ r, s.catalog.find? id = some r ∧ r.pieceCount = pieceCount

/-- Rechecks that run stay prepared for their torrent while rows stay. -/
theorem Invariant.extend {s : State} (invariant : Invariant s) (t' : TorrentTable)
    (rows : ∀ r ∈ t'.list, Agreement r) (extends' : Extends s.catalog t') :
    Invariant { s with catalog := t' } := by
  refine ⟨rows, ?_⟩
  intro k id pieceCount running
  obtain ⟨r, found, pieces⟩ := invariant.prepared k id pieceCount running
  obtain ⟨r', found', pieces'⟩ := extends' id r found
  exact ⟨r', found', pieces'.trans pieces⟩

theorem Invariant.rowwise {s : State} (invariant : Invariant s) (t' : TorrentTable)
    (change : Row → Columns) (rowwise : Rowwise s.catalog t' change)
    (kept : ∀ r ∈ s.catalog.list, Agreement r → Agreement (r.withColumns (change r))) :
    Invariant { s with catalog := t' } :=
  invariant.extend t' (rowwise.forall Agreement invariant.rows kept) rowwise.extends

/-- Rewriting one row keeps the invariant where it keeps the row's agreement. -/
theorem Invariant.set {s : State} (invariant : Invariant s) (id : Nat) (change : Row → Columns)
    (kept : ∀ r, s.catalog.find? id = some r → Agreement r → Agreement (r.withColumns (change r))) :
    Invariant { s with catalog := Table.set s.catalog id change } :=
  invariant.extend _ (forall_set s.catalog id change Agreement invariant.rows kept)
    (rowwise_set s.catalog id change).extends

theorem Invariant.insert {s : State} (invariant : Invariant s) (ins : TorrentInsert)
    (added : (∀ r ∈ s.catalog.list, r.infohash ≠ ins.metainfo.infohash) →
      Agreement (ins.row (nextId s.catalog))) :
    Invariant { s with catalog := (insertTorrent s.catalog ins).1 } := by
  apply invariant.extend _ _ (extends_insertTorrent s.catalog ins)
  apply forall_insertTorrent s.catalog ins Agreement invariant.rows _ added
  intro r _ _ agreement
  exact agreement_withColumns r _ agreement rfl rfl

theorem Invariant.imported {s : State} (invariant : Invariant s) (ins : TorrentInsert)
    (added : (∀ r ∈ s.catalog.list, r.infohash ≠ ins.metainfo.infohash) →
      Agreement (ins.row (nextId s.catalog))) :
    Invariant { s with catalog := importTorrent s.catalog ins } := by
  have inserted := invariant.insert ins added
  have refreshed : ∀ id, Invariant { s with
      catalog := Table.set (insertTorrent s.catalog ins).1 id (fun r => importMetaColumns r.columns ins) } :=
    fun id => inserted.set id _ (fun r _ agreement => agreement_withColumns r _ agreement rfl rfl)
  rw [importTorrent]
  cases outcome : insertTorrent s.catalog ins with
  | mk t' result =>
    rw [outcome] at inserted refreshed
    cases result with
    | inserted id => exact inserted
    | existing id => exact refreshed id
    | restored id => exact refreshed id

theorem invariant_import (s : State) (invariant : Invariant s) (m : Metainfo) (dataRoot : PathBuf)
    (resume : ResumeData) (up down : Nat) (start : Bool) (listed : Prop)
    (known : listed → ∃ r ∈ s.catalog.list, r.infohash = m.infohash)
    (sound : listed ∨ Sound resume m.pieceCount) :
    Invariant { s with catalog := importTorrent s.catalog (importInsert m dataRoot resume up down start) } := by
  apply invariant.imported
  intro new
  apply agreement_row
  apply sound.resolve_left
  intro old
  obtain ⟨r, member, same⟩ := known old
  exact new r member same

theorem invariant_settled (s : State) (invariant : Invariant s) (result : Except Error TorrentTable)
    (after : ∀ t', result = .ok t' → Invariant { s with catalog := t' }) :
    Invariant { s with catalog := settled s.catalog result } := by
  cases result with
  | error problem => exact invariant
  | ok t' => exact after t' rfl

theorem invariant_step (s : State) (event : Event) (s' : State) (invariant : Invariant s)
    (clean : cleanImport s event = true) (taken : step s event = some s') : Invariant s' := by
  cases event with
  | add m place start =>
    cases taken
    exact invariant.insert _ (fun _ => agreement_added m place start _)
  | importRtorrent m dataRoot root up down start =>
    cases taken
    simp only [cleanImport, Bool.or_eq_true, List.any_eq_true, decide_eq_true_eq] at clean
    apply invariant_import s invariant m dataRoot _ up down start _ (fun known => known)
    apply clean.imp_right
    cases root with
    | none => exact fun _ => sound_default m.pieceCount
    | some root => exact sound_parseResume root m.pieceCount
  | importTransmission m dataRoot root start =>
    cases taken
    simp only [cleanImport, Bool.or_eq_true, List.any_eq_true, decide_eq_true_eq] at clean
    apply invariant_import s invariant m dataRoot _ 0 0 start _ (fun known => known)
    apply clean.imp_right
    cases root with
    | none => exact fun _ => sound_default m.pieceCount
    | some root => exact sound_parseTransmissionResume root m.pieceCount
  | setWantStart id want =>
    cases taken
    apply invariant_settled s invariant
    intro t' ran
    rw [setWantStart] at ran
    split_ifs at ran
    cases ran
    apply invariant.set
    intro r _ agreement
    rw [wantColumns]
    split_ifs
    · exact agreement
    · exact agreement_withColumns r _ agreement rfl rfl
    · exact agreement_withColumns r _ agreement rfl rfl
  | markDeleted id now =>
    cases taken
    apply invariant_settled s invariant
    intro t' ran
    rcases markDeleted_ok _ _ _ _ ran with same | ⟨-, changed⟩
    · rw [same]
      exact invariant
    · rw [changed]
      exact invariant.set id _ (fun r _ agreement => agreement_withColumns r _ agreement rfl rfl)
  | syncStateWithWantStart =>
    cases taken
    apply invariant.rowwise _ _ (rowwise_sync s.catalog)
    intro r _ agreement
    rw [syncColumns]
    split_ifs
    · exact agreement
    · exact agreement_withColumns r _ agreement rfl rfl
    · exact agreement_withColumns r _ agreement rfl rfl
    · exact agreement
  | prepareRecheck id =>
    rw [step] at taken
    cases ran : prepareRecheck s.catalog id with
    | error problem =>
      rw [ran] at taken
      cases taken
      exact invariant
    | ok result =>
      obtain ⟨t', prepared⟩ := result
      rw [ran] at taken
      cases taken
      obtain ⟨rfl, r, found, pieces⟩ := prepareRecheck_ok _ _ _ _ ran
      have checking := invariant.set id (fun r => { r.columns with state := .checking })
        (fun r _ agreement => agreement_withColumns r _ agreement rfl rfl)
      refine ⟨checking.rows, ?_⟩
      intro k j pieceCount running
      rcases Nat.lt_trichotomy k s.rechecks.length with old | new | beyond
      · rw [List.getElem?_append_left old] at running
        exact checking.prepared k j pieceCount running
      · rw [new, List.getElem?_concat_length] at running
        cases running
        obtain ⟨r', found', pieces'⟩ := (rowwise_set s.catalog id _).extends id r found
        exact ⟨r', found', pieces'.trans pieces⟩
      · rw [List.getElem?_eq_none (by simp; omega)] at running
        cases running
  | setBitfieldFromRecheck k good =>
    rw [step] at taken
    cases running : s.rechecks[k]? with
    | none =>
      rw [running] at taken
      cases taken
    | some recheck =>
      obtain ⟨id, pieceCount⟩ := recheck
      rw [running] at taken
      cases taken
      have finished : Invariant { s with
          catalog := settled s.catalog (setBitfieldFromRecheck s.catalog id pieceCount good) } := by
        apply invariant_settled s invariant
        intro t' ran
        obtain ⟨sized, changed⟩ := setBitfieldFromRecheck_ok _ _ _ _ _ ran
        rw [changed]
        apply invariant.set
        intro r found _
        obtain ⟨prepared, found', pieces⟩ := invariant.prepared k id pieceCount running
        rw [found] at found'
        cases found'
        rw [← pieces]
        exact agreement_rechecked r good (sized.trans pieces.symm)
      refine ⟨finished.rows, ?_⟩
      intro j other count still
      rw [List.getElem?_eraseIdx] at still
      split_ifs at still
      · exact finished.prepared j other count still
      · exact finished.prepared (j + 1) other count still
  | markPiecesHaveBatch pieces =>
    cases taken
    apply invariant_settled s invariant
    intro t' ran
    cases marked : markPiecesHaveBatch s.catalog pieces with
    | error problem =>
      rw [marked] at ran
      cases ran
    | ok result =>
      rw [marked] at ran
      cases ran
      apply invariant.rowwise _ _ (rowwise_markPiecesHaveBatch s.catalog result.1 pieces result.2 marked)
      intro r _ agreement
      exact agreement_applyHaves r _ agreement
  | auditCompleteStorage problem =>
    cases taken
    apply invariant.rowwise _ _ (rowwise_auditCompleteStorage s.catalog problem)
    intro r _ agreement
    split_ifs
    · exact agreement_empty r _ rfl rfl
    · exact agreement

/-- The possession columns agree in every catalog reached through imports of clean bitmaps. -/
theorem possession_agrees (events : List Event) (s : State)
    (clean : Guarded step (fun s event => cleanImport s event = true) initial events)
    (ran : exec step initial events = some s) : ∀ r ∈ s.catalog.list, Agreement r := by
  have start : Invariant initial := by
    refine ⟨fun r member => absurd member List.not_mem_nil, ?_⟩
    intro k id pieceCount running
    cases running
  exact (exec_invariant step _ Invariant invariant_step initial s events start clean ran).rows

/-- A resume file that has the first of two pieces, with or without the spare bits. -/
def resumeFile (bitfield : Bits) : Value := .dict [("bitfield", .bytes bitfield)]

def importThenFinish (bitfield : Bits) : List Event :=
  [.importRtorrent (byteTorrent 2) ["data"] (some (resumeFile bitfield)) 0 0 true, .prepareRecheck 1,
    .markPiecesHaveBatch [⟨1, 1, 1⟩], .setBitfieldFromRecheck 0 [true, false],
    .auditCompleteStorage (fun _ => true)]

theorem possession_agrees_importThenFinish :
    ((exec step initial (importThenFinish [0x80])).getD initial).catalog.list.length = 1 ∧
      ∀ r ∈ ((exec step initial (importThenFinish [0x80])).getD initial).catalog.list, Agreement r := by
  constructor
  · decide +kernel
  · exact possession_agrees (importThenFinish [0x80]) _
      (guarded_of_guardedB step cleanImport initial (importThenFinish [0x80]) (by decide +kernel))
      (Option.some_get (by decide +kernel)).symm

/-- The bits of a resume file are stored as they are, spare bits included. -/
theorem spare_bits_imported :
    ¬ ∀ events s, exec step initial events = some s → ∀ r ∈ s.catalog.list, Agreement r := by
  intro always
  have stored := always [.importRtorrent (byteTorrent 2) ["data"] (some (resumeFile [0xbf])) 0 0 false] _ rfl
    _ (List.mem_singleton_self _)
  have spare := (stored.fitting [0xbf] rfl).spare 2 (Nat.le_refl 2)
  exact absurd spare (by decide)

end Seedchamp.Catalog.Possession
