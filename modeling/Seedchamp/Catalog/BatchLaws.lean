import Seedchamp.Catalog.Possession

/-!
A batch of piece-have events as an action on the catalog: a batch may be cut anywhere, taken again, or
taken in another order.
-/

namespace Seedchamp.Catalog.BatchLaws
open Foundation.KeyedRows Foundation.Tally Catalog.Bitfield Catalog.Table Catalog.Pieces
open Catalog.Possession

/-! ### The loop over one torrent's events -/

theorem gatherOne_comm (pieceCount : Nat) (g : Gather) (a b : Nat × Nat) (sized : a.1 = b.1 → a.2 = b.2) :
    gatherOne pieceCount (gatherOne pieceCount g a) b = gatherOne pieceCount (gatherOne pieceCount g b) a := by
  by_cases same : a.1 = b.1
  · rw [Prod.ext same (sized same)]
  have other : ∀ (bits : Bits) (i j : Nat), i ≠ j →
      (bitfieldGet (bitfieldSet bits i) j = true ↔ bitfieldGet bits j = true) := by
    intro bits i j distinct
    rw [bitfieldGet_bitfieldSet_other bits i j (Ne.symm distinct)]
  unfold gatherOne
  by_cases first : pieceCount ≤ a.1 ∨ bitfieldGet g.bits a.1 = true
  · rw [if_pos first]
    by_cases second : pieceCount ≤ b.1 ∨ bitfieldGet g.bits b.1 = true
    · rw [if_pos second, if_pos first]
    · rw [if_neg second, if_pos (by rw [other _ _ _ (Ne.symm same)]; exact first)]
  · rw [if_neg first]
    by_cases second : pieceCount ≤ b.1 ∨ bitfieldGet g.bits b.1 = true
    · rw [if_pos second, if_pos (by rw [other _ _ _ same]; exact second), if_neg first]
    · rw [if_neg second, if_neg (by rw [other _ _ _ same]; exact second),
        if_neg (by rw [other _ _ _ (Ne.symm same)]; exact first), bitfieldSet_comm]
      dsimp only
      rw [Nat.add_right_comm g.deltaDown]

/-- What was added before the loop stays added. -/
theorem foldl_gatherOne_offset (pieceCount : Nat) (items : List (Nat × Nat)) (bits : Bits) (haveCount delta : Nat)
    (changed : Bool) :
    items.foldl (gatherOne pieceCount) ⟨bits, haveCount, delta, changed⟩ =
      let g := items.foldl (gatherOne pieceCount) ⟨bits, haveCount, 0, false⟩
      ⟨g.bits, g.haveCount, delta + g.deltaDown, changed || g.changed⟩ := by
  induction items generalizing bits haveCount delta changed with
  | nil => simp only [List.foldl_nil, Nat.add_zero, Bool.or_false]
  | cons item rest ih =>
    rw [List.foldl_cons, List.foldl_cons]
    by_cases skipped : pieceCount ≤ item.1 ∨ bitfieldGet bits item.1 = true
    · have same : ∀ d c, gatherOne pieceCount ⟨bits, haveCount, d, c⟩ item = ⟨bits, haveCount, d, c⟩ :=
        fun d c => if_pos skipped
      rw [same, same]
      exact ih bits haveCount delta changed
    · have news : ∀ d c, gatherOne pieceCount ⟨bits, haveCount, d, c⟩ item =
          ⟨bitfieldSet bits item.1, haveCount + 1, d + item.2, true⟩ := fun d c => if_neg skipped
      rw [news, news, ih _ _ (delta + item.2) true, ih _ _ (0 + item.2) true]
      simp only [Nat.zero_add, Nat.add_assoc, Bool.true_or, Bool.or_true]

/-- Events whose pieces are all there, or do not exist, change nothing. -/
theorem foldl_gatherOne_known (pieceCount : Nat) (items : List (Nat × Nat)) (g : Gather)
    (known : ∀ item ∈ items, item.1 < pieceCount → bitfieldGet g.bits item.1 = true) :
    items.foldl (gatherOne pieceCount) g = g := by
  induction items with
  | nil => rfl
  | cons item rest ih =>
    have skipped : pieceCount ≤ item.1 ∨ bitfieldGet g.bits item.1 = true := by
      by_cases beyond : pieceCount ≤ item.1
      · exact Or.inl beyond
      · exact Or.inr (known item List.mem_cons_self (Nat.lt_of_not_le beyond))
    rw [List.foldl_cons, gatherOne, if_pos skipped]
    exact ih (fun other member => known other (List.mem_cons_of_mem item member))

theorem foldl_gatherOne_counts (pieceCount : Nat) (items : List (Nat × Nat)) (g : Gather)
    (before : g.changed = true → 0 < g.haveCount)
    (changed : (items.foldl (gatherOne pieceCount) g).changed = true) :
    0 < (items.foldl (gatherOne pieceCount) g).haveCount := by
  induction items generalizing g with
  | nil => exact before changed
  | cons item rest ih =>
    apply ih _ _ changed
    unfold gatherOne
    split_ifs
    · exact before
    · exact fun _ => Nat.succ_pos _

theorem gather_append (r : Row) (xs ys : List (Nat × Nat)) :
    gather r (xs ++ ys) = ys.foldl (gatherOne r.pieceCount) (gather r xs) := by
  rw [gather, List.foldl_append]
  rfl

/-- Where every piece is counted, every bit is set. -/
theorem all_set_of_full (bits : Bits) (pieceCount : Nat) (full : pieceCount ≤ countHaveBits bits pieceCount)
    (index : Nat) (piece : index < pieceCount) : bitfieldGet bits index = true := by
  have exact' : countHaveBits bits pieceCount = pieceCount := Nat.le_antisymm (tally_le _ _) full
  exact (tally_eq_bound_iff _ _).1 exact' index piece

/-! ### One row -/

theorem applyHaves_congr (r : Row) (xs ys : List (Nat × Nat)) (same : gather r xs = gather r ys) :
    applyHaves r xs = applyHaves r ys := by
  unfold applyHaves unmoved
  rw [same]

theorem applyHaves_complete (r : Row) (items : List (Nat × Nat)) (complete : r.columns.complete = true) :
    applyHaves r items = r.columns := by
  rw [applyHaves, if_pos (by rw [unmoved, complete]; rfl)]

theorem applyHaves_unchanged (r : Row) (items : List (Nat × Nat)) (still : (gather r items).changed = false) :
    applyHaves r items = r.columns := by
  rw [applyHaves, if_pos (by rw [unmoved, still]; simp)]

/-- A row that moves is full afterwards, or it keeps what the loop has gathered. -/
theorem applyHaves_moved (r : Row) (items : List (Nat × Nat)) (incomplete : r.columns.complete = false)
    (pieces : 0 < r.pieceCount) (moved : (gather r items).changed = true) :
    applyHaves r items =
      if r.pieceCount ≤ (gather r items).haveCount then
        { r.columns with
          bitfield := some ⟨none, r.pieceCount⟩
          stats := addDownloaded r.columns.stats (gather r items).deltaDown
          complete := true
          state := .started }
      else
        { r.columns with
          bitfield := some ⟨some (gather r items).bits, (gather r items).haveCount⟩
          stats := addDownloaded r.columns.stats (gather r items).deltaDown
          complete := false
          state := if r.haveCount = 0 then .started else r.columns.state } := by
  have moves : unmoved r items = false := by
    rw [unmoved, incomplete, moved, decide_eq_false (Nat.pos_iff_ne_zero.1 pieces)]
    rfl
  have still : (if r.haveCount = 0 then false else r.columns.complete) = false := by
    rw [incomplete, ite_self]
  simp only [applyHaves, moves, Bool.false_eq_true, if_false, still]

theorem addDownloaded_add (stats : Option Stats) (first second : Nat) :
    addDownloaded (addDownloaded stats first) second = addDownloaded stats (first + second) := by
  cases stats with
  | none => rfl
  | some s =>
    simp only [addDownloaded, Option.map_some, Nat.add_assoc]

section
variable (r : Row) (agreement : Agreement r)
include agreement

theorem gather_fits (incomplete : r.columns.complete = false) (items : List (Nat × Nat)) :
    Fitting (gather r items).bits r.pieceCount ∧
      (gather r items).haveCount = countHaveBits (gather r items).bits r.pieceCount :=
  foldl_gatherOne r.pieceCount items ⟨r.loadBitfieldState.2.1, r.haveCount, 0, false⟩
    (agreement.loaded incomplete) agreement.counted

/-- The events may be cut at any point. -/
theorem applyHaves_append (xs ys : List (Nat × Nat)) :
    applyHaves (r.withColumns (applyHaves r xs)) ys = applyHaves r (xs ++ ys) := by
  cases complete : r.columns.complete with
  | true =>
    rw [applyHaves_complete r xs complete, Row.withColumns_self, applyHaves_complete r ys complete,
      applyHaves_complete r _ complete]
  | false =>
  by_cases pieces : 0 < r.pieceCount
  · cases first : (gather r xs).changed with
    | false =>
      rw [applyHaves_unchanged r xs first, Row.withColumns_self]
      apply applyHaves_congr
      rw [gather_append]
      have start := (foldl_gatherOne_changed _ _ _ first).1
      rw [gather, gather, start]
    | true =>
      obtain ⟨_, counted⟩ := gather_fits r agreement complete xs
      rw [applyHaves_moved r xs complete pieces first]
      by_cases full : r.pieceCount ≤ (gather r xs).haveCount
      · rw [if_pos full]
        have all : gather r (xs ++ ys) = gather r xs := by
          rw [gather_append]
          apply foldl_gatherOne_known
          intro item _ piece
          exact all_set_of_full _ _ (counted ▸ full) item.1 piece
        rw [applyHaves_congr r _ _ all, applyHaves_moved r xs complete pieces first, if_pos full]
        exact applyHaves_complete _ ys rfl
      · rw [if_neg full]
        generalize cut : r.withColumns _ = r'
        have begun : gather r' ys = ys.foldl (gatherOne r.pieceCount) ⟨(gather r xs).bits, (gather r xs).haveCount, 0, false⟩ := by
          rw [← cut]
          rfl
        have joined : gather r (xs ++ ys) =
            ⟨(gather r' ys).bits, (gather r' ys).haveCount, (gather r xs).deltaDown + (gather r' ys).deltaDown, true⟩ := by
          rw [gather_append, begun]
          have offset := foldl_gatherOne_offset r.pieceCount ys (gather r xs).bits (gather r xs).haveCount
            (gather r xs).deltaDown true
          rw [← first] at offset
          rw [offset, first]
          rfl
        have moved : (gather r (xs ++ ys)).changed = true := by rw [joined]
        rw [applyHaves_moved r (xs ++ ys) complete pieces moved]
        cases second : (gather r' ys).changed with
        | false =>
          have start := (foldl_gatherOne_changed _ _ _ (begun ▸ second)).1
          rw [← begun] at start
          rw [applyHaves_unchanged r' ys second, joined, start, if_neg full, ← cut]
          rfl
        | true =>
          have pieces' : 0 < r'.pieceCount := by
            rw [← cut]
            exact pieces
          have open' : r'.columns.complete = false := by rw [← cut, Row.withColumns_columns]
          have some' : r'.haveCount ≠ 0 := by
            rw [← cut]
            exact Nat.pos_iff_ne_zero.1 (foldl_gatherOne_counts r.pieceCount xs _ (fun clash => by cases clash) first)
          have same : r'.pieceCount = r.pieceCount := by
            rw [← cut]
            rfl
          rw [applyHaves_moved r' ys open' pieces' second, joined, if_neg some', same, ← cut,
            Row.withColumns_columns]
          dsimp only
          rw [addDownloaded_add]
  · have none' : ∀ (r : Row) (items : List (Nat × Nat)), ¬0 < r.pieceCount → applyHaves r items = r.columns := by
      intro r items empty
      rw [applyHaves, if_pos]
      rw [unmoved, decide_eq_true (Nat.eq_zero_of_not_pos empty)]
      simp
    rw [none' r xs pieces, Row.withColumns_self, none' r ys pieces, none' r _ pieces]

/-- Events that were applied change nothing when they are applied again. -/
theorem applyHaves_again (xs : List (Nat × Nat)) :
    applyHaves (r.withColumns (applyHaves r xs)) xs = applyHaves r xs := by
  rw [applyHaves_append r agreement]
  cases complete : r.columns.complete with
  | true => rw [applyHaves_complete r _ complete, applyHaves_complete r _ complete]
  | false =>
    apply applyHaves_congr
    rw [gather_append]
    apply foldl_gatherOne_known
    intro item member piece
    exact foldl_gatherOne_marks r.pieceCount xs _ (agreement.loaded complete) item member piece

end

/-- The order of the events is of no account where a piece has one length. -/
theorem applyHaves_perm (r : Row) (xs ys : List (Nat × Nat)) (same : xs.Perm ys)
    (sized : ∀ a ∈ xs, ∀ b ∈ xs, a.1 = b.1 → a.2 = b.2) : applyHaves r xs = applyHaves r ys := by
  apply applyHaves_congr
  rw [gather, gather]
  apply same.foldl_eq'
  intro a member b member' g
  exact gatherOne_comm r.pieceCount g a b (sized a member b member')

/-! ### Batches -/

def SameRows (t t' : TorrentTable) : Prop := ∀ id, t.find? id = t'.find? id

def Known (t : TorrentTable) (pieces : List HaveEvent) : Prop := ∀ ev ∈ pieces, (t.find? ev.tid).isSome = true

/-- The byte length of an event is that of its piece. -/
def Sized (pieces : List HaveEvent) : Prop :=
  ∀ a ∈ pieces, ∀ b ∈ pieces, a.tid = b.tid → a.index = b.index → a.plen = b.plen

theorem itemsOf_append_list (tid : Nat) (xs ys : List HaveEvent) :
    itemsOf tid (xs ++ ys) = itemsOf tid xs ++ itemsOf tid ys := by
  rw [itemsOf, List.filter_append, List.map_append]
  rfl

theorem itemsOf_perm (tid : Nat) (xs ys : List HaveEvent) (same : xs.Perm ys) :
    (itemsOf tid xs).Perm (itemsOf tid ys) :=
  (same.filter _).map _

theorem itemsOf_sized (tid : Nat) (pieces : List HaveEvent) (sized : Sized pieces) :
    ∀ a ∈ itemsOf tid pieces, ∀ b ∈ itemsOf tid pieces, a.1 = b.1 → a.2 = b.2 := by
  intro a member b member' same
  obtain ⟨ev, listed, rfl⟩ := List.mem_map.1 member
  obtain ⟨ev', listed', rfl⟩ := List.mem_map.1 member'
  rw [List.mem_filter, decide_eq_true_eq] at listed listed'
  exact sized ev listed.1 ev' listed'.1 (listed.2.trans listed'.2.symm) same

theorem marked_of_known (t : TorrentTable) (pieces : List HaveEvent) (known : Known t pieces) :
    ∃ t' became, markPiecesHaveBatch t pieces = .ok (t', became) := by
  have ran := (markPiecesHaveBatch_isOk t pieces).2 known
  cases result : markPiecesHaveBatch t pieces with
  | error problem =>
    rw [result] at ran
    cases ran
  | ok marked => exact ⟨marked.1, marked.2, rfl⟩

theorem known_after (t t' : TorrentTable) (became : List Nat) (pieces later : List HaveEvent)
    (ran : markPiecesHaveBatch t pieces = .ok (t', became)) (known : Known t later) : Known t' later := by
  intro ev member
  rw [rowwise_markPiecesHaveBatch t t' pieces became ran, Option.isSome_map]
  exact known ev member

section
variable (t : TorrentTable) (agreed : ∀ r ∈ t.list, Agreement r)
include agreed

theorem batch_append (xs ys : List HaveEvent) (t₁ t₂ t₃ : TorrentTable) (b₁ b₂ b₃ : List Nat)
    (both : markPiecesHaveBatch t (xs ++ ys) = .ok (t₁, b₁)) (first : markPiecesHaveBatch t xs = .ok (t₂, b₂))
    (second : markPiecesHaveBatch t₂ ys = .ok (t₃, b₃)) : SameRows t₁ t₃ := by
  intro id
  rw [rowwise_markPiecesHaveBatch t t₁ _ b₁ both, rowwise_markPiecesHaveBatch t₂ t₃ ys b₃ second,
    rowwise_markPiecesHaveBatch t t₂ xs b₂ first, Option.map_map]
  cases found : t.find? id with
  | none => rfl
  | some r =>
    have agreement := agreed r (Rows.find?_mem t id r found)
    have joined := applyHaves_append r agreement (itemsOf r.id xs) (itemsOf r.id ys)
    rw [← itemsOf_append_list] at joined
    exact congrArg (fun c => some (r.withColumns c)) joined.symm

theorem batch_again (xs : List HaveEvent) (t₁ t₂ : TorrentTable) (b₁ b₂ : List Nat)
    (first : markPiecesHaveBatch t xs = .ok (t₁, b₁)) (second : markPiecesHaveBatch t₁ xs = .ok (t₂, b₂)) :
    SameRows t₂ t₁ := by
  intro id
  rw [rowwise_markPiecesHaveBatch t₁ t₂ xs b₂ second, rowwise_markPiecesHaveBatch t t₁ xs b₁ first, Option.map_map]
  cases found : t.find? id with
  | none => rfl
  | some r =>
    have agreement := agreed r (Rows.find?_mem t id r found)
    have again := applyHaves_again r agreement (itemsOf r.id xs)
    exact congrArg (fun c => some (r.withColumns c)) again

omit agreed in
theorem batch_perm (xs ys : List HaveEvent) (same : xs.Perm ys) (sized : Sized xs) (t₁ t₂ : TorrentTable)
    (b₁ b₂ : List Nat) (first : markPiecesHaveBatch t xs = .ok (t₁, b₁))
    (second : markPiecesHaveBatch t ys = .ok (t₂, b₂)) : SameRows t₁ t₂ := by
  intro id
  rw [rowwise_markPiecesHaveBatch t t₁ xs b₁ first, rowwise_markPiecesHaveBatch t t₂ ys b₂ second]
  cases found : t.find? id with
  | none => rfl
  | some r =>
    have reordered := applyHaves_perm r _ _ (itemsOf_perm r.id xs ys same) (itemsOf_sized r.id xs sized)
    exact congrArg (fun c => some (r.withColumns c)) reordered

end

end Seedchamp.Catalog.BatchLaws
