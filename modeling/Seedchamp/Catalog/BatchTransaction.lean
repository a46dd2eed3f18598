import Seedchamp.Foundation.Transactions
import Seedchamp.Catalog.BatchLaws

/-!
`mark_pieces_have_batch` statement by statement on a connection, any of whose statements can meet an error
of the database.
-/

namespace Seedchamp.Catalog.BatchTransaction
open Foundation.KeyedRows Foundation.Transactions Catalog.Table Catalog.Pieces Catalog.Possession
open Catalog.BatchLaws Disk.Spans Library.Ingest

/-! ### The statements -/

abbrev Sql (α : Type) := Run TorrentTable Error α

/-- The row that `load_bitfield_state` reads. -/
def loadRow (tid : Nat) (t : TorrentTable) : Except Error (Row × TorrentTable) :=
  match t.find? tid with
  | none => .error noRows
  | some r => .ok (r, t)

def rewrite (tid : Nat) (change : Row → Columns) (t : TorrentTable) : Except Error (Unit × TorrentTable) :=
  .ok ((), set t tid change)

/-- `UPDATE bitfield`, with the number of rows it has changed. -/
def updateBitfield (tid : Nat) (row : BitfieldRow) (t : TorrentTable) : Except Error (Nat × TorrentTable) :=
  .ok (((t.find? tid).bind (fun r => r.columns.bitfield)).toList.length,
    set t tid (fun r => { r.columns with bitfield := r.columns.bitfield.map (fun _ => row) }))

/-- `INSERT INTO bitfield`, and the last write of a torrent that became complete. -/
def setBitfield (row : BitfieldRow) (r : Row) : Columns := { r.columns with bitfield := some row }

def addStats (delta : Nat) (r : Row) : Columns := { r.columns with stats := addDownloaded r.columns.stats delta }

/-- `UPDATE torrent SET complete = …, state = 'started'`. -/
def setStarted (complete : Bool) (r : Row) : Columns := { r.columns with complete := complete, state := .started }

/-! ### The loop -/

section
variable (site : Option Site) (fault : Error)

def whenever (holds : Bool) (x : Sql Unit) : Sql Unit := if holds then x else pure ()

/-- The last statements for a torrent that is full; `finished_at` is no column here. -/
def finishTorrent (tid pieceCount : Nat) : Sql (Option Nat) := do
  statement site fault (rewrite tid (setStarted true))
  statement site fault (rewrite tid Row.columns)
  statement site fault (rewrite tid (setBitfield ⟨none, pieceCount⟩))
  pure (some tid)

def startTorrent (tid prevHave : Nat) : Sql (Option Nat) := do
  whenever (prevHave = 0) (statement site fault (rewrite tid (setStarted false)))
  pure none

/-- The writes for a torrent that has gained pieces, full or not. -/
def storeCounts (tid : Nat) (row : BitfieldRow) (delta : Nat) : Sql Unit := do
  let changes ← statement site fault (updateBitfield tid row)
  whenever (changes = 0) (statement site fault (rewrite tid (setBitfield row)))
  whenever (0 < delta) (statement site fault (rewrite tid (addStats delta)))

def storeHaves (tid : Nat) (r : Row) (g : Gather) : Sql (Option Nat) := do
  storeCounts site fault tid ⟨if r.pieceCount ≤ g.haveCount then none else some g.bits, g.haveCount⟩ g.deltaDown
  if r.pieceCount ≤ g.haveCount then finishTorrent site fault tid r.pieceCount
  else startTorrent site fault tid r.haveCount

/-- One turn of the loop, and the torrent if it became complete. -/
def markTorrent (group : Group) : Sql (Option Nat) := do
  let r ← statement site fault (loadRow group.1)
  if unmoved r group.2 then pure none else storeHaves site fault group.1 r (gather r group.2)

def markTorrents : List Group → Sql (List Nat)
  | [] => pure []
  | group :: rest => do
    let became ← markTorrent site fault group
    let later ← markTorrents rest
    pure (became.toList ++ later)

/-- `mark_pieces_have_batch` on a connection. -/
def markBatch (pieces : List HaveEvent) : Sql (List Nat) :=
  if pieces.isEmpty then pure [] else transact site fault (markTorrents site fault (byTorrent pieces))

/-! ### Errors -/

theorem inside_whenever (holds : Bool) (x : Sql Unit) (inside : Inside x) : Inside (whenever holds x) := by
  unfold whenever
  split_ifs
  · exact inside
  · exact inside_pure ()

theorem inside_storeCounts (tid : Nat) (row : BitfieldRow) (delta : Nat) :
    Inside (storeCounts site fault tid row delta) := by
  refine inside_bind _ _ (inside_statement site fault _) (fun changes => ?_)
  refine inside_bind _ _ (inside_whenever _ _ (inside_statement site fault _)) (fun _ => ?_)
  exact inside_whenever _ _ (inside_statement site fault _)

theorem inside_storeHaves (tid : Nat) (r : Row) (g : Gather) : Inside (storeHaves site fault tid r g) := by
  refine inside_bind _ _ (inside_storeCounts site fault tid _ _) (fun _ => ?_)
  split_ifs
  · refine inside_bind _ _ (inside_statement site fault _) (fun _ => ?_)
    refine inside_bind _ _ (inside_statement site fault _) (fun _ => ?_)
    exact inside_bind _ _ (inside_statement site fault _) (fun _ => inside_pure _)
  · exact inside_bind _ _ (inside_whenever _ _ (inside_statement site fault _)) (fun _ => inside_pure _)

theorem inside_markTorrent (group : Group) : Inside (markTorrent site fault group) := by
  refine inside_bind _ _ (inside_statement site fault _) (fun r => ?_)
  split_ifs
  · exact inside_pure _
  · exact inside_storeHaves site fault group.1 r _

theorem inside_markTorrents (groups : List Group) : Inside (markTorrents site fault groups) := by
  induction groups with
  | nil => exact inside_pure _
  | cons group rest ih =>
    refine inside_bind _ _ (inside_markTorrent site fault group) (fun became => ?_)
    exact inside_bind _ _ ih (fun later => inside_pure _)

/-! ### A batch that meets no error -/

variable {site} (spared : Spared site)
include spared

theorem does_rewrite (t : TorrentTable) (tid : Nat) (f g : Row → Columns) :
    Does (statement site fault (rewrite tid g)) (set t tid f) ()
      (set t tid (fun r => g (r.withColumns (f r)))) := by
  apply does_statement fault spared
  rw [rewrite, set_set]

theorem does_whenever (t : TorrentTable) (tid : Nat) (holds : Bool) (f g : Row → Columns) :
    Does (whenever holds (statement site fault (rewrite tid g))) (set t tid f) ()
      (set t tid (fun r => if holds then g (r.withColumns (f r)) else f r)) := by
  cases holds with
  | true => exact does_rewrite fault spared t tid f g
  | false => exact does_pure _ ()

theorem does_finishTorrent (t : TorrentTable) (tid pieceCount : Nat) (f : Row → Columns) :
    Does (finishTorrent site fault tid pieceCount) (set t tid f) (some tid)
      (set t tid (fun r => { f r with complete := true, state := .started, bitfield := some ⟨none, pieceCount⟩ })) := by
  refine does_bind _ _ _ _ _ _ _ (does_rewrite fault spared t tid f _) ?_
  refine does_bind _ _ _ _ _ _ _ (does_rewrite fault spared t tid _ _) ?_
  exact does_bind _ _ _ _ _ _ _ (does_rewrite fault spared t tid _ _) (does_pure _ _)

theorem does_startTorrent (t : TorrentTable) (tid prevHave : Nat) (f : Row → Columns) :
    Does (startTorrent site fault tid prevHave) (set t tid f) none
      (set t tid (fun r => if prevHave = 0 then { f r with complete := false, state := .started } else f r)) := by
  refine does_bind _ _ _ _ _ _ _ (does_whenever fault spared t tid _ f _) ?_
  simp only [decide_eq_true_eq]
  exact does_pure _ _

/-- The columns of a torrent that has gained pieces, before its state is looked at. -/
def counted (row : BitfieldRow) (delta : Nat) (r : Row) : Columns :=
  { r.columns with bitfield := some row, stats := addDownloaded r.columns.stats delta }

theorem does_storeCounts (t : TorrentTable) (tid : Nat) (r : Row) (row : BitfieldRow) (delta : Nat)
    (found : t.find? tid = some r) :
    Does (storeCounts site fault tid row delta) t () (set t tid (counted row delta)) := by
  have written : Does (statement site fault (updateBitfield tid row)) t r.columns.bitfield.toList.length
      (set t tid (fun r => { r.columns with bitfield := r.columns.bitfield.map (fun _ => row) })) := by
    apply does_statement fault spared
    rw [updateBitfield, found]
    rfl
  have inserted := does_whenever fault spared t tid (decide (r.columns.bitfield.toList.length = 0))
    (fun r => { r.columns with bitfield := r.columns.bitfield.map (fun _ => row) }) (setBitfield row)
  have stored : ∀ r', t.find? tid = some r' →
      (if decide (r.columns.bitfield.toList.length = 0) = true then
        setBitfield row (r'.withColumns { r'.columns with bitfield := r'.columns.bitfield.map (fun _ => row) })
      else { r'.columns with bitfield := r'.columns.bitfield.map (fun _ => row) }) = setBitfield row r' := by
    intro r' found'
    rw [found] at found'
    cases found'
    unfold setBitfield
    cases r.columns.bitfield <;> rfl
  rw [set_congr t tid _ _ stored] at inserted
  have summed := does_whenever fault spared t tid (decide (0 < delta)) (setBitfield row) (addStats delta)
  have added : ∀ r', t.find? tid = some r' →
      (if decide (0 < delta) = true then addStats delta (r'.withColumns (setBitfield row r'))
      else setBitfield row r') = counted row delta r' := by
    intro r' _
    by_cases some' : 0 < delta
    · rw [if_pos (decide_eq_true some')]
      rfl
    · rw [if_neg (by rw [decide_eq_true_eq]; exact some'), Nat.eq_zero_of_not_pos some', setBitfield, counted]
      congr 1
      cases r'.columns.stats <;> rfl
  rw [set_congr t tid _ _ added] at summed
  exact does_bind _ _ _ _ _ _ _ written (does_bind _ _ _ _ _ _ _ inserted summed)

/-- The statements of one torrent add up to `applyHaves`. -/
theorem does_storeHaves (t : TorrentTable) (tid : Nat) (r : Row) (items : List (Nat × Nat))
    (found : t.find? tid = some r) (moves : unmoved r items = false) :
    Does (storeHaves site fault tid r (gather r items)) t
      (if r.pieceCount ≤ (gather r items).haveCount then some tid else none)
      (set t tid (fun r => applyHaves r items)) := by
  obtain ⟨incomplete, pieces⟩ := unmoved_eq_false r items moves
  have moved : (gather r items).changed = true := by
    simp only [unmoved, Bool.or_eq_false_iff, Bool.not_eq_false'] at moves
    exact moves.2
  have effect := applyHaves_moved r items incomplete pieces moved
  have target : ∀ change : Row → Columns, change r = applyHaves r items →
      set t tid change = set t tid (fun r => applyHaves r items) := by
    intro change same
    apply set_congr
    intro r' found'
    rw [found] at found'
    cases found'
    exact same
  by_cases full : r.pieceCount ≤ (gather r items).haveCount
  · have last := does_finishTorrent fault spared t tid r.pieceCount (counted ⟨none, (gather r items).haveCount⟩
      (gather r items).deltaDown)
    have same := target (fun other => { counted ⟨none, (gather r items).haveCount⟩ (gather r items).deltaDown other with
      complete := true, state := .started, bitfield := some ⟨none, r.pieceCount⟩ }) (by rw [effect, if_pos full]; rfl)
    rw [same] at last
    have first := does_storeCounts fault spared t tid r ⟨none, (gather r items).haveCount⟩
      (gather r items).deltaDown found
    unfold storeHaves
    rw [if_pos full, if_pos full, if_pos full]
    exact does_bind _ _ _ _ _ _ _ first last
  · have last := does_startTorrent fault spared t tid r.haveCount
      (counted ⟨some (gather r items).bits, (gather r items).haveCount⟩ (gather r items).deltaDown)
    have same := target (fun other =>
      if r.haveCount = 0 then
        { counted ⟨some (gather r items).bits, (gather r items).haveCount⟩ (gather r items).deltaDown other with
          complete := false, state := .started }
      else counted ⟨some (gather r items).bits, (gather r items).haveCount⟩ (gather r items).deltaDown other) (by
        rw [effect, if_neg full]
        dsimp only [counted]
        split_ifs
        · rfl
        · rw [incomplete])
    rw [same] at last
    have first := does_storeCounts fault spared t tid r ⟨some (gather r items).bits, (gather r items).haveCount⟩
      (gather r items).deltaDown found
    unfold storeHaves
    rw [if_neg full, if_neg full, if_neg full]
    exact does_bind _ _ _ _ _ _ _ first last

theorem does_markTorrent (t : TorrentTable) (group : Group) (r : Row) (found : t.find? group.1 = some r) :
    Does (markTorrent site fault group) t (if becameComplete r group.2 then some group.1 else none)
      (set t group.1 (fun r => applyHaves r group.2)) := by
  have read : Does (statement site fault (loadRow group.1)) t r t := by
    apply does_statement fault spared
    rw [loadRow, found]
  refine does_bind _ _ _ _ _ _ _ read ?_
  rw [becameComplete]
  cases moves : unmoved r group.2 with
  | true =>
    rw [if_pos rfl, if_neg (by simp)]
    have same : set t group.1 (fun r => applyHaves r group.2) = t := by
      rw [set_congr t group.1 _ Row.columns, set_columns]
      intro r' found'
      rw [found] at found'
      cases found'
      rw [applyHaves, if_pos moves]
    rw [same]
    exact does_pure _ _
  | false =>
    rw [if_neg (fun clash => by cases clash)]
    have stores := does_storeHaves fault spared t group.1 r group.2 found moves
    simp only [Bool.not_false, Bool.true_and, decide_eq_true_eq]
    exact stores

/-- Without an error of the database the loop is `markGroups`. -/
theorem does_markTorrents (t t' : TorrentTable) (groups : List Group) (became : List Nat)
    (marked : markGroups t groups = .ok (t', became)) : Does (markTorrents site fault groups) t became t' := by
  induction groups generalizing t became with
  | nil =>
    cases marked
    exact does_pure _ _
  | cons group rest ih =>
    rw [markGroups.eq_def] at marked
    dsimp only at marked
    cases found : t.find? group.1 with
    | none =>
      rw [found] at marked
      cases marked
    | some r =>
      rw [found] at marked
      dsimp only at marked
      cases later : markGroups (set t group.1 (fun r => applyHaves r group.2)) rest with
      | error problem =>
        rw [later] at marked
        cases marked
      | ok result =>
        obtain ⟨t'', rested⟩ := result
        rw [later] at marked
        cases marked
        refine does_bind _ _ _ _ _ _ _ (does_markTorrent fault spared t group r found) ?_
        refine does_bind _ _ _ _ _ _ _ (ih _ _ later) ?_
        split_ifs <;> exact does_pure _ _

theorem fails_markTorrents (t : TorrentTable) (groups : List Group) (problem : Error)
    (missing : markGroups t groups = .error problem) : Fails (markTorrents site fault groups) t problem := by
  induction groups generalizing t with
  | nil => cases missing
  | cons group rest ih =>
    rw [markGroups.eq_def] at missing
    dsimp only at missing
    cases found : t.find? group.1 with
    | none =>
      rw [found] at missing
      cases missing
      refine fails_bind _ _ _ _ (fails_bind _ _ _ _ (fails_statement fault spared _ _ _ ?_))
      rw [loadRow, found]
    | some r =>
      rw [found] at missing
      dsimp only at missing
      cases later : markGroups (set t group.1 (fun r => applyHaves r group.2)) rest with
      | ok result =>
        rw [later] at missing
        cases missing
      | error other =>
        rw [later] at missing
        cases missing
        refine fails_bind_later _ _ _ _ _ _ (does_markTorrent fault spared t group r found) ?_
        exact fails_bind _ _ _ _ (ih _ later)

end

/-! ### Batches on a connection -/

/-- A connection without an open transaction. -/
def idle (t : TorrentTable) (ran : Nat) : Connection TorrentTable := ⟨t, none, ran⟩

/-- Where no statement meets an error the batch takes the catalog from `t` to `t'`. -/
def Commits (fault : Error) (t : TorrentTable) (pieces : List HaveEvent) (t' : TorrentTable) : Prop :=
  ∀ ran, ∃ became ran', markBatch none fault pieces (idle t ran) = (.ok became, idle t' ran')

/-- An error leaves the catalog as it was, and no transaction open. -/
def Atomic (site : Option Site) (fault : Error) (t : TorrentTable) (pieces : List HaveEvent) : Prop :=
  ∀ ran problem c, markBatch site fault pieces (idle t ran) = (.error problem, c) →
    c.committed = t ∧ c.working = none

theorem spared_of_not_statement (site : Option Site) (other : site = none ∨ site = some (.closing false)) :
    Spared site := by
  intro k rollsBack here
  rcases other with none' | closes
  · rw [none'] at here
    cases here
  · rw [closes] at here
    cases here

theorem commits_of_marked (fault : Error) (t t' : TorrentTable) (pieces : List HaveEvent) (became : List Nat)
    (marked : markPiecesHaveBatch t pieces = .ok (t', became)) : Commits fault t pieces t' := by
  intro ran
  rw [markPiecesHaveBatch] at marked
  rw [markBatch]
  by_cases empty : pieces.isEmpty = true
  · rw [if_pos empty] at marked ⊢
    cases marked
    exact ⟨[], ran, rfl⟩
  · rw [if_neg empty] at marked ⊢
    have does := does_markTorrents fault (spared_of_not_statement none (Or.inl rfl)) t t' _ became marked
    obtain ⟨n, done⟩ := does (opened (idle t ran)) rfl
    refine ⟨became, n, ?_⟩
    rw [transact_opened none fault _ _ rfl (fun clash => by cases clash), done]
    rfl

/-- The body of a batch is done exactly where every torrent of the batch is there. -/
theorem body_isOk (fault : Error) (t : TorrentTable) (pieces : List HaveEvent) (some' : pieces ≠ []) (ran : Nat) :
    (markTorrents (some (.closing false)) fault (byTorrent pieces) (opened (idle t ran))).1.isOk = true ↔
      Known t pieces := by
  have spared := spared_of_not_statement (some (.closing false)) (Or.inr rfl)
  have marks : markPiecesHaveBatch t pieces = markGroups t (byTorrent pieces) := by
    rw [markPiecesHaveBatch, if_neg (by rw [List.isEmpty_iff]; exact some')]
  rw [Known, ← markPiecesHaveBatch_isOk, marks]
  cases marked : markGroups t (byTorrent pieces) with
  | ok result =>
    obtain ⟨n, done⟩ := does_markTorrents fault spared t result.1 _ result.2 marked (opened (idle t ran)) rfl
    rw [done]
    exact Iff.rfl
  | error problem =>
    obtain ⟨c, stopped⟩ := fails_markTorrents fault spared t _ problem marked (opened (idle t ran)) rfl
    rw [stopped]
    exact Iff.rfl

theorem atomic_iff (site : Option Site) (fault : Error) (t : TorrentTable) (pieces : List HaveEvent) :
    Atomic site fault t pieces ↔ ¬(site = some (.closing false) ∧ pieces ≠ [] ∧ Known t pieces) := by
  constructor
  · rintro atomic ⟨rfl, some', known⟩
    have done := (body_isOk fault t pieces some' 0).2 known
    obtain ⟨_, still⟩ := inside_markTorrents (some (.closing false)) fault (byTorrent pieces)
      (opened (idle t 0)) rfl
    obtain ⟨s, open'⟩ := Option.isSome_iff_exists.1 (still done)
    have atomic := atomic 0 fault
    rw [markBatch, if_neg (by rw [List.isEmpty_iff]; exact some'),
      transact_opened (some (.closing false)) fault _ _ rfl nofun] at atomic
    cases result : markTorrents (some (.closing false)) fault (byTorrent pieces) (opened (idle t 0)) with
    | mk outcome after =>
      rw [result] at done open' atomic
      cases outcome with
      | error problem => cases done
      | ok became =>
        have left := atomic after (by
          dsimp only at open' ⊢
          rw [closing, open']
          dsimp only
          rw [if_neg (by decide), if_pos rfl])
        rw [open'] at left
        cases left.2
  · intro free ran problem c failed
    by_cases some' : pieces = []
    · rw [some', markBatch] at failed
      cases failed
    · rw [markBatch, if_neg (by rw [List.isEmpty_iff]; exact some')] at failed
      obtain ⟨kept, left⟩ := transact_error site fault _ (inside_markTorrents site fault _) (idle t ran) c problem rfl
        failed
      refine ⟨kept, left.2 ?_⟩
      rintro ⟨rfl, done⟩
      exact free ⟨rfl, some', (body_isOk fault t pieces some' ran).1 done⟩

/-- Batches compose, may be taken again and in any order. -/
structure Laws (fault : Error) (t : TorrentTable) (xs ys : List HaveEvent) : Prop where
  append : ∃ t₁ t₂ t₃, Commits fault t (xs ++ ys) t₁ ∧ Commits fault t xs t₂ ∧ Commits fault t₂ ys t₃ ∧
    SameRows t₁ t₃
  again : ∃ t₁ t₂, Commits fault t xs t₁ ∧ Commits fault t₁ xs t₂ ∧ SameRows t₂ t₁
  order : ∀ zs, xs.Perm zs → ∃ t₁ t₂, Commits fault t xs t₁ ∧ Commits fault t zs t₂ ∧ SameRows t₁ t₂

theorem laws_of_agreed (fault : Error) (t : TorrentTable) (agreed : ∀ r ∈ t.list, Agreement r)
    (xs ys : List HaveEvent) (known : Known t (xs ++ ys)) (sized : Sized (xs ++ ys)) : Laws fault t xs ys := by
  have knownX : Known t xs := fun ev member => known ev (List.mem_append_left ys member)
  have knownY : Known t ys := fun ev member => known ev (List.mem_append_right xs member)
  have sizedX : Sized xs := fun a member b member' =>
    sized a (List.mem_append_left ys member) b (List.mem_append_left ys member')
  obtain ⟨t₁, b₁, both⟩ := marked_of_known t (xs ++ ys) known
  obtain ⟨t₂, b₂, first⟩ := marked_of_known t xs knownX
  obtain ⟨t₃, b₃, second⟩ := marked_of_known t₂ ys (known_after t t₂ b₂ xs ys first knownY)
  obtain ⟨t₄, b₄, again⟩ := marked_of_known t₂ xs (known_after t t₂ b₂ xs xs first knownX)
  refine ⟨⟨t₁, t₂, t₃, ?_, ?_, ?_, ?_⟩, ⟨t₂, t₄, ?_, ?_, ?_⟩, ?_⟩
  · exact commits_of_marked fault t t₁ _ b₁ both
  · exact commits_of_marked fault t t₂ _ b₂ first
  · exact commits_of_marked fault t₂ t₃ _ b₃ second
  · exact batch_append t agreed xs ys t₁ t₂ t₃ b₁ b₂ b₃ both first second
  · exact commits_of_marked fault t t₂ _ b₂ first
  · exact commits_of_marked fault t₂ t₄ _ b₄ again
  · exact batch_again t agreed xs t₂ t₄ b₂ b₄ first again
  · intro zs same
    have knownZ : Known t zs := fun ev member => knownX ev (same.mem_iff.2 member)
    obtain ⟨t₅, b₅, other⟩ := marked_of_known t zs knownZ
    exact ⟨t₂, t₅, commits_of_marked fault t t₂ _ b₂ first, commits_of_marked fault t t₅ _ b₅ other,
      batch_perm t xs zs same sizedX t₂ t₅ b₂ b₅ first other⟩

/-- A batch is an action on the catalog; a failed one leaves its transaction open exactly where `COMMIT` is
reached and fails without ending it. -/
theorem mark_batch_laws (fault : Error) (t : TorrentTable) (agreed : ∀ r ∈ t.list, Agreement r) :
    (∀ xs ys, Known t (xs ++ ys) → Sized (xs ++ ys) → Laws fault t xs ys) ∧
      ∀ site pieces, Atomic site fault t pieces ↔
        ¬(site = some (.closing false) ∧ pieces ≠ [] ∧ Known t pieces) :=
  ⟨laws_of_agreed fault t agreed, fun site pieces => atomic_iff site fault t pieces⟩

def oneAdded : TorrentTable := addTorrent Rows.empty (byteTorrent 1) ⟨["data"], none⟩ true

theorem oneAdded_agreed : ∀ r ∈ oneAdded.list, Agreement r := by
  intro r member
  have only : oneAdded.list = [(addInsert (byteTorrent 1) ⟨["data"], none⟩ true).row 1] := by
    decide +kernel
  rw [only, List.mem_singleton] at member
  rw [member]
  exact agreement_added (byteTorrent 1) ⟨["data"], none⟩ true 1

theorem mark_batch_laws_oneTorrent :
    Laws noRows oneAdded [⟨1, 0, 1⟩] [⟨1, 0, 1⟩] :=
  (mark_batch_laws noRows oneAdded oneAdded_agreed).1 [⟨1, 0, 1⟩] [⟨1, 0, 1⟩]
    (by unfold Known; decide +kernel) (by unfold Sized; decide +kernel)

def locked : Error := .msg "sqlite: database is locked"

def lockedBatch : Except Error (List Nat) × Connection TorrentTable :=
  markBatch (some (.closing false)) locked [⟨1, 0, 1⟩] (idle oneAdded 0)

/-- The error of `COMMIT` is passed on without a rollback. -/
theorem failed_commit_stays_open :
    ¬∀ (site : Option Site) (fault : Error) (t : TorrentTable) (pieces : List HaveEvent),
      (∀ r ∈ t.list, Agreement r) → Atomic site fault t pieces := by
  intro always
  have failed : lockedBatch = (.error locked, lockedBatch.2) := Prod.ext rfl rfl
  have closed := (always _ locked oneAdded [⟨1, 0, 1⟩] oneAdded_agreed 0 locked lockedBatch.2 failed).2
  have left : lockedBatch.2.working.isSome = true := by decide +kernel
  rw [closed] at left
  cases left

end Seedchamp.Catalog.BatchTransaction
