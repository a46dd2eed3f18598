import Seedchamp.Hot.Possession
import Seedchamp.Session.FlushPersistence
import Seedchamp.Session.RelocateFiles

/-!
A torrent staged on the leech cache, from the piece marked in memory to the tick that moves the
payload home. The tick starts the hand-off on the report of its own flush, the hand-off looks at the
wanted pieces, and the tick loop begins with the torrents that the catalog has complete.
-/

namespace Seedchamp.Session.StagedHandoff
open Foundation.KeyedRows Foundation.TransitionSystem Foundation.Tally Catalog.Table Catalog.Pieces
open Catalog.Possession Disk.Spans Library.Ingest Hot.Torrent Hot.Torrent.HotTorrent Hot.Possession
open Session.HaveBuffer Session.FlushPersistence
open Session.Relocate (Payload publishFile removeFile)
open Session.RelocateFiles (publishAll_eq removeAll_eq)

/-- `flush_piece_haves` with its report; a transaction that fails has none. -/
def flushReporting (b : Buffer) (f : Flush) : Option (Buffer × List Nat) :=
  if b.pending.isEmpty || !f.due then some (b, [])
  else
    let split := takeBatch f.only b.pending
    if split.1.isEmpty then some ({ b with pending := split.2 }, [])
    else match markPiecesHaveBatch b.catalog split.1 with
      | .ok (catalog, became) => some (⟨split.2, catalog⟩, became)
      | .error _ => none

/-- One hot torrent, its row, the buffer and its payload files. A session has marked the pieces
`inHand` and not queued them yet; `runs` counts the calls of `run_leech_cache_handoff`. -/
structure Stage where
  hot : HotTorrent
  inHand : List HaveEvent
  buffer : Buffer
  payload : Payload
  resumed : Bool
  runs : Nat

/-- `flush` is a flush outside the tick loop, which forces it and drops the report; `resume` is what
the tick loop does before its first tick. -/
inductive Event where
  | markHave (index : Nat)
  | queuePieceHave (k : Nat)
  | queueOther (ev : HaveEvent)
  | setFilePriority (fileIdx : Nat) (priority : Int)
  | flush (only : Option Nat)
  | resume
  | tick (timeDue othersComplete : Bool)
  deriving DecidableEq, Repr

/-- The catalog's `set_file_priority`, on the file's row. -/
def storePriority (fileIdx : Nat) (priority : Int) (c : Columns) : Columns :=
  { c with files := c.files.modify fileIdx (fun file => { file with priority := priority }) }

namespace Stage

def row (s : Stage) : Option Row := s.buffer.catalog.find? s.hot.id

def live (s : Stage) : PathBuf := s.hot.layout.dataRoot

def files (s : Stage) : Nat := s.hot.layout.files.length

def setColumns (s : Stage) (change : Columns → Columns) : Stage :=
  { s with
    buffer := { s.buffer with
      catalog := Catalog.Table.set s.buffer.catalog s.hot.id (fun r => change r.columns) } }

def getHomeRoot (s : Stage) : Option PathBuf :=
  s.row.bind (fun r => r.columns.metaPath.bind (fun roots =>
    roots.homeRoot.filter (fun home => !home.isEmpty)))

def getDataRoot (s : Stage) : Option PathBuf :=
  s.row.bind (fun r => r.columns.metaPath.map MetaPath.dataRoot)

def setHomeRoot (s : Stage) (home : Option PathBuf) : Stage :=
  s.setColumns (fun c =>
    { c with metaPath := c.metaPath.map (fun roots => { roots with homeRoot := home }) })

def setDataRoot (s : Stage) (root : PathBuf) : Stage :=
  s.setColumns (fun c =>
    { c with metaPath := c.metaPath.map (fun roots => { roots with dataRoot := root }) })

/-- Publish every file, switch the catalog and the live layout, remove every file from `src`. -/
def switchPayloadRoot (s : Stage) (src dst : PathBuf) : Stage :=
  let published := (List.range s.files).foldl
    (fun payload file => publishFile payload src dst file) s.payload
  let switched := s.setDataRoot dst
  { switched with
    hot := switched.hot.setDataRootLive dst
    payload := (List.range s.files).foldl
      (fun payload file => removeFile payload src file) published }.setHomeRoot none

def runLeechCacheHandoff (s : Stage) (home : PathBuf) : Stage :=
  let s := { s with runs := s.runs + 1 }
  if s.live = home then s.setHomeRoot none
  else if !s.hot.isDownloadComplete then s
  else s.switchPayloadRoot s.live home

def maybeStartLeechCacheHandoff (s : Stage) : Stage :=
  match s.getHomeRoot with
  | some home => s.runLeechCacheHandoff home
  | none => s

def flushPieceHaves (s : Stage) (f : Flush) : Option (Stage × List Nat) :=
  (flushReporting s.buffer f).map (fun flushed => ({ s with buffer := flushed.1 }, flushed.2))

/-- Whether the buffer holds an event of this torrent's piece. -/
def queued (s : Stage) (index : Nat) : Bool :=
  s.buffer.pending.any (fun ev => ev.tid = s.hot.id && ev.index = index)

/-- The flush of a tick. -/
def tickFlush (s : Stage) (timeDue othersComplete : Bool) : Flush where
  only := none
  force := false
  timeDue := timeDue
  anyComplete := othersComplete ||
    (s.hot.isComplete && s.buffer.pending.any (fun ev => ev.tid = s.hot.id))

/-- Whether the catalog marks the piece as had. -/
def flushed (s : Stage) (index : Nat) : Bool := s.row.any (fun r => r.hasPiece index)

def complete (s : Stage) : Bool := s.row.any (fun r => r.columns.complete)

end Stage

def step (s : Stage) : Event → Option Stage
  | .markHave index =>
    if index < s.hot.pieceCount then
      some { s with
        hot := (s.hot.markHave index).1
        inHand := s.inHand ++ [⟨s.hot.id, index, s.hot.layout.pieceBytes index⟩] }
    else none
  | .queuePieceHave k =>
    s.inHand[k]?.map (fun ev => { s with
      inHand := s.inHand.eraseIdx k
      buffer := { s.buffer with pending := s.buffer.pending ++ [ev] } })
  | .queueOther ev =>
    if ev.tid = s.hot.id then none
    else some { s with buffer := { s.buffer with pending := s.buffer.pending ++ [ev] } }
  | .setFilePriority fileIdx priority =>
    let stored := s.setColumns (storePriority fileIdx priority)
    if s.row.any (fun r => fileIdx < r.columns.files.length) then
      some { stored with hot := stored.hot.setFilePriority fileIdx priority }
    else none
  | .flush only => (s.flushPieceHaves ⟨only, true, false, false⟩).map Prod.fst
  | .resume =>
    let s' := { s with resumed := true }
    if s.resumed then none
    else if s.row.any (fun r => r.columns.complete && !r.columns.deleted) then
      some s'.maybeStartLeechCacheHandoff
    else some s'
  | .tick timeDue othersComplete =>
    if s.resumed then
      (s.flushPieceHaves (s.tickFlush timeDue othersComplete)).map (fun flushed =>
        if s.hot.id ∈ flushed.2 then flushed.1.maybeStartLeechCacheHandoff else flushed.1)
    else none

/-- A staged torrent that was just loaded: memory has what the catalog has. -/
structure Start (home : PathBuf) (s : Stage) : Prop where
  balanced : Balanced s.hot
  inHand : s.inHand = []
  queued : ∀ ev ∈ s.buffer.pending, ev.tid ≠ s.hot.id
  row : ∃ r, s.row = some r ∧ Agreement r ∧ r.pieceCount = s.hot.pieceCount ∧
    r.columns.metaPath = some ⟨s.live, some home⟩ ∧
    ∀ i, i < s.hot.pieceCount → s.hot.hasPiece i = r.hasPiece i
  named : home ≠ []
  placed : ∀ root i, i < s.files → s.payload root i = true → root = s.live

def MissingWanted (s : Stage) : Prop := ∃ i, s.hot.wantsPiece i = true ∧ s.hot.hasPiece i = false

def WantedFlushed (s : Stage) : Prop :=
  ∀ i, s.hot.wantsPiece i = true → s.hot.hasPiece i = true ∧ s.flushed i = true

/-- The hand-off has run, `home_root` is cleared, and the files that were under the live root are
under the home and nowhere else. -/
structure HandedOver (home : PathBuf) (s s' : Stage) : Prop where
  ran : 0 < s'.runs
  homeRoot : s'.getHomeRoot = none
  dataRoot : s'.getDataRoot = some home
  live : s'.live = home
  payload : ∀ root i, i < s.files → s'.payload root i = (root == home && s.payload s.live i)

structure Still (s s' : Stage) : Prop where
  runs : s'.runs = s.runs
  live : s'.live = s.live
  payload : s'.payload = s.payload

/-- No step runs the hand-off while a wanted piece is missing, and a tick that leaves the wanted
pieces had and flushed leaves the torrent handed over. -/
def HandsOff (home : PathBuf) (s : Stage) (event : Event) : Prop :=
  ∀ s', step s event = some s' → (MissingWanted s → Still s s') ∧
    ∀ timeDue othersComplete, event = .tick timeDue othersComplete → WantedFlushed s' →
      HandedOver home s s'

/-- The wanted pieces are in the catalog or will be by the flush of this tick. -/
def WantedFlushing (s : Stage) (timeDue othersComplete : Bool) : Prop :=
  ∀ i, s.hot.wantsPiece i = true → s.hot.hasPiece i = true ∧
    (s.flushed i || (s.tickFlush timeDue othersComplete).due && s.queued i) = true

/-- A tick that flushes the last wanted piece, or finds it flushed, finds every piece of the torrent
in the catalog or the buffer, and no staged torrent that the catalog has complete. -/
def Whole (s : Stage) : Event → Prop
  | .tick timeDue othersComplete => WantedFlushing s timeDue othersComplete →
    (0 < s.hot.pieceCount ∧ ∀ i, i < s.hot.pieceCount → (s.flushed i || s.queued i) = true) ∧
      (s.complete = true → s.getHomeRoot = none)
  | _ => True

/-! ### The flush -/

def batchOf (b : Buffer) (f : Flush) : List HaveEvent :=
  if f.due then (takeBatch f.only b.pending).1 else []

def leftOf (b : Buffer) (f : Flush) : List HaveEvent :=
  if f.due then (takeBatch f.only b.pending).2 else b.pending

theorem takeBatch_nil (only : Option Nat) : takeBatch only [] = ([], []) := by
  cases only <;> rfl

/-- What a flush that does not fail does to one row, and what it reports of it. -/
theorem flushReporting_row (b b' : Buffer) (f : Flush) (became : List Nat)
    (ran : flushReporting b f = some (b', became)) (id : Nat) (r : Row)
    (found : b.catalog.find? id = some r) :
    b'.pending = leftOf b f ∧
      b'.catalog.find? id = some (r.withColumns (applyHaves r (itemsOf id (batchOf b f)))) ∧
      (id ∈ became ↔ becameComplete r (itemsOf id (batchOf b f)) = true) := by
  have idle : becameComplete r [] = false := by simp [becameComplete, unmoved, gather]
  have nothing : itemsOf id ([] : List HaveEvent) = [] := rfl
  rw [flushReporting] at ran
  rw [batchOf, leftOf]
  by_cases due : f.due = true
  · rw [if_pos due, if_pos due]
    by_cases empty : (takeBatch f.only b.pending).1.isEmpty = true
    · have none := List.isEmpty_iff.1 empty
      have result : b' = { b with pending := (takeBatch f.only b.pending).2 } ∧ became = [] := by
        by_cases unqueued : b.pending.isEmpty = true
        · rw [if_pos (by rw [unqueued, Bool.true_or])] at ran
          cases ran
          obtain ⟨pending, catalog⟩ := b
          cases List.isEmpty_iff.1 unqueued
          rw [takeBatch_nil]
          exact ⟨rfl, rfl⟩
        · rw [if_neg (by simp [unqueued, due]), if_pos empty] at ran
          cases ran
          exact ⟨rfl, rfl⟩
      rw [result.1, result.2, none, nothing, applyHaves_nil, Row.withColumns_self, idle]
      exact ⟨rfl, found, by simp⟩
    · have busy : b.pending.isEmpty = false := by
        cases pending : b.pending with
        | nil => rw [pending, takeBatch_nil] at empty; exact absurd rfl empty
        | cons first rest => rfl
      rw [if_neg (by simp [busy, due])] at ran
      simp only [empty, Bool.false_eq_true, if_false] at ran
      cases marked : markPiecesHaveBatch b.catalog (takeBatch f.only b.pending).1 with
      | error problem =>
        rw [marked] at ran
        cases ran
      | ok result =>
        rw [marked] at ran
        cases ran
        have row := rowwise_markPiecesHaveBatch b.catalog result.1 _ result.2 marked id
        simp only [found, Option.map_some, Rows.find?_key b.catalog id r found] at row
        exact ⟨rfl, row, mem_markPiecesHaveBatch b.catalog result.1 _ result.2 marked id r found⟩
  · rw [if_neg due, if_neg due]
    rw [if_pos (by simp [due])] at ran
    cases ran
    rw [nothing, applyHaves_nil, Row.withColumns_self, idle]
    exact ⟨rfl, found, by simp⟩

/-- The flush with its report does to the buffer what the flush does. -/
theorem flushReporting_eq (b b' : Buffer) (f : Flush) (became : List Nat)
    (ran : flushReporting b f = some (b', became)) : FlushPersistence.flushPieceHaves b f = b' := by
  rw [flushReporting] at ran
  rw [FlushPersistence.flushPieceHaves]
  by_cases idle : (b.pending.isEmpty || !f.due) = true
  · rw [if_pos idle] at ran ⊢
    cases ran
    rfl
  · rw [if_neg idle] at ran ⊢
    by_cases empty : (takeBatch f.only b.pending).1.isEmpty = true
    · simp only [empty, if_true] at ran ⊢
      cases ran
      rfl
    · simp only [empty, Bool.false_eq_true, if_false] at ran ⊢
      cases marked : markPiecesHaveBatch b.catalog (takeBatch f.only b.pending).1 with
      | error problem =>
        rw [marked] at ran
        cases ran
      | ok result =>
        rw [marked] at ran
        cases ran
        rfl

/-- An event that was queued is in the batch or left in the buffer. -/
theorem pending_split (b : Buffer) (f : Flush) (ev : HaveEvent) :
    ev ∈ b.pending ↔ ev ∈ batchOf b f ∨ ev ∈ leftOf b f := by
  rw [batchOf, leftOf]
  by_cases due : f.due = true
  · rw [if_pos due, if_pos due]
    cases f.only with
    | none => simp [takeBatch]
    | some id =>
      simp only [takeBatch, List.mem_filter, decide_eq_true_eq, ← and_or_left]
      exact (and_iff_left (Decidable.em _)).symm
  · rw [if_neg due, if_neg due]
    simp

theorem mem_itemsOf (id : Nat) (events : List HaveEvent) (index : Nat) :
    (∃ item ∈ itemsOf id events, item.1 = index) ↔ ∃ ev ∈ events, ev.tid = id ∧ ev.index = index := by
  simp only [itemsOf, List.mem_map, List.mem_filter, decide_eq_true_eq]
  constructor
  · rintro ⟨item, ⟨ev, ⟨member, named⟩, rfl⟩, same⟩
    exact ⟨ev, member, named, same⟩
  · rintro ⟨ev, member, named, same⟩
    exact ⟨_, ⟨ev, ⟨member, named⟩, rfl⟩, same⟩

/-! ### The invariant -/

/-- The row keeps up with memory through the buffer. The torrent is staged, or it was handed over
once the row was complete. -/
structure Tracks (home : PathBuf) (s : Stage) (r : Row) : Prop where
  found : s.row = some r
  agreement : Agreement r
  pieces : r.pieceCount = s.hot.pieceCount
  possession : ∀ i, i < s.hot.pieceCount → (s.hot.hasPiece i = true ↔
    r.hasPiece i = true ∨ s.queued i = true ∨ ∃ ev ∈ s.inHand, ev.index = i)
  roots : r.columns.metaPath = some ⟨s.live, some home⟩ ∨
    r.columns.metaPath = some ⟨s.live, none⟩ ∧ s.live = home ∧ 0 < s.runs ∧
      r.columns.complete = true

structure Invariant (home : PathBuf) (s : Stage) : Prop where
  named : home ≠ []
  balanced : Balanced s.hot
  held : ∀ ev ∈ s.inHand, ev.tid = s.hot.id
  row : ∃ r, Tracks home s r
  placed : ∀ root i, i < s.files → s.payload root i = true → root = s.live

theorem wantsPiece_below (t : HotTorrent) (i : Nat) (wanted : t.wantsPiece i = true) : i < t.pieceCount := by
  by_contra past
  rw [wantsPiece, if_pos (not_lt.1 past)] at wanted
  cases wanted

namespace Stage

theorem queued_iff (s : Stage) (i : Nat) :
    s.queued i = true ↔ ∃ ev ∈ s.buffer.pending, ev.tid = s.hot.id ∧ ev.index = i := by
  simp only [queued, List.any_eq_true, Bool.and_eq_true, decide_eq_true_eq]

theorem row_setColumns (s : Stage) (change : Columns → Columns) :
    (s.setColumns change).row = s.row.map (fun r => r.withColumns (change r.columns)) := by
  rw [row, row, setColumns, find?_set, if_pos rfl]

end Stage

namespace Tracks
variable {home : PathBuf} {s : Stage} {r : Row}

theorem flushed (tracks : Tracks home s r) (i : Nat) : s.flushed i = r.hasPiece i := by
  rw [Stage.flushed, tracks.found, Option.any_some]

theorem complete (tracks : Tracks home s r) : s.complete = r.columns.complete := by
  rw [Stage.complete, tracks.found, Option.any_some]

theorem getHomeRoot_staged (tracks : Tracks home s r) (named : home ≠ [])
    (staged : r.columns.metaPath = some ⟨s.live, some home⟩) : s.getHomeRoot = some home := by
  rw [Stage.getHomeRoot, tracks.found, Option.bind_some, staged, Option.bind_some, Option.filter_some,
    if_pos (by simp [named])]

theorem getHomeRoot_cleared (tracks : Tracks home s r)
    (cleared : r.columns.metaPath = some ⟨s.live, none⟩) : s.getHomeRoot = none := by
  rw [Stage.getHomeRoot, tracks.found, Option.bind_some, cleared, Option.bind_some, Option.filter_none]

/-- A torrent whose row is complete misses no piece in memory. -/
theorem hot_of_complete (tracks : Tracks home s r) (complete : r.columns.complete = true) (i : Nat)
    (below : i < s.hot.pieceCount) : s.hot.hasPiece i = true :=
  (tracks.possession i below).2
    (.inl ((tracks.agreement.complete_iff.1 complete).2 i (tracks.pieces.symm ▸ below)))

theorem incomplete_of_missing (tracks : Tracks home s r) (missing : MissingWanted s) :
    r.columns.complete = false := by
  obtain ⟨i, wanted, absent⟩ := missing
  apply Bool.eq_false_of_not_eq_true
  intro complete
  have had := tracks.hot_of_complete complete i (wantsPiece_below s.hot i wanted)
  exact absurd (absent.symm.trans had) Bool.false_ne_true

end Tracks

/-- Nothing is missing of a torrent that has all its pieces. -/
theorem isDownloadComplete_of_all (t : HotTorrent) (balanced : Balanced t)
    (all : ∀ i, i < t.pieceCount → t.hasPiece i = true) : t.isDownloadComplete = true := by
  rw [isDownloadComplete, balanced.missing, decide_eq_true_eq, tally_eq_zero_iff]
  intro i below
  rw [all i below, Bool.not_true, Bool.and_false]

theorem balanced_setDataRootLive (t : HotTorrent) (balanced : Balanced t) (root : PathBuf) :
    Balanced (t.setDataRootLive root) :=
  ⟨balanced.sameCount, balanced.sized, balanced.counted, balanced.mirrored, balanced.settled,
    balanced.accounted, balanced.wantedCurrent, balanced.missing⟩

/-! ### The hand-off -/

/-- What the hand-off of a complete torrent leaves, on the path it takes. -/
theorem settled_of_switched (home : PathBuf) (s s' : Stage) (r : Row) (invariant : Invariant home s)
    (tracks : Tracks home s r) (complete : r.columns.complete = true)
    (hot : s'.hot = s.hot.setDataRootLive home) (inHand : s'.inHand = s.inHand)
    (pending : s'.buffer.pending = s.buffer.pending)
    (row : s'.row = some (r.withColumns { r.columns with metaPath := some ⟨home, none⟩ }))
    (ran : 0 < s'.runs)
    (payload : ∀ root i, i < s.files → s'.payload root i = (root == home && s.payload s.live i)) :
    HandedOver home s s' ∧ Invariant home s' := by
  have live : s'.live = home := by rw [Stage.live, hot]; rfl
  have files : s'.files = s.files := by rw [Stage.files, hot]; rfl
  have homeRoot : s'.getHomeRoot = none := by
    rw [Stage.getHomeRoot, row, Option.bind_some]
    rfl
  refine ⟨⟨ran, homeRoot, by rw [Stage.getDataRoot, row]; rfl, live, payload⟩, invariant.named, ?_, ?_,
    ⟨_, row, ?_, ?_, ?_, .inr ⟨by rw [live]; rfl, live, ran, complete⟩⟩, ?_⟩
  · rw [hot]
    exact balanced_setDataRootLive s.hot invariant.balanced home
  · rw [inHand, hot]
    exact invariant.held
  · exact agreement_withColumns r _ tracks.agreement rfl rfl
  · rw [hot]
    exact tracks.pieces
  · intro i below
    have had := hasPiece_withColumns r { r.columns with metaPath := some ⟨home, none⟩ } rfl rfl
    rw [had, Stage.queued_iff, pending, inHand, hot]
    rw [hot] at below
    have possession := tracks.possession i below
    rw [Stage.queued_iff] at possession
    exact possession
  · intro root i below there
    rw [payload root i (files ▸ below), Bool.and_eq_true, beq_iff_eq] at there
    rw [live]
    exact there.1

/-- Files that exist under the live root only are all that a switch of the root moves. -/
theorem payload_switched (payload : Payload) (src dst : PathBuf) (n : Nat) (apart : src ≠ dst)
    (placed : ∀ root i, i < n → payload root i = true → root = src) (root : PathBuf) (i : Nat)
    (below : i < n) :
    (List.range n).foldl (fun payload file => removeFile payload src file)
      ((List.range n).foldl (fun payload file => publishFile payload src dst file) payload) root i =
        (root == dst && payload src i) := by
  rw [removeAll_eq, publishAll_eq, decide_eq_true below, Bool.and_true, Bool.and_true]
  by_cases source : root = src
  · subst source
    rw [beq_self_eq_true, Bool.not_true, Bool.and_false, beq_eq_false_iff_ne.2 apart, Bool.false_and]
  · have absent : payload root i = false :=
      Bool.eq_false_of_not_eq_true (fun there => source (placed root i below there))
    rw [absent, beq_eq_false_iff_ne.2 source, Bool.not_false, Bool.and_true, Bool.false_or]

theorem payload_placed (payload : Payload) (src : PathBuf) (n : Nat)
    (placed : ∀ root i, i < n → payload root i = true → root = src) (root : PathBuf) (i : Nat)
    (below : i < n) : payload root i = (root == src && payload src i) := by
  by_cases source : root = src
  · subst source
    rw [beq_self_eq_true, Bool.true_and]
  · rw [beq_eq_false_iff_ne.2 source, Bool.false_and]
    exact Bool.eq_false_of_not_eq_true (fun there => source (placed root i below there))

/-- A hand-off that is started for a complete row ends with the payload at home. -/
theorem handedOver_of_complete (home : PathBuf) (s : Stage) (r : Row) (invariant : Invariant home s)
    (tracks : Tracks home s r) (complete : r.columns.complete = true) :
    HandedOver home s s.maybeStartLeechCacheHandoff ∧
      Invariant home s.maybeStartLeechCacheHandoff := by
  have named := invariant.named
  rcases tracks.roots with staged | ⟨cleared, here, ran, -⟩
  · have all := isDownloadComplete_of_all s.hot invariant.balanced (tracks.hot_of_complete complete)
    rw [Stage.maybeStartLeechCacheHandoff, tracks.getHomeRoot_staged named staged]
    dsimp only
    by_cases same : s.live = home
    · have taken : s.runLeechCacheHandoff home = { s with runs := s.runs + 1 }.setHomeRoot none := by
        rw [Stage.runLeechCacheHandoff]
        exact if_pos same
      rw [taken]
      refine settled_of_switched home s _ r invariant tracks complete ?_ rfl rfl ?_ (Nat.succ_pos _) ?_
      · subst same
        rfl
      · rw [Stage.setHomeRoot, Stage.row_setColumns]
        have found : ({ s with runs := s.runs + 1 } : Stage).row = some r := tracks.found
        rw [found, Option.map_some, staged, Option.map_some, same]
      · subst same
        exact payload_placed s.payload s.live s.files invariant.placed
    · have taken : s.runLeechCacheHandoff home =
          { s with runs := s.runs + 1 }.switchPayloadRoot s.live home := by
        rw [Stage.runLeechCacheHandoff]
        refine (if_neg same).trans (if_neg ?_)
        simp [all]
      rw [taken]
      refine settled_of_switched home s _ r invariant tracks complete rfl rfl rfl ?_ (Nat.succ_pos _) ?_
      · have first : (({ s with runs := s.runs + 1 } : Stage).setDataRoot home).row = some
            (r.withColumns { r.columns with metaPath := some ⟨home, some home⟩ }) := by
          have found : ({ s with runs := s.runs + 1 } : Stage).row = some r := tracks.found
          rw [Stage.setDataRoot, Stage.row_setColumns, found, Option.map_some, staged]
          rfl
        rw [Stage.switchPayloadRoot, Stage.setHomeRoot, Stage.row_setColumns]
        refine (congrArg (Option.map _) first).trans ?_
        rfl
      · exact payload_switched s.payload s.live home s.files same invariant.placed
  · have stays : s.maybeStartLeechCacheHandoff = s := by
      rw [Stage.maybeStartLeechCacheHandoff, tracks.getHomeRoot_cleared cleared]
    rw [stays]
    subst here
    refine settled_of_switched s.live s s r invariant tracks complete rfl rfl rfl ?_ ran ?_
    · rw [← cleared]
      exact tracks.found
    · exact payload_placed s.payload s.live s.files invariant.placed

/-! ### One step -/

/-- A flush writes its batch to the row and leaves everything but the buffer alone. -/
structure FlushStep (s mid : Stage) (f : Flush) (became : List Nat) (r r' : Row) : Prop where
  hot : mid.hot = s.hot
  inHand : mid.inHand = s.inHand
  payload : mid.payload = s.payload
  runs : mid.runs = s.runs
  written : ∀ i, i < s.hot.pieceCount → (r'.hasPiece i = true ↔ r.hasPiece i = true ∨
    ∃ ev ∈ batchOf s.buffer f, ev.tid = s.hot.id ∧ ev.index = i)
  metaPath : r'.columns.metaPath = r.columns.metaPath
  reported : s.hot.id ∈ became ↔ r.columns.complete = false ∧ r'.columns.complete = true

theorem flushPieceHaves_step (home : PathBuf) (s mid : Stage) (f : Flush) (became : List Nat) (r : Row)
    (tracks : Tracks home s r) (ran : s.flushPieceHaves f = some (mid, became)) :
    ∃ r', Tracks home mid r' ∧ FlushStep s mid f became r r' := by
  rw [Stage.flushPieceHaves, Option.map_eq_some_iff] at ran
  obtain ⟨⟨b, report'⟩, flushing, same⟩ := ran
  obtain ⟨rfl, rfl⟩ := Prod.mk.inj same
  obtain ⟨left, row, report⟩ :=
    flushReporting_row s.buffer b f report' flushing s.hot.id r tracks.found
  have written : ∀ i, i < s.hot.pieceCount →
      ((r.withColumns (applyHaves r (itemsOf s.hot.id (batchOf s.buffer f)))).hasPiece i = true ↔
        r.hasPiece i = true ∨ ∃ ev ∈ batchOf s.buffer f, ev.tid = s.hot.id ∧ ev.index = i) := by
    intro i below
    rw [hasPiece_applyHaves_iff r _ tracks.agreement i (tracks.pieces.symm ▸ below), mem_itemsOf]
  have agreement := agreement_applyHaves r (itemsOf s.hot.id (batchOf s.buffer f)) tracks.agreement
  refine ⟨_, ⟨row, agreement, tracks.pieces, ?_, ?_⟩, rfl, rfl, rfl, rfl, written,
    applyHaves_metaPath r _, ?_⟩
  · intro i below
    have before := tracks.possession i below
    have after := written i below
    have queued : s.queued i = true ↔ (∃ ev ∈ batchOf s.buffer f, ev.tid = s.hot.id ∧ ev.index = i) ∨
        ∃ ev ∈ leftOf s.buffer f, ev.tid = s.hot.id ∧ ev.index = i := by
      rw [Stage.queued_iff, ← exists_or]
      apply exists_congr
      intro ev
      rw [pending_split s.buffer f ev, or_and_right]
    have pending : (∃ ev ∈ leftOf s.buffer f, ev.tid = s.hot.id ∧ ev.index = i) ↔
        ({ s with buffer := b } : Stage).queued i = true := by
      rw [Stage.queued_iff, left]
    rw [queued, pending, or_assoc, ← or_assoc, ← after] at before
    exact before
  · rw [Row.withColumns_columns, applyHaves_metaPath]
    rcases tracks.roots with staged | ⟨cleared, here, ran, complete⟩
    · exact .inl staged
    · refine .inr ⟨cleared, here, ran, ?_⟩
      obtain ⟨some', all⟩ := tracks.agreement.complete_iff.1 complete
      refine agreement.complete_iff.2 ⟨some', ?_⟩
      intro i below
      exact (written i (tracks.pieces ▸ below)).2 (.inl (all i below))
  · rw [report, becameComplete_iff, Row.withColumns_columns]

theorem invariant_flushed (home : PathBuf) (s mid : Stage) (f : Flush) (became : List Nat) (r r' : Row)
    (invariant : Invariant home s) (tracks : Tracks home mid r')
    (flushed : FlushStep s mid f became r r') : Invariant home mid := by
  refine ⟨invariant.named, ?_, ?_, ⟨r', tracks⟩, ?_⟩
  · rw [flushed.hot]
    exact invariant.balanced
  · rw [flushed.inHand, flushed.hot]
    exact invariant.held
  · rw [flushed.payload, Stage.files, Stage.live, flushed.hot]
    exact invariant.placed

theorem FlushStep.still {s mid : Stage} {f : Flush} {became : List Nat} {r r' : Row}
    (flushed : FlushStep s mid f became r r') : Still s mid :=
  ⟨flushed.runs, by rw [Stage.live, flushed.hot]; rfl, flushed.payload⟩

/-- A torrent that is complete behind a flush and not reported by it was complete before. -/
theorem FlushStep.before {s mid : Stage} {f : Flush} {became : List Nat} {r r' : Row}
    (flushed : FlushStep s mid f became r r') (silent : s.hot.id ∉ became)
    (complete : r'.columns.complete = true) : r.columns.complete = true := by
  by_contra incomplete
  exact silent (flushed.reported.2 ⟨Bool.eq_false_of_not_eq_true incomplete, complete⟩)

theorem flush_ran (home : PathBuf) (s s' : Stage) (only : Option Nat) (r : Row) (tracks : Tracks home s r)
    (taken : step s (.flush only) = some s') :
    ∃ became r', Tracks home s' r' ∧ FlushStep s s' ⟨only, true, false, false⟩ became r r' := by
  rw [step, Option.map_eq_some_iff] at taken
  obtain ⟨⟨mid, became⟩, ran, rfl⟩ := taken
  exact ⟨became, flushPieceHaves_step home s mid _ became r tracks ran⟩

/-- A tick flushes, and hands off when the flush reports the torrent. -/
theorem tick_ran (home : PathBuf) (s s' : Stage) (timeDue othersComplete : Bool) (r : Row)
    (tracks : Tracks home s r) (taken : step s (.tick timeDue othersComplete) = some s') :
    ∃ mid became r', Tracks home mid r' ∧
      FlushStep s mid (s.tickFlush timeDue othersComplete) became r r' ∧
      s' = if s.hot.id ∈ became then mid.maybeStartLeechCacheHandoff else mid := by
  rw [step] at taken
  split_ifs at taken with resumed
  rw [Option.map_eq_some_iff] at taken
  obtain ⟨⟨mid, became⟩, ran, rfl⟩ := taken
  obtain ⟨r', after, flushed⟩ := flushPieceHaves_step home s mid _ became r tracks ran
  exact ⟨mid, became, r', after, flushed, rfl⟩

theorem Tracks.resumed {home : PathBuf} {s : Stage} {r : Row} (tracks : Tracks home s r) :
    Tracks home { s with resumed := true } r :=
  ⟨tracks.found, tracks.agreement, tracks.pieces, tracks.possession, tracks.roots⟩

theorem Invariant.resumed {home : PathBuf} {s : Stage} (invariant : Invariant home s) :
    Invariant home { s with resumed := true } := by
  obtain ⟨r, tracks⟩ := invariant.row
  exact ⟨invariant.named, invariant.balanced, invariant.held, ⟨r, tracks.resumed⟩, invariant.placed⟩

theorem id_markHave (t : HotTorrent) (index : Nat) : (t.markHave index).1.id = t.id := by
  unfold markHave afterHave settleHave dropPieceHashesIfComplete
  dsimp only
  split_ifs <;> rfl

theorem id_setFilePriority (t : HotTorrent) (fileIdx : Nat) (priority : Int) :
    (t.setFilePriority fileIdx priority).id = t.id := by
  unfold setFilePriority ensureStagingPool fillStagingPool rebuildWantedAndMissing writePriority
  dsimp only
  split_ifs <;> rfl

/-- Where an event changes neither the roots nor the payload, the row has to keep up. -/
theorem invariant_kept (home : PathBuf) (s s' : Stage) (r r' : Row) (invariant : Invariant home s)
    (tracks : Tracks home s r) (row : s'.row = some r') (agreement : Agreement r')
    (pieces : r'.pieceCount = r.pieceCount) (metaPath : r'.columns.metaPath = r.columns.metaPath)
    (complete : r'.columns.complete = r.columns.complete) (had : r'.hasPiece = r.hasPiece)
    (count : s'.hot.pieceCount = s.hot.pieceCount) (layout : s'.hot.layout = s.hot.layout)
    (payload : s'.payload = s.payload) (runs : s'.runs = s.runs) (balanced : Balanced s'.hot)
    (held : ∀ ev ∈ s'.inHand, ev.tid = s'.hot.id)
    (possession : ∀ i, i < s.hot.pieceCount → (s'.hot.hasPiece i = true ↔
      r.hasPiece i = true ∨ s'.queued i = true ∨ ∃ ev ∈ s'.inHand, ev.index = i)) :
    Invariant home s' := by
  have live : s'.live = s.live := congrArg StorageLayout.dataRoot layout
  refine ⟨invariant.named, balanced, held,
    ⟨r', row, agreement, pieces.trans (tracks.pieces.trans count.symm), ?_, ?_⟩, ?_⟩
  · rw [count, had]
    exact possession
  · rw [metaPath, live, runs, complete]
    exact tracks.roots
  · rw [payload, live, Stage.files, layout]
    exact invariant.placed

/-- The pieces in hand, with one of them taken out. -/
theorem inHand_split (inHand : List HaveEvent) (k : Nat) (ev : HaveEvent) (there : inHand[k]? = some ev)
    (i : Nat) :
    (∃ held ∈ inHand, held.index = i) ↔ ev.index = i ∨ ∃ held ∈ inHand.eraseIdx k, held.index = i := by
  obtain ⟨inside, rfl⟩ := List.getElem?_eq_some_iff.1 there
  have split := List.getElem_cons_eraseIdx_perm inside
  constructor
  · rintro ⟨held, member, same⟩
    rcases List.mem_cons.1 (split.mem_iff.2 member) with first | rest
    · exact .inl (first ▸ same)
    · exact .inr ⟨held, rest, same⟩
  · rintro (same | ⟨held, member, same⟩)
    · exact ⟨_, List.getElem_mem inside, same⟩
    · exact ⟨held, List.mem_of_mem_eraseIdx member, same⟩

theorem invariant_step (home : PathBuf) (s : Stage) (event : Event) (s' : Stage)
    (invariant : Invariant home s) (taken : step s event = some s') : Invariant home s' := by
  obtain ⟨r, tracks⟩ := invariant.row
  cases event with
  | markHave index =>
    rw [step] at taken
    split_ifs at taken with below
    cases taken
    have id := id_markHave s.hot index
    refine invariant_kept home s _ r r invariant tracks ?_ tracks.agreement rfl rfl rfl rfl
      (pieceCount_markHave s.hot index) (layout_markHave s.hot index) rfl rfl
      (balanced_markHave s.hot invariant.balanced index below) ?_ ?_
    · exact (congrArg s.buffer.catalog.find? id).trans tracks.found
    · intro ev member
      rcases List.mem_append.1 member with old | new
      · exact (invariant.held ev old).trans id.symm
      · rw [List.mem_singleton.1 new]
        exact id.symm
    · intro i small
      have before := tracks.possession i small
      have queued : Stage.queued { s with
          hot := (s.hot.markHave index).1
          inHand := s.inHand ++ [⟨s.hot.id, index, s.hot.layout.pieceBytes index⟩] } i = s.queued i := by
        simp only [Stage.queued, id]
      rw [queued, hasPiece_markHave s.hot invariant.balanced index i below small, Bool.or_eq_true,
        before, beq_iff_eq, @eq_comm _ i index]
      simp only [List.mem_append, List.mem_singleton, or_and_right, exists_or, exists_eq_left]
      exact or_comm.trans (by rw [or_assoc, or_assoc])
  | queuePieceHave k =>
    rw [step, Option.map_eq_some_iff] at taken
    obtain ⟨ev, there, rfl⟩ := taken
    refine invariant_kept home s _ r r invariant tracks tracks.found tracks.agreement rfl rfl rfl rfl
      rfl rfl rfl rfl invariant.balanced ?_ ?_
    · intro other member
      exact invariant.held other (List.mem_of_mem_eraseIdx member)
    · intro i small
      have before := tracks.possession i small
      have own := invariant.held ev (List.mem_of_getElem? there)
      rw [inHand_split s.inHand k ev there i, Stage.queued_iff] at before
      rw [before, Stage.queued_iff]
      simp only [List.mem_append, List.mem_singleton, or_and_right, exists_or, exists_eq_left, own,
        true_and, or_assoc]
  | queueOther ev =>
    rw [step] at taken
    split_ifs at taken with own
    cases taken
    refine invariant_kept home s _ r r invariant tracks tracks.found tracks.agreement rfl rfl rfl rfl
      rfl rfl rfl rfl invariant.balanced invariant.held ?_
    intro i small
    have queued : Stage.queued { s with
        buffer := { s.buffer with pending := s.buffer.pending ++ [ev] } } i = s.queued i := by
      simp only [Stage.queued, List.any_append, List.any_cons, List.any_nil, own, decide_false,
        Bool.false_and, Bool.or_false]
    rw [queued]
    exact tracks.possession i small
  | setFilePriority fileIdx priority =>
    simp only [step] at taken
    split_ifs at taken with present
    cases taken
    have id := id_setFilePriority s.hot fileIdx priority
    obtain ⟨-, count, layout, -⟩ := setFilePriority_frame s.hot fileIdx priority
    have written : (s.setColumns (storePriority fileIdx priority)).row =
        some (r.withColumns (storePriority fileIdx priority r.columns)) := by
      rw [Stage.row_setColumns, tracks.found, Option.map_some]
    refine invariant_kept home s _ r _ invariant tracks
      ((congrArg (s.setColumns (storePriority fileIdx priority)).buffer.catalog.find? id).trans written)
      (agreement_withColumns r _ tracks.agreement rfl rfl) rfl rfl rfl
      (hasPiece_withColumns r _ rfl rfl) count layout rfl rfl
      (balanced_setFilePriority s.hot invariant.balanced fileIdx priority) ?_ ?_
    · intro ev member
      exact (invariant.held ev member).trans id.symm
    · intro i small
      have before := tracks.possession i small
      have had : (s.hot.setFilePriority fileIdx priority).hasPiece i = s.hot.hasPiece i :=
        congrFun (hasPiece_setFilePriority s.hot fileIdx priority) i
      have queued : Stage.queued { s.setColumns (storePriority fileIdx priority) with
          hot := s.hot.setFilePriority fileIdx priority } i = s.queued i := by
        simp only [Stage.queued, Stage.setColumns, id]
      rw [← had, ← queued] at before
      exact before
  | flush only =>
    obtain ⟨became, r', after, flushed⟩ := flush_ran home s s' only r tracks taken
    exact invariant_flushed home s s' _ became r r' invariant after flushed
  | resume =>
    rw [step] at taken
    split_ifs at taken with again found
    · cases taken
      have complete : r.columns.complete = true := by
        rw [tracks.found, Option.any_some, Bool.and_eq_true] at found
        exact found.1
      exact (handedOver_of_complete home _ r invariant.resumed tracks.resumed complete).2
    · cases taken
      exact invariant.resumed
  | tick timeDue othersComplete =>
    obtain ⟨mid, became, r', after, flushed, rfl⟩ :=
      tick_ran home s s' timeDue othersComplete r tracks taken
    have kept := invariant_flushed home s mid _ became r r' invariant after flushed
    split_ifs with reported
    · exact (handedOver_of_complete home mid r' kept after (flushed.reported.1 reported).2).2
    · exact kept

/-- The hand-off is not run and the payload stays where it is while a wanted piece is missing. -/
theorem still_of_missing (home : PathBuf) (s : Stage) (event : Event) (s' : Stage)
    (invariant : Invariant home s) (taken : step s event = some s') (missing : MissingWanted s) :
    Still s s' := by
  obtain ⟨r, tracks⟩ := invariant.row
  have incomplete := tracks.incomplete_of_missing missing
  cases event with
  | markHave index =>
    rw [step] at taken
    split_ifs at taken
    cases taken
    exact ⟨rfl, congrArg StorageLayout.dataRoot (layout_markHave s.hot index), rfl⟩
  | queuePieceHave k =>
    rw [step, Option.map_eq_some_iff] at taken
    obtain ⟨ev, -, rfl⟩ := taken
    exact ⟨rfl, rfl, rfl⟩
  | queueOther ev =>
    rw [step] at taken
    split_ifs at taken
    cases taken
    exact ⟨rfl, rfl, rfl⟩
  | setFilePriority fileIdx priority =>
    simp only [step] at taken
    split_ifs at taken
    cases taken
    obtain ⟨-, -, layout, -⟩ := setFilePriority_frame s.hot fileIdx priority
    exact ⟨rfl, congrArg StorageLayout.dataRoot layout, rfl⟩
  | flush only =>
    obtain ⟨became, r', after, flushed⟩ := flush_ran home s s' only r tracks taken
    exact flushed.still
  | resume =>
    rw [step] at taken
    split_ifs at taken with again found
    · rw [tracks.found, Option.any_some, incomplete] at found
      cases found
    · cases taken
      exact ⟨rfl, rfl, rfl⟩
  | tick timeDue othersComplete =>
    obtain ⟨mid, became, r', after, flushed, rfl⟩ :=
      tick_ran home s s' timeDue othersComplete r tracks taken
    have incomplete' := after.incomplete_of_missing (by rw [MissingWanted, flushed.hot]; exact missing)
    have silent : s.hot.id ∉ became := by
      intro reported
      exact absurd (incomplete'.symm.trans (flushed.reported.1 reported).2) Bool.false_ne_true
    rw [if_neg silent]
    exact flushed.still

theorem isComplete_of_all (t : HotTorrent) (balanced : Balanced t) (pieces : 0 < t.pieceCount)
    (all : ∀ i, i < t.pieceCount → t.hasPiece i = true) : t.isComplete = true := by
  rw [isComplete]
  apply (balanced.settled pieces).2
  intro i below
  rw [← hasPiece_eq t balanced i below]
  exact all i below

/-- The batch of a tick's flush is the whole buffer, when it is due. -/
theorem tick_batch (s : Stage) (timeDue othersComplete : Bool) (i : Nat) :
    (∃ ev ∈ batchOf s.buffer (s.tickFlush timeDue othersComplete), ev.tid = s.hot.id ∧ ev.index = i) ↔
      ((s.tickFlush timeDue othersComplete).due && s.queued i) = true := by
  rw [Bool.and_eq_true, Stage.queued_iff, batchOf]
  by_cases due : (s.tickFlush timeDue othersComplete).due = true
  · rw [if_pos due]
    exact ⟨fun batch => ⟨due, batch⟩, fun both => both.2⟩
  · rw [if_neg due]
    simp [due]

section Tick
variable {home : PathBuf} {s mid : Stage} {became : List Nat} {r r' : Row} {timeDue othersComplete : Bool}

theorem flushed_after (tracks : Tracks home s r) (after : Tracks home mid r')
    (flushed : FlushStep s mid (s.tickFlush timeDue othersComplete) became r r') (i : Nat)
    (below : i < s.hot.pieceCount) :
    mid.flushed i = (s.flushed i || (s.tickFlush timeDue othersComplete).due && s.queued i) := by
  rw [after.flushed, tracks.flushed, Bool.eq_iff_iff, flushed.written i below, tick_batch,
    Bool.or_eq_true]

/-- What a tick leaves flushed is what its flush found or made flushed. -/
theorem wantedFlushed_iff (tracks : Tracks home s r) (after : Tracks home mid r')
    (flushed : FlushStep s mid (s.tickFlush timeDue othersComplete) became r r') :
    WantedFlushed mid ↔ WantedFlushing s timeDue othersComplete := by
  rw [WantedFlushed, WantedFlushing, flushed.hot]
  apply forall_congr'
  intro i
  apply imp_congr_right
  intro wanted
  rw [flushed_after tracks after flushed i (wantsPiece_below s.hot i wanted)]

/-- A tick that writes nothing home still has a piece to wait for. -/
theorem complete_of_recorded (invariant : Invariant home s) (tracks : Tracks home s r)
    (after : Tracks home mid r') (flushed : FlushStep s mid (s.tickFlush timeDue othersComplete) became r r')
    (pieces : 0 < s.hot.pieceCount)
    (recorded : ∀ i, i < s.hot.pieceCount → (s.flushed i || s.queued i) = true) :
    r'.columns.complete = true := by
  have count : r'.pieceCount = s.hot.pieceCount := after.pieces.trans (by rw [flushed.hot])
  have had : ∀ i, i < s.hot.pieceCount → s.hot.hasPiece i = true := by
    intro i below
    rw [tracks.possession i below, ← tracks.flushed, ← or_assoc, ← Bool.or_eq_true]
    exact .inl (recorded i below)
  have whole := isComplete_of_all s.hot invariant.balanced pieces had
  rw [after.agreement.complete_iff, count]
  refine ⟨pieces, ?_⟩
  intro i below
  rw [← after.flushed, flushed_after tracks after flushed i below]
  cases queued : s.queued i with
  | false =>
    have there := recorded i below
    rw [queued, Bool.or_false] at there
    rw [there, Bool.true_or]
  | true =>
    -- An event of a torrent complete in memory makes the flush due.
    have event : s.buffer.pending.any (fun ev => ev.tid = s.hot.id) = true := by
      obtain ⟨ev, member, own, -⟩ := (Stage.queued_iff s i).1 queued
      exact List.any_eq_true.2 ⟨ev, member, decide_eq_true own⟩
    have due : (s.tickFlush timeDue othersComplete).due = true := by
      simp only [Flush.due, Stage.tickFlush, whole, event, Bool.and_self, Bool.or_true, Bool.true_or]
    rw [due, Bool.and_self, Bool.or_true]

end Tick

theorem HandedOver.of_flushed {home : PathBuf} {s mid s' : Stage} {f : Flush} {became : List Nat}
    {r r' : Row} (over' : HandedOver home mid s') (flushed : FlushStep s mid f became r r') :
    HandedOver home s s' := by
  refine ⟨over'.ran, over'.homeRoot, over'.dataRoot, over'.live, ?_⟩
  have payload := over'.payload
  rw [flushed.payload, Stage.files, Stage.live, flushed.hot] at payload
  exact payload

section Reports
variable {home : PathBuf} {s mid : Stage} {became : List Nat} {r r' : Row} {timeDue othersComplete : Bool}

/-- What the flush reports is whole, and was not complete before it. -/
theorem whole_of_reported (tracks : Tracks home s r) (after : Tracks home mid r')
    (flushed : FlushStep s mid (s.tickFlush timeDue othersComplete) became r r')
    (reported : s.hot.id ∈ became) : Whole s (.tick timeDue othersComplete) := by
  have count : r'.pieceCount = s.hot.pieceCount := after.pieces.trans (by rw [flushed.hot])
  obtain ⟨incomplete, complete⟩ := flushed.reported.1 reported
  obtain ⟨pieces, all⟩ := after.agreement.complete_iff.1 complete
  refine fun _ => ⟨⟨count ▸ pieces, fun i below => ?_⟩, fun already => ?_⟩
  · have there := all i (count.symm ▸ below)
    rw [← after.flushed, flushed_after tracks after flushed i below] at there
    simp only [Bool.or_eq_true, Bool.and_eq_true] at there ⊢
    exact there.imp id (fun both => both.2)
  · rw [tracks.complete, incomplete] at already
    cases already

/-- Behind a flush that does not report it, a staged torrent is not handed over, and was not whole. -/
theorem staged_silent (invariant : Invariant home s) (tracks : Tracks home s r) (after : Tracks home mid r')
    (flushed : FlushStep s mid (s.tickFlush timeDue othersComplete) became r r')
    (silent : s.hot.id ∉ became) (staged : r'.columns.metaPath = some ⟨mid.live, some home⟩)
    (flushing : WantedFlushing s timeDue othersComplete) :
    ¬ HandedOver home s mid ∧ ¬ Whole s (.tick timeDue othersComplete) := by
  have homeRoot := after.getHomeRoot_staged invariant.named staged
  refine ⟨fun over' => absurd (homeRoot.symm.trans over'.homeRoot) (by simp), fun whole => ?_⟩
  obtain ⟨⟨pieces, recorded⟩, uncleared⟩ := whole flushing
  have complete := complete_of_recorded invariant tracks after flushed pieces recorded
  have staged' : r.columns.metaPath = some ⟨s.live, some home⟩ := by
    rw [← flushed.metaPath, staged, Stage.live, flushed.hot]
    rfl
  have none := uncleared (tracks.complete.trans (flushed.before silent complete))
  exact absurd ((tracks.getHomeRoot_staged invariant.named staged').symm.trans none) (by simp)

/-- Behind a flush that does not report it, a torrent that was handed over still is, and was whole. -/
theorem cleared_silent (invariant : Invariant home s) (tracks : Tracks home s r) (after : Tracks home mid r')
    (flushed : FlushStep s mid (s.tickFlush timeDue othersComplete) became r r')
    (silent : s.hot.id ∉ became) (cleared : r'.columns.metaPath = some ⟨mid.live, none⟩)
    (here : mid.live = home) (ran : 0 < mid.runs) (complete : r'.columns.complete = true) :
    HandedOver home s mid ∧ Whole s (.tick timeDue othersComplete) := by
  have kept := invariant_flushed home s mid _ became r r' invariant after flushed
  obtain ⟨pieces, all⟩ := tracks.agreement.complete_iff.1 (flushed.before silent complete)
  have cleared' : r.columns.metaPath = some ⟨s.live, none⟩ := by
    rw [← flushed.metaPath, cleared, Stage.live, flushed.hot]
    rfl
  have row : mid.row = some (r'.withColumns { r'.columns with metaPath := some ⟨home, none⟩ }) := by
    rw [← here, ← cleared]
    exact after.found
  have over' := (settled_of_switched home mid mid r' kept after complete (by subst here; rfl) rfl rfl
    row ran (by subst here; exact payload_placed mid.payload mid.live mid.files kept.placed)).1
  refine ⟨over'.of_flushed flushed, fun _ => ⟨⟨tracks.pieces ▸ pieces, ?_⟩,
    fun _ => tracks.getHomeRoot_cleared cleared'⟩⟩
  intro i below
  rw [tracks.flushed, all i (tracks.pieces.symm ▸ below), Bool.true_or]

end Reports

/-- A step hands off as it should exactly when a tick finds the torrent whole. -/
theorem handsOff_iff_whole (home : PathBuf) (s : Stage) (event : Event) (s' : Stage)
    (invariant : Invariant home s) (taken : step s event = some s') :
    HandsOff home s event ↔ Whole s event := by
  obtain ⟨r, tracks⟩ := invariant.row
  have still := still_of_missing home s event s' invariant taken
  cases event with
  | tick timeDue othersComplete =>
    have only : HandsOff home s (.tick timeDue othersComplete) ↔
        (WantedFlushed s' → HandedOver home s s') := by
      constructor
      · intro hands flushed
        exact (hands s' taken).2 timeDue othersComplete rfl flushed
      · intro hands other reached
        rw [taken] at reached
        cases reached
        exact ⟨still, fun _ _ _ => hands⟩
    rw [only]
    obtain ⟨mid, became, r', after, flushed, rfl⟩ :=
      tick_ran home s s' timeDue othersComplete r tracks taken
    by_cases reported : s.hot.id ∈ became
    · have kept := invariant_flushed home s mid _ became r r' invariant after flushed
      have complete := (flushed.reported.1 reported).2
      have over' := (handedOver_of_complete home mid r' kept after complete).1.of_flushed flushed
      rw [if_pos reported]
      exact ⟨fun _ => whole_of_reported tracks after flushed reported, fun _ _ => over'⟩
    · rw [if_neg reported, wantedFlushed_iff tracks after flushed]
      rcases after.roots with staged | ⟨cleared, here, ran, complete⟩
      · have both := staged_silent invariant tracks after flushed reported staged
        exact ⟨fun hands flushing => absurd (hands flushing) (both flushing).1,
          fun whole flushing => absurd whole (both flushing).2⟩
      · have both := cleared_silent invariant tracks after flushed reported cleared here ran complete
        exact ⟨fun _ => both.2, fun _ _ => both.1⟩
  | markHave | queuePieceHave | queueOther | setFilePriority | flush | resume =>
    refine ⟨fun _ => trivial, fun _ other reached => ?_⟩
    rw [taken] at reached
    cases reached
    exact ⟨still, fun _ _ clash => by cases clash⟩

theorem invariant_start (home : PathBuf) (s : Stage) (start : Start home s) : Invariant home s := by
  obtain ⟨r, found, agreement, pieces, staged, had⟩ := start.row
  refine ⟨start.named, start.balanced, ?_, ⟨r, found, agreement, pieces, ?_, .inl staged⟩, start.placed⟩
  · rw [start.inHand]
    exact fun ev member => absurd member List.not_mem_nil
  · intro i below
    rw [had i below, start.inHand, Stage.queued_iff]
    constructor
    · exact .inl
    · rintro (marked | ⟨ev, member, own, -⟩ | ⟨ev, member, -⟩)
      · exact marked
      · exact absurd own (start.queued ev member)
      · exact absurd member List.not_mem_nil

/-- In every run the hand-off waits for the wanted pieces; it is run as soon as they are flushed
exactly when every tick that finds them flushed finds the torrent whole. -/
theorem handoff_prompt_iff (home : PathBuf) (s : Stage) (start : Start home s) (events : List Event)
    (s' : Stage) (ran : exec step s events = some s') :
    Guarded step (HandsOff home) s events ↔ Guarded step Whole s events :=
  guarded_congr step (Invariant home) (HandsOff home) Whole (invariant_step home)
    (handsOff_iff_whole home) s s' events (invariant_start home s start) ran

/-! ### Two runs of a torrent of two files -/

def twoFiles : StorageLayout where
  dataRoot := ["stage"]
  pieceLength := 1
  pieceCount := 2
  totalSize := 2
  files := [⟨["a"], 1, 0, 1⟩, ⟨["b"], 1, 1, 1⟩]

def stagedTorrent : Stage where
  hot := newEmpty 1 (List.replicate 20 1) twoFiles []
  inHand := []
  buffer := ⟨[], addTorrent Rows.empty { byteTorrent 2 with files := [⟨["a"], 1, 0⟩, ⟨["b"], 1, 1⟩] }
    ⟨["stage"], some ["home"]⟩ true⟩
  payload := fun root _ => root == ["stage"]
  resumed := false
  runs := 0

theorem start_stagedTorrent : Start ["home"] stagedTorrent where
  balanced := balanced_newEmpty 1 _ twoFiles []
  inHand := rfl
  queued := fun ev member => absurd member List.not_mem_nil
  row := by
    refine ⟨_, rfl, agreement_added _ _ true 1, rfl, rfl, ?_⟩
    decide +kernel
  named := by decide
  placed := fun root _ _ there => beq_iff_eq.1 there

/-- A check of one event that is enough for it to find the torrent whole. -/
def wholeB (s : Stage) : Event → Bool
  | .tick _ _ =>
    (List.range s.hot.pieceCount).any (fun i => s.hot.wantsPiece i && !s.hot.hasPiece i) ||
    0 < s.hot.pieceCount && (List.range s.hot.pieceCount).all (fun i => s.flushed i || s.queued i) &&
      (!s.complete || s.getHomeRoot.isNone)
  | _ => true

theorem whole_of_wholeB (s : Stage) (event : Event) (checked : wholeB s event = true) :
    Whole s event := by
  cases event with
  | tick timeDue othersComplete =>
    intro flushing
    rw [wholeB, Bool.or_eq_true] at checked
    rcases checked with missing | recorded
    · obtain ⟨i, -, open'⟩ := List.any_eq_true.1 missing
      simp only [Bool.and_eq_true, Bool.not_eq_true'] at open'
      exact absurd (open'.2.symm.trans (flushing i open'.1).1) Bool.false_ne_true
    · simp only [Bool.and_eq_true, decide_eq_true_eq, List.all_eq_true, List.mem_range] at recorded
      obtain ⟨⟨pieces, recorded⟩, uncleared⟩ := recorded
      refine ⟨⟨pieces, recorded⟩, ?_⟩
      intro complete
      rw [complete, Bool.not_true, Bool.false_or, Option.isNone_iff_eq_none] at uncleared
      exact uncleared
  | markHave | queuePieceHave | queueOther | setFilePriority | flush | resume => trivial

def bothFiles : List Event :=
  [.resume, .markHave 0, .queuePieceHave 0, .tick true false, .markHave 1, .queuePieceHave 0,
    .setFilePriority 1 0, .tick false false]

/-- The second file is switched off when both are complete. -/
theorem handoff_prompt_bothFiles :
    Guarded step (HandsOff ["home"]) stagedTorrent bothFiles ∧
      (exec step stagedTorrent bothFiles).map Stage.live = some ["home"] := by
  refine ⟨(handoff_prompt_iff ["home"] stagedTorrent start_stagedTorrent bothFiles _
    (Option.some_get (by decide +kernel)).symm).2 ?_, by decide +kernel⟩
  exact guarded_mono step _ Whole whole_of_wholeB _ _
    (guarded_of_guardedB step wholeB stagedTorrent bothFiles (by decide +kernel))

/-- The second file is off and incomplete, and the first is had. -/
def keepFirst : List Event := [.resume, .setFilePriority 1 0, .markHave 0, .queuePieceHave 0]

def beforeTick : Stage := (exec step stagedTorrent keepFirst).getD stagedTorrent

theorem reached_beforeTick : exec step stagedTorrent keepFirst = some beforeTick := by
  have done : (exec step stagedTorrent keepFirst).isSome = true := by decide +kernel
  obtain ⟨s, reached⟩ := Option.isSome_iff_exists.1 done
  rw [beforeTick, reached, Option.getD_some]

/-- The tick that flushes the only wanted piece does not hand the torrent over. -/
theorem handoff_waits_for_unwanted :
    ¬ ∀ home s, Start home s → ∀ events s', exec step s events = some s' →
      Guarded step (HandsOff home) s events := by
  intro always
  have ran : (exec step stagedTorrent (keepFirst ++ [.tick true false])).isSome = true := by decide +kernel
  have ticked : (step beforeTick (.tick true false)).isSome = true := by decide +kernel
  have start := start_stagedTorrent
  have invariant := exec_invariant_free step (Invariant ["home"]) (invariant_step ["home"]) _ _ _
    (invariant_start ["home"] stagedTorrent start) reached_beforeTick
  have hands := guarded_last step (HandsOff ["home"]) _ _ keepFirst (.tick true false)
    (always ["home"] stagedTorrent start _ _ (Option.some_get ran).symm) reached_beforeTick
  have whole := (handsOff_iff_whole ["home"] _ _ _ invariant (Option.some_get ticked).symm).1 hands
  have flushing : WantedFlushing beforeTick true false := by
    intro i wanted
    have below : i < 2 := wantsPiece_below _ i wanted
    rcases (by omega : i = 0 ∨ i = 1) with rfl | rfl
    · decide +kernel
    · exact absurd wanted (by decide +kernel)
  have missing := (whole flushing).1.2 1 (by decide +kernel)
  exact absurd missing (by decide +kernel)

end Seedchamp.Session.StagedHandoff
