import Seedchamp.Catalog.Possession
import Seedchamp.Library.LifeCycle

/-!
Possession stays truthful over the whole life of the library: after any careful steps every piece that
the catalog marks as had is good under the torrent's root.
-/

namespace Seedchamp.Library.LifeCycleTruth
open Foundation.KeyedRows Foundation.TransitionSystem Foundation.Files Catalog.Bitfield
open Catalog.Table Catalog.Pieces
open Catalog.Possession (Agreement agreement_withColumns agreement_applyHaves agreement_empty
  agreement_added agreement_rechecked hasPiece_withColumns hasPiece_applyHaves_iff packHave_spec)
open Catalog.Statements (markDeleted_ok prepareRecheck_ok setBitfieldFromRecheck_ok)
open Disk.Spans Disk.Places Disk.ReadWrite Disk.Agreement Library.Ingest Library.LifeCycle
open Runtime.HashWorker

/-! ### Bytes that stay readable -/

/-- The bytes of every file, up to its size, are in the other volume under the other root. -/
def Carried (layout : StorageLayout) (root : PathBuf) (before after : Volume PathBuf) : Prop :=
  ∀ file ∈ layout.files, ∀ k < file.size, ∀ byte,
    byteAt before (layout.absolute file.path, k) = some byte →
      byteAt after (root ++ file.path, k) = some byte

def reroot (layout : StorageLayout) (root : PathBuf) : StorageLayout := { layout with dataRoot := root }

theorem placed_reroot (layout : StorageLayout) (root : PathBuf) (placed : Placed layout) :
    Placed (reroot layout root) :=
  ⟨placed.ordered, placed.covered, placed.representable⟩

theorem wellFormed_reroot (layout : StorageLayout) (root : PathBuf) (wellFormed : WellFormed layout) :
    WellFormed (reroot layout root) where
  positive := wellFormed.positive
  tiles := wellFormed.tiles
  representable := wellFormed.representable
  countRepresentable := wellFormed.countRepresentable
  covered := wellFormed.covered
  lengthRepresentable := wellFormed.lengthRepresentable
  distinct := wellFormed.distinct

theorem streamByte_carried (layout : StorageLayout) (root : PathBuf) (before after : Volume PathBuf)
    (carried : Carried layout root before after) (pos : Nat) (byte : UInt8)
    (there : streamByte layout before pos = some byte) :
    streamByte (reroot layout root) after pos = some byte := by
  rw [streamByte, placeAt] at there
  cases found : layout.files.find? (covers pos) with
  | none =>
    rw [found] at there
    cases there
  | some file =>
    rw [found, Option.map_some, Option.bind_some] at there
    have listed := List.mem_of_find?_eq_some found
    have covering := (covers_iff pos file).1 (List.find?_some found)
    have room := endOffset_le file
    have arrived := carried file listed (pos - file.offset) (by omega) byte there
    rw [streamByte, placeAt]
    change ((layout.files.find? (covers pos)).map _).bind _ = _
    rw [found]
    exact arrived

theorem holds_carried (layout : StorageLayout) (root : PathBuf) (before after : Volume PathBuf)
    (carried : Carried layout root before after) (start : Nat) (bytes : List UInt8)
    (held : Holds layout before start bytes) : Holds (reroot layout root) after start bytes := by
  rw [Holds]
  apply List.ext_getElem?
  intro k
  rw [List.getElem?_map, List.getElem?_map]
  by_cases inside : k < bytes.length
  · have here := holds_getElem? layout before start bytes held k inside
    rw [List.getElem?_eq_getElem inside] at here
    have there := streamByte_carried layout root before after carried _ _ here
    rw [List.getElem?_range inside, List.getElem?_eq_getElem inside, Option.map_some, Option.map_some, there]
  · rw [List.getElem?_eq_none (Nat.le_of_not_lt inside),
      List.getElem?_eq_none (by rw [List.length_range]; exact Nat.le_of_not_lt inside)]
    rfl

section
variable {H : Type} {digest : Digest H} {fresh : H} {finalize : H → List UInt8}

/-- A good piece stays good where its bytes are carried to. -/
theorem good_carried (layout : StorageLayout) (root : PathBuf) (before after : Volume PathBuf)
    (placed : Placed layout) (carried : Carried layout root before after) (hashes : List UInt8)
    (index : Nat) (good : handleRecheck digest fresh finalize before layout hashes index = .good index) :
    handleRecheck digest fresh finalize after (reroot layout root) hashes index = .good index := by
  obtain ⟨bytes, sized, held, same⟩ := (handleRecheck_good_iff before layout placed hashes index).1 good
  apply (handleRecheck_good_iff after (reroot layout root) (placed_reroot layout root placed) hashes
    index).2
  exact ⟨bytes, sized, holds_carried layout root before after carried _ bytes held, same⟩

end

/-! ### What the operations do to the files -/

theorem setLen_getElem? (content : List UInt8) (size k : Nat) (inside : k < size) (byte : UInt8)
    (there : content[k]? = some byte) : (setLen content size)[k]? = some byte := by
  obtain ⟨low, same⟩ := List.getElem?_eq_some_iff.1 there
  rw [setLen, List.getElem?_append_left (by rw [List.length_take]; omega), List.getElem?_take,
    if_pos inside, there]

/-- A new or resized file keeps the bytes up to its size. -/
theorem ensureFile_carried (layout : StorageLayout) (wellFormed : WellFormed layout)
    (volume : Volume PathBuf) (file other : FileLayout) (file_listed : file ∈ layout.files)
    (other_listed : other ∈ layout.files) (k : Nat) (inside : k < file.size) (byte : UInt8)
    (there : byteAt volume (layout.absolute file.path, k) = some byte) :
    byteAt (ensureFile layout volume other) (layout.absolute file.path, k) = some byte := by
  rw [ensureFile]
  split_ifs with off
  · exact there
  · by_cases same : layout.absolute file.path = layout.absolute other.path
    · have paths := List.append_cancel_left same
      have equal : file = other :=
        List.inj_on_of_nodup_map (List.pairwise_map.2 wellFormed.distinct) file_listed other_listed paths
      subst equal
      dsimp only
      rw [byteAt] at there
      cases found : volume (layout.absolute file.path) with
      | none =>
        rw [found] at there
        cases there
      | some content =>
        rw [found, Option.bind_some] at there
        dsimp only
        split_ifs with sized
        · rw [byteAt, found]
          exact there
        · rw [byteAt, Function.update_self]
          exact setLen_getElem? content file.size k inside byte there
    · have kept : ∀ bytes, byteAt (Function.update volume (layout.absolute other.path) bytes)
          (layout.absolute file.path, k) = some byte := by
        intro bytes
        rw [byteAt, Function.update_of_ne same]
        exact there
      dsimp only
      cases volume (layout.absolute other.path) with
      | none => exact kept _
      | some content =>
        dsimp only
        split_ifs
        · exact there
        · exact kept _

theorem ensureStorage_carried (layout : StorageLayout) (wellFormed : WellFormed layout)
    (volume : Volume PathBuf) : Carried layout layout.dataRoot volume (ensureStorage layout volume) := by
  intro file listed k inside byte there
  have rest : ∀ todo : List FileLayout, (∀ other ∈ todo, other ∈ layout.files) → ∀ before,
      byteAt before (layout.absolute file.path, k) = some byte →
        byteAt (todo.foldl (ensureFile layout) before) (layout.absolute file.path, k) = some byte := by
    intro todo
    induction todo with
    | nil => exact fun _ before here => here
    | cons other todo ih =>
      intro within before here
      rw [List.forall_mem_cons] at within
      exact ih within.2 _ (ensureFile_carried layout wellFormed before file other listed within.1 k
        inside byte here)
  exact rest layout.files (fun _ member => member) volume there

/-- Files are created and resized under the names of wanted files only. -/
theorem ensureStorage_other (layout : StorageLayout) (volume : Volume PathBuf) (name : PathBuf)
    (other : ∀ file ∈ layout.files, 0 < file.priority → name ≠ layout.absolute file.path) :
    ensureStorage layout volume name = volume name := by
  rw [ensureStorage]
  generalize layout.files = files at other
  induction files generalizing volume with
  | nil => rfl
  | cons file files ih =>
    rw [List.forall_mem_cons] at other
    rw [List.foldl_cons, ih _ other.2, ensureFile]
    split_ifs with off
    · rfl
    · have different := other.1 (by omega)
      dsimp only
      cases volume (layout.absolute file.path) with
      | none => exact Function.update_of_ne different _ _
      | some content =>
        dsimp only
        split_ifs
        · rfl
        · exact Function.update_of_ne different _ _

/-- While files are published the sources stay, what was done has arrived, and other names are as they
were. -/
theorem publish_spec (layout : StorageLayout) (newRoot : PathBuf) (volume : Volume PathBuf)
    (clear : ∀ file ∈ layout.files, (volume (layout.absolute file.path)).isSome = true →
      ∀ other ∈ layout.files, other.path ≠ file.path →
        newRoot ++ file.path ≠ layout.absolute other.path)
    (done : List FileLayout) (within : ∀ file ∈ done, file ∈ layout.files) :
    (∀ file ∈ layout.files, done.foldl (publishFile layout newRoot) volume (layout.absolute file.path) =
      volume (layout.absolute file.path)) ∧
    (∀ file ∈ done, ∀ bytes, volume (layout.absolute file.path) = some bytes →
      done.foldl (publishFile layout newRoot) volume (newRoot ++ file.path) = some bytes) ∧
    ∀ name, (∀ file ∈ done, (volume (layout.absolute file.path)).isSome = true →
      name ≠ newRoot ++ file.path) →
        done.foldl (publishFile layout newRoot) volume name = volume name := by
  induction done using List.reverseRecOn with
  | nil => exact ⟨fun _ _ => rfl, fun _ member => absurd member List.not_mem_nil, fun _ _ => rfl⟩
  | append_singleton done last ih =>
    rw [List.forall_mem_append, List.forall_mem_singleton] at within
    obtain ⟨sources, arrived, others⟩ := ih within.1
    rw [List.foldl_append, List.foldl_cons, List.foldl_nil, publishFile,
      sources last within.2]
    cases found : volume (layout.absolute last.path) with
    | none =>
      refine ⟨sources, ?_, ?_⟩
      · intro file member bytes there
        rcases List.mem_append.1 member with early | late
        · exact arrived file early bytes there
        · rw [List.mem_singleton.1 late, found] at there
          cases there
      · intro name foreign
        exact others name (fun file member => foreign file (List.mem_append_left _ member))
    | some content =>
      have there : (volume (layout.absolute last.path)).isSome = true := by rw [found]; rfl
      dsimp only
      refine ⟨?_, ?_, ?_⟩
      · intro file listed
        by_cases same : layout.absolute file.path = newRoot ++ last.path
        · have paths : file.path = last.path := by
            by_contra different
            exact clear last within.2 there file listed different same.symm
          rw [same, Function.update_self, ← same, paths, found]
        · rw [Function.update_of_ne same, sources file listed]
      · intro file member bytes there'
        by_cases same : file.path = last.path
        · rw [same, found] at there'
          rw [same, Function.update_self, there']
        · have different : newRoot ++ file.path ≠ newRoot ++ last.path :=
            fun clash => same (List.append_cancel_left clash)
          rw [Function.update_of_ne different]
          rcases List.mem_append.1 member with early | late
          · exact arrived file early bytes there'
          · exact absurd (congrArg FileLayout.path (List.mem_singleton.1 late)) same
      · intro name foreign
        have different := foreign last (List.mem_append_right _ (List.mem_singleton_self _)) there
        rw [Function.update_of_ne different]
        exact others name (fun file member => foreign file (List.mem_append_left _ member))

/-- Unpublishing removes the old names of files that moved, and nothing else. -/
theorem unpublish_other (layout : StorageLayout) (newRoot name : PathBuf) (volume : Volume PathBuf)
    (files : List FileLayout)
    (other : ∀ file ∈ files, name = layout.absolute file.path → name = newRoot ++ file.path) :
    files.foldl (unpublishFile layout newRoot) volume name = volume name := by
  induction files generalizing volume with
  | nil => rfl
  | cons file files ih =>
    rw [List.forall_mem_cons] at other
    rw [List.foldl_cons, ih _ other.2, unpublishFile]
    split_ifs with same
    · rfl
    · apply Function.update_of_ne
      intro clash
      exact same (clash.symm.trans (other.1 clash))

/-- A file that is there reads the same under the new root after the switch. -/
theorem switched_carried (s : State) (layout : StorageLayout) (newRoot : PathBuf) (wipe : Bool)
    (clear : Clear s layout newRoot wipe) :
    Carried layout newRoot s.volume
      (unpublishPayloadFiles layout newRoot wipe (transferPayloadFiles layout newRoot s.volume)) := by
  intro file listed k _ byte there
  obtain ⟨_, arrived, _⟩ := publish_spec layout newRoot s.volume
    (fun file listed present => (clear file listed present).1) layout.files (fun _ member => member)
  rw [byteAt] at there
  cases found : s.volume (layout.absolute file.path) with
  | none =>
    rw [found] at there
    cases there
  | some content =>
    rw [found] at there
    have present : (s.volume (layout.absolute file.path)).isSome = true := by rw [found]; rfl
    have kept := unpublish_other layout newRoot (newRoot ++ file.path)
      (transferPayloadFiles layout newRoot s.volume) layout.files ?_
    · rw [byteAt, unpublishPayloadFiles]
      dsimp only
      split_ifs with wiped
      · dsimp only
        rw [(clear file listed present).2 wiped, if_neg Bool.false_ne_true, kept,
          transferPayloadFiles, arrived file listed content found]
        exact there
      · rw [kept, transferPayloadFiles, arrived file listed content found]
        exact there
    · intro other member clash
      by_cases same : other.path = file.path
      · rw [same]
      · exact absurd clash ((clear file listed present).1 other member same)

/-- A switch leaves a name alone that it neither gives nor takes. -/
theorem switched_other (s : State) (layout : StorageLayout) (newRoot : PathBuf) (wipe : Bool)
    (clear : Clear s layout newRoot wipe) (name : PathBuf)
    (untouched : ¬ Switched s layout newRoot wipe name) :
    unpublishPayloadFiles layout newRoot wipe (transferPayloadFiles layout newRoot s.volume) name =
      s.volume name := by
  rw [Switched, not_or, not_exists, not_and] at untouched
  obtain ⟨unnamed, unwiped⟩ := untouched
  obtain ⟨_, _, others⟩ := publish_spec layout newRoot s.volume
    (fun file listed present => (clear file listed present).1) layout.files (fun _ member => member)
  have moved := unpublish_other layout newRoot name (transferPayloadFiles layout newRoot s.volume)
    layout.files (fun file member clash => absurd ⟨member, Or.inl clash⟩ (unnamed file))
  have stays : transferPayloadFiles layout newRoot s.volume name = s.volume name := by
    apply others
    intro file member present clash
    exact unnamed file ⟨member, Or.inr ⟨present, clash⟩⟩
  rw [unpublishPayloadFiles]
  split_ifs with wiped
  · dsimp only
    split_ifs with inside
    · exact absurd inside (unwiped wiped)
    · rw [moved, stays]
  · rw [moved, stays]

/-! ### Rows -/

section
variable {H : Type} {digest : Digest H} {fresh : H} {finalize : H → List UInt8}

variable (digest fresh finalize)

/-- What holds of every row: the layout loads and is well formed, the possession columns agree, and
what they mark is there. -/
structure Sound (volume : Volume PathBuf) (r : Row) : Prop where
  layout : ∃ layout, r.loadStorageLayout = .ok layout ∧ WellFormed layout
  agreement : Agreement r
  truthful : Truthful digest fresh finalize volume r

variable {digest fresh finalize}

theorem loadStorageLayout_eq (r : Row) (layout : StorageLayout) (loaded : r.loadStorageLayout = .ok layout) :
    ∃ roots, r.columns.metaPath = some roots ∧ r.columns.files.isEmpty = false ∧
      layout = ⟨roots.dataRoot, r.pieceLength, r.pieceCount, r.totalSize, r.columns.files⟩ := by
  rw [Row.loadStorageLayout] at loaded
  cases roots : r.columns.metaPath with
  | none =>
    rw [roots] at loaded
    cases loaded
  | some value =>
    rw [roots] at loaded
    dsimp only at loaded
    split_ifs at loaded with blank
    cases loaded
    exact ⟨value, rfl, Bool.eq_false_iff.2 blank, rfl⟩

/-- New columns with the same files load the same layout under their own root. -/
theorem load_withColumns (r : Row) (c : Columns) (layout : StorageLayout)
    (loaded : r.loadStorageLayout = .ok layout) (files : c.files = r.columns.files) (roots : MetaPath)
    (placed : c.metaPath = some roots) :
    (r.withColumns c).loadStorageLayout = .ok (reroot layout roots.dataRoot) := by
  obtain ⟨old, _, filled, same⟩ := loadStorageLayout_eq r layout loaded
  rw [Row.loadStorageLayout, Row.withColumns_columns, placed]
  dsimp only
  rw [if_neg (by rw [files, filled]; exact Bool.false_ne_true), same, files]
  rfl

/-- Truth is carried with the bytes: what a row still marks is where the row now points. -/
theorem sound_carried (before after : Volume PathBuf) (r : Row) (c : Columns) (layout : StorageLayout)
    (sound : Sound digest fresh finalize before r) (loaded : r.loadStorageLayout = .ok layout)
    (files : c.files = r.columns.files) (roots : MetaPath) (rooted : c.metaPath = some roots)
    (agreement : Agreement (r.withColumns c))
    (had : ∀ index, index < r.pieceCount → (r.withColumns c).hasPiece index = true →
      r.hasPiece index = true)
    (carried : (∃ index < r.pieceCount, (r.withColumns c).hasPiece index = true) →
      Carried layout roots.dataRoot before after) :
    Sound digest fresh finalize after (r.withColumns c) := by
  obtain ⟨layout', loaded', wellFormed⟩ := sound.layout
  rw [loaded, Except.ok.injEq] at loaded'
  subst loaded'
  have loads := load_withColumns r c layout loaded files roots rooted
  refine ⟨⟨_, loads, wellFormed_reroot layout _ wellFormed⟩, agreement, ?_⟩
  intro index inside marked
  obtain ⟨found, loaded', good⟩ := sound.truthful index inside (had index inside marked)
  rw [loaded, Except.ok.injEq] at loaded'
  subst loaded'
  exact ⟨_, loads, good_carried layout _ before after (placed_of_wellFormed layout wellFormed)
    (carried ⟨index, inside, marked⟩) _ index good⟩

theorem carried_refl (layout : StorageLayout) (volume : Volume PathBuf) :
    Carried layout layout.dataRoot volume volume := by
  intro file _ k _ byte there
  exact there

/-- New columns that leave the files, the root and the possession alone. -/
theorem sound_withColumns (volume : Volume PathBuf) (r : Row) (c : Columns)
    (sound : Sound digest fresh finalize volume r) (files : c.files = r.columns.files)
    (rooted : c.metaPath.map MetaPath.dataRoot = r.columns.metaPath.map MetaPath.dataRoot)
    (bits : c.bitfield = r.columns.bitfield) (flag : c.complete = r.columns.complete) :
    Sound digest fresh finalize volume (r.withColumns c) := by
  obtain ⟨layout, loaded, _⟩ := sound.layout
  obtain ⟨old, there, _, same⟩ := loadStorageLayout_eq r layout loaded
  rw [there, Option.map_some, Option.map_eq_some_iff] at rooted
  obtain ⟨roots, placed, root⟩ := rooted
  have stays : layout.dataRoot = roots.dataRoot := by rw [same, root]
  apply sound_carried volume volume r c layout sound loaded files roots placed
    (agreement_withColumns r c sound.agreement bits flag)
  · intro index _ marked
    rwa [hasPiece_withColumns r c bits flag] at marked
  · intro _
    rw [← stays]
    exact carried_refl layout volume

/-- A row that marks nothing is sound wherever its files are. -/
theorem sound_blank (before after : Volume PathBuf) (r : Row) (c : Columns)
    (sound : Sound digest fresh finalize before r) (files : c.files = r.columns.files)
    (roots : MetaPath) (rooted : c.metaPath = some roots) (agreement : Agreement (r.withColumns c))
    (blank : ∀ index < r.pieceCount, (r.withColumns c).hasPiece index = false) :
    Sound digest fresh finalize after (r.withColumns c) := by
  obtain ⟨layout, loaded, _⟩ := sound.layout
  apply sound_carried before after r c layout sound loaded files roots rooted agreement
  · intro index inside marked
    rw [blank index inside] at marked
    cases marked
  · rintro ⟨index, inside, marked⟩
    rw [blank index inside] at marked
    cases marked

/-- A change of the volume away from the files of a row leaves it sound. -/
theorem sound_untouched (before after : Volume PathBuf) (r : Row)
    (sound : Sound digest fresh finalize before r)
    (untouched : ∀ name, Named r name → after name = before name) :
    Sound digest fresh finalize after r := by
  obtain ⟨layout, loaded, _⟩ := sound.layout
  obtain ⟨roots, rooted, _, same⟩ := loadStorageLayout_eq r layout loaded
  have root : roots.dataRoot = layout.dataRoot := by rw [same]
  have stays := sound_carried before after r r.columns layout sound loaded rfl roots rooted
    sound.agreement (fun _ _ marked => marked) ?_
  · exact stays
  · rintro marks file listed k _ byte there
    rw [root, byteAt]
    change (after (layout.absolute file.path)).bind _ = _
    rw [untouched _ ⟨marks, layout, file, loaded, listed, rfl⟩]
    exact there

/-! ### Steps -/

variable (digest fresh finalize)

def AllSound (s : State) : Prop := ∀ r ∈ s.catalog.list, Sound digest fresh finalize s.volume r

variable {digest fresh finalize}

/-- A statement row by row, with a change of the volume beside it. -/
theorem sound_rowwise (t t' : TorrentTable) (volume : Volume PathBuf) (change : Row → Columns)
    (rowwise : Rowwise t t' change)
    (kept : ∀ r ∈ t.list, Sound digest fresh finalize volume (r.withColumns (change r))) :
    ∀ r ∈ t'.list, Sound digest fresh finalize volume r := by
  intro r member
  obtain ⟨old, listed, same⟩ := rowwise.mem r member
  rw [same]
  exact kept old listed

/-- One row is rewritten, and the volume changes away from the files of the others. -/
theorem sound_set (s : State) (sound : AllSound digest fresh finalize s) (id : Nat)
    (change : Row → Columns) (volume : Volume PathBuf) (touches : PathBuf → Prop)
    (away : Away s id touches) (kept : ∀ name, ¬ touches name → volume name = s.volume name)
    (own : ∀ r, s.row id = some r → Sound digest fresh finalize volume (r.withColumns (change r))) :
    AllSound digest fresh finalize ⟨set s.catalog id change, volume⟩ := by
  intro r member
  rcases mem_set s.catalog id change r member with ⟨old, found, same⟩ | ⟨listed, other⟩
  · rw [same]
    exact own old found
  · exact sound_untouched s.volume volume r (sound r listed)
      (fun name named => kept name (away r listed other name named))

theorem sound_settled (s : State) (sound : AllSound digest fresh finalize s)
    (result : Except Error TorrentTable)
    (kept : ∀ t', result = .ok t' → AllSound digest fresh finalize { s with catalog := t' }) :
    AllSound digest fresh finalize { s with catalog := settled s.catalog result } := by
  cases result with
  | error problem => exact sound
  | ok t' => exact kept t' rfl

theorem row_mem (s : State) (id : Nat) (r : Row) (found : s.row id = some r) : r ∈ s.catalog.list :=
  Rows.find?_mem s.catalog id r found

theorem layoutOf_added (m : Metainfo) (place : Placement) (start : Bool) (id : Nat)
    (files : m.files ≠ []) :
    ((addInsert m place start).row id).loadStorageLayout = .ok (layoutOf m place.dataRoot) := by
  let file : MetaFile → FileLayout := fun f => ⟨f.path, f.size, f.offset, 1⟩
  have same : ((addInsert m place start).row id).columns.files = m.files.map file := by
    calc m.files.zipIdx.map (fun f => file f.1)
        = (m.files.zipIdx.map Prod.fst).map file := by rw [List.map_map]; rfl
      _ = m.files.map file := by rw [List.zipIdx_map_fst]
  have filled : (m.files.map file).isEmpty = false := by simpa using files
  rw [Row.loadStorageLayout, same]
  dsimp only [TorrentInsert.row, TorrentInsert.columns]
  rw [filled, if_neg Bool.false_ne_true]
  rfl

theorem hasPiece_added (m : Metainfo) (place : Placement) (start : Bool) (id index : Nat) :
    ((addInsert m place start).row id).hasPiece index = false :=
  bitfieldGet_emptyBitfield m.pieceCount index

theorem add_sound (s : State) (sound : AllSound digest fresh finalize s) (m : Metainfo)
    (place : Placement) (start : Bool) (careful : Careful s (.add m place start)) :
    AllSound digest fresh finalize { s with catalog := addTorrent s.catalog m place start } := by
  obtain ⟨wellFormed, files, restore⟩ := careful
  apply forall_insertTorrent_infohash
  · exact sound
  · intro r listed same deleted before
    let c := restoredColumns r.columns (addInsert m place start)
    have roots : c.metaPath =
      if place.dataRoot.isEmpty then r.columns.metaPath else some ⟨place.dataRoot, place.homeRoot⟩ := rfl
    by_cases blank : place.dataRoot = []
    · rw [blank, List.isEmpty_nil, if_pos rfl] at roots
      exact sound_withColumns s.volume r c before rfl (congrArg _ roots) rfl rfl
    · rw [if_neg (by rw [List.isEmpty_iff]; exact blank)] at roots
      rcases restore r listed same deleted with none | rooted | cleared
      · exact absurd none blank
      · apply sound_withColumns s.volume r c before rfl _ rfl rfl
        rw [roots, rooted, Option.map_some]
      · apply sound_blank s.volume s.volume r c before rfl _ roots
          (agreement_withColumns r c before.agreement rfl rfl)
        intro index inside
        rw [hasPiece_withColumns r c rfl rfl]
        exact cleared index inside
  · intro _
    refine ⟨⟨_, layoutOf_added m place start _ files, ?_⟩, agreement_added m place start _, ?_⟩
    · exact wellFormed_reroot (layoutOf m []) place.dataRoot wellFormed
    · intro index _ marked
      rw [hasPiece_added] at marked
      cases marked

theorem wantColumns_sound (volume : Volume PathBuf) (r : Row) (want : Bool)
    (sound : Sound digest fresh finalize volume r) :
    Sound digest fresh finalize volume (r.withColumns (wantColumns r.columns want)) := by
  rw [wantColumns]
  split_ifs
  · exact sound
  · exact sound_withColumns volume r _ sound rfl rfl rfl rfl
  · exact sound_withColumns volume r _ sound rfl rfl rfl rfl

theorem markDeleted_sound (s : State) (sound : AllSound digest fresh finalize s) (id : Nat) (now : Int) :
    AllSound digest fresh finalize { s with catalog := settled s.catalog (markDeleted s.catalog id now) } := by
  apply sound_settled s sound
  intro t' ran
  rcases markDeleted_ok _ _ _ _ ran with same | ⟨-, changed⟩
  · rw [same]
    exact sound
  · rw [changed]
    exact forall_set s.catalog id _ _ sound
      (fun r _ before => sound_withColumns s.volume r _ before rfl rfl rfl rfl)

theorem stop_sound (s : State) (sound : AllSound digest fresh finalize s) (id : Nat) (want : Bool) :
    AllSound digest fresh finalize
      { s with catalog := settled s.catalog (setWantStart s.catalog id want) } := by
  apply sound_settled s sound
  intro t' ran
  rw [setWantStart] at ran
  split_ifs at ran
  cases ran
  exact forall_set s.catalog id _ _ sound (fun r _ before => wantColumns_sound s.volume r want before)

/-- Files that are created or resized lose no byte that counts. -/
theorem start_sound (s : State) (sound : AllSound digest fresh finalize s) (id : Nat) (r : Row)
    (layout : StorageLayout) (found : s.row id = some r) (loaded : r.loadStorageLayout = .ok layout)
    (away : Away s id (fun name => ∃ file ∈ layout.files, 0 < file.priority ∧
      name = layout.absolute file.path)) :
    AllSound digest fresh finalize
      ⟨set s.catalog id (fun r => wantColumns r.columns true), ensureStorage layout s.volume⟩ := by
  apply sound_set s sound id _ _ _ away
  · intro name untouched
    apply ensureStorage_other
    intro file listed wanted same
    exact untouched ⟨file, listed, wanted, same⟩
  · intro row found'
    rw [found, Option.some.injEq] at found'
    subst found'
    have before := sound r (row_mem s id r found)
    obtain ⟨roots, rooted, _, same⟩ := loadStorageLayout_eq r layout loaded
    have root : roots.dataRoot = layout.dataRoot := by rw [same]
    apply wantColumns_sound
    apply sound_carried s.volume _ r r.columns layout before loaded rfl roots rooted before.agreement
      (fun _ _ marked => marked)
    intro _
    obtain ⟨layout', loaded', wellFormed⟩ := before.layout
    rw [loaded, Except.ok.injEq] at loaded'
    subst loaded'
    rw [root]
    exact ensureStorage_carried layout wellFormed s.volume

theorem mark_ok (t t' : TorrentTable) (id index plen : Nat) (became : List Nat)
    (ran : markPiecesHaveBatch t [⟨id, index, plen⟩] = .ok (t', became)) :
    Rowwise t t' (fun r => if r.id = id then applyHaves r [(index, plen)] else r.columns) := by
  have rowwise := rowwise_markPiecesHaveBatch t t' _ became ran
  have same : (fun r : Row => applyHaves r (itemsOf r.id [⟨id, index, plen⟩])) =
      fun r => if r.id = id then applyHaves r [(index, plen)] else r.columns := by
    funext r
    by_cases named : r.id = id
    · rw [if_pos named, named]
      simp [itemsOf]
    · have other : ¬ id = r.id := fun clash => named clash.symm
      simp [itemsOf, named, other]
  rwa [same] at rowwise

theorem written_recorded (layout : StorageLayout) (wellFormed : WellFormed layout) (index : Nat)
    (data : List UInt8) (volume after : Volume PathBuf)
    (written : writePiece layout index data volume = .ok after) :
    layout.pieceSize index = .ok data.length ∧ Recorded layout volume [(index, data)] after := by
  have result : recordAll layout [(index, data)] volume = after := by
    rw [recordAll, List.foldl_cons, List.foldl_nil, record, written]
  refine ⟨?_, result ▸ recordAll_recorded layout wellFormed [(index, data)] volume⟩
  by_contra wrong
  obtain ⟨problem, refused⟩ := writePiece_refused layout index data volume wrong
  rw [written] at refused
  cases refused

/-- A verified piece is good where it was written, and the other pieces keep their bytes. -/
theorem write_sound (volume after : Volume PathBuf) (r : Row) (layout : StorageLayout) (index : Nat)
    (data : List UInt8) (sound : Sound digest fresh finalize volume r)
    (loaded : r.loadStorageLayout = .ok layout)
    (same : verified digest fresh finalize r.pieceHashes index data = true)
    (written : writePiece layout index data volume = .ok after) :
    Sound digest fresh finalize after (r.withColumns (applyHaves r [(index, data.length)])) := by
  obtain ⟨layout', loaded', wellFormed⟩ := sound.layout
  rw [loaded, Except.ok.injEq] at loaded'
  subst loaded'
  have placed := placed_of_wellFormed layout wellFormed
  obtain ⟨sized, recorded⟩ := written_recorded layout wellFormed index data volume after written
  have last : ∀ other, lastWrite layout [(index, data)] other =
      if index = other then some data else none := by
    intro other
    have accepted := (accepts_iff layout (index, data)).2 sized
    rw [← List.nil_append [(index, data)], lastWrite_concat]
    simp only [accepted, true_and]
    rfl
  obtain ⟨roots, rooted, _, shape⟩ := loadStorageLayout_eq r layout loaded
  have loads : (r.withColumns (applyHaves r [(index, data.length)])).loadStorageLayout = .ok layout := by
    have at' := load_withColumns r (applyHaves r [(index, data.length)]) layout loaded
      (applyHaves_files r _) roots ((applyHaves_metaPath r _).trans rooted)
    rw [at', shape]
    rfl
  refine ⟨⟨layout, loads, wellFormed⟩, agreement_applyHaves r _ sound.agreement, ?_⟩
  intro piece inside marked
  refine ⟨layout, loads, ?_⟩
  change handleRecheck digest fresh finalize after layout r.pieceHashes piece = .good piece
  rw [handleRecheck_good_iff after layout placed]
  by_cases here : index = piece
  · subst here
    exact ⟨data, sized, recorded.held index data (by rw [last, if_pos rfl]), same⟩
  · have old : r.hasPiece piece = true := by
      rcases (hasPiece_applyHaves_iff r _ sound.agreement piece inside).1 marked with had | ⟨item, member, named⟩
      · exact had
      · rw [List.mem_singleton.1 member] at named
        exact absurd named here
    obtain ⟨found, loaded', good⟩ := sound.truthful piece inside old
    rw [loaded, Except.ok.injEq] at loaded'
    subst loaded'
    obtain ⟨bytes, long, held, right⟩ := (handleRecheck_good_iff volume layout placed _ piece).1 good
    refine ⟨bytes, long, ?_, right⟩
    apply holds_kept layout volume after _ bytes held
    intro k low
    have fits := pieceSize_le layout piece _ long
    have within := pieceSize_within layout piece _ long (by omega)
    apply recorded.kept _ (by omega)
    rw [Nat.mul_comm, Nat.mul_add_div wellFormed.positive, Nat.div_eq_of_lt (by omega), Nat.add_zero,
      last, if_neg here]

theorem prepareRecheck_layout (t t' : TorrentTable) (id : Nat) (prepared : RecheckPrepared)
    (ran : prepareRecheck t id = .ok (t', prepared)) :
    ∃ r layout, t.find? id = some r ∧ r.loadStorageLayout = .ok layout ∧
      prepared = ⟨layout, r.pieceHashes, layout.pieceCount⟩ := by
  rw [prepareRecheck] at ran
  cases found : t.find? id with
  | none =>
    rw [found] at ran
    cases ran
  | some r =>
    simp only [found] at ran
    cases loaded : r.loadStorageLayout with
    | error problem =>
      rw [loaded] at ran
      cases ran
    | ok layout =>
      simp only [loaded] at ran
      split_ifs at ran
      cases ran
      exact ⟨r, layout, rfl, loaded, rfl⟩

/-- After a recheck only the pieces that it found good are marked. -/
theorem good_of_rechecked (r : Row) (good : List Bool) (sized : good.length = r.pieceCount)
    (index : Nat) (inside : index < r.pieceCount)
    (marked : (r.withColumns (recheckedColumns r.columns r.pieceCount good)).hasPiece index = true) :
    good.getD index false = true := by
  by_cases all : 0 < r.pieceCount ∧ good.countP id = r.pieceCount
  · have every := List.countP_eq_length.1 (all.2.trans sized.symm)
    have listed : index < good.length := by omega
    rw [List.getD_eq_getElem?_getD, List.getElem?_eq_getElem listed, Option.getD_some]
    exact every _ (List.getElem_mem listed)
  · simp only [Row.hasPiece, Row.loadBitfieldState, Row.storedBits, recheckedColumns,
      Row.withColumns_columns, decide_eq_false all, if_neg all, Bool.false_eq_true, if_false,
      Option.bind_some, Option.getD_some] at marked
    rwa [(packHave_spec r.pieceCount good (Nat.le_of_eq sized)).2] at marked

/-- A piece of one torrent is written and marked, away from the files of the others. -/
theorem piece_sound (s : State) (sound : AllSound digest fresh finalize s) (id : Nat) (r : Row)
    (layout : StorageLayout) (index : Nat) (data : List UInt8) (volume : Volume PathBuf)
    (catalog : TorrentTable) (became : List Nat) (found : s.row id = some r)
    (loaded : r.loadStorageLayout = .ok layout)
    (same : verified digest fresh finalize r.pieceHashes index data = true)
    (written : writePiece layout index data s.volume = .ok volume)
    (marked : markPiecesHaveBatch s.catalog [⟨id, index, data.length⟩] = .ok (catalog, became))
    (away : Away s id (fun name => ∃ file ∈ layout.files, name = layout.absolute file.path)) :
    AllSound digest fresh finalize ⟨catalog, volume⟩ := by
  have rowwise := mark_ok s.catalog catalog id index data.length became marked
  apply sound_rowwise s.catalog catalog volume _ rowwise
  intro row listed
  by_cases named : row.id = id
  · have here : row = r := by
      have own := Rows.find?_of_mem s.catalog row listed
      rw [named] at own
      exact Option.some.inj (own.symm.trans found)
    rw [if_pos named, here]
    exact write_sound s.volume volume r layout index data (sound r (row_mem s id r found)) loaded same
      written
  · rw [if_neg named, Row.withColumns_self]
    obtain ⟨layout', loaded', wellFormed⟩ := (sound r (row_mem s id r found)).layout
    rw [loaded, Except.ok.injEq] at loaded'
    subst loaded'
    have recorded := (written_recorded layout wellFormed index data s.volume volume written).2
    apply sound_untouched s.volume volume row (sound row listed)
    intro name at'
    apply recorded.foreign
    intro file member clash
    exact away row listed named name at' ⟨file, member, clash⟩

/-- A recheck marks just the pieces that it found good. -/
theorem rechecked_sound (volume : Volume PathBuf) (r : Row) (layout : StorageLayout) (good : List Bool)
    (sound : Sound digest fresh finalize volume r) (loaded : r.loadStorageLayout = .ok layout)
    (sized : good.length = r.pieceCount)
    (found : ∀ index, good.getD index false = true →
      handleRecheck digest fresh finalize volume layout r.pieceHashes index = .good index) :
    Sound digest fresh finalize volume
      (r.withColumns (recheckedColumns r.columns r.pieceCount good)) := by
  obtain ⟨layout', loaded', wellFormed⟩ := sound.layout
  rw [loaded, Except.ok.injEq] at loaded'
  subst loaded'
  obtain ⟨roots, rooted, _, shape⟩ := loadStorageLayout_eq r layout loaded
  have loads : (r.withColumns (recheckedColumns r.columns r.pieceCount good)).loadStorageLayout =
      .ok layout := by
    have at' := load_withColumns r (recheckedColumns r.columns r.pieceCount good) layout loaded rfl
      roots rooted
    rw [at', shape]
    rfl
  refine ⟨⟨layout, loads, wellFormed⟩, agreement_rechecked r good sized, ?_⟩
  intro index inside marked
  exact ⟨layout, loads, found index (good_of_rechecked r good sized index inside marked)⟩

theorem recheck_sound (s s' : State) (sound : AllSound digest fresh finalize s) (id : Nat)
    (taken : step digest fresh finalize s (.recheck id) = some s') :
    AllSound digest fresh finalize s' := by
  simp only [step] at taken
  cases ran : prepareRecheck s.catalog id with
  | error problem =>
    rw [ran] at taken
    cases taken
  | ok result =>
    obtain ⟨t, prepared⟩ := result
    rw [ran] at taken
    cases taken
    obtain ⟨r, layout, found, loaded, shape⟩ := prepareRecheck_layout _ _ _ _ ran
    have checking := (prepareRecheck_ok _ _ _ _ ran).1
    have before : AllSound digest fresh finalize { s with catalog := t } := by
      rw [checking]
      exact forall_set s.catalog id _ _ sound
        (fun r _ before => sound_withColumns s.volume r _ before rfl rfl rfl rfl)
    apply sound_settled { s with catalog := t } before
    intro t' stored
    obtain ⟨sized, changed⟩ := setBitfieldFromRecheck_ok _ _ _ _ _ stored
    rw [changed]
    apply forall_set t id _ _ before
    intro row found' sound'
    let c : Columns := { r.columns with state := .checking }
    have old : row = r.withColumns c := by
      rw [checking, setTorrentState, find?_set, if_pos rfl, found] at found'
      exact (Option.some.inj found').symm
    obtain ⟨roots, rooted, filled, same⟩ := loadStorageLayout_eq r layout loaded
    have loaded' : row.loadStorageLayout = .ok layout := by
      rw [old, load_withColumns r c layout loaded rfl roots rooted, same]
      rfl
    have count : prepared.pieceCount = row.pieceCount := by
      rw [shape, old, same]
      rfl
    rw [count] at sized ⊢
    apply rechecked_sound s.volume row layout _ sound' loaded' sized
    intro index good
    rw [checkedPieces, List.getD_eq_getElem?_getD, List.getElem?_map] at good
    by_cases inside : index < prepared.pieceCount
    · rw [List.getElem?_range inside, Option.map_some, Option.getD_some, decide_eq_true_eq] at good
      rw [shape] at good
      rw [old]
      exact good
    · rw [List.getElem?_eq_none (by rw [List.length_range]; omega)] at good
      cases good

theorem audit_sound (s : State) (sound : AllSound digest fresh finalize s) (problem : Nat → Bool) :
    AllSound digest fresh finalize { s with catalog := auditCompleteStorage s.catalog problem } := by
  apply (rowwise_auditCompleteStorage s.catalog problem).forall _ sound
  intro r _ before
  split_ifs
  · obtain ⟨layout, loaded, _⟩ := before.layout
    obtain ⟨roots, rooted, _⟩ := loadStorageLayout_eq r layout loaded
    apply sound_blank s.volume s.volume r (demotedColumns r.columns) before rfl roots rooted
      (agreement_empty r _ rfl rfl)
    intro index _
    exact bitfieldGet_emptyBitfield r.pieceCount index
  · exact before

theorem removeAll_mem (ids : List Nat) (t : TorrentTable) (r : Row)
    (member : r ∈ (removeAll t ids).1.list) : r ∈ t.list := by
  induction ids generalizing t with
  | nil => exact member
  | cons id rest ih =>
    rw [removeAll] at member
    cases removed : removeTorrent t id with
    | error problem =>
      rw [removed] at member
      exact member
    | ok t' =>
      rw [removed] at member
      have later := ih t' member
      rw [removeTorrent] at removed
      cases found : t.find? id with
      | none =>
        rw [found] at removed
        cases removed
      | some row =>
        rw [found] at removed
        dsimp only at removed
        split_ifs at removed
        cases removed
        exact List.mem_of_mem_filter later

theorem purge_sound (s : State) (sound : AllSound digest fresh finalize s) (days : Nat) (now : Int) :
    AllSound digest fresh finalize { s with catalog := (purgeSoftDeleted s.catalog days now).1 } := by
  intro r member
  dsimp only at member
  rw [purgeSoftDeleted] at member
  split_ifs at member
  · exact sound r member
  · exact sound r (removeAll_mem _ s.catalog r member)

theorem setRoots_sound (s : State) (sound : AllSound digest fresh finalize s) (id : Nat)
    (home : MetaPath → Option PathBuf) :
    AllSound digest fresh finalize (s.setRoots id (fun roots => { roots with homeRoot := home roots })) := by
  apply forall_set s.catalog id _ _ sound
  intro r _ before
  have kept : (rootColumns r.columns (fun roots => { roots with homeRoot := home roots })).metaPath.map
      MetaPath.dataRoot = r.columns.metaPath.map MetaPath.dataRoot := by
    rw [rootColumns, Option.map_map]
    rfl
  exact sound_withColumns s.volume r _ before rfl kept rfl rfl

/-- A switch carries the payload to the root that the row gets. -/
theorem switch_sound (s : State) (sound : AllSound digest fresh finalize s) (id : Nat) (r : Row)
    (layout : StorageLayout) (newRoot : PathBuf) (clearHome : Bool) (found : s.row id = some r)
    (loaded : r.loadStorageLayout = .ok layout) (clear : Clear s layout newRoot clearHome)
    (away : Away s id (Switched s layout newRoot clearHome)) :
    AllSound digest fresh finalize (s.switchPayloadRoot id layout newRoot clearHome) := by
  apply sound_set s sound id _ _ _ away (switched_other s layout newRoot clearHome clear)
  intro row found'
  rw [found, Option.some.injEq] at found'
  subst found'
  have before := sound r (row_mem s id r found)
  obtain ⟨roots, rooted, _, _⟩ := loadStorageLayout_eq r layout loaded
  let change : MetaPath → MetaPath := fun roots =>
    { dataRoot := newRoot, homeRoot := if clearHome then none else roots.homeRoot }
  have kept : (rootColumns r.columns change).metaPath = some (change roots) := by
    rw [rootColumns, rooted, Option.map_some]
  apply sound_carried s.volume _ r (rootColumns r.columns change) layout before loaded rfl _ kept
    (agreement_withColumns r _ before.agreement rfl rfl)
  · intro index _ marked
    rwa [hasPiece_withColumns r (rootColumns r.columns change) rfl rfl] at marked
  · intro _
    exact switched_carried s layout newRoot clearHome clear

theorem moved_sound (s s' : State) (sound : AllSound digest fresh finalize s) (event : Event)
    (careful : ∀ id layout newRoot clearHome,
      s.asked event = some (id, layout, .switch newRoot clearHome) →
        Clear s layout newRoot clearHome ∧ Away s id (Switched s layout newRoot clearHome))
    (loads : ∀ id layout move, s.asked event = some (id, layout, move) →
      ∃ r, s.row id = some r ∧ r.loadStorageLayout = .ok layout)
    (taken : (s.asked event).map (fun ask => s.move ask.1 ask.2.1 ask.2.2) = some s') :
    AllSound digest fresh finalize s' := by
  obtain ⟨⟨id, layout, move⟩, asked, same⟩ := Option.map_eq_some_iff.1 taken
  rw [← same]
  cases move with
  | stay => exact sound
  | setHomeRoot home => exact setRoots_sound s sound id (fun _ => home)
  | switch newRoot clearHome =>
    obtain ⟨r, found, loaded⟩ := loads id layout _ asked
    obtain ⟨clear, away⟩ := careful id layout newRoot clearHome asked
    exact switch_sound s sound id r layout newRoot clearHome found loaded clear away

theorem decided_loads (s : State) (other : Nat) (decision : MetaPath → Move) (id : Nat)
    (layout : StorageLayout) (move : Move)
    (asked : s.decided other decision = some (id, layout, move)) :
    ∃ r, s.row id = some r ∧ r.loadStorageLayout = .ok layout := by
  rw [State.decided] at asked
  cases found : s.row other with
  | none =>
    rw [found] at asked
    cases asked
  | some r =>
    rw [found] at asked
    dsimp only at asked
    cases rooted : r.columns.metaPath with
    | none =>
      rw [rooted] at asked
      cases asked
    | some roots =>
      rw [rooted] at asked
      cases loaded : r.loadStorageLayout with
      | error problem =>
        rw [loaded] at asked
        cases asked
      | ok value =>
        rw [loaded] at asked
        cases asked
        exact ⟨r, found, loaded⟩

theorem asked_loads (s : State) (event : Event) (id : Nat) (layout : StorageLayout) (move : Move)
    (asked : s.asked event = some (id, layout, move)) :
    ∃ r, s.row id = some r ∧ r.loadStorageLayout = .ok layout := by
  cases event with
  | relocate other newRoot => exact decided_loads s other _ id layout move asked
  | handoff other complete => exact decided_loads s other _ id layout move asked
  | _ => cases asked

theorem step_sound (s : State) (event : Event) (s' : State) (sound : AllSound digest fresh finalize s)
    (careful : Careful s event) (taken : step digest fresh finalize s event = some s') :
    AllSound digest fresh finalize s' := by
  cases event with
  | add m place start =>
    cases taken
    exact add_sound s sound m place start careful
  | markDeleted id now =>
    cases taken
    exact markDeleted_sound s sound id now
  | stop id =>
    cases taken
    exact stop_sound s sound id false
  | start id =>
    simp only [step] at taken
    cases wanted : setWantStart s.catalog id true with
    | error problem =>
      rw [wanted] at taken
      cases taken
    | ok catalog =>
      rw [wanted] at taken
      cases found : s.row id with
      | none =>
        rw [found] at taken
        cases taken
      | some r =>
        obtain ⟨layout, loaded, _⟩ := (sound r (row_mem s id r found)).layout
        rw [found] at taken
        dsimp only at taken
        rw [loaded] at taken
        cases taken
        rw [setWantStart] at wanted
        split_ifs at wanted
        cases wanted
        exact start_sound s sound id r layout found loaded (careful r layout found loaded)
  | writePiece id index data =>
    simp only [step] at taken
    cases found : s.row id with
    | none =>
      rw [found] at taken
      cases taken
    | some r =>
      obtain ⟨layout, loaded, _⟩ := (sound r (row_mem s id r found)).layout
      rw [found] at taken
      dsimp only at taken
      split_ifs at taken with refused
      rw [loaded] at taken
      dsimp only at taken
      cases written : writePiece layout index data s.volume with
      | error problem =>
        rw [written] at taken
        cases taken
      | ok volume =>
        rw [written] at taken
        cases marked : markPiecesHaveBatch s.catalog [⟨id, index, data.length⟩] with
        | error problem =>
          rw [marked] at taken
          cases taken
        | ok result =>
          obtain ⟨catalog, became⟩ := result
          rw [marked] at taken
          cases taken
          rw [Bool.or_eq_true, not_or, Bool.not_eq_true', Bool.not_eq_false] at refused
          exact piece_sound s sound id r layout index data volume catalog became found loaded refused.2
            written marked (careful r layout found loaded)
  | recheck id => exact recheck_sound s s' sound id taken
  | audit problem =>
    cases taken
    exact audit_sound s sound problem
  | purge days now =>
    cases taken
    exact purge_sound s sound days now
  | relocate id newRoot =>
    exact moved_sound s s' sound (.relocate id newRoot) careful
      (fun id layout move asked => asked_loads s _ id layout move asked) taken
  | handoff id complete =>
    exact moved_sound s s' sound (.handoff id complete) careful
      (fun id layout move asked => asked_loads s _ id layout move asked) taken

/-- After any careful steps every piece that the catalog marks as had, of deleted torrents too, is good
under the torrent's root. -/
theorem possession_truthful {H : Type} (digest : Digest H) (fresh : H) (finalize : H → List UInt8)
    (volume : Volume PathBuf) (events : List Event) (s : State)
    (careful : Guarded (step digest fresh finalize) Careful (initial volume) events)
    (ran : exec (step digest fresh finalize) (initial volume) events = some s) :
    ∀ r ∈ s.catalog.list, Truthful digest fresh finalize s.volume r := by
  have start : AllSound digest fresh finalize (initial volume) := by
    intro r member
    cases member
  have sound := exec_invariant (step digest fresh finalize) Careful (AllSound digest fresh finalize)
    step_sound (initial volume) s events start careful ran
  intro r member
  exact (sound r member).truthful

end

/-- A digest that shows the bytes. -/
def plainDigest : Digest (List UInt8) where
  update := fun hasher bytes => hasher ++ bytes
  empty := List.append_nil
  chained := List.append_assoc

def plainSum (hasher : List UInt8) : List UInt8 := (hasher ++ List.replicate 20 0).take 20

/-- One file of two bytes in one piece. -/
def note : Metainfo where
  infohash := List.replicate 20 7
  pieceLength := 16384
  pieceCount := 1
  totalSize := 2
  pieces := plainSum [1, 2]
  files := [⟨["note"], 2, 0⟩]

def addedNote (root : PathBuf) : Event := .add note ⟨root, none⟩ false

/-- The note is added, written, moved, deleted, added again where it is, and rechecked. -/
def noteLife : List Event :=
  [addedNote ["a"], .start 1, .writePiece 1 0 [1, 2], .relocate 1 ["b"], .stop 1, .markDeleted 1 0,
    addedNote ["b"], .recheck 1]

theorem away_alone (s : State) (id : Nat) (touches : PathBuf → Prop)
    (alone : ∀ r ∈ s.catalog.list, r.id = id) : Away s id touches := by
  intro r listed other
  exact absurd (alone r listed) other

theorem note_wellFormed : WellFormed (layoutOf note []) where
  positive := by decide
  tiles := ⟨rfl, rfl⟩
  representable := by decide
  countRepresentable := by decide
  covered := by decide
  lengthRepresentable := by decide
  distinct := List.pairwise_singleton _ _

theorem noteLife_careful :
    Guarded (step plainDigest [] plainSum) Careful (initial (fun _ => none)) noteLife := by
  refine ⟨⟨note_wellFormed, by decide, by decide⟩, fun s taken => ?_⟩
  cases taken
  refine ⟨fun r layout found loaded => away_alone _ _ _ (by decide), fun s taken => ?_⟩
  cases taken
  refine ⟨fun r layout found loaded => away_alone _ _ _ (by decide), fun s taken => ?_⟩
  cases taken
  refine ⟨?_, fun s taken => ?_⟩
  · intro id layout newRoot clearHomeRoot asked
    cases asked
    exact ⟨by unfold Clear; decide, away_alone _ _ _ (by decide)⟩
  cases taken
  refine ⟨trivial, fun s taken => ?_⟩
  cases taken
  refine ⟨trivial, fun s taken => ?_⟩
  cases taken
  refine ⟨⟨note_wellFormed, by decide, by decide⟩, fun s taken => ?_⟩
  cases taken
  exact ⟨trivial, fun s taken => trivial⟩

theorem noteLife_truthful :
    ∃ s, exec (step plainDigest [] plainSum) (initial (fun _ => none)) noteLife = some s ∧
      (∃ r ∈ s.catalog.list, r.hasPiece 0 = true) ∧
      ∀ r ∈ s.catalog.list, Truthful plainDigest [] plainSum s.volume r :=
  ⟨_, rfl, ⟨_, List.mem_singleton_self _, rfl⟩,
    possession_truthful plainDigest [] plainSum (fun _ => none) noteLife _ noteLife_careful rfl⟩

end Seedchamp.Library.LifeCycleTruth
