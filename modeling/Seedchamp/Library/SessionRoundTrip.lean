import Seedchamp.Library.Export
import Seedchamp.Torrentfile.Geometry

/-!
What an export to rtorrent and an import of the session keep of a torrent: exactly when each column
comes back.
-/

namespace Seedchamp.Library.SessionRoundTrip
open Foundation Foundation.PathText Catalog.Bitfield Torrentfile.Bencode Torrentfile.Parse
open Library.Export
open Library.Ingest (ResumeData parseResume)

/-! ### Dictionaries of named values -/

theorem get?_foldl (k : Bytes) (pairs : List (String × Value)) (map : List (Bytes × Value)) :
    SortedMap.get? k (pairs.foldl (fun map pair => SortedMap.insert (Value.key pair.1) pair.2 map) map) =
      ((dictFromStrKeys pairs).asDict.bind (SortedMap.get? k)).or (SortedMap.get? k map) := by
  induction pairs generalizing map with
  | nil => rfl
  | cons pair pairs ih =>
    have here := ih (SortedMap.insert (Value.key pair.1) pair.2 [])
    have there := ih (SortedMap.insert (Value.key pair.1) pair.2 map)
    rw [List.foldl_cons, there]
    change _ = (SortedMap.get? k (pairs.foldl _ (SortedMap.insert (Value.key pair.1) pair.2 []))).or _
    rw [here, Option.or_assoc, SortedMap.get?_insert, SortedMap.get?_insert]
    by_cases same : Value.key pair.1 = k
    · rw [if_pos same, if_pos same]
      rfl
    · rw [if_neg same, if_neg same]
      rfl

theorem dictGet_append (front back : List (String × Value)) (k : String) :
    (dictFromStrKeys (front ++ back)).dictGet k =
      ((dictFromStrKeys back).dictGet k).or ((dictFromStrKeys front).dictGet k) := by
  change SortedMap.get? (Value.key k) (List.foldl _ [] (front ++ back)) = _
  rw [List.foldl_append, get?_foldl]
  rfl

theorem dictGet_cons (pair : String × Value) (pairs : List (String × Value)) (k : String) :
    (dictFromStrKeys (pair :: pairs)).dictGet k = ((dictFromStrKeys pairs).dictGet k).or
      (if Value.key pair.1 = Value.key k then some pair.2 else none) := by
  rw [← List.singleton_append, dictGet_append]
  congr 1
  exact SortedMap.get?_cons (Value.key k) (Value.key pair.1, pair.2) []

theorem dictGet_nil (k : String) : (dictFromStrKeys []).dictGet k = none := rfl

theorem wellFormed_dict (pairs : List (String × Value)) (each : ∀ pair ∈ pairs, WellFormed pair.2) :
    WellFormed (dictFromStrKeys pairs) := by
  have built : ∀ map, WellFormed (.dict map) → WellFormed (.dict (pairs.foldl
      (fun map pair => SortedMap.insert (Value.key pair.1) pair.2 map) map)) := by
    induction pairs with
    | nil => exact fun map wellFormed => wellFormed
    | cons pair pairs ih =>
      intro map wellFormed
      refine ih (fun other member => each other (List.mem_cons_of_mem _ member)) _ ?_
      cases wellFormed with
      | dict _ sorted values =>
        refine .dict _ (SortedMap.sorted_insert _ _ _ sorted) ?_
        intro entry member
        rcases SortedMap.mem_insert _ _ _ entry member with rfl | old
        · exact each pair List.mem_cons_self
        · exact values entry old
  exact built [] (.dict [] List.Pairwise.nil (fun entry member => absurd member List.not_mem_nil))

/-- Keys of one byte a character are read as they are written. -/
theorem dictGet_reading (v : Value) (k : String)
    (named : ∀ b : Bytes, String.ofList (b.map (fun b => Char.ofNat b.toNat)) = k ↔ b = Value.key k) :
    (reading v).dictGet k = (v.dictGet k).map reading := by
  cases v with
  | int | bytes | list => rfl
  | dict map =>
    change ((readingEntries map).find? (fun e => e.1 = k)).map Prod.snd =
      (SortedMap.get? (Value.key k) map).map reading
    induction map with
    | nil => rfl
    | cons entry rest ih =>
      obtain ⟨key, v⟩ := entry
      rw [SortedMap.get?_cons, readingEntries]
      by_cases same : key = Value.key k
      · rw [if_pos same, List.find?_cons_of_pos (by rw [decide_eq_true_eq]; exact (named key).2 same)]
        rfl
      · rw [if_neg same, List.find?_cons_of_neg
          (by rw [decide_eq_true_eq]; exact fun equal => same ((named key).1 equal)), ih]

/-! ### Texts of keys -/

theorem char_byte (b : UInt8) : (Char.ofNat b.toNat).toNat = b.toNat := by
  have small := b.toNat_lt
  have valid : b.toNat.isValidChar := .inl (by omega)
  rw [Char.ofNat, dif_pos valid]
  rfl

/-- The characters of a key give its bytes back. -/
theorem key_text (k : String) (plain : ∀ c ∈ k.toList, c.toNat < 256) (b : Bytes) :
    String.ofList (b.map (fun b => Char.ofNat b.toNat)) = k ↔ b = Value.key k := by
  constructor
  · rintro rfl
    rw [Value.key, String.toList_ofList, List.map_map]
    refine (List.map_id b).symm.trans (List.map_congr_left (fun c _ => ?_))
    rw [Function.comp_apply, byte, char_byte, UInt8.ofNat_toNat]
    rfl
  · rintro rfl
    rw [Value.key, List.map_map]
    have same : k.toList.map ((fun b : UInt8 => Char.ofNat b.toNat) ∘ byte) = k.toList := by
      refine (List.map_congr_left (fun c member => ?_)).trans (List.map_id k.toList)
      have small := plain c member
      rw [Function.comp_apply, byte, UInt8.toNat_ofNat', Nat.mod_eq_of_lt small, Char.ofNat_toNat]
      rfl
    rw [same, String.ofList_toList]

/-- An entry that is written on a condition. -/
theorem dictGet_if (c : Prop) [Decidable c] (name : String) (v : Value) (k : String) :
    (dictFromStrKeys (if c then [(name, v)] else [])).dictGet k =
      if c ∧ Value.key name = Value.key k then some v else none := by
  by_cases present : c
  · rw [if_pos present, dictGet_cons, dictGet_nil, Option.none_or]
    simp only [present, true_and]
  · rw [if_neg present, dictGet_nil, if_neg (fun both => present both.1)]

/-- An entry that is written for a value, if there is one. -/
theorem dictGet_toList {α : Type} (found : Option α) (name : String) (write : α → Value) (k : String) :
    (dictFromStrKeys (found.toList.map (fun x => (name, write x)))).dictGet k =
      if Value.key name = Value.key k then found.map write else none := by
  cases found with
  | none => simp only [Option.toList_none, List.map_nil, dictGet_nil, Option.map_none, ite_self]
  | some x =>
    rw [Option.toList_some, List.map_singleton, dictGet_cons, dictGet_nil, Option.none_or]
    rfl

/-! ### The sidecar -/

section Sidecar
variable (t : ExportTorrent)

theorem sidecar_directory :
    (sidecar t).dictGet "directory" = some (.bytes (Utf8.encode (rtorrentDirectory t))) := by
  simp +decide only [sidecar, dictGet_append, dictGet_cons, dictGet_nil, dictGet_if, dictGet_toList,
    and_false, if_true, if_false, Option.none_or, Option.or_none]

theorem sidecar_totalUploaded :
    (sidecar t).dictGet "total_uploaded" = some (.int (asI64 t.uploaded)) := by
  simp +decide only [sidecar, dictGet_append, dictGet_cons, dictGet_nil, dictGet_if, dictGet_toList,
    and_false, if_true, if_false, Option.none_or, Option.or_none]

theorem sidecar_totalDownloaded :
    (sidecar t).dictGet "total_downloaded" = some (.int (asI64 t.downloaded)) := by
  simp +decide only [sidecar, dictGet_append, dictGet_cons, dictGet_nil, dictGet_if, dictGet_toList,
    and_false, if_true, if_false, Option.none_or, Option.or_none]

theorem sidecar_started : (sidecar t).dictGet "timestamp.started" =
    if 0 < t.createdAt.toInt then some (.int t.createdAt) else none := by
  simp +decide only [sidecar, dictGet_append, dictGet_cons, dictGet_nil, dictGet_if, dictGet_toList,
    and_false, and_true, if_false, Option.none_or, Option.or_none]

theorem sidecar_key : (sidecar t).dictGet "key" =
    if t.trackerKey ≠ 0 then some (.int (asI64 t.trackerKey.toNat)) else none := by
  simp +decide only [sidecar, dictGet_append, dictGet_cons, dictGet_nil, dictGet_if, dictGet_toList,
    and_false, and_true, if_false, Option.or_none]

theorem wellFormed_sidecar : WellFormed (sidecar t) := by
  refine wellFormed_dict _ (fun pair member => ?_)
  simp only [List.mem_append, List.mem_cons, List.not_mem_nil, or_false, List.mem_map,
    List.mem_ite_nil_right] at member
  rcases member with (((rfl | rfl | rfl | rfl) | ⟨-, rfl⟩) | ⟨fin, -, rfl⟩) | ⟨-, rfl⟩
  case inl.inl.inl.inl => exact .bytes _
  all_goals exact .int _

end Sidecar

/-! ### The resume file -/

theorem readingItems_eq (items : List Value) : readingItems items = items.map reading := by
  induction items with
  | nil => rfl
  | cons item rest ih => rw [readingItems, ih, List.map_cons]

section Resume
variable (t : ExportTorrent)

theorem resume_bitfield : (resumeFile t).dictGet "bitfield" = some (resumeBits t) := by
  simp +decide only [resumeFile, dictGet_append, dictGet_cons, dictGet_nil, dictGet_if, and_false,
    if_true, if_false, Option.none_or, Option.or_none]

theorem resume_uploaded : (resumeFile t).dictGet "uploaded" = some (.int (asI64 t.uploaded)) := by
  simp +decide only [resumeFile, dictGet_append, dictGet_cons, dictGet_nil, dictGet_if, and_false,
    if_true, if_false, Option.none_or, Option.or_none]

theorem resume_downloaded : (resumeFile t).dictGet "downloaded" = some (.int (asI64 t.downloaded)) := by
  simp +decide only [resumeFile, dictGet_append, dictGet_cons, dictGet_nil, dictGet_if, and_false,
    if_true, if_false, Option.none_or, Option.or_none]

theorem resume_files : (resumeFile t).dictGet "files" = if t.filePriorities ≠ [] then
    some (.list (t.filePriorities.map (fun p => dictFromStrKeys [("priority", .int p.toInt64)])))
    else none := by
  simp +decide only [resumeFile, dictGet_append, dictGet_cons, dictGet_nil, dictGet_if, and_true,
    if_false, Option.or_none]

theorem wellFormed_resumeFile : WellFormed (resumeFile t) := by
  have bits : WellFormed (resumeBits t) := by
    rw [resumeBits]
    split_ifs
    · exact .int _
    · cases t.bitfield with
      | none => exact .int _
      | some bits => exact .bytes _
  refine wellFormed_dict _ (fun pair member => ?_)
  simp only [List.mem_append, List.mem_cons, List.not_mem_nil, or_false, List.mem_ite_nil_right] at member
  rcases member with (rfl | rfl | rfl) | ⟨-, rfl⟩
  · exact .int _
  · exact .int _
  · exact bits
  · refine .list _ (fun item listed => ?_)
    obtain ⟨p, -, rfl⟩ := List.mem_map.1 listed
    refine wellFormed_dict _ (fun pair member => ?_)
    rw [List.mem_singleton.1 member]
    exact .int _

theorem counter_reading (root : Value) (n : Int64) (k : String) (plain : ∀ c ∈ k.toList, c.toNat < 256)
    (found : root.dictGet k = some (.int n)) : Ingest.counter (reading root) k = n.toInt.toNat := by
  rw [Ingest.counter, dictGet_reading root k (key_text k plain), found]
  rfl

theorem filePriorities_resumeFile (pieceCount : Nat) :
    (parseResume (reading (resumeFile t)) pieceCount).filePriorities =
      t.filePriorities.map Int32.toInt := by
  change (((((reading (resumeFile t)).dictGet "files").bind Ingest.Value.asList).getD []).map _) = _
  rw [dictGet_reading _ _ (key_text "files" (by simp)), resume_files]
  by_cases present : t.filePriorities ≠ []
  · rw [if_pos present]
    change ((readingItems (t.filePriorities.map _)).map _) = _
    rw [readingItems_eq, List.map_map, List.map_map]
    refine List.map_congr_left (fun p _ => ?_)
    have told : (dictFromStrKeys [("priority", .int p.toInt64)]).dictGet "priority" =
        some (.int p.toInt64) := by
      rw [dictGet_cons, if_pos rfl]
      rfl
    rw [Function.comp_apply, Function.comp_apply, dictGet_reading _ _ (key_text "priority" (by simp)), told]
    change (Int32.ofInt p.toInt64.toInt).toInt = p.toInt
    rw [Int32.toInt_toInt64, Int32.ofInt_toInt]
  · rw [if_neg present, not_not.1 present]
    rfl

end Resume

/-! ### The imported row -/

theorem asI64_asU64 (v : Int64) : asI64 (asU64 v) = v := by
  have low := v.le_toInt
  have high := v.toInt_lt
  rw [asI64, asU64, Int64.ofInt_eq_iff_bmod_eq_toInt, Int.toNat_of_nonneg (Int.emod_nonneg _ (by decide))]
  exact (Int.emod_bmod ..).trans v.toInt_bmod

theorem toInt_asI64 (n : Nat) (small : n < 2 ^ 63) : (asI64 n).toInt = n :=
  Int64.toInt_ofInt_of_le (by omega) (by omega)

/-- What the resume file says of the pieces. -/
def resumed (e : ExportTorrent) (pieceCount : Nat) : ResumeData :=
  Ingest.resumeBitfield .default (some (reading (resumeBits e))) pieceCount

/-- A row as the files of an exported torrent make it. -/
structure Imported (around : Surroundings) (e : ExportTorrent) (m : Metainfo) (t : TorrentRow) : Prop where
  dataRoot : t.dataRoot = if m.isMultiFile then
    stripTrailingTorrentName (rtorrentDirectory e) m.name else rtorrentDirectory e
  complete : t.complete = (resumed e m.pieceCount).complete
  bits : t.bits = (resumed e m.pieceCount).bitfield
  haveCount : t.haveCount = (resumed e m.pieceCount).haveCount
  uploaded : t.uploaded = asI64 (asI64 e.uploaded).toInt.toNat
  downloaded : t.downloaded = asI64 (asI64 e.downloaded).toInt.toNat
  createdAt : 0 < e.createdAt.toInt → t.createdAt = e.createdAt
  priorities : t.priorities =
    (List.range m.files.length).map (fun idx => (e.filePriorities[idx]?).getD 1)
  trackerKey : t.trackerKey = if e.trackerKey ≠ 0 then e.trackerKey else around.generated

/-- An encoding, like any vector, has less than `isize::MAX` bytes and one more. -/
structure Fits (e : ExportTorrent) : Prop where
  sidecar : (encode (sidecar e)).length < 2 ^ 63
  resume : (encode (resumeFile e)).length < 2 ^ 63

theorem key_sidecar (e : ExportTorrent) :
    (parseRtorrent (sidecar e)).key = if e.trackerKey ≠ 0 then some e.trackerKey else none := by
  have small := e.trackerKey.toNat_lt
  change (((sidecar e).dictGet "key").bind Value.asInt).bind _ = _
  rw [sidecar_key]
  by_cases set : e.trackerKey ≠ 0
  · have positive : 0 < e.trackerKey.toNat := by
      apply Nat.pos_of_ne_zero
      exact fun zero => set (UInt32.toNat_inj.1 zero)
    rw [if_pos set, if_pos set, Option.bind_some, Value.asInt, Option.bind_some,
      toInt_asI64 _ (by omega), if_pos (by omega), Int.toNat_natCast, UInt32.ofNat_toNat]
  · rw [if_neg set, if_neg set]
    rfl

theorem createdAtHint_sidecar (e : ExportTorrent) (positive : 0 < e.createdAt.toInt) :
    (parseRtorrent (sidecar e)).createdAtHint = some e.createdAt := by
  have started : (parseRtorrent (sidecar e)).timestampStarted = some e.createdAt := by
    change ((sidecar e).dictGet "timestamp.started").bind Value.asInt = _
    rw [sidecar_started, if_pos positive]
    rfl
  rw [RtorrentSide.createdAtHint, started, RtorrentSide.nonzero,
    Option.filter_some_pos (by rw [decide_eq_true_eq]; exact positive)]
  rfl

theorem importOne_written (sha1 : Bytes → Bytes) (around : Surroundings) (e : ExportTorrent) (m : Metainfo)
    (parsed : parseBytes sha1 e.metainfoBlob = .ok m) (fits : Fits e) :
    ∃ t, importOne sha1 around (writeRtorrentOne e) = .ok t ∧ Imported around e m t := by
  have side : (((writeRtorrentOne e).rtorrent.bind (fun b => (decodeFull b).toOption)).map
      parseRtorrent).getD {} = parseRtorrent (sidecar e) := by
    change ((Option.map parseRtorrent (decodeFull (encode (sidecar e))).toOption).getD {}) = _
    rw [Torrentfile.RoundTrip.decodeFull_encode _ (wellFormed_sidecar e) fits.sidecar]
    rfl
  have resume : (((writeRtorrentOne e).resume.bind (fun b => (decodeFull b).toOption)).map
      (fun root => parseResume (reading root) m.pieceCount)).getD ResumeData.default =
        parseResume (reading (resumeFile e)) m.pieceCount := by
    change ((Option.map _ (decodeFull (encode (resumeFile e))).toOption).getD _) = _
    rw [Torrentfile.RoundTrip.decodeFull_encode _ (wellFormed_resumeFile e) fits.resume]
    rfl
  have torrent : parseBytes sha1 (writeRtorrentOne e).torrent = .ok m := parsed
  have said : (parseRtorrent (sidecar e)).dataRoot = some (rtorrentDirectory e) := by
    change ((((sidecar e).dictGet "directory").bind Value.asStr).or _) = _
    rw [sidecar_directory, Option.bind_some, Value.asStr, Value.asBytes, Option.bind_some,
      Utf8.decode_encode]
    rfl
  have up : (parseRtorrent (sidecar e)).totalUploaded = some (asI64 e.uploaded).toInt.toNat := by
    change ((((sidecar e).dictGet "total_uploaded").bind Value.asInt).map _) = _
    rw [sidecar_totalUploaded]
    rfl
  have down : (parseRtorrent (sidecar e)).totalDownloaded = some (asI64 e.downloaded).toInt.toNat := by
    change ((((sidecar e).dictGet "total_downloaded").bind Value.asInt).map _) = _
    rw [sidecar_totalDownloaded]
    rfl
  have read : (reading (resumeFile e)).dictGet "bitfield" = some (reading (resumeBits e)) := by
    rw [dictGet_reading _ _ (key_text "bitfield" (by simp)), resume_bitfield]
    rfl
  have out : Ingest.resumeBitfield .default ((reading (resumeFile e)).dictGet "bitfield") m.pieceCount =
      resumed e m.pieceCount := by rw [read, resumed]
  refine ⟨_, by rw [importOne, torrent], ?_⟩
  rw [side, resume]
  constructor
  all_goals dsimp only
  case dataRoot => rw [said, Option.getD_some]
  case complete =>
    change (Ingest.resumeBitfield .default _ m.pieceCount).complete = _
    rw [out]
  case haveCount =>
    change (Ingest.resumeBitfield .default _ m.pieceCount).haveCount = _
    rw [out]
  case bits =>
    have bits : (parseResume (reading (resumeFile e)) m.pieceCount).bitfield =
        (resumed e m.pieceCount).bitfield := by
      change (Ingest.resumeBitfield .default _ m.pieceCount).bitfield = _
      rw [out]
    rw [bits]
    split_ifs with none
    · exact none.2.symm
    · rfl
  case uploaded =>
    have counted : (parseResume (reading (resumeFile e)) m.pieceCount).uploaded =
        (asI64 e.uploaded).toInt.toNat :=
      counter_reading (resumeFile e) _ "uploaded" (by simp) (resume_uploaded e)
    rw [up, Option.getD_some, counted, max_self]
  case downloaded =>
    have counted : (parseResume (reading (resumeFile e)) m.pieceCount).downloaded =
        (asI64 e.downloaded).toInt.toNat :=
      counter_reading (resumeFile e) _ "downloaded" (by simp) (resume_downloaded e)
    rw [down, Option.getD_some, counted, max_self]
  case createdAt =>
    intro positive
    rw [createdAtHint_sidecar e positive, Option.some_or, RtorrentSide.nonzero,
      Option.filter_some_pos (by rw [decide_eq_true_eq]; exact positive), Option.getD_some]
  case priorities =>
    have kept : (e.filePriorities.map Int32.toInt).map Int32.ofInt = e.filePriorities := by
      rw [List.map_map]
      refine (List.map_congr_left (fun p _ => ?_)).trans (List.map_id _)
      exact Int32.ofInt_toInt p
    rw [filePriorities_resumeFile, kept]
  case trackerKey =>
    rw [key_sidecar]
    by_cases set : e.trackerKey ≠ 0
    · rw [if_pos set, if_pos set, Option.filter_some_pos (by rw [decide_eq_true_eq]; exact set),
        Option.getD_some]
    · rw [if_neg set, if_neg set]
      rfl

/-! ### Which directory comes back -/

/-- The directory of a multi-file torrent survives where its name is that of one entry and the
directory, in its shortest form, is not the entry of that name in another; and where the name adds
nothing to the directory or replaces it by itself. -/
structure RootSurvives (root name : List Char) : Prop where
  entry : Plain name → if fileName root = some name then parent root = some []
    else root ≠ [] ∧ trimPath root = root
  other : ¬ Plain name → if name = [] then root = [] ∨ root.getLast? = some '/'
    else rooted name = true ∧ name = root

theorem join_longer (root name : List Char) (nonempty : name ≠ []) (relative : ¬ rooted name = true) :
    root.length < (join root name).length := by
  have long := List.length_pos_iff.2 nonempty
  rw [join, if_neg relative]
  split_ifs
  · rw [List.length_append]
    omega
  · rw [List.length_append, List.length_cons]
    omega

theorem strip_join_iff (root name : List Char) (apart : fileName root ≠ some name) :
    stripTrailingTorrentName (join root name) name = root ↔ RootSurvives root name := by
  by_cases plain : Plain name
  · have relative : ¬ rooted name = true := by
      rw [rooted, decide_eq_true_eq]
      exact fun head => plain.2.1 (List.mem_of_head? head)
    rw [stripTrailingTorrentName, if_pos (fileName_join root name plain), parent_join root name plain]
    dsimp only
    have survives : RootSurvives root name ↔ root ≠ [] ∧ trimPath root = root := by
      constructor
      · intro survives
        have entry := survives.entry plain
        rwa [if_neg apart] at entry
      · intro short
        exact ⟨fun _ => by rwa [if_neg apart], fun other => absurd plain other⟩
    rw [survives]
    split_ifs with none
    · constructor
      · intro same
        have longer := join_longer root name plain.1 relative
        rw [same] at longer
        exact absurd longer (Nat.lt_irrefl _)
      · intro short
        exact absurd (short.2.symm.trans none) short.1
    · constructor
      · intro same
        exact ⟨fun empty => none (same.trans empty), same⟩
      · exact fun short => short.2
  · have other : fileName (join root name) ≠ some name :=
      fun found => plain (plain_of_fileName _ name found)
    rw [stripTrailingTorrentName, if_neg other]
    have survives : RootSurvives root name ↔ if name = [] then root = [] ∨ root.getLast? = some '/'
        else rooted name = true ∧ name = root :=
      ⟨fun survives => survives.other plain, fun kept => ⟨fun entry => absurd entry plain, fun _ => kept⟩⟩
    rw [survives]
    by_cases empty : name = []
    · rw [if_pos empty, empty, join, if_neg (by decide)]
      by_cases closed : root = [] ∨ root.getLast? = some '/'
      · rw [if_pos closed, List.append_nil]
        exact ⟨fun _ => closed, fun _ => rfl⟩
      · rw [if_neg closed]
        refine ⟨fun same => ?_, fun closed' => absurd closed' closed⟩
        have longer := congrArg List.length same
        rw [List.length_append, List.length_singleton] at longer
        omega
    · rw [if_neg empty]
      by_cases absolute : rooted name = true
      · rw [join, if_pos absolute]
        exact ⟨fun same => ⟨absolute, same⟩, fun both => both.2⟩
      · refine ⟨fun same => ?_, fun both => absurd both.1 absolute⟩
        have longer := join_longer root name empty absolute
        rw [same] at longer
        exact absurd longer (Nat.lt_irrefl _)

theorem strip_named_iff (root name : List Char) (named : fileName root = some name) :
    stripTrailingTorrentName root name = root ↔ RootSurvives root name := by
  have plain := plain_of_fileName root name named
  have survives : RootSurvives root name ↔ parent root = some [] := by
    constructor
    · intro survives
      have entry := survives.entry plain
      rwa [if_pos named] at entry
    · intro bare
      exact ⟨fun _ => by rwa [if_pos named], fun other => absurd plain other⟩
  rw [survives, stripTrailingTorrentName, if_pos named]
  cases before : parent root with
  | none =>
    rw [fileName] at named
    rw [parent] at before
    cases split : components root with
    | nil =>
      rw [split] at named
      cases named
    | cons last rest =>
      rw [split] at before
      cases before
  | some front =>
    dsimp only
    split_ifs with empty
    · rw [empty]
      exact ⟨fun _ => rfl, fun _ => rfl⟩
    · constructor
      · intro same
        have shorter := parent_shorter root front before
        rw [same] at shorter
        exact absurd shorter (Nat.lt_irrefl _)
      · intro bare
        exact absurd (Option.some.inj bare) empty

theorem directory_iff (e : ExportTorrent) (m : Metainfo) (name : e.name = m.name)
    (multi : e.isMultiFile = m.isMultiFile) :
    (if m.isMultiFile then stripTrailingTorrentName (rtorrentDirectory e) m.name
      else rtorrentDirectory e) = e.dataRoot ↔ (m.isMultiFile = true → RootSurvives e.dataRoot m.name) := by
  rw [rtorrentDirectory, multi, name]
  by_cases many : m.isMultiFile = true
  · rw [if_pos many, if_pos many]
    by_cases named : fileName e.dataRoot = some m.name
    · rw [if_pos named, strip_named_iff _ _ named]
      exact ⟨fun survives _ => survives, fun survives => survives many⟩
    · rw [if_neg named, strip_join_iff _ _ named]
      exact ⟨fun survives _ => survives, fun survives => survives many⟩
  · rw [if_neg many, if_neg many]
    exact ⟨fun _ single => absurd single many, fun _ => rfl⟩

/-! ### Which pieces come back -/

/-- The bits of a partial torrent, as they are loaded. -/
def partialBits (t : TorrentRow) (pieceCount : Nat) : Bits := t.bits.getD (emptyBitfield pieceCount)

/-- A complete torrent has pieces; a partial one has a bitfield of its length that counts as it says,
and not as all pieces. -/
structure PiecesSurvive (t : TorrentRow) (pieceCount : Nat) : Prop where
  complete : t.complete = true → 0 < pieceCount
  sized : t.complete = false → (partialBits t pieceCount).length = bitfieldSizeBytes pieceCount
  counted : t.complete = false → t.haveCount = countHaveBits (partialBits t pieceCount) pieceCount
  unfinished : t.complete = false →
    ¬ (countHaveBits (partialBits t pieceCount) pieceCount = pieceCount ∧ 0 < pieceCount)

/-- What is loaded of the pieces that resume data marks. -/
def loaded (out : ResumeData) (pieceCount : Nat) : Bool × Bits × Nat :=
  if out.complete then (true, allSetBitfield pieceCount, pieceCount)
  else (false, out.bitfield.getD (emptyBitfield pieceCount), out.haveCount)

theorem loaded_imported (around : Surroundings) (e : ExportTorrent) (m : Metainfo) (t : TorrentRow)
    (imported : Imported around e m t) :
    t.loadBitfieldBytes m.pieceCount = loaded (resumed e m.pieceCount) m.pieceCount := by
  rw [TorrentRow.loadBitfieldBytes, imported.complete, imported.bits, imported.haveCount, loaded]

theorem all_zero_iff (b : Bits) (pieceCount : Nat) (zero : b.all (fun byte => byte = 0) = true) :
    b = emptyBitfield pieceCount ↔ b.length = bitfieldSizeBytes pieceCount := by
  rw [emptyBitfield, List.eq_replicate_iff]
  exact ⟨fun both => both.1, fun sized => ⟨sized, fun byte member =>
    of_decide_eq_true (List.all_eq_true.1 zero byte member)⟩⟩

theorem pieces_iff (t : TorrentRow) (blob : Bytes) (m : Metainfo) (narrow : m.pieceCount < 2 ^ 32) :
    loaded (resumed (exportOf t blob m) m.pieceCount) m.pieceCount =
      t.loadBitfieldBytes m.pieceCount ↔ PiecesSurvive t m.pieceCount := by
  cases complete : t.complete with
  | true =>
    have load : t.loadBitfieldBytes m.pieceCount =
        (true, allSetBitfield m.pieceCount, m.pieceCount) := by
      rw [TorrentRow.loadBitfieldBytes, complete, if_pos rfl]
    have whole : (exportOf t blob m).complete = true := by
      rw [exportOf, load]
    have count : (exportOf t blob m).pieceCount = m.pieceCount := rfl
    have bits : reading (resumeBits (exportOf t blob m)) = .int m.pieceCount := by
      rw [resumeBits, whole, if_pos rfl, count, reading, toInt_asI64 _ (by omega)]
    have survives : PiecesSurvive t m.pieceCount ↔ 0 < m.pieceCount :=
      ⟨fun survives => survives.complete complete, fun positive => ⟨fun _ => positive,
        fun other => (by rw [complete] at other; cases other),
        fun other => (by rw [complete] at other; cases other),
        fun other => (by rw [complete] at other; cases other)⟩⟩
    rw [survives, load, resumed, bits, Ingest.resumeBitfield]
    by_cases positive : 0 < m.pieceCount
    · rw [if_pos ⟨by omega, positive⟩]
      exact ⟨fun _ => positive, fun _ => rfl⟩
    · rw [if_neg (fun both => positive both.2), if_pos (by omega)]
      exact ⟨fun clash => absurd (congrArg Prod.fst clash) Bool.false_ne_true,
        fun clash => absurd clash positive⟩
  | false =>
    have load : t.loadBitfieldBytes m.pieceCount =
        (false, partialBits t m.pieceCount, t.haveCount) := by
      rw [TorrentRow.loadBitfieldBytes, complete, if_neg Bool.false_ne_true, partialBits]
    have survives : PiecesSurvive t m.pieceCount ↔
        (partialBits t m.pieceCount).length = bitfieldSizeBytes m.pieceCount ∧
        t.haveCount = countHaveBits (partialBits t m.pieceCount) m.pieceCount ∧
        ¬ (countHaveBits (partialBits t m.pieceCount) m.pieceCount = m.pieceCount ∧
          0 < m.pieceCount) :=
      ⟨fun survives => ⟨survives.sized complete, survives.counted complete, survives.unfinished complete⟩,
        fun parts => ⟨fun other => (by rw [complete] at other; cases other), fun _ => parts.1,
          fun _ => parts.2.1, fun _ => parts.2.2⟩⟩
    have written : (exportOf t blob m).bitfield =
        if (partialBits t m.pieceCount).all (fun byte => byte = 0) then none
        else some (partialBits t m.pieceCount) := by
      rw [exportOf, load]
      rfl
    have incomplete : (exportOf t blob m).complete = false := by
      rw [exportOf, load]
    rw [survives, load]
    generalize partialBits t m.pieceCount = b at written ⊢
    by_cases zero : b.all (fun byte => byte = 0) = true
    · have bits : reading (resumeBits (exportOf t blob m)) = .int 0 := by
        rw [resumeBits, incomplete, if_neg Bool.false_ne_true, written, if_pos zero]
        rfl
      have same := all_zero_iff b m.pieceCount zero
      rw [resumed, bits, Ingest.resumeBitfield, if_neg (by omega), if_pos rfl, ← same]
      change (false, emptyBitfield m.pieceCount, 0) = (false, b, t.haveCount) ↔ _
      constructor
      · intro equal
        have halves := Prod.mk.inj (Prod.mk.inj equal).2
        rw [← halves.1, countHaveBits_emptyBitfield, ← halves.2]
        exact ⟨rfl, rfl, by omega⟩
      · rintro ⟨rfl, counted, -⟩
        rw [counted, countHaveBits_emptyBitfield]
    · have bits : reading (resumeBits (exportOf t blob m)) = .bytes b := by
        rw [resumeBits, incomplete, if_neg Bool.false_ne_true, written, if_neg zero]
        rfl
      rw [resumed, bits, Ingest.resumeBitfield]
      by_cases sized : b.length = bitfieldSizeBytes m.pieceCount
      · rw [if_pos sized, ResumeData.pieceBits, loaded]
        by_cases whole : countHaveBits b m.pieceCount = m.pieceCount ∧ 0 < m.pieceCount
        · rw [decide_eq_true whole, if_pos rfl]
          exact ⟨fun clash => absurd (congrArg Prod.fst clash).symm Bool.false_ne_true,
            fun parts => absurd whole parts.2.2⟩
        · rw [decide_eq_false whole, if_neg Bool.false_ne_true]
          change (false, b, countHaveBits b m.pieceCount) = (false, b, t.haveCount) ↔ _
          constructor
          · intro equal
            exact ⟨sized, (Prod.mk.inj (Prod.mk.inj equal).2).2.symm, whole⟩
          · intro parts
            rw [parts.2.1]
      · rw [if_neg sized]
        change (false, emptyBitfield m.pieceCount, 0) = (false, b, t.haveCount) ↔ _
        constructor
        · intro equal
          have empty := (Prod.mk.inj (Prod.mk.inj equal).2).1
          rw [← empty, emptyBitfield_length] at sized
          exact absurd rfl sized
        · exact fun parts => absurd parts.1 sized

/-! ### The round trip -/

theorem total_iff (total : Int64) :
    asI64 (asI64 (asU64 total)).toInt.toNat = total ↔ 0 ≤ total.toInt := by
  have high := total.toInt_lt
  rw [asI64_asU64, ← Int64.toInt_inj, toInt_asI64 _ (by omega)]
  omega

theorem priorities_iff (files : Nat) (priorities : List Int32) :
    (List.range files).map (fun idx => (priorities[idx]?).getD 1) = priorities ↔
      priorities.length = files := by
  constructor
  · intro same
    have lengths := congrArg List.length same
    rw [List.length_map, List.length_range] at lengths
    exact lengths.symm
  · rintro rfl
    apply List.ext_getElem
    · rw [List.length_map, List.length_range]
    · intro idx _ inside
      rw [List.getElem_map, List.getElem_range, List.getElem?_eq_getElem inside, Option.getD_some]

/-- What an import keeps of a row. -/
structure Preserved (pieceCount : Nat) (t t' : TorrentRow) : Prop where
  dataRoot : t'.dataRoot = t.dataRoot
  pieces : t'.loadBitfieldBytes pieceCount = t.loadBitfieldBytes pieceCount
  uploaded : t'.uploaded = t.uploaded
  downloaded : t'.downloaded = t.downloaded
  priorities : t'.priorities = t.priorities
  trackerKey : t'.trackerKey = t.trackerKey
  createdAt : 0 < t.createdAt.toInt → t'.createdAt = t.createdAt

/-- The torrent is exported, and comes back from the session as it was. -/
def Survives (sha1 : Bytes → Bytes) (around : Surroundings) (t : TorrentRow) : Prop :=
  ∃ files m t', exportRtorrent sha1 t = some files ∧ parseBytes sha1 files.torrent = .ok m ∧
    importOne sha1 around files = .ok t' ∧ Preserved m.pieceCount t t'

/-- The rows of a torrent that survive. -/
structure Exportable (m : Metainfo) (t : TorrentRow) : Prop where
  root : m.isMultiFile = true → RootSurvives t.dataRoot m.name
  pieces : PiecesSurvive t m.pieceCount
  uploaded : 0 ≤ t.uploaded.toInt
  downloaded : 0 ≤ t.downloaded.toInt
  files : t.priorities.length = m.files.length
  key : t.trackerKey ≠ 0

theorem preserved_iff (around : Surroundings) (t t' : TorrentRow) (blob : Bytes) (m : Metainfo)
    (narrow : m.pieceCount < 2 ^ 32) (imported : Imported around (exportOf t blob m) m t') :
    Preserved m.pieceCount t t' ↔ Exportable m t := by
  have root := directory_iff (exportOf t blob m) m rfl rfl
  have pieces := pieces_iff t blob m narrow
  have key : t'.trackerKey = t.trackerKey ↔ t.trackerKey ≠ 0 := by
    rw [imported.trackerKey]
    change (if t.trackerKey ≠ 0 then t.trackerKey else around.generated) = t.trackerKey ↔ _
    by_cases set : t.trackerKey ≠ 0
    · rw [if_pos set]
      exact ⟨fun _ => set, fun _ => rfl⟩
    · rw [if_neg set]
      exact ⟨fun same => absurd (same.trans (not_not.1 set)) around.generated_ne,
        fun kept => absurd kept set⟩
  rw [← imported.dataRoot] at root
  rw [← loaded_imported around _ m t' imported] at pieces
  constructor
  · intro kept
    exact ⟨root.1 kept.dataRoot, pieces.1 kept.pieces,
      (total_iff t.uploaded).1 (imported.uploaded.symm.trans kept.uploaded),
      (total_iff t.downloaded).1 (imported.downloaded.symm.trans kept.downloaded),
      (priorities_iff _ _).1 (imported.priorities.symm.trans kept.priorities), key.1 kept.trackerKey⟩
  · intro exportable
    exact ⟨root.2 exportable.root, pieces.2 exportable.pieces,
      imported.uploaded.trans ((total_iff t.uploaded).2 exportable.uploaded),
      imported.downloaded.trans ((total_iff t.downloaded).2 exportable.downloaded),
      imported.priorities.trans ((priorities_iff _ _).2 exportable.files),
      key.2 exportable.key, imported.createdAt⟩

theorem pieceCount_narrow (sha1 : Bytes → Bytes) (blob : Bytes) (m : Metainfo)
    (parsed : parseBytes sha1 blob = .ok m) : m.pieceCount < 2 ^ 32 := by
  obtain ⟨parts, accepted⟩ := Torrentfile.Geometry.parseBytes_parsed sha1 blob m parsed
  rw [accepted.result]
  exact Nat.mod_lt _ (by decide)

/-- A torrent with its `.torrent` survives exactly when its columns are exportable. -/
theorem survives_iff_exportable (sha1 : Bytes → Bytes) (around : Surroundings) (t : TorrentRow)
    (blob : Bytes) (m : Metainfo) (stored : t.blob = some blob) (parsed : parseBytes sha1 blob = .ok m)
    (fits : Fits (exportOf t blob m)) : Survives sha1 around t ↔ Exportable m t := by
  have exported : exportRtorrent sha1 t = some (writeRtorrentOne (exportOf t blob m)) := by
    rw [exportRtorrent, loadExportTorrent, stored]
    dsimp only
    rw [parsed]
  obtain ⟨t', imported, details⟩ := importOne_written sha1 around (exportOf t blob m) m parsed fits
  have kept := preserved_iff around t t' blob m (pieceCount_narrow sha1 blob m parsed) details
  rw [← kept]
  constructor
  · rintro ⟨files, m', t'', exported', parsed', imported', preserved⟩
    have same : writeRtorrentOne (exportOf t blob m) = files :=
      Option.some.inj (exported.symm.trans exported')
    rw [← same] at parsed' imported'
    have meta' : m = m' := Except.ok.inj (parsed.symm.trans parsed')
    have row : t' = t'' := Except.ok.inj (imported.symm.trans imported')
    rw [meta', row]
    exact preserved
  · exact fun preserved => ⟨_, m, t', exported, parsed, imported, preserved⟩

/-- An export and an import of the session give back a torrent exactly when its `.torrent` is kept and
its columns are exportable. -/
theorem export_import_iff (sha1 : Bytes → Bytes) (around : Surroundings) (t : TorrentRow)
    (fits : ∀ blob m, t.blob = some blob → parseBytes sha1 blob = .ok m → Fits (exportOf t blob m)) :
    Survives sha1 around t ↔
      ∃ blob m, t.blob = some blob ∧ parseBytes sha1 blob = .ok m ∧ Exportable m t := by
  constructor
  · intro survives
    obtain ⟨files, m', t', exported, -⟩ := id survives
    rw [exportRtorrent, loadExportTorrent] at exported
    cases stored : t.blob with
    | none =>
      rw [stored] at exported
      cases exported
    | some blob =>
      rw [stored] at exported
      dsimp only at exported
      cases parsed : parseBytes sha1 blob with
      | error problem =>
        rw [parsed] at exported
        cases exported
      | ok m =>
        exact ⟨blob, m, rfl, parsed, (survives_iff_exportable sha1 around t blob m stored parsed
          (fits blob m stored parsed)).1 survives⟩
  · rintro ⟨blob, m, stored, parsed, exportable⟩
    exact (survives_iff_exportable sha1 around t blob m stored parsed (fits blob m stored parsed)).2
      exportable

/-- A torrent of one file in a directory of its own. -/
def packTorrent : Bytes :=
  Value.key "d4:infod5:filesld6:lengthi1e4:pathl1:aeee4:name4:pack12:piece lengthi16384e6:pieces20:" ++
    (0xaa :: List.replicate 19 0) ++ Value.key "ee"

def packMetainfo : Metainfo where
  infohash := []
  name := "pack".toList
  pieceLength := 16384
  pieceCount := 1
  totalSize := 1
  pieces := 0xaa :: List.replicate 19 0
  files := [⟨["pack", "a"], 1, 0⟩]
  isMultiFile := true
  priv := false
  trackers := []
  announce := none

theorem parse_packTorrent : parseBytes (fun _ => []) packTorrent = .ok packMetainfo := by decide +kernel

/-- The torrent, complete, under a data root. -/
def packUnder (dataRoot : String) : TorrentRow where
  blob := some packTorrent
  dataRoot := dataRoot.toList
  complete := true
  bits := none
  haveCount := 1
  uploaded := 5
  downloaded := 1
  createdAt := 9
  finishedAt := none
  wantStart := true
  priorities := [1]
  trackerKey := 7

def elsewhere : Surroundings := ⟨".".toList, false, none, 1, 1, by decide⟩

theorem fits_packUnder (dataRoot : String)
    (small : (encode (sidecar (exportOf (packUnder dataRoot) packTorrent packMetainfo))).length < 2 ^ 63 ∧
      (encode (resumeFile (exportOf (packUnder dataRoot) packTorrent packMetainfo))).length < 2 ^ 63) :
    ∀ blob m, (packUnder dataRoot).blob = some blob → parseBytes (fun _ => []) blob = .ok m →
      Fits (exportOf (packUnder dataRoot) blob m) := by
  intro blob m stored parsed
  cases stored
  cases parse_packTorrent.symm.trans parsed
  exact ⟨small.1, small.2⟩

theorem export_import_pack : Survives (fun _ => []) elsewhere (packUnder "/dl") := by
  refine (export_import_iff (fun _ => []) elsewhere (packUnder "/dl")
    (fits_packUnder "/dl" (by decide +kernel))).2 ⟨packTorrent, packMetainfo, rfl, parse_packTorrent, ?_⟩
  refine ⟨fun _ => ⟨fun _ => by decide, fun odd => absurd odd (by decide)⟩,
    ⟨fun _ => by decide, ?_, ?_, ?_⟩, by decide, by decide, rfl, by decide⟩
  · exact fun clash => (by cases clash)
  · exact fun clash => (by cases clash)
  · exact fun clash => (by cases clash)

/-- Under a data root that has the name of the torrent the files are looked for one level too high. -/
theorem export_import_doubled : ¬ ∀ (sha1 : Bytes → Bytes) (around : Surroundings) (t : TorrentRow),
    (∀ blob m, t.blob = some blob → parseBytes sha1 blob = .ok m → Fits (exportOf t blob m)) →
      Survives sha1 around t := by
  intro always
  have fits := fits_packUnder "/dl/pack" (by decide +kernel)
  have survives := always (fun _ => []) elsewhere (packUnder "/dl/pack") fits
  have exportable := (survives_iff_exportable (fun _ => []) elsewhere (packUnder "/dl/pack") packTorrent
    packMetainfo rfl parse_packTorrent (fits packTorrent packMetainfo rfl parse_packTorrent)).1 survives
  exact absurd ((exportable.root rfl).entry (by decide)) (by decide)

end Seedchamp.Library.SessionRoundTrip
