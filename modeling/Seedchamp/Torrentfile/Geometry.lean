import Seedchamp.Torrentfile.RoundTrip
import Seedchamp.Torrentfile.Parse

/-!
The geometry of a parsed torrent: offsets, total size, piece length and piece count against the
numbers the file declares, which are 64-bit signed and are cast, summed and divided on the way.
-/

namespace Seedchamp.Torrentfile.Geometry
open Foundation.Machine Torrentfile.Bencode Torrentfile.Parse
open Disk.Spans (PathBuf)

/-- What the info dictionary of a torrent declares: the piece length, the hash string, and for each
file its length and its path list (empty for a single file). -/
structure Declared where
  pieceLength : Int64
  pieces : Bytes
  files : List (Int64 × List (List Char))
  deriving DecidableEq

def declaredEntry (f : Value) : Option (Int64 × List (List Char)) :=
  match f.dictGetInt "length" with
  | none => none
  | some length =>
    match f.dictGetList "path" with
    | none => none
    | some path => (path.mapM Value.asStr).map (fun comps => (length, comps))

def declaredFiles (info : Value) : Option (List (Int64 × List (List Char))) :=
  match info.dictGetList "files" with
  | some list => list.mapM declaredEntry
  | none => (info.dictGetInt "length").map (fun length => [(length, [])])

def declaredInfo (info : Value) : Option Declared :=
  match info.dictGetInt "piece length" with
  | none => none
  | some pieceLength =>
    match info.dictGetBytes "pieces" with
    | none => none
    | some pieces => (declaredFiles info).map (fun files => ⟨pieceLength, pieces, files⟩)

def infoOf (data : Bytes) : Option Value :=
  match decodeFull data with
  | .error _ => none
  | .ok root => root.dictGet "info"

def declared (data : Bytes) : Option Declared := (infoOf data).bind declaredInfo

/-- A component under its on-disk name; blank where the parser refuses it. -/
def normalised (comp : List Char) : List Char := (normalizePathComponent comp).getD []

/-- The files of a layout from what is declared for them. -/
def layEntries (torrentName : List Char) (offset : Nat) :
    List (Int64 × List (List Char)) → List TorrentFile
  | [] => []
  | (length, path) :: rest =>
    ⟨path.foldl (fun p comp => push p (normalised comp)) (push [] torrentName), asU64 length, offset⟩ ::
      layEntries torrentName (saturatingAdd offset (asU64 length)) rest

theorem pushComponents_ok (idx : Nat) (path result : PathBuf) (list : List Value)
    (pushed : pushComponents idx path list = .ok result) :
    ∃ comps, list.mapM Value.asStr = some comps ∧
      result = comps.foldl (fun p comp => push p (normalised comp)) path ∧
      ∀ comp ∈ comps, (normalizePathComponent comp).isSome = true := by
  induction list generalizing path with
  | nil =>
    cases pushed
    exact ⟨[], rfl, rfl, nofun⟩
  | cons p rest ih =>
    rw [pushComponents] at pushed
    cases text : p.asStr with
    | none =>
      rw [text] at pushed
      cases pushed
    | some s =>
      rw [text] at pushed
      dsimp only at pushed
      cases safe : normalizePathComponent s with
      | none =>
        rw [safe] at pushed
        cases pushed
      | some comp =>
        rw [safe] at pushed
        obtain ⟨comps, read, same, allowed⟩ := ih _ pushed
        refine ⟨s :: comps, ?_, ?_, ?_⟩
        · rw [List.mapM_cons, text, read]
          rfl
        · rw [same, List.foldl_cons, normalised, safe]
          rfl
        · intro other member
          rcases List.mem_cons.1 member with head | later
          · rw [head, safe]
            rfl
          · exact allowed other later

theorem parseEntries_ok (torrentName : List Char) (idx offset : Nat) (list : List Value)
    (files : List TorrentFile) (parsed : parseEntries torrentName idx offset list = .ok files) :
    ∃ entries, list.mapM declaredEntry = some entries ∧ files = layEntries torrentName offset entries ∧
      ∀ entry ∈ entries, ∀ comp ∈ entry.2, (normalizePathComponent comp).isSome = true := by
  induction list generalizing idx offset files with
  | nil =>
    cases parsed
    exact ⟨[], rfl, rfl, nofun⟩
  | cons f rest ih =>
    rw [parseEntries] at parsed
    split at parsed
    · cases parsed
    · rename_i length lengthGiven
      dsimp only at parsed
      split at parsed
      · cases parsed
      · rename_i pathList pathGiven
        split at parsed
        · cases parsed
        · rename_i path pushed
          split at parsed
          · cases parsed
          · rename_i later laterParsed
            cases parsed
            obtain ⟨comps, read, same, allowed⟩ := pushComponents_ok idx _ path pathList pushed
            obtain ⟨entries, listed, laid, later_allowed⟩ := ih _ _ later laterParsed
            have entry : declaredEntry f = some (length, comps) := by
              rw [declaredEntry, lengthGiven]
              dsimp only
              rw [pathGiven]
              dsimp only
              rw [read]
              rfl
            refine ⟨(length, comps) :: entries, ?_, ?_, ?_⟩
            · rw [List.mapM_cons, entry, listed]
              rfl
            · rw [layEntries, same, laid]
            · intro other member
              rcases List.mem_cons.1 member with head | rest
              · rw [head]
                exact allowed
              · exact later_allowed other rest

theorem parseFiles_ok (info : Value) (files : List TorrentFile) (parsed : parseFiles info = .ok files) :
    ∃ entries, declaredFiles info = some entries ∧
      files = layEntries (torrentNameOf info) 0 entries ∧
      ∀ entry ∈ entries, ∀ comp ∈ entry.2, (normalizePathComponent comp).isSome = true := by
  rw [parseFiles] at parsed
  split at parsed
  · rename_i list multi
    obtain ⟨entries, listed, laid, allowed⟩ := parseEntries_ok _ _ _ list files parsed
    refine ⟨entries, ?_, laid, allowed⟩
    rw [declaredFiles, multi]
    exact listed
  · rename_i single
    split at parsed
    · cases parsed
    · rename_i length lengthGiven
      cases parsed
      refine ⟨[(length, [])], ?_, rfl, ?_⟩
      · rw [declaredFiles, single]
        dsimp only
        rw [lengthGiven]
        rfl
      · intro entry member
        rw [List.mem_singleton.1 member]
        exact nofun

/-- What an accepted torrent was read from, and what the parser found. -/
structure Parts where
  root : Value
  infoRaw : Bytes
  info : Value
  pieceLength : Int64
  pieces : Bytes
  files : List TorrentFile

/-- Everything that parsing without an error has passed. -/
structure Parsed (sha1 : Bytes → Bytes) (data : Bytes) (m : Metainfo) (parts : Parts) : Prop where
  decoded : decodeFull data = .ok parts.root
  rootDict : parts.root.asDict.isSome = true
  located : findRawDictValue data (Value.key "info") = .ok parts.infoRaw
  info : parts.root.dictGet "info" = some parts.info
  pieceLength : parts.info.dictGetInt "piece length" = some parts.pieceLength
  nonzero : asU32 (asU64 parts.pieceLength) ≠ 0
  pieces : parts.info.dictGetBytes "pieces" = some parts.pieces
  whole : parts.pieces.length % 20 = 0
  files : parseFiles parts.info = .ok parts.files
  agreed : 0 < wrappingSum (parts.files.map TorrentFile.size) →
    expectedPieces (wrappingSum (parts.files.map TorrentFile.size))
      (asU32 (asU64 parts.pieceLength)) = asU32 (parts.pieces.length / 20)
  result : m = {
    infohash := sha1 parts.infoRaw
    name := nameOf parts.info
    pieceLength := asU32 (asU64 parts.pieceLength)
    pieceCount := asU32 (parts.pieces.length / 20)
    totalSize := wrappingSum (parts.files.map TorrentFile.size)
    pieces := parts.pieces
    files := parts.files
    isMultiFile := (parts.info.dictGetList "files").isSome
    priv := (parts.info.dictGetInt "private").getD 0 != 0
    trackers := trackersOf parts.root (parts.root.dictGetStr "announce")
    announce := parts.root.dictGetStr "announce" }

theorem parseBytes_parsed (sha1 : Bytes → Bytes) (data : Bytes) (m : Metainfo)
    (parsed : parseBytes sha1 data = .ok m) : ∃ parts, Parsed sha1 data m parts := by
  rw [parseBytes] at parsed
  split at parsed
  · cases parsed
  · rename_i root decoded
    split at parsed
    · cases parsed
    · rename_i rootDict
      split at parsed
      · cases parsed
      · rename_i infoRaw located
        split at parsed
        · cases parsed
        · rename_i info infoGiven
          split at parsed
          · cases parsed
          · rename_i pieceLength lengthGiven
            dsimp only at parsed
            split at parsed
            · cases parsed
            · rename_i nonzero
              split at parsed
              · cases parsed
              · rename_i pieces piecesGiven
                split at parsed
                · cases parsed
                · rename_i whole
                  split at parsed
                  · cases parsed
                  · rename_i files filesParsed
                    split at parsed
                    · cases parsed
                    · rename_i agreed
                      cases parsed
                      refine ⟨⟨root, infoRaw, info, pieceLength, pieces, files⟩, decoded, ?_, located,
                        infoGiven, lengthGiven, nonzero, piecesGiven, not_not.1 whole, filesParsed, ?_,
                        rfl⟩
                      · rw [Option.isSome_iff_ne_none]
                        exact fun missing => rootDict (Option.isNone_iff_eq_none.2 missing)
                      · intro sized
                        by_contra differs
                        exact agreed ⟨sized, differs⟩

/-- An accepted torrent against what it declares: the casts, the wrapped sum and the checks. -/
structure Accepted (data : Bytes) (m : Metainfo) (torrentName : List Char) (d : Declared) : Prop where
  declared : declared data = some d
  pieceLength : m.pieceLength = asU32 (asU64 d.pieceLength)
  positive : 0 < m.pieceLength
  pieces : m.pieces = d.pieces
  whole : d.pieces.length % 20 = 0
  pieceCount : m.pieceCount = asU32 (d.pieces.length / 20)
  files : m.files = layEntries torrentName 0 d.files
  totalSize : m.totalSize = wrappingSum (m.files.map TorrentFile.size)
  agreed : 0 < m.totalSize → expectedPieces m.totalSize m.pieceLength = m.pieceCount

/-- Everything that parsing without an error has established. -/
theorem parseBytes_ok (sha1 : Bytes → Bytes) (data : Bytes) (m : Metainfo)
    (parsed : parseBytes sha1 data = .ok m) : ∃ torrentName d, Accepted data m torrentName d := by
  obtain ⟨parts, read⟩ := parseBytes_parsed sha1 data m parsed
  obtain ⟨entries, listed, laid, _⟩ := parseFiles_ok parts.info parts.files read.files
  refine ⟨torrentNameOf parts.info, ⟨parts.pieceLength, parts.pieces, entries⟩, ?_⟩
  rw [read.result]
  constructor
  · rw [declared, infoOf, read.decoded]
    dsimp only
    rw [read.info, Option.bind_some, declaredInfo, read.pieceLength]
    dsimp only
    rw [read.pieces]
    dsimp only
    rw [listed]
    rfl
  · rfl
  · exact Nat.pos_of_ne_zero read.nonzero
  · rfl
  · exact read.whole
  · rfl
  · exact laid
  · rfl
  · exact read.agreed

def declaredTotal (d : Declared) : Int := (d.files.map (fun file => file.1.toInt)).sum

/-- The exact geometry of a torrent, and the refusal of every declaration it cannot have. -/
structure Exact (d : Declared) (m : Metainfo) : Prop where
  contiguous : ∀ k file, m.files[k]? = some file →
    file.offset = ((m.files.take k).map TorrentFile.size).sum
  sizes : m.files.map (fun file => (file.size : Int)) = d.files.map (fun file => file.1.toInt)
  total : (m.totalSize : Int) = declaredTotal d
  pieceLength : (m.pieceLength : Int) = d.pieceLength.toInt ∧ 0 < m.pieceLength
  hashes : m.pieces.length = 20 * m.pieceCount
  covered : 0 < m.totalSize → (m.pieceCount - 1) * m.pieceLength < m.totalSize ∧
    m.totalSize ≤ m.pieceCount * m.pieceLength
  noNegative : ∀ file ∈ d.files, 0 ≤ file.1.toInt
  pieceLengthFits : d.pieceLength.toInt < 2 ^ 32
  totalFits : declaredTotal d < 2 ^ 64

/-- The declared numbers fit the fields they are stored in. -/
structure InRange (d : Declared) : Prop where
  lengths : ∀ file ∈ d.files, 0 ≤ file.1.toInt
  total : declaredTotal d < 2 ^ 64
  pieceLength : 0 < d.pieceLength.toInt ∧ d.pieceLength.toInt < 2 ^ 32
  hashes : d.pieces.length < 20 * 2 ^ 32
  pieces : declaredTotal d ≤ (u32Max : Int) * d.pieceLength.toInt

theorem asU64_of_nonneg (v : Int64) (nonneg : 0 ≤ v.toInt) : (asU64 v : Int) = v.toInt := by
  have high := Int64.toInt_lt v
  rw [asU64]
  omega

theorem asU32_asU64 (v : Int64) (low : 0 ≤ v.toInt) (high : v.toInt < 2 ^ 32) :
    (asU32 (asU64 v) : Int) = v.toInt := by
  have wide := asU64_of_nonneg v low
  rw [asU32_of_lt _ (by omega)]
  exact wide

theorem sizes_layEntries (torrentName : List Char) (offset : Nat)
    (entries : List (Int64 × List (List Char))) :
    (layEntries torrentName offset entries).map TorrentFile.size =
      entries.map (fun entry => asU64 entry.1) := by
  induction entries generalizing offset with
  | nil => rfl
  | cons entry rest ih => rw [layEntries, List.map_cons, List.map_cons, ih]

/-- While nothing saturates, every file starts where the ones before it end. -/
theorem layEntries_offset (torrentName : List Char) (offset : Nat)
    (entries : List (Int64 × List (List Char)))
    (fits : offset + (entries.map (fun entry => asU64 entry.1)).sum < 2 ^ 64) (k : Nat)
    (file : TorrentFile) (listed : (layEntries torrentName offset entries)[k]? = some file) :
    file.offset =
      offset + (((layEntries torrentName offset entries).take k).map TorrentFile.size).sum := by
  induction entries generalizing offset k with
  | nil => cases listed
  | cons entry rest ih =>
    rw [List.map_cons, List.sum_cons] at fits
    rw [layEntries] at listed ⊢
    cases k with
    | zero =>
      rw [List.getElem?_cons_zero, Option.some.injEq] at listed
      rw [← listed]
      rfl
    | succ k =>
      rw [List.getElem?_cons_succ] at listed
      have step : saturatingAdd offset (asU64 entry.1) = offset + asU64 entry.1 :=
        saturatingAdd_of_lt _ _ (by omega)
      have later := ih (saturatingAdd offset (asU64 entry.1)) (by rw [step]; omega) k listed
      rw [later, List.take_succ_cons, List.map_cons, List.sum_cons, step]
      dsimp only
      omega

/-- Declared lengths that are not negative are stored as they are. -/
theorem sizes_exact (torrentName : List Char) (entries : List (Int64 × List (List Char)))
    (lengths : ∀ entry ∈ entries, 0 ≤ entry.1.toInt) :
    (layEntries torrentName 0 entries).map (fun file => (file.size : Int)) =
      entries.map (fun entry => entry.1.toInt) := by
  have sizes := congrArg (List.map (fun n : Nat => (n : Int))) (sizes_layEntries torrentName 0 entries)
  rw [List.map_map, List.map_map] at sizes
  refine Eq.trans sizes (List.map_congr_left ?_)
  intro entry member
  exact asU64_of_nonneg entry.1 (lengths entry member)

theorem sum_cast (sizes : List Nat) : ((sizes.sum : Nat) : Int) = (sizes.map (fun n : Nat => (n : Int))).sum := by
  induction sizes with
  | nil => rfl
  | cons size rest ih => rw [List.sum_cons, List.map_cons, List.sum_cons, ← ih, Int.natCast_add]

/-- A rounded-up quotient is the number of pieces between which the total lies. -/
theorem ceil_eq_iff (total size count : Nat) (positive : 0 < size) (sized : 0 < total) :
    (total + size - 1) / size = count ↔ (count - 1) * size < total ∧ total ≤ count * size := by
  constructor
  · intro rounded
    have below := Nat.div_mul_le_self (total + size - 1) size
    have above := Nat.lt_div_mul_add positive (a := total + size - 1)
    rw [rounded] at below above
    rw [Nat.sub_mul, Nat.one_mul]
    omega
  · intro between
    obtain ⟨low, high⟩ := between
    cases count with
    | zero => omega
    | succ count =>
      rw [Nat.add_sub_cancel] at low
      rw [Nat.succ_mul] at high
      apply Nat.div_eq_of_lt_le
      · rw [Nat.succ_mul]
        omega
      · rw [Nat.succ_mul, Nat.succ_mul]
        omega

section
variable (data : Bytes) (m : Metainfo) (torrentName : List Char) (d : Declared)

/-- In range, the sizes and their sum are the declared ones. -/
theorem sizes_in_range (accepted : Accepted data m torrentName d) (inRange : InRange d) :
    m.files.map (fun file => (file.size : Int)) = d.files.map (fun file => file.1.toInt) ∧
      (((m.files.map TorrentFile.size).sum : Nat) : Int) = declaredTotal d := by
  have sizes := sizes_exact torrentName d.files inRange.lengths
  rw [← accepted.files] at sizes
  refine ⟨sizes, ?_⟩
  rw [sum_cast, List.map_map, declaredTotal, ← sizes]
  rfl

theorem exact_of_inRange (accepted : Accepted data m torrentName d) (inRange : InRange d) :
    Exact d m := by
  obtain ⟨sizes, sum⟩ := sizes_in_range data m torrentName d accepted inRange
  obtain ⟨lengthPositive, lengthFits⟩ := inRange.pieceLength
  have small := inRange.total
  have total : (m.totalSize : Int) = declaredTotal d := by
    rw [accepted.totalSize, wrappingSum]
    omega
  have pieceLength : (m.pieceLength : Int) = d.pieceLength.toInt := by
    rw [accepted.pieceLength]
    exact asU32_asU64 d.pieceLength (by omega) lengthFits
  have count : m.pieceCount = d.pieces.length / 20 := by
    have bounded := inRange.hashes
    rw [accepted.pieceCount]
    exact asU32_of_lt _ (by omega)
  constructor
  · intro k file listed
    have fits : 0 + (d.files.map (fun entry => asU64 entry.1)).sum < 2 ^ 64 := by
      rw [← sizes_layEntries torrentName 0 d.files, ← accepted.files]
      omega
    rw [accepted.files] at listed ⊢
    have placed := layEntries_offset torrentName 0 d.files fits k file listed
    rw [placed, Nat.zero_add]
  · exact sizes
  · exact total
  · exact ⟨pieceLength, accepted.positive⟩
  · have whole := accepted.whole
    rw [accepted.pieces, count]
    omega
  · intro sized
    have agreed := accepted.agreed sized
    have within := inRange.pieces
    rw [← total, ← pieceLength] at within
    have few : (m.totalSize + m.pieceLength - 1) / m.pieceLength < 2 ^ 32 := by
      rw [Nat.div_lt_iff_lt_mul accepted.positive]
      have room : m.totalSize ≤ u32Max * m.pieceLength := by exact_mod_cast within
      have positive := accepted.positive
      rw [u32Max] at room
      omega
    rw [expectedPieces, asU32_of_lt _ few] at agreed
    exact (ceil_eq_iff _ _ _ accepted.positive sized).1 agreed
  · exact inRange.lengths
  · exact lengthFits
  · exact small

theorem inRange_of_exact (accepted : Accepted data m torrentName d) (exact : Exact d m) :
    InRange d := by
  obtain ⟨pieceLength, positive⟩ := exact.pieceLength
  have narrow : m.pieceCount < 2 ^ 32 := by
    rw [accepted.pieceCount, asU32]
    exact Nat.mod_lt _ (by decide)
  constructor
  · exact exact.noNegative
  · exact exact.totalFits
  · exact ⟨by omega, exact.pieceLengthFits⟩
  · have hashes := exact.hashes
    rw [accepted.pieces] at hashes
    omega
  · rw [← exact.total, ← pieceLength]
    by_cases sized : 0 < m.totalSize
    · have within := (exact.covered sized).2
      have grown : m.pieceCount * m.pieceLength ≤ u32Max * m.pieceLength :=
        Nat.mul_le_mul_right _ (Nat.le_pred_of_lt narrow)
      exact_mod_cast within.trans grown
    · have none : m.totalSize = 0 := by omega
      rw [none]
      exact Int.mul_nonneg (Int.natCast_nonneg _) (Int.natCast_nonneg _)

end

/-- An accepted torrent has the exact geometry of what it declares just when the declared numbers
fit the fields they are stored in. -/
theorem parseBytes_geometry (sha1 : Bytes → Bytes) (data : Bytes) (m : Metainfo)
    (parsed : parseBytes sha1 data = .ok m) :
    ∃ d, declared data = some d ∧ (Exact d m ↔ InRange d) := by
  obtain ⟨torrentName, d, accepted⟩ := parseBytes_ok sha1 data m parsed
  exact ⟨d, accepted.declared, inRange_of_exact data m torrentName d accepted,
    exact_of_inRange data m torrentName d accepted⟩

/-- A one-byte file in one piece. -/
def sampleTorrent : Bytes :=
  Value.key "d8:announce8:http://x4:infod6:lengthi1e4:name4:test12:piece lengthi16384e6:pieces20:" ++
    (0xaa :: List.replicate 19 0) ++ Value.key "ee"

def sampleInfohash : Bytes :=
  [58, 89, 13, 73, 124, 248, 173, 68, 136, 126, 154, 96, 172, 234, 118, 30, 1, 43, 187, 219]

def sampleMetainfo : Metainfo where
  infohash := sampleInfohash
  name := "test".toList
  pieceLength := 16384
  pieceCount := 1
  totalSize := 1
  pieces := 0xaa :: List.replicate 19 0
  files := [⟨["test"], 1, 0⟩]
  isMultiFile := false
  priv := false
  trackers := [(0, "http://x".toList)]
  announce := some "http://x".toList

theorem parseBytes_geometry_sample :
    ∃ d, declared sampleTorrent = some d ∧ (Exact d sampleMetainfo ↔ InRange d) :=
  parseBytes_geometry (fun _ => sampleInfohash) sampleTorrent sampleMetainfo (by decide +kernel)

/-- A file of length -1 in no pieces. -/
def negativeTorrent : Bytes :=
  Value.key "d4:infod6:lengthi-1e4:name1:a12:piece lengthi2147483648e6:pieces0:ee"

def negativeInfohash : Bytes :=
  [109, 20, 19, 159, 140, 78, 96, 57, 110, 7, 228, 32, 181, 167, 149, 121, 25, 52, 203, 208]

def negativeMetainfo : Metainfo where
  infohash := negativeInfohash
  name := ['a']
  pieceLength := 2 ^ 31
  pieceCount := 0
  totalSize := 2 ^ 64 - 1
  pieces := []
  files := [⟨["a"], 2 ^ 64 - 1, 0⟩]
  isMultiFile := false
  priv := false
  trackers := []
  announce := none

/-- A negative length is stored as a huge one, and its piece count wraps to the count given. -/
theorem negative_length_accepted :
    ¬ ∀ (sha1 : Bytes → Bytes) (data : Bytes) (m : Metainfo), parseBytes sha1 data = .ok m →
      ∃ d, declared data = some d ∧ Exact d m := by
  intro always
  obtain ⟨d, _, exact⟩ := always (fun _ => negativeInfohash) negativeTorrent negativeMetainfo
    (by decide +kernel)
  have covered := (exact.covered (by decide)).2
  exact absurd covered (by decide)

end Seedchamp.Torrentfile.Geometry
