import Seedchamp.Catalog.Possession

/-!
What the importers mark as had, against what the other client's resume file says. Transmission keeps
one bit for each 16 KiB block of the payload, rtorrent one bit for each piece or an integer.
-/

namespace Seedchamp.Library.Imports
open Foundation.KeyedRows Foundation.Tally Catalog.Bitfield Catalog.Table Catalog.Possession
open Library.Ingest Disk.Spans

/-- The block of a Transmission bitmap. -/
def BLOCK_SIZE : Nat := 16 * 1024

/-- The block of every byte of the piece is set. -/
def AllBlocks (b : Bits) (m : Metainfo) (i : Nat) : Prop :=
  ∀ byte, i * m.pieceLength ≤ byte → byte < min ((i + 1) * m.pieceLength) m.totalSize →
    bitfieldGet b (byte / BLOCK_SIZE) = true

/-- `progress.blocks` says `all`. -/
def SaysAll (v : Value) : Prop :=
  (v.dictGet "progress").bind (fun progress => progress.dictGet "blocks") = some (.bytes allWord)

/-- Transmission had the piece. -/
def TransmissionHas (root : Option Value) (m : Metainfo) (i : Nat) : Prop :=
  ∃ v, root = some v ∧ (SaysAll v ∨ ∃ b, progressBlocks v = some (.bytes b) ∧ AllBlocks b m i)

/-- rtorrent had the piece. -/
def RtorrentHas (root : Option Value) (m : Metainfo) (i : Nat) : Prop :=
  ∃ v, root = some v ∧
    ((∃ b, v.dictGet "bitfield" = some (.bytes b) ∧ b.length = bitfieldSizeBytes m.pieceCount ∧
      bitfieldGet b i = true) ∨ v.dictGet "bitfield" = some (.int m.pieceCount))

/-- The catalog after an import marks a piece that it did not mark before. -/
def Marks (t t' : TorrentTable) (i : Nat) : Prop :=
  ∃ id r', t'.find? id = some r' ∧ i < r'.pieceCount ∧ r'.hasPiece i = true ∧
    ∀ r, t.find? id = some r → r.hasPiece i = false

/-- The torrent is in the catalog, if only as a deleted one. -/
def Known (t : TorrentTable) (m : Metainfo) : Prop := ∃ r ∈ t.list, r.infohash = m.infohash

/-- The bitmap means the same read as blocks and as pieces, wherever it is read as pieces. -/
structure BlocksArePieces (root : Option Value) (m : Metainfo) : Prop where
  word : ∀ v, root = some v → progressBlocks v = some (.bytes allWord) → SaysAll v ∨
    ∀ i, i < m.pieceCount → AllBlocks allWord m i
  bits : ∀ v b, root = some v → progressBlocks v = some (.bytes b) → b ≠ allWord → b ≠ noneWord →
    b.length = bitfieldSizeBytes m.pieceCount →
    ∀ i, i < m.pieceCount → bitfieldGet b i = true → AllBlocks b m i

/-- An integer that agrees with the piece count in its low 32 bits is the piece count. -/
def IntegerIsCount (root : Option Value) (m : Metainfo) : Prop :=
  ∀ v n, root = some v → v.dictGet "bitfield" = some (.int n) → n % 4294967296 = m.pieceCount →
    0 < m.pieceCount → n = m.pieceCount

/-! ### The row of an import -/

/-- The pieces that resume data marks. -/
def marked (out : ResumeData) (i : Nat) : Bool :=
  out.complete || (out.bitfield.map (bitfieldGet · i)).getD false

theorem hasPiece_imported (m : Metainfo) (dataRoot : PathBuf) (out : ResumeData) (up down : Nat)
    (start : Bool) (id i : Nat) (below : i < m.pieceCount) :
    ((importInsert m dataRoot out up down start).row id).hasPiece i = marked out i := by
  generalize built : (importInsert m dataRoot out up down start).row id = r
  have pieces : r.pieceCount = m.pieceCount := by
    rw [← built]
    rfl
  have flag : r.columns.complete = out.complete := by
    rw [← built]
    rfl
  rw [marked, Row.hasPiece]
  cases complete : out.complete with
  | true =>
    rw [loadBitfieldState_complete r (flag.trans complete), pieces, Bool.true_or]
    exact bitfieldGet_allSetBitfield _ i below
  | false =>
    have stored : r.storedBits = out.bitfield := by
      rw [← built]
      simp [importInsert, TorrentInsert.row, TorrentInsert.columns, Row.storedBits, complete]
    rw [loadBitfieldState_incomplete r (flag.trans complete), stored, Bool.false_or]
    cases out.bitfield with
    | none => exact bitfieldGet_emptyBitfield _ i
    | some bits => rfl

/-- The possession columns of a known torrent stay as they are. -/
theorem hasPiece_known (t : TorrentTable) (ins : TorrentInsert)
    (known : ∃ r ∈ t.list, r.infohash = ins.metainfo.infohash) (id : Nat) (r' : Row)
    (found : (importTorrent t ins).find? id = some r') :
    ∃ r, t.find? id = some r ∧ r'.hasPiece = r.hasPiece := by
  have changed : ∀ (t' : TorrentTable) (key : Nat) (r' : Row),
      (set t' key (fun r => importMetaColumns r.columns ins)).find? id = some r' →
        ∃ r, t'.find? id = some r ∧ r'.hasPiece = r.hasPiece := by
    intro t' key r' found
    rw [find?_set] at found
    split_ifs at found with named
    · obtain ⟨r, there, rfl⟩ := Option.map_eq_some_iff.1 found
      exact ⟨r, there, hasPiece_withColumns r _ rfl rfl⟩
    · exact ⟨r', found, rfl⟩
  rw [importTorrent, insertTorrent] at found
  cases first : t.list.find? (fun r => r.infohash = ins.metainfo.infohash) with
  | none =>
    obtain ⟨r, member, same⟩ := known
    exact absurd same (by simpa using List.find?_eq_none.1 first r member)
  | some r =>
    rw [first] at found
    dsimp only at found
    split_ifs at found with deleted
    · obtain ⟨mid, there, had⟩ := changed (restoreDeleted t r.id ins) r.id r' found
      rw [rowwise_restoreDeleted t r.id ins id] at there
      obtain ⟨before, stored, rfl⟩ := Option.map_eq_some_iff.1 there
      refine ⟨before, stored, had.trans ?_⟩
      dsimp only
      split_ifs
      · exact hasPiece_withColumns before _ rfl rfl
      · rfl
    · exact changed t r.id r' found

/-- An import marks what its resume data marks, and nothing for a torrent that is known. -/
theorem marks_import (t : TorrentTable) (m : Metainfo) (dataRoot : PathBuf) (out : ResumeData)
    (up down : Nat) (start : Bool) (i : Nat) :
    Marks t (importTorrent t (importInsert m dataRoot out up down start)) i ↔
      ¬Known t m ∧ i < m.pieceCount ∧ marked out i = true := by
  by_cases known : Known t m
  · constructor
    · rintro ⟨id, r', found, -, had, fresh⟩
      obtain ⟨r, there, same⟩ :=
        hasPiece_known t (importInsert m dataRoot out up down start) known id r' found
      rw [same] at had
      exact absurd ((fresh r there).symm.trans had) Bool.false_ne_true
    · exact fun result => absurd known result.1
  · have new : t.list.find? (fun r => r.infohash = m.infohash) = none := by
      rw [List.find?_eq_none]
      intro r member
      rw [decide_eq_true_eq]
      exact fun same => known ⟨r, member, same⟩
    have inserted : importTorrent t (importInsert m dataRoot out up down start) =
        t.append ((importInsert m dataRoot out up down start).row (nextId t))
          (row_fresh t (importInsert m dataRoot out up down start)) := by
      rw [importTorrent, insertTorrent]
      have same : (importInsert m dataRoot out up down start).metainfo = m := rfl
      rw [same, new]
    have absent : t.find? (nextId t) = none := (Rows.find?_eq_none t _).2 (nextId_fresh t)
    rw [inserted, Marks]
    constructor
    · rintro ⟨id, r', found, below, had, fresh⟩
      rw [Rows.find?_append] at found
      split_ifs at found with here
      · cases found
        exact ⟨known, below, (hasPiece_imported m dataRoot out up down start _ i below).symm.trans had⟩
      · exact absurd ((fresh r' found).symm.trans had) Bool.false_ne_true
    · rintro ⟨-, below, had⟩
      refine ⟨nextId t, (importInsert m dataRoot out up down start).row (nextId t), ?_, below,
        (hasPiece_imported m dataRoot out up down start _ i below).trans had, ?_⟩
      · rw [Rows.find?_append]
        exact if_pos rfl
      · intro r found
        rw [absent] at found
        cases found

/-! ### The two parsers -/

theorem marked_pieceBits (out : ResumeData) (b : Bits) (pieceCount i : Nat) (below : i < pieceCount) :
    marked (out.pieceBits b pieceCount) i = bitfieldGet b i := by
  by_cases all : countHaveBits b pieceCount = pieceCount ∧ 0 < pieceCount
  · have had := (tally_eq_bound_iff (bitfieldGet b) pieceCount).1 all.1 i below
    simp only [marked, ResumeData.pieceBits, decide_eq_true all, Bool.true_or, had]
  · simp only [marked, ResumeData.pieceBits, decide_eq_false all, Bool.false_eq_true, if_false,
      Bool.false_or, Option.map_some, Option.getD_some]

theorem marked_emptyBits (out : ResumeData) (pieceCount i : Nat) (incomplete : out.complete = false)
    (empty : out.bitfield = some (emptyBitfield pieceCount)) : marked out i = false := by
  rw [marked, incomplete, empty, Bool.false_or, Option.map_some, Option.getD_some,
    bitfieldGet_emptyBitfield]

/-- What the Transmission parser marks, by the value under `progress`. -/
theorem marked_transmission (v : Value) (pieceCount i : Nat) (below : i < pieceCount) :
    marked (parseTransmissionResume v pieceCount) i = true ↔
      ∃ b, progressBlocks v = some (.bytes b) ∧ (b = allWord ∨
        b ≠ noneWord ∧ b.length = bitfieldSizeBytes pieceCount ∧ bitfieldGet b i = true) := by
  have positive : 0 < pieceCount := Nat.zero_lt_of_lt below
  have sized : 0 < bitfieldSizeBytes pieceCount := by
    rw [bitfieldSizeBytes]
    omega
  rw [parseTransmissionResume]
  cases found : progressBlocks v with
  | none => simp [marked, ResumeData.default]
  | some blocks =>
    cases blocks with
    | int | list | dict => simp [marked, ResumeData.default, applyBlocksProgress]
    | bytes b =>
      simp only [Option.some.injEq, Value.bytes.injEq, exists_eq_left', applyBlocksProgress]
      by_cases all : b = allWord
      · rw [if_pos all]
        simp [marked, all, positive]
      · rw [if_neg all]
        by_cases none : b = noneWord ∨ b = []
        · rw [if_pos none, marked_emptyBits _ pieceCount i rfl rfl]
          rcases none with word | empty
          · exact ⟨fun clash => absurd clash Bool.false_ne_true, fun right => right.elim
              (fun said => absurd said all) (fun rest => absurd word rest.1)⟩
          · have wrong : b.length ≠ bitfieldSizeBytes pieceCount := by
              rw [empty, List.length_nil]
              exact Nat.ne_of_lt sized
            simp [all, wrong]
        · rw [if_neg none]
          rw [not_or] at none
          by_cases same : b.length = bitfieldSizeBytes pieceCount
          · rw [if_pos same, marked_pieceBits _ b pieceCount i below]
            simp [all, none.1, same]
          · rw [if_neg same]
            simp [marked, all, same]

theorem marked_rtorrent (v : Value) (pieceCount i : Nat) (below : i < pieceCount) :
    marked (parseResume v pieceCount) i = true ↔
      (∃ b, v.dictGet "bitfield" = some (.bytes b) ∧ b.length = bitfieldSizeBytes pieceCount ∧
        bitfieldGet b i = true) ∨
      ∃ n : Int, v.dictGet "bitfield" = some (.int n) ∧ n % 4294967296 = pieceCount := by
  have positive : 0 < pieceCount := Nat.zero_lt_of_lt below
  have same : marked (parseResume v pieceCount) i =
      marked (resumeBitfield .default (v.dictGet "bitfield") pieceCount) i := rfl
  rw [same]
  cases v.dictGet "bitfield" with
  | none => simp [resumeBitfield, marked, ResumeData.default]
  | some value =>
    cases value with
    | list | dict => simp [resumeBitfield, marked, ResumeData.default]
    | bytes b =>
      rw [resumeBitfield]
      by_cases sized : b.length = bitfieldSizeBytes pieceCount
      · rw [if_pos sized, marked_pieceBits _ b pieceCount i below]
        simp [sized]
      · rw [if_neg sized]
        simp [marked, ResumeData.default, sized]
    | int n =>
      rw [resumeBitfield]
      by_cases count : n % 4294967296 = pieceCount
      · rw [if_pos ⟨count, positive⟩]
        simp [marked, count]
      · rw [if_neg (fun both => count both.1)]
        split_ifs
        · rw [marked_emptyBits _ pieceCount i rfl rfl]
          simp [count]
        · simp [marked, ResumeData.default, count]

theorem progressBlocks_of_saysAll (v : Value) (says' : SaysAll v) :
    progressBlocks v = some (.bytes allWord) := by
  obtain ⟨progress, there, blocks⟩ := Option.bind_eq_some_iff.1 says'
  rw [progressBlocks, there, Option.bind_some, blocks, Option.some_or]

/-! ### What the imports claim -/

theorem transmission_honest_iff (t : TorrentTable) (m : Metainfo) (dataRoot : PathBuf)
    (root : Option Value) (start : Bool) :
    (∀ i, Marks t (importTransmission t m dataRoot root start) i → TransmissionHas root m i) ↔
      Known t m ∨ BlocksArePieces root m := by
  have marks : ∀ i, Marks t (importTransmission t m dataRoot root start) i ↔ ¬Known t m ∧
      i < m.pieceCount ∧
      marked ((root.map (parseTransmissionResume · m.pieceCount)).getD .default) i = true :=
    marks_import t m dataRoot _ 0 0 start
  by_cases known : Known t m
  · exact ⟨fun _ => .inl known, fun _ i marking => absurd known ((marks i).1 marking).1⟩
  cases root with
  | none =>
    refine ⟨fun _ => .inr ⟨?_, ?_⟩, ?_⟩
    · intro v given
      cases given
    · intro v b given
      cases given
    · intro _ i marking
      have had := ((marks i).1 marking).2.2
      cases had
  | some v =>
    have reads : ∀ i, i < m.pieceCount → (Marks t (importTransmission t m dataRoot (some v) start) i ↔
        ∃ b, progressBlocks v = some (.bytes b) ∧ (b = allWord ∨
          b ≠ noneWord ∧ b.length = bitfieldSizeBytes m.pieceCount ∧ bitfieldGet b i = true)) := by
      intro i below
      rw [marks i, ← marked_transmission v m.pieceCount i below]
      exact ⟨fun all => all.2.2, fun had => ⟨known, below, had⟩⟩
    constructor
    · intro honest
      refine .inr ⟨?_, ?_⟩
      · intro v' given found
        cases given
        by_cases says' : SaysAll v
        · exact .inl says'
        · refine .inr (fun i below => ?_)
          obtain ⟨v', same, all | ⟨b, here, blocks⟩⟩ :=
            honest i ((reads i below).2 ⟨allWord, found, .inl rfl⟩)
          · cases same
            exact absurd all says'
          · cases same
            rw [found] at here
            cases here
            exact blocks
      · intro v' b given found notAll notNone sized i below bit
        cases given
        obtain ⟨v', same, all | ⟨b', here, blocks⟩⟩ :=
          honest i ((reads i below).2 ⟨b, found, .inr ⟨notNone, sized, bit⟩⟩)
        · cases same
          rw [progressBlocks_of_saysAll v all] at found
          cases found
          exact absurd rfl notAll
        · cases same
          rw [found] at here
          cases here
          exact blocks
    · rintro (already | same) i marking
      · exact absurd already known
      · have below := ((marks i).1 marking).2.1
        obtain ⟨b, found, said⟩ := (reads i below).1 marking
        refine ⟨v, rfl, ?_⟩
        by_cases all : b = allWord
        · subst all
          exact (same.word v rfl found).imp id (fun blocks => ⟨allWord, found, blocks i below⟩)
        · obtain ⟨notNone, sized, bit⟩ := said.resolve_left all
          exact .inr ⟨b, found, same.bits v b rfl found all notNone sized i below bit⟩

theorem rtorrent_honest_iff (t : TorrentTable) (m : Metainfo) (dataRoot : PathBuf)
    (root : Option Value) (up down : Nat) (start : Bool) :
    (∀ i, Marks t (importRtorrent t m dataRoot root up down start) i → RtorrentHas root m i) ↔
      Known t m ∨ IntegerIsCount root m := by
  have marks : ∀ i, Marks t (importRtorrent t m dataRoot root up down start) i ↔ ¬Known t m ∧
      i < m.pieceCount ∧ marked ((root.map (parseResume · m.pieceCount)).getD .default) i = true :=
    marks_import t m dataRoot _ up down start
  by_cases known : Known t m
  · exact ⟨fun _ => .inl known, fun _ i marking => absurd known ((marks i).1 marking).1⟩
  cases root with
  | none =>
    refine ⟨fun _ => .inr ?_, ?_⟩
    · intro v n given
      cases given
    · intro _ i marking
      have had := ((marks i).1 marking).2.2
      cases had
  | some v =>
    have reads : ∀ i, i < m.pieceCount →
        (Marks t (importRtorrent t m dataRoot (some v) up down start) i ↔
          (∃ b, v.dictGet "bitfield" = some (.bytes b) ∧ b.length = bitfieldSizeBytes m.pieceCount ∧
            bitfieldGet b i = true) ∨
          ∃ n : Int, v.dictGet "bitfield" = some (.int n) ∧ n % 4294967296 = m.pieceCount) := by
      intro i below
      rw [marks i, ← marked_rtorrent v m.pieceCount i below]
      exact ⟨fun all => all.2.2, fun had => ⟨known, below, had⟩⟩
    constructor
    · intro honest
      refine .inr (fun v' n given found low positive => ?_)
      cases given
      obtain ⟨v', same, ⟨b, bytes, -⟩ | count⟩ := honest 0 ((reads 0 positive).2 (.inr ⟨n, found, low⟩))
      · cases same
        rw [found] at bytes
        cases bytes
      · cases same
        rw [found] at count
        cases count
        rfl
    · rintro (already | count) i marking
      · exact absurd already known
      · have below := ((marks i).1 marking).2.1
        refine ⟨v, rfl, ?_⟩
        rcases (reads i below).1 marking with bits | ⟨n, found, low⟩
        · exact .inl bits
        · rw [count v n rfl found low (Nat.zero_lt_of_lt below)] at found
          exact .inr found

/-- Each importer marks only what the other client had, exactly where it marks nothing or guesses
right what the bitmap or the integer means. -/
theorem imports_honest_iff (t : TorrentTable) (m : Metainfo) (dataRoot : PathBuf)
    (root : Option Value) (up down : Nat) (start : Bool) :
    ((∀ i, Marks t (importTransmission t m dataRoot root start) i → TransmissionHas root m i) ↔
      Known t m ∨ BlocksArePieces root m) ∧
    ((∀ i, Marks t (importRtorrent t m dataRoot root up down start) i → RtorrentHas root m i) ↔
      Known t m ∨ IntegerIsCount root m) :=
  ⟨transmission_honest_iff t m dataRoot root start, rtorrent_honest_iff t m dataRoot root up down start⟩

/-- Two pieces of two blocks each. -/
def fourBlocks : Metainfo where
  infohash := List.replicate 20 1
  pieceLength := 32768
  pieceCount := 2
  totalSize := 65536
  pieces := List.replicate 40 0
  files := [⟨["a"], 65536, 0⟩]

/-- The blocks of the first piece. -/
def firstPiece : Value := .dict [("progress", .dict [("blocks", .bytes [0xc0])])]

/-- The two blocks of the first piece count for two pieces, and an integer 2 ^ 32 too large for all. -/
theorem missing_pieces_imported :
    (¬ ∀ t m dataRoot root start i, Marks t (importTransmission t m dataRoot root start) i →
      TransmissionHas root m i) ∧
    ¬ ∀ t m dataRoot root up down start i, Marks t (importRtorrent t m dataRoot root up down start) i →
      RtorrentHas root m i := by
  have new : ¬Known Rows.empty fourBlocks := by
    rintro ⟨r, member, -⟩
    cases member
  constructor
  · intro always
    have honest := (transmission_honest_iff Rows.empty fourBlocks [] (some firstPiece) false).1
      (always _ _ _ _ _)
    have blocks := (honest.resolve_left new).bits firstPiece [0xc0] rfl rfl (by decide) (by decide) rfl 1
      (by decide) (by decide) 32768 (by decide) (by decide)
    exact absurd blocks (by decide)
  · intro always
    have honest := (rtorrent_honest_iff Rows.empty fourBlocks []
      (some (.dict [("bitfield", .int 4294967298)])) 0 0 false).1 (always _ _ _ _ _ _ _)
    have count := (honest.resolve_left new) _ 4294967298 rfl rfl (by decide) (by decide)
    exact absurd count (by decide)

end Seedchamp.Library.Imports
