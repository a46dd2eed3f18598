import Mathlib.Data.List.Nodup
import Mathlib.Data.List.Infix
import Mathlib.Data.Finset.Insert
import Seedchamp.Tui.FileRows

/-!
The files screen shows every file and every directory once, and what lies below a directory right
after it.
-/

namespace Seedchamp.Tui.VisibleRows
open Foundation Tui.FileTree Tui.FileRows

/-! ### Paths below a path -/

theorem above_length (p c : List Text) (above : Above p c) : p.length < c.length := by
  rcases Nat.lt_or_ge p.length c.length with shorter | longer
  · exact shorter
  · exact absurd (above.1.eq_of_length_le longer) above.2

theorem not_above (p c : List Text) (back : c <+: p) : ¬Above p c := by
  intro above
  exact Nat.not_le_of_lt (above_length p c above) back.length_le

theorem above_trans (p q c : List Text) (first : Above p q) (second : q <+: c) : Above p c := by
  refine ⟨first.1.trans second, ?_⟩
  rintro rfl
  exact not_above p q second first

theorem above_trans_left (p q c : List Text) (first : p <+: q) (second : Above q c) : Above p c := by
  refine ⟨first.trans second.1, ?_⟩
  rintro rfl
  exact not_above q p first second

theorem above_append (P c : List Text) (nonempty : c ≠ []) : Above P (P ++ c) :=
  ⟨List.prefix_append P c, fun same => nonempty (List.append_right_eq_self.1 same.symm)⟩

/-- A path starts with one name only. -/
theorem first_name (P c : List Text) (a b : Text) (left : P ++ [a] <+: c) (right : P ++ [b] <+: c) : a = b := by
  have same : P ++ [a] = P ++ [b] :=
    (List.prefix_of_prefix_length_le left right (by rw [List.length_append, List.length_append]; rfl)).eq_of_length
      (by rw [List.length_append, List.length_append]; rfl)
  exact List.singleton_inj.1 (List.append_cancel_left same)

theorem above_singleton (P q : List Text) (a : Text) (above : Above q (P ++ [a])) : q <+: P := by
  rcases List.prefix_concat_iff.1 above.1 with same | shorter
  · exact absurd same above.2
  · exact shorter

/-! ### The places of a tree -/

/-- No directory strictly between `P` and `c` is collapsed. -/
def Open (collapsed : Finset Text) (P c : List Text) : Prop :=
  ∀ q, Above P q → Above q c → text q ∉ collapsed

theorem open_name (collapsed : Finset Text) (P : List Text) (name : Text) : Open collapsed P (P ++ [name]) := by
  intro q above between
  exact absurd (above_singleton P q name between) (fun shorter => not_above P q shorter above)

theorem open_below (collapsed : Finset Text) (P c : List Text) (name : Text) (below : Above (P ++ [name]) c) :
    Open collapsed P c ↔ text (P ++ [name]) ∉ collapsed ∧ Open collapsed (P ++ [name]) c := by
  have step : Above P (P ++ [name]) := above_append P [name] (List.cons_ne_nil _ _)
  constructor
  · intro free
    exact ⟨free _ step below, fun q above between => free q (above_trans _ _ _ step above.1) between⟩
  · rintro ⟨first, free⟩ q above between
    rcases List.prefix_or_prefix_of_prefix between.1 below.1 with shorter | longer
    · by_cases same : q = P ++ [name]
      · rw [same]
        exact first
      · exact absurd (above_singleton P q name ⟨shorter, same⟩)
          (fun back => not_above P _ back above)
    · by_cases same : P ++ [name] = q
      · rw [← same]
        exact first
      · exact free q ⟨longer, same⟩ between

/-- The place is one of the tree at `P`. -/
def Stands (P : List Text) (node : Node) : Place → Prop
  | .dir p => Above P p ∧ ∃ e ∈ entries node, Above p (P ++ e.1)
  | .file c index => ∃ e ∈ entries node, c = P ++ e.1 ∧ index = e.2

theorem mem_below (dir : Text × Node) (e : List Text × Nat) :
    e ∈ below dir ↔ ∃ inner ∈ entries dir.2, e = (dir.1 :: inner.1, inner.2) := by
  rw [below, List.mem_map]
  constructor
  · rintro ⟨inner, member, rfl⟩
    exact ⟨inner, member, rfl⟩
  · rintro ⟨inner, member, rfl⟩
    exact ⟨inner, member, rfl⟩

theorem mem_shown (collapsed : Finset Text) (P : List Text) (dir : Text × Node) (x : Place) :
    x ∈ shown collapsed P dir ↔ x = .dir (P ++ [dir.1]) ∨
      (text (P ++ [dir.1]) ∉ collapsed ∧ x ∈ visible collapsed (P ++ [dir.1]) dir.2) := by
  rw [shown, List.mem_cons]
  by_cases folded : text (P ++ [dir.1]) ∈ collapsed
  · rw [if_pos folded]
    exact or_congr_right ⟨fun clash => (by cases clash), fun clash => absurd folded clash.1⟩
  · rw [if_neg folded]
    exact or_congr_right ⟨fun member => ⟨folded, member⟩, fun both => both.2⟩

theorem stands_above (P : List Text) (node : Node) (x : Place) (stands : Stands P node x) : Above P x.path := by
  cases x with
  | dir p => exact stands.1
  | file c index =>
    obtain ⟨e, member, same, -⟩ := stands
    rw [Place.path, same]
    exact above_append P e.1 (entries_ne_nil node e member)

/-- A place of a tree is a directory or file of its root or a place further down. -/
theorem stands_mk (P : List Text) (dirs : List (Text × Node)) (files : List (Text × Nat)) (x : Place)
    (inhabited : ∀ dir ∈ dirs, entries dir.2 ≠ []) :
    Stands P (.mk dirs files) x ↔
      (∃ dir ∈ dirs, x = .dir (P ++ [dir.1]) ∨ Stands (P ++ [dir.1]) dir.2 x) ∨
        ∃ file ∈ files, x = .file (P ++ [file.1]) file.2 := by
  have up : ∀ dir ∈ dirs, ∀ e ∈ entries dir.2, (dir.1 :: e.1, e.2) ∈ entries (.mk dirs files) := by
    intro dir member e inside
    rw [entries_mk]
    exact List.mem_append_left _ (List.mem_flatMap.2 ⟨dir, member, (mem_below dir _).2 ⟨e, inside, rfl⟩⟩)
  constructor
  · intro stands
    cases x with
    | dir p =>
      obtain ⟨above, e, member, between⟩ := stands
      rw [entries_mk, List.mem_append, List.mem_flatMap] at member
      rcases member with inDir | inFiles
      · obtain ⟨dir, listed, here⟩ := inDir
        obtain ⟨inner, inside, rfl⟩ := (mem_below dir e).1 here
        refine Or.inl ⟨dir, listed, ?_⟩
        have split : P ++ dir.1 :: inner.1 = (P ++ [dir.1]) ++ inner.1 := by
          rw [List.append_assoc, List.singleton_append]
        rw [split] at between
        rcases List.prefix_or_prefix_of_prefix between.1 (List.prefix_append (P ++ [dir.1]) inner.1) with
          shorter | longer
        · by_cases same : p = P ++ [dir.1]
          · exact Or.inl (congrArg Place.dir same)
          · exact absurd (above_singleton P p dir.1 ⟨shorter, same⟩)
              (fun back => not_above P _ back above)
        · by_cases same : P ++ [dir.1] = p
          · exact Or.inl (congrArg Place.dir same.symm)
          · exact Or.inr ⟨⟨longer, same⟩, inner, inside, between⟩
      · obtain ⟨file, -, rfl⟩ := List.mem_map.1 inFiles
        exact absurd (above_singleton P p file.1 between) (fun back => not_above P _ back above)
    | file c index =>
      obtain ⟨e, member, rfl, rfl⟩ := stands
      rw [entries_mk, List.mem_append, List.mem_flatMap] at member
      rcases member with inDir | inFiles
      · obtain ⟨dir, listed, here⟩ := inDir
        obtain ⟨inner, inside, rfl⟩ := (mem_below dir e).1 here
        refine Or.inl ⟨dir, listed, Or.inr ⟨inner, inside, ?_, rfl⟩⟩
        rw [List.append_assoc, List.singleton_append]
      · obtain ⟨file, listed, rfl⟩ := List.mem_map.1 inFiles
        exact Or.inr ⟨file, listed, rfl⟩
  · rintro (⟨dir, listed, rfl | stands⟩ | ⟨file, listed, rfl⟩)
    · obtain ⟨e, inside⟩ := List.exists_mem_of_ne_nil _ (inhabited dir listed)
      refine ⟨above_append P [dir.1] (List.cons_ne_nil _ _), _, up dir listed e inside, ?_⟩
      have split : P ++ dir.1 :: e.1 = (P ++ [dir.1]) ++ e.1 := by rw [List.append_assoc, List.singleton_append]
      rw [split]
      exact above_append _ e.1 (entries_ne_nil dir.2 e inside)
    · have above := stands_above (P ++ [dir.1]) dir.2 x stands
      cases x with
      | dir p =>
        obtain ⟨-, e, inside, between⟩ := stands
        refine ⟨above_trans _ _ _ (above_append P [dir.1] (List.cons_ne_nil _ _)) above.1, _,
          up dir listed e inside, ?_⟩
        rw [List.append_assoc, List.singleton_append] at between
        exact between
      | file c index =>
        obtain ⟨e, inside, rfl, rfl⟩ := stands
        refine ⟨_, up dir listed e inside, ?_, rfl⟩
        rw [List.append_assoc, List.singleton_append]
    · refine ⟨([file.1], file.2), ?_, rfl, rfl⟩
      rw [entries_mk]
      exact List.mem_append_right _ (List.mem_map.2 ⟨file, listed, rfl⟩)

/-- A place is shown exactly when no directory above it is collapsed. -/
theorem mem_visible (collapsed : Finset Text) (node : Node) (P : List Text) (wellFormed : WellFormed node)
    (x : Place) : x ∈ visible collapsed P node ↔ Stands P node x ∧ Open collapsed P x.path := by
  induction node using node_induction generalizing P with
  | step dirs files ih =>
    cases wellFormed with
    | mk _ _ _ _ children inhabited =>
      rw [visible_mk, List.mem_append, List.mem_flatMap, List.mem_map, stands_mk P dirs files x inhabited]
      constructor
      · rintro (⟨dir, listed, here⟩ | ⟨file, listed, rfl⟩)
        · rcases (mem_shown collapsed P dir x).1 here with rfl | ⟨unfolded, inside⟩
          · exact ⟨Or.inl ⟨dir, listed, Or.inl rfl⟩, open_name collapsed P dir.1⟩
          · obtain ⟨stands, free⟩ := (ih dir listed (P ++ [dir.1]) (children dir listed)).1 inside
            refine ⟨Or.inl ⟨dir, listed, Or.inr stands⟩, ?_⟩
            exact (open_below collapsed P x.path dir.1 (stands_above _ _ x stands)).2 ⟨unfolded, free⟩
        · exact ⟨Or.inr ⟨file, listed, rfl⟩, open_name collapsed P file.1⟩
      · rintro ⟨⟨dir, listed, rfl | stands⟩ | ⟨file, listed, rfl⟩, free⟩
        · exact Or.inl ⟨dir, listed, (mem_shown collapsed P dir _).2 (Or.inl rfl)⟩
        · obtain ⟨unfolded, further⟩ :=
            (open_below collapsed P x.path dir.1 (stands_above _ _ x stands)).1 free
          refine Or.inl ⟨dir, listed, (mem_shown collapsed P dir x).2 (Or.inr ⟨unfolded, ?_⟩)⟩
          exact (ih dir listed (P ++ [dir.1]) (children dir listed)).2 ⟨stands, further⟩
        · exact Or.inr ⟨file, listed, rfl⟩

/-! ### The order of the places -/

theorem visible_above (collapsed : Finset Text) (P : List Text) (node : Node) (wellFormed : WellFormed node)
    (x : Place) (member : x ∈ visible collapsed P node) : Above P x.path :=
  stands_above P node x ((mem_visible collapsed node P wellFormed x).1 member).1

theorem shown_starts (collapsed : Finset Text) (P : List Text) (dir : Text × Node)
    (wellFormed : WellFormed dir.2) (x : Place) (member : x ∈ shown collapsed P dir) :
    P ++ [dir.1] <+: x.path := by
  rcases (mem_shown collapsed P dir x).1 member with rfl | ⟨-, inside⟩
  · exact List.prefix_rfl
  · exact (visible_above collapsed _ dir.2 wellFormed x inside).1

theorem names_distinct {Value : Type} (entries : List (Text × Value)) (sorted : SortedMap.Sorted entries) :
    entries.Pairwise (fun first second => first.1 ≠ second.1) :=
  sorted.imp (fun less same => by
    rw [same] at less
    exact Std.lt_irrefl less)

/-- No place is shown twice. -/
theorem visible_nodup (collapsed : Finset Text) (node : Node) (P : List Text) (wellFormed : WellFormed node) :
    (visible collapsed P node).Nodup := by
  induction node using node_induction generalizing P with
  | step dirs files ih =>
    cases wellFormed with
    | mk _ _ sortedDirs sortedFiles children _ =>
      rw [visible_mk, List.nodup_append]
      refine ⟨?_, ?_, ?_⟩
      · rw [List.nodup_flatMap]
        constructor
        · intro dir listed
          rw [shown, List.nodup_cons]
          split_ifs
          · exact ⟨List.not_mem_nil, List.nodup_nil⟩
          · refine ⟨fun again => ?_, ih dir listed (P ++ [dir.1]) (children dir listed)⟩
            exact (visible_above collapsed _ dir.2 (children dir listed) _ again).2 rfl
        · refine (names_distinct dirs sortedDirs).imp_of_mem ?_
          intro first second listed listed' different x inFirst inSecond
          exact different (first_name P x.path first.1 second.1
            (shown_starts collapsed P first (children first listed) x inFirst)
            (shown_starts collapsed P second (children second listed') x inSecond))
      · rw [List.nodup_iff_pairwise_ne, List.pairwise_map]
        refine (names_distinct files sortedFiles).imp ?_
        intro first second different same
        injection same with paths
        exact different (List.singleton_inj.1 (List.append_cancel_left paths))
      · intro x inDirs y inFiles same
        obtain ⟨dir, listed, here⟩ := List.mem_flatMap.1 inDirs
        obtain ⟨file, -, rfl⟩ := List.mem_map.1 inFiles
        rcases (mem_shown collapsed P dir x).1 here with rfl | ⟨-, inside⟩
        · cases same
        · have above := visible_above collapsed _ dir.2 (children dir listed) x inside
          rw [same] at above
          have shorter := above_length _ _ above
          rw [Place.path, List.length_append, List.length_append] at shorter
          exact Nat.lt_irrefl _ shorter

/-- What stands beside a directory is not below it. -/
theorem siblings_apart (collapsed : Finset Text) (P : List Text) (before after : List (Text × Node))
    (dir : Text × Node) (files : List (Text × Nat)) (p : List Text)
    (wellFormed : WellFormed (.mk (before ++ dir :: after) files)) (start : P ++ [dir.1] <+: p) :
    ∀ x ∈ before.flatMap (shown collapsed P) ++
      (after.flatMap (shown collapsed P) ++ files.map (fun file => .file (P ++ [file.1]) file.2)),
      ¬Above p x.path := by
  cases wellFormed with
  | mk _ _ sortedDirs _ children _ =>
    have distinct := names_distinct _ sortedDirs
    rw [List.pairwise_append, List.pairwise_cons] at distinct
    have elsewhere : ∀ other ∈ before ++ dir :: after, other.1 ≠ dir.1 →
        ∀ x ∈ shown collapsed P other, ¬Above p x.path := by
      intro other listed different x inOther above
      exact different (first_name P x.path other.1 dir.1
        (shown_starts collapsed P other (children other listed) x inOther) (start.trans above.1))
    intro x inside above
    rcases List.mem_append.1 inside with early | late
    · obtain ⟨other, listed, inOther⟩ := List.mem_flatMap.1 early
      exact elsewhere other (List.mem_append_left _ listed) (distinct.2.2 other listed dir List.mem_cons_self)
        x inOther above
    · rcases List.mem_append.1 late with inDirs | inFiles
      · obtain ⟨other, listed, inOther⟩ := List.mem_flatMap.1 inDirs
        exact elsewhere other (List.mem_append_right _ (List.mem_cons_of_mem _ listed))
          (distinct.2.1.1 other listed).symm x inOther above
      · obtain ⟨file, -, rfl⟩ := List.mem_map.1 inFiles
        have shorter := above_length _ _ (above_trans_left _ _ _ start above)
        rw [Place.path, List.length_append, List.length_append] at shorter
        exact Nat.lt_irrefl _ shorter

/-- The places below a directory come right after it, and nowhere else. -/
theorem visible_block (collapsed : Finset Text) (node : Node) (P : List Text) (wellFormed : WellFormed node)
    (p : List Text) (member : .dir p ∈ visible collapsed P node) :
    ∃ front block rest, visible collapsed P node = front ++ .dir p :: (block ++ rest) ∧
      (∀ x ∈ block, Above p x.path) ∧ ∀ x ∈ front ++ rest, ¬Above p x.path := by
  induction node using node_induction generalizing P with
  | step dirs files ih =>
    rw [visible_mk, List.mem_append, List.mem_flatMap, List.mem_map] at member
    rcases member with ⟨dir, listed, here⟩ | ⟨file, -, clash⟩
    · obtain ⟨before, after, rfl⟩ := List.append_of_mem listed
      have child : WellFormed dir.2 := by
        cases wellFormed with
        | mk _ _ _ _ children _ => exact children dir listed
      have start := shown_starts collapsed P dir child _ here
      have apart := siblings_apart collapsed P before after dir files p wellFormed start
      rcases (mem_shown collapsed P dir _).1 here with same | ⟨unfolded, inside⟩
      · injection same with paths
        refine ⟨before.flatMap (shown collapsed P),
          if text (P ++ [dir.1]) ∈ collapsed then [] else visible collapsed (P ++ [dir.1]) dir.2,
          after.flatMap (shown collapsed P) ++ files.map (fun file => .file (P ++ [file.1]) file.2), ?_, ?_, apart⟩
        · rw [visible_mk, List.flatMap_append, List.flatMap_cons, shown, paths]
          simp only [List.append_assoc, List.cons_append]
        · intro x inBlock
          rw [paths]
          split_ifs at inBlock
          · cases inBlock
          · exact visible_above collapsed _ dir.2 child x inBlock
      · obtain ⟨front, block, rest, whole, inBlock, outside⟩ := ih dir listed (P ++ [dir.1]) child inside
        refine ⟨before.flatMap (shown collapsed P) ++ .dir (P ++ [dir.1]) :: front, block,
          rest ++ (after.flatMap (shown collapsed P) ++ files.map (fun file => .file (P ++ [file.1]) file.2)),
          ?_, inBlock, ?_⟩
        · rw [visible_mk, List.flatMap_append, List.flatMap_cons, shown, if_neg unfolded, whole]
          simp only [List.append_assoc, List.cons_append]
        · intro x around
          rcases List.mem_append.1 around with early | late
          · rcases List.mem_append.1 early with first | inFront
            · exact apart x (List.mem_append_left _ first)
            · rcases List.mem_cons.1 inFront with rfl | later
              · exact not_above _ _ start
              · exact outside x (List.mem_append_left _ later)
          · rcases List.mem_append.1 late with inRest | last
            · exact outside x (List.mem_append_right _ inRest)
            · exact apart x (List.mem_append_right _ last)
    · cases clash

/-! ### The rows of the screen -/

def FileTreeRow.depth : FileTreeRow → Nat
  | .dir _ _ depth _ _ _ _ _ => depth
  | .file depth _ => depth

def FileTreeRow.isFile (index : Nat) : FileTreeRow → Bool
  | .dir .. => false
  | .file _ fileIndex => fileIndex = index

def FileTreeRow.isDir (path : Text) : FileTreeRow → Bool
  | .dir _ path' .. => path' = path
  | .file .. => false

/-- The components a row stands for. -/
def FileTreeRow.comps (files : List FileProgress) : FileTreeRow → List Text
  | .dir _ path .. => path.splitOn '/'
  | .file _ fileIndex => (files[fileIndex]?).elim [] FileRows.comps

/-- A directory above the path is collapsed. -/
def Hidden (collapsed : Finset Text) (c : List Text) : Prop :=
  ∃ q ∈ c.inits, q ≠ [] ∧ q ≠ c ∧ text q ∈ collapsed

instance (collapsed : Finset Text) (c : List Text) : Decidable (Hidden collapsed c) :=
  inferInstanceAs (Decidable (∃ q ∈ c.inits, _))

/-- The path is a directory of the torrent. -/
def IsDirectory (files : List FileProgress) (p : List Text) : Prop := p ≠ [] ∧ ∃ fp ∈ files, Above p (comps fp)

/-- The rows show the files and directories that are not hidden, each once and each below its
directories. -/
structure Shows (files : List FileProgress) (collapsed : Finset Text) (rows : List FileTreeRow) : Prop where
  fileOnce : ∀ index fp, files[index]? = some fp →
    rows.filter (FileTreeRow.isFile index) =
      if Hidden collapsed (comps fp) then [] else [.file ((comps fp).length - 1) index]
  dirOnce : ∀ p, IsDirectory files p →
    rows.filter (FileTreeRow.isDir (text p)) = if Hidden collapsed p then [] else [dirRow files collapsed p]
  nothingElse : ∀ row ∈ rows, (∃ index fp, files[index]? = some fp ∧ FileTreeRow.isFile index row) ∨
    ∃ p, IsDirectory files p ∧ FileTreeRow.isDir (text p) row
  block : ∀ p, IsDirectory files p → ¬Hidden collapsed p →
    ∃ front block rest, rows = front ++ dirRow files collapsed p :: (block ++ rest) ∧
      (∀ row ∈ block, Above p (FileTreeRow.comps files row)) ∧
      (∀ row ∈ block, ∀ name, FileTreeRow.comps files row = p ++ [name] →
        FileTreeRow.depth row = FileTreeRow.depth (dirRow files collapsed p) + 1) ∧
      ∀ row ∈ front ++ rest, ¬Above p (FileTreeRow.comps files row)
  depth : ∀ row ∈ rows, FileTreeRow.depth row + 1 = (FileTreeRow.comps files row).length

theorem open_iff (collapsed : Finset Text) (c : List Text) : Open collapsed [] c ↔ ¬Hidden collapsed c := by
  constructor
  · rintro free ⟨q, member, nonempty, different, folded⟩
    exact free q ⟨List.nil_prefix, fun same => nonempty same.symm⟩ ⟨(List.mem_inits _ _).1 member, different⟩ folded
  · intro shown q above between folded
    exact shown ⟨q, (List.mem_inits _ _).2 between.1, fun same => above.2 same.symm, between.2, folded⟩

/-- What the place is for is in the torrent. -/
def Real (files : List FileProgress) : Place → Prop
  | .dir p => IsDirectory files p
  | .file c index => ∃ fp, files[index]? = some fp ∧ comps fp = c

theorem stands_root (files : List FileProgress) (node : Node) (holds : Holds files [] node)
    (named : ∀ fp ∈ files, comps fp ≠ []) (x : Place) : Stands [] node x ↔ Real files x := by
  cases x with
  | dir p =>
    constructor
    · rintro ⟨above, e, member, between⟩
      obtain ⟨-, fp, found, same⟩ := (holds.names e.1 e.2).1 member
      rw [← same] at between
      exact ⟨fun empty => above.2 empty.symm, fp, List.mem_of_getElem? found, between⟩
    · rintro ⟨nonempty, fp, member, between⟩
      obtain ⟨index, found⟩ := List.getElem?_of_mem member
      have longer : comps fp ≠ [] := by
        intro empty
        rw [empty] at between
        exact not_above p [] List.nil_prefix between
      exact ⟨⟨List.nil_prefix, fun same => nonempty same.symm⟩, (comps fp, index),
        (holds.names _ _).2 ⟨longer, fp, found, rfl⟩, between⟩
  | file c index =>
    constructor
    · rintro ⟨e, member, rfl, rfl⟩
      exact ((holds.names e.1 e.2).1 member).2
    · rintro ⟨fp, found, rfl⟩
      have longer := named fp (List.mem_of_getElem? found)
      exact ⟨(comps fp, index), (holds.names _ _).2 ⟨longer, fp, found, rfl⟩, rfl, rfl⟩

theorem isDirectory_plain (files : List FileProgress) (p : List Text) (dir : IsDirectory files p) : Plain p := by
  obtain ⟨-, fp, -, above⟩ := dir
  exact fun name member => plain_comps fp name (above.1.subset member)

theorem real_path (files : List FileProgress) (named : ∀ fp ∈ files, comps fp ≠ []) (x : Place)
    (real : Real files x) : x.path ≠ [] := by
  cases x with
  | dir p => exact real.1
  | file c index =>
    obtain ⟨fp, found, rfl⟩ := real
    exact named fp (List.mem_of_getElem? found)

theorem comps_render (files : List FileProgress) (collapsed : Finset Text) (x : Place) (real : Real files x) :
    FileTreeRow.comps files (render files collapsed x) = x.path := by
  cases x with
  | dir p => exact splitOn_text p (isDirectory_plain files p real) real.1
  | file c index =>
    obtain ⟨fp, found, same⟩ := real
    change (files[index]?).elim [] comps = c
    rw [found, ← same]
    rfl

theorem depth_render (files : List FileProgress) (collapsed : Finset Text) (x : Place) :
    FileTreeRow.depth (render files collapsed x) = x.path.length - 1 := by
  cases x with
  | _ => rfl

/-- Of a list without repetition a test that only one element passes leaves that one. -/
theorem filter_single (places : List Place) (nodup : places.Nodup) (test : Place → Bool) (only : Place)
    (passes : ∀ x ∈ places, test x = true ↔ x = only) :
    places.filter test = if only ∈ places then [only] else [] := by
  have same : places.filter test = places.filter (· = only) := by
    refine List.filter_congr (fun x member => ?_)
    rw [Bool.eq_iff_iff, decide_eq_true_eq]
    exact passes x member
  rw [same, List.filter_eq, nodup.count]
  split_ifs <;> rfl

/-- The rows of one place, where a test of the rows knows it. -/
theorem filter_rows (files : List FileProgress) (collapsed : Finset Text) (places : List Place)
    (nodup : places.Nodup) (test : FileTreeRow → Bool) (only : Place)
    (passes : ∀ x ∈ places, test (render files collapsed x) = true ↔ x = only)
    (shown : only ∈ places ↔ ¬Hidden collapsed only.path) :
    (places.map (render files collapsed)).filter test =
      if Hidden collapsed only.path then [] else [render files collapsed only] := by
  rw [List.filter_map, filter_single places nodup (test ∘ render files collapsed) only passes]
  by_cases hidden : Hidden collapsed only.path
  · rw [if_pos hidden, if_neg (fun member => shown.1 member hidden), List.map_nil]
  · rw [if_neg hidden, if_pos (shown.2 hidden), List.map_cons, List.map_nil]

/-- The places of the screen. -/
def places (files : List FileProgress) (collapsed : Finset Text) : List Place := visible collapsed [] (root files)

section
variable (files : List FileProgress) (collapsed : Finset Text) (named : ∀ fp ∈ files, comps fp ≠ [])
  (distinct : (files.map comps).Nodup)
include named distinct

theorem rows_places : buildVisibleRows files collapsed = (places files collapsed).map (render files collapsed) :=
  flattenNode_eq files collapsed (root files) [] (holds_root files named distinct)

theorem places_nodup : (places files collapsed).Nodup :=
  visible_nodup collapsed (root files) [] (holds_root files named distinct).wellFormed

theorem mem_places (x : Place) : x ∈ places files collapsed ↔ Real files x ∧ ¬Hidden collapsed x.path := by
  have holds := holds_root files named distinct
  rw [places, mem_visible collapsed (root files) [] holds.wellFormed x, stands_root files _ holds named x, open_iff]

theorem real_mem (x : Place) (real : Real files x) : x ∈ places files collapsed ↔ ¬Hidden collapsed x.path := by
  rw [mem_places files collapsed named distinct]
  exact ⟨fun both => both.2, fun shown => ⟨real, shown⟩⟩

theorem file_rows (index : Nat) (fp : FileProgress) (found : files[index]? = some fp) :
    (buildVisibleRows files collapsed).filter (FileTreeRow.isFile index) =
      if Hidden collapsed (comps fp) then [] else [.file ((comps fp).length - 1) index] := by
  rw [rows_places files collapsed named distinct]
  refine filter_rows files collapsed _ (places_nodup files collapsed named distinct) _ (.file (comps fp) index) ?_
    (real_mem files collapsed named distinct _ ⟨fp, found, rfl⟩)
  intro x member
  cases x with
  | dir p => exact ⟨fun clash => (by cases clash), fun clash => by cases clash⟩
  | file c index' =>
    obtain ⟨fp', found', same⟩ := ((mem_places files collapsed named distinct _).1 member).1
    constructor
    · intro here
      have equal : index' = index := of_decide_eq_true here
      rw [equal, found] at found'
      rw [equal, ← same, Option.some.inj found']
    · intro equal
      injection equal with _ indices
      exact decide_eq_true indices

theorem dir_rows (p : List Text) (dir : IsDirectory files p) :
    (buildVisibleRows files collapsed).filter (FileTreeRow.isDir (text p)) =
      if Hidden collapsed p then [] else [dirRow files collapsed p] := by
  rw [rows_places files collapsed named distinct]
  refine filter_rows files collapsed _ (places_nodup files collapsed named distinct) _ (.dir p) ?_
    (real_mem files collapsed named distinct _ dir)
  intro x member
  cases x with
  | dir p' =>
    have dir' : IsDirectory files p' := ((mem_places files collapsed named distinct _).1 member).1
    constructor
    · intro here
      exact congrArg Place.dir (text_inj p' p (isDirectory_plain files p' dir')
        (isDirectory_plain files p dir) dir'.1 dir.1 (of_decide_eq_true here))
    · intro equal
      injection equal with paths
      exact decide_eq_true (congrArg text paths)
  | file c index' => exact ⟨fun clash => (by cases clash), fun clash => by cases clash⟩

theorem block_rows (p : List Text) (dir : IsDirectory files p) (shown : ¬Hidden collapsed p) :
    ∃ front block rest, buildVisibleRows files collapsed = front ++ dirRow files collapsed p :: (block ++ rest) ∧
      (∀ row ∈ block, Above p (FileTreeRow.comps files row)) ∧
      (∀ row ∈ block, ∀ name, FileTreeRow.comps files row = p ++ [name] →
        FileTreeRow.depth row = FileTreeRow.depth (dirRow files collapsed p) + 1) ∧
      ∀ row ∈ front ++ rest, ¬Above p (FileTreeRow.comps files row) := by
  have member := (real_mem files collapsed named distinct (.dir p) dir).2 shown
  obtain ⟨front, block, rest, whole, inside, outside⟩ :=
    visible_block collapsed (root files) [] (holds_root files named distinct).wellFormed p member
  have real : ∀ x ∈ front ++ .dir p :: (block ++ rest), Real files x := by
    intro x inWhole
    rw [← whole] at inWhole
    exact ((mem_places files collapsed named distinct x).1 inWhole).1
  have inBlock : ∀ x ∈ block, Real files x := fun x listed =>
    real x (List.mem_append_right _ (List.mem_cons_of_mem _ (List.mem_append_left _ listed)))
  refine ⟨front.map (render files collapsed), block.map (render files collapsed),
    rest.map (render files collapsed), ?_, ?_, ?_, ?_⟩
  · rw [rows_places files collapsed named distinct, places, whole, List.map_append, List.map_cons, List.map_append]
    rfl
  · intro row inRows
    obtain ⟨x, listed, rfl⟩ := List.mem_map.1 inRows
    rw [comps_render files collapsed x (inBlock x listed)]
    exact inside x listed
  · intro row inRows name child
    obtain ⟨x, listed, rfl⟩ := List.mem_map.1 inRows
    rw [comps_render files collapsed x (inBlock x listed)] at child
    have deep : p.length ≠ 0 := fun empty => dir.1 (List.eq_nil_of_length_eq_zero empty)
    change _ = p.length - 1 + 1
    rw [depth_render, child, List.length_append, List.length_singleton]
    omega
  · intro row around
    rw [← List.map_append] at around
    obtain ⟨x, listed, rfl⟩ := List.mem_map.1 around
    have inWhole : x ∈ front ++ .dir p :: (block ++ rest) := by
      rcases List.mem_append.1 listed with inFront | inRest
      · exact List.mem_append_left _ inFront
      · exact List.mem_append_right _ (List.mem_cons_of_mem _ (List.mem_append_right _ inRest))
    rw [comps_render files collapsed x (real x inWhole)]
    exact outside x listed

end

/-- The tree shows every file and every directory once. -/
theorem buildVisibleRows_shows (files : List FileProgress) (collapsed : Finset Text)
    (named : ∀ fp ∈ files, comps fp ≠ []) (distinct : (files.map comps).Nodup) :
    Shows files collapsed (buildVisibleRows files collapsed) := by
  refine ⟨file_rows files collapsed named distinct, dir_rows files collapsed named distinct, ?_,
    block_rows files collapsed named distinct, ?_⟩
  · intro row member
    rw [rows_places files collapsed named distinct] at member
    obtain ⟨x, listed, rfl⟩ := List.mem_map.1 member
    have real := ((mem_places files collapsed named distinct x).1 listed).1
    cases x with
    | dir p => exact Or.inr ⟨p, real, decide_eq_true rfl⟩
    | file c index =>
      obtain ⟨fp, found, -⟩ := real
      exact Or.inl ⟨index, fp, found, decide_eq_true rfl⟩
  · intro row member
    rw [rows_places files collapsed named distinct] at member
    obtain ⟨x, listed, rfl⟩ := List.mem_map.1 member
    have real := ((mem_places files collapsed named distinct x).1 listed).1
    have deep : x.path.length ≠ 0 :=
      fun empty => real_path files named x real (List.eq_nil_of_length_eq_zero empty)
    rw [comps_render files collapsed x real, depth_render]
    omega

def album : List FileProgress :=
  [⟨"a/x".toList, 5, 1, 5⟩, ⟨"a\\y".toList, 7, 0, 9⟩, ⟨"a".toList, 1, 1, 0⟩, ⟨"b/c/z".toList, 2, 1, 1⟩]

theorem buildVisibleRows_shows_album :
    Shows album {"b".toList} (buildVisibleRows album {"b".toList}) :=
  buildVisibleRows_shows album {"b".toList} (by decide) (by decide)

end Seedchamp.Tui.VisibleRows
