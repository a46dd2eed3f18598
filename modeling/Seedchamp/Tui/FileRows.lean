import Mathlib.Algebra.GroupWithZero.Nat
import Mathlib.Data.List.Nodup
import Mathlib.Data.List.Infix
import Seedchamp.Tui.FileTree

/-!
What the rows of the files screen show. The tree stands for the paths in it, and every row for one
path, that of its file or of its directory.
-/

namespace Seedchamp.Tui.FileRows
open Foundation Foundation.Machine Tui.FileTree

/-! ### The paths in a tree -/

mutual

/-- The files below a node, each with its path from there. -/
def entries : Node → List (List Text × Nat)
  | .mk dirs files => entriesDirs dirs ++ files.map (fun file => ([file.1], file.2))

def entriesDirs : List (Text × Node) → List (List Text × Nat)
  | [] => []
  | (name, child) :: rest => (entries child).map (fun e => (name :: e.1, e.2)) ++ entriesDirs rest

end

def below (dir : Text × Node) : List (List Text × Nat) := (entries dir.2).map (fun e => (dir.1 :: e.1, e.2))

theorem entries_mk (dirs : List (Text × Node)) (files : List (Text × Nat)) :
    entries (.mk dirs files) = dirs.flatMap below ++ files.map (fun file => ([file.1], file.2)) := by
  rw [entries]
  congr 1
  induction dirs with
  | nil => rfl
  | cons dir rest ih =>
    rw [entriesDirs, ih]
    rfl

/-- Induction on a tree: a property of every node whose directories have it. -/
theorem node_induction (P : Node → Prop)
    (step : ∀ dirs files, (∀ dir ∈ dirs, P dir.2) → P (.mk dirs files)) (node : Node) : P node :=
  @Node.rec P (fun dirs => ∀ dir ∈ dirs, P dir.2) (fun dir => P dir.2) step
    (fun dir clash => by cases clash)
    (fun head tail first others dir member => by
      rcases List.mem_cons.1 member with rfl | later
      · exact first
      · exact others dir later)
    (fun _ _ child => child) node

/-- The maps are in order, and no directory is empty. -/
inductive WellFormed : Node → Prop where
  | mk (dirs : List (Text × Node)) (files : List (Text × Nat)) (sortedDirs : SortedMap.Sorted dirs)
    (sortedFiles : SortedMap.Sorted files) (children : ∀ dir ∈ dirs, WellFormed dir.2)
    (inhabited : ∀ dir ∈ dirs, entries dir.2 ≠ []) : WellFormed (.mk dirs files)

theorem wellFormed_new : WellFormed Node.new :=
  .mk [] [] List.Pairwise.nil List.Pairwise.nil (fun _ clash => by cases clash) (fun _ clash => by cases clash)

theorem entries_new : entries Node.new = [] := rfl

theorem entries_ne_nil (node : Node) : ∀ e ∈ entries node, e.1 ≠ [] := by
  cases node with
  | mk dirs files =>
    intro e member
    rw [entries_mk] at member
    rcases List.mem_append.1 member with inDir | inFiles
    · obtain ⟨dir, -, here⟩ := List.mem_flatMap.1 inDir
      obtain ⟨inner, -, same⟩ := List.mem_map.1 here
      rw [← same]
      exact List.cons_ne_nil _ _
    · obtain ⟨file, -, same⟩ := List.mem_map.1 inFiles
      rw [← same]
      exact List.cons_ne_nil _ _

/-! ### Insertion -/

theorem insert_file (dirs : List (Text × Node)) (files : List (Text × Nat)) (name : Text) (index : Nat)
    (wellFormed : WellFormed (.mk dirs files)) (fresh : ∀ e ∈ entries (.mk dirs files), e.1 ≠ [name]) :
    WellFormed (.mk dirs (SortedMap.insert name index files)) ∧
      (entries (.mk dirs (SortedMap.insert name index files))).Perm
        (([name], index) :: entries (.mk dirs files)) := by
  cases wellFormed with
  | mk _ _ sortedDirs sortedFiles children inhabited =>
    refine ⟨.mk dirs _ sortedDirs (SortedMap.sorted_insert _ _ _ sortedFiles) children inhabited, ?_⟩
    have others : ∀ file ∈ files, file.1 ≠ name := by
      intro file member same
      refine fresh ([file.1], file.2) ?_ (by rw [same])
      rw [entries_mk]
      exact List.mem_append_right _ (List.mem_map.2 ⟨file, member, rfl⟩)
    have inserted := SortedMap.insert_perm name index files sortedFiles
    rw [SortedMap.filter_eq_self name files others] at inserted
    rw [entries_mk, entries_mk]
    exact ((inserted.map _).append_left _).trans List.perm_middle

theorem insert_dir (dirs : List (Text × Node)) (files : List (Text × Nat)) (name : Text)
    (child child' : Node) (rest : List Text) (index : Nat) (wellFormed : WellFormed (.mk dirs files))
    (here : (SortedMap.get? name dirs).getD Node.new = child) (kept : WellFormed child')
    (grown : (entries child').Perm ((rest, index) :: entries child)) :
    WellFormed (.mk (SortedMap.insert name child' dirs) files) ∧
      (entries (.mk (SortedMap.insert name child' dirs) files)).Perm
        ((name :: rest, index) :: entries (.mk dirs files)) := by
  cases wellFormed with
  | mk _ _ sortedDirs sortedFiles children inhabited =>
    have nonempty : entries child' ≠ [] := by
      intro none
      rw [none] at grown
      exact absurd grown.symm.eq_nil (List.cons_ne_nil _ _)
    have inserted := SortedMap.insert_perm name child' dirs sortedDirs
    have old : dirs.flatMap below |>.Perm
        (below (name, child) ++ (dirs.filter (fun dir => dir.1 ≠ name)).flatMap below) := by
      cases found : SortedMap.get? name dirs with
      | none =>
        rw [found, Option.getD_none] at here
        rw [SortedMap.filter_eq_self name dirs (SortedMap.ne_of_get?_none name dirs found), ← here]
        exact List.Perm.refl _
      | some was =>
        rw [found, Option.getD_some] at here
        rw [← here]
        exact (SortedMap.perm_of_get? name was dirs sortedDirs found).flatMap_right below
    constructor
    · refine .mk _ files (SortedMap.sorted_insert _ _ _ sortedDirs) sortedFiles ?_ ?_
      · intro dir member
        rcases SortedMap.mem_insert name child' dirs dir member with rfl | before
        · exact kept
        · exact children dir before
      · intro dir member
        rcases SortedMap.mem_insert name child' dirs dir member with rfl | before
        · exact nonempty
        · exact inhabited dir before
    · rw [entries_mk, entries_mk]
      have new := (inserted.flatMap_right below).trans
        ((grown.map (fun e => (name :: e.1, e.2))).append_right _)
      exact (new.trans ((old.symm).cons _)).append_right _

/-- An insertion adds the path, and the tree stays well formed. -/
theorem insertPath_entries (comps : List Text) (index : Nat) (node : Node) (wellFormed : WellFormed node)
    (nonempty : comps ≠ []) (fresh : ∀ e ∈ entries node, e.1 ≠ comps) :
    WellFormed (node.insertPath comps index) ∧
      (entries (node.insertPath comps index)).Perm ((comps, index) :: entries node) := by
  induction comps generalizing node with
  | nil => exact absurd rfl nonempty
  | cons name rest ih =>
    cases node with
    | mk dirs files =>
      cases rest with
      | nil => exact insert_file dirs files name index wellFormed fresh
      | cons next rest =>
        rw [Node.insertPath]
        have inside : WellFormed ((SortedMap.get? name dirs).getD Node.new) ∧
            ∀ e ∈ entries ((SortedMap.get? name dirs).getD Node.new), e.1 ≠ next :: rest := by
          cases found : SortedMap.get? name dirs with
          | none => exact ⟨wellFormed_new, fun _ clash => by cases clash⟩
          | some child =>
            have listed := SortedMap.mem_of_get? name child dirs found
            cases wellFormed with
            | mk _ _ _ _ children _ =>
              refine ⟨children _ listed, fun e member same => ?_⟩
              refine fresh (name :: e.1, e.2) ?_ (congrArg (List.cons name) same)
              rw [entries_mk]
              exact List.mem_append_left _ (List.mem_flatMap.2
                ⟨(name, child), listed, List.mem_map.2 ⟨e, member, rfl⟩⟩)
        obtain ⟨kept, grown⟩ := ih _ inside.1 (List.cons_ne_nil _ _) inside.2
        exact insert_dir dirs files name _ _ (next :: rest) index wellFormed rfl kept grown

/-! ### The tree of all files -/

def comps (fp : FileProgress) : List Text := pathComponents fp.path

theorem insertFiles_entries (numbered : List (FileProgress × Nat)) (node : Node) (wellFormed : WellFormed node)
    (nonempty : ∀ f ∈ numbered, comps f.1 ≠ [])
    (distinct : ((entries node).map Prod.fst ++ numbered.map (fun f => comps f.1)).Nodup) :
    WellFormed (numbered.foldl (fun root f => insertFile root f.1 f.2) node) ∧
      (entries (numbered.foldl (fun root f => insertFile root f.1 f.2) node)).Perm
        (numbered.map (fun f => (comps f.1, f.2)) ++ entries node) := by
  induction numbered generalizing node with
  | nil => exact ⟨wellFormed, List.Perm.refl _⟩
  | cons f rest ih =>
    have here := nonempty f List.mem_cons_self
    have inserted : insertFile node f.1 f.2 = node.insertPath (comps f.1) f.2 := by
      rw [insertFile, if_neg (by rw [List.isEmpty_iff]; exact here)]
      rfl
    rw [List.map_cons] at distinct
    have fresh : ∀ e ∈ entries node, e.1 ≠ comps f.1 := by
      intro e member same
      exact (List.nodup_append.1 distinct).2.2 e.1 (List.mem_map.2 ⟨e, member, rfl⟩) (comps f.1)
        List.mem_cons_self same
    obtain ⟨kept, grown⟩ := insertPath_entries (comps f.1) f.2 node wellFormed here fresh
    have later := ih (node.insertPath (comps f.1) f.2) kept
      (fun g member => nonempty g (List.mem_cons_of_mem _ member)) ?_
    · rw [List.foldl_cons, inserted]
      refine ⟨later.1, later.2.trans ?_⟩
      exact (grown.append_left _).trans List.perm_middle
    · have moved := (grown.map Prod.fst).append_right (rest.map (fun f => comps f.1))
      rw [moved.nodup_iff]
      exact (List.perm_middle.nodup_iff).1 distinct

/-- The tree below a path holds the files below it. -/
structure Holds (files : List FileProgress) (P : List Text) (node : Node) : Prop where
  wellFormed : WellFormed node
  names : ∀ c i, (c, i) ∈ entries node ↔ c ≠ [] ∧ ∃ fp, files[i]? = some fp ∧ comps fp = P ++ c
  nodup : ((entries node).map Prod.snd).Nodup

def root (files : List FileProgress) : Node :=
  files.zipIdx.foldl (fun root fp => insertFile root fp.1 fp.2) Node.new

theorem holds_root (files : List FileProgress) (nonempty : ∀ fp ∈ files, comps fp ≠ [])
    (distinct : (files.map comps).Nodup) : Holds files [] (root files) := by
  have listed : files.zipIdx.map (fun f => comps f.1) = files.map comps := by
    change files.zipIdx.map (comps ∘ Prod.fst) = _
    rw [← List.map_map, List.zipIdx_map_fst]
  have built := insertFiles_entries files.zipIdx Node.new wellFormed_new
    (fun f member => nonempty f.1 (List.fst_mem_of_mem_zipIdx member)) (by
      rw [entries_new, List.map_nil, List.nil_append, listed]
      exact distinct)
  rw [entries_new, List.append_nil] at built
  refine ⟨built.1, ?_, ?_⟩
  · intro c i
    rw [root, built.2.mem_iff, List.mem_map]
    constructor
    · rintro ⟨f, member, same⟩
      cases same
      have found := List.mem_zipIdx_iff_getElem?.1 member
      exact ⟨nonempty f.1 (List.fst_mem_of_mem_zipIdx member), f.1, found, rfl⟩
    · rintro ⟨-, fp, found, same⟩
      exact ⟨(fp, i), List.mem_zipIdx_iff_getElem?.2 found, by rw [same]; rfl⟩
  · rw [root, (built.2.map Prod.snd).nodup_iff, List.map_map]
    change (files.zipIdx.map Prod.snd).Nodup
    rw [List.zipIdx_map_snd]
    exact List.nodup_range'

theorem holds_child (files : List FileProgress) (P : List Text) (dirs : List (Text × Node))
    (here : List (Text × Nat)) (holds : Holds files P (.mk dirs here)) (dir : Text × Node)
    (member : dir ∈ dirs) : Holds files (P ++ [dir.1]) dir.2 := by
  have listed : ∀ e ∈ entries dir.2, (dir.1 :: e.1, e.2) ∈ entries (.mk dirs here) := by
    intro e inside
    rw [entries_mk]
    exact List.mem_append_left _ (List.mem_flatMap.2 ⟨dir, member, List.mem_map.2 ⟨e, inside, rfl⟩⟩)
  have wellFormed := holds.wellFormed
  cases wellFormed with
  | mk _ _ sortedDirs _ children _ =>
    refine ⟨children dir member, ?_, ?_⟩
    · intro c i
      rw [List.append_assoc, List.singleton_append]
      constructor
      · intro inside
        exact ⟨entries_ne_nil dir.2 _ inside, ((holds.names (dir.1 :: c) i).1 (listed _ inside)).2⟩
      · rintro ⟨longer, found⟩
        have above := (holds.names (dir.1 :: c) i).2 ⟨List.cons_ne_nil _ _, found⟩
        rw [entries_mk] at above
        rcases List.mem_append.1 above with inDir | inFiles
        · obtain ⟨other, otherMember, inOther⟩ := List.mem_flatMap.1 inDir
          obtain ⟨e, inside, same⟩ := List.mem_map.1 inOther
          have heads := List.cons.inj (congrArg Prod.fst same)
          have equal : other = dir := by
            have unique : (dirs.map Prod.fst).Nodup := by
              rw [List.nodup_iff_pairwise_ne, List.pairwise_map]
              exact sortedDirs.imp (fun less same => by
                rw [same] at less
                exact Std.lt_irrefl less)
            exact List.inj_on_of_nodup_map unique otherMember member heads.1
          rw [← equal, ← heads.2, ← show e.2 = i from congrArg Prod.snd same]
          exact inside
        · obtain ⟨file, -, same⟩ := List.mem_map.1 inFiles
          exact absurd (List.cons.inj (congrArg Prod.fst same)).2.symm longer
    · refine holds.nodup.sublist ?_
      obtain ⟨front, back, split⟩ := List.append_of_mem member
      rw [entries_mk, split, List.flatMap_append, List.flatMap_cons, List.map_append, List.map_append,
        List.map_append]
      have same : (below dir).map Prod.snd = (entries dir.2).map Prod.snd := by
        rw [below, List.map_map]
        rfl
      rw [same]
      exact ((List.sublist_append_left _ _).trans (List.sublist_append_right _ _)).trans
        (List.sublist_append_left _ _)

/-! ### Paths as texts -/

/-- The text of a directory's path. -/
def text (P : List Text) : Text := P.foldl childPath []

/-- Names as they come from paths. -/
def Plain (P : List Text) : Prop := ∀ name ∈ P, name ≠ [] ∧ '/' ∉ name

theorem separator_free (path : Text) (piece : Text) (member : piece ∈ path.splitOnP isSeparator) :
    ∀ c ∈ piece, isSeparator c = false := by
  induction path generalizing piece with
  | nil =>
    rw [List.splitOnP_nil, List.mem_singleton] at member
    rw [member]
    exact fun c clash => by cases clash
  | cons x rest ih =>
    rw [List.splitOnP_cons_eq_if_modifyHead] at member
    split_ifs at member with here
    · rcases List.mem_cons.1 member with rfl | later
      · exact fun c clash => by cases clash
      · exact ih piece later
    · cases pieces : rest.splitOnP isSeparator with
      | nil => exact absurd pieces (List.splitOnP_ne_nil _ _)
      | cons first others =>
        rw [pieces, List.modifyHead_cons] at member
        rcases List.mem_cons.1 member with rfl | later
        · intro c inside
          rcases List.mem_cons.1 inside with rfl | tail
          · exact Bool.not_eq_true _ ▸ here
          · exact ih first (pieces ▸ List.mem_cons_self) c tail
        · exact ih piece (pieces ▸ List.mem_cons_of_mem _ later)

theorem plain_comps (fp : FileProgress) : Plain (comps fp) := by
  intro name member
  obtain ⟨piece, kept⟩ := List.mem_filter.1 member
  rw [Bool.and_eq_true, Bool.not_eq_true', List.isEmpty_eq_false_iff] at kept
  refine ⟨kept.1, fun separator => ?_⟩
  exact absurd (separator_free fp.path name piece '/' separator) (by decide)

theorem text_append (P : List Text) (name : Text) : text (P ++ [name]) = childPath (text P) name := by
  rw [text, List.foldl_append]
  rfl

theorem splitOn_text (P : List Text) (plain : Plain P) (nonempty : P ≠ []) : (text P).splitOn '/' = P := by
  induction P using List.reverseRecOn with
  | nil => exact absurd rfl nonempty
  | append_singleton P name ih =>
    have last := plain name (List.mem_append_right _ List.mem_cons_self)
    have single : name.splitOn '/' = [name] := List.splitOn_eq_singleton last.2
    rw [text_append, childPath]
    by_cases top : P = []
    · rw [top]
      exact single
    · have before := ih (fun other member => plain other (List.mem_append_left _ member)) top
      have long : text P ≠ [] := by
        intro empty
        rw [empty] at before
        have first := plain [] (List.mem_append_left _ (before ▸ List.mem_cons_self))
        exact first.1 rfl
      rw [if_neg (by rw [List.isEmpty_iff]; exact long), List.splitOn_append_cons_self, before, single]

theorem text_inj (P Q : List Text) (plain : Plain P) (plain' : Plain Q) (nonempty : P ≠ [])
    (nonempty' : Q ≠ []) (same : text P = text Q) : P = Q := by
  rw [← splitOn_text P plain nonempty, ← splitOn_text Q plain' nonempty', same]

/-! ### What a row stands for -/

/-- `p` is a directory above `c`. -/
def Above (p c : List Text) : Prop := p <+: c ∧ p ≠ c

instance (p c : List Text) : Decidable (Above p c) := inferInstanceAs (Decidable (_ ∧ _))

/-- The files below a directory, in increasing order. -/
def indicesBelow (files : List FileProgress) (p : List Text) : List Nat :=
  (List.range files.length).filter (fun i => (files[i]?).any (fun fp => decide (Above p (comps fp))))

/-- The sum of a field of these files, as 64 bits hold it. -/
def totalOf (files : List FileProgress) (indices : List Nat) (field : FileProgress → Nat) : Nat :=
  min ((indices.filterMap (fun i => files[i]?)).map field).sum u64Max

def wantedOf (files : List FileProgress) (indices : List Nat) : DirWanted :=
  let seen := indices.filterMap (fun i => files[i]?)
  if seen.all FileProgress.wanted then .all
  else if seen.all (fun fp => !fp.wanted) then .none
  else .mixed

/-- The row of a directory. -/
def dirRow (files : List FileProgress) (collapsed : Finset Text) (p : List Text) : FileTreeRow :=
  let indices := indicesBelow files p
  .dir (p.getLastD []) (text p) (p.length - 1) (decide (text p ∉ collapsed))
    (totalOf files indices FileProgress.size)
    (totalOf files indices (fun fp => min fp.haveBytes fp.size)) (wantedOf files indices) indices

theorem foldl_saturatingAdd (field : FileProgress → Nat) (seen : List FileProgress) (start : Nat)
    (small : start ≤ u64Max) :
    seen.foldl (fun total fp => saturatingAdd total (field fp)) start =
      min (start + (seen.map field).sum) u64Max := by
  induction seen generalizing start with
  | nil => exact (Nat.min_eq_left small).symm
  | cons fp rest ih =>
    have kept : saturatingAdd start (field fp) ≤ u64Max := Nat.min_le_right _ _
    rw [List.foldl_cons, ih _ kept, List.map_cons, List.sum_cons, saturatingAdd]
    omega

theorem aggregate_eq (files : List FileProgress) (indices : List Nat)
    (seen : indices.filterMap (fun i => files[i]?) ≠ []) :
    aggregate files indices = (totalOf files indices FileProgress.size,
      totalOf files indices (fun fp => min fp.haveBytes fp.size), wantedOf files indices) := by
  have some : indices.isEmpty = false := by
    rw [List.isEmpty_eq_false_iff]
    rintro rfl
    exact seen rfl
  rw [aggregate, some, if_neg Bool.false_ne_true, totalOf, totalOf, wantedOf]
  dsimp only
  generalize indices.filterMap (fun i => files[i]?) = listed at seen
  rw [foldl_saturatingAdd FileProgress.size listed 0 (Nat.zero_le _),
    foldl_saturatingAdd (fun fp => min fp.haveBytes fp.size) listed 0 (Nat.zero_le _), Nat.zero_add,
    Nat.zero_add]
  congr 2
  have allOn : listed.all FileProgress.wanted = !(listed.any (fun fp => !fp.wanted)) := by
    rw [List.all_eq_not_any_not]
  have allOff : listed.all (fun fp => !fp.wanted) = !(listed.any FileProgress.wanted) := by
    rw [List.all_eq_not_any_not]
    simp only [Bool.not_not]
  rw [allOn, allOff]
  cases on : listed.any FileProgress.wanted with
  | false =>
    cases off : listed.any (fun fp => !fp.wanted) with
    | false =>
      cases listed with
      | nil => exact absurd rfl seen
      | cons fp rest =>
        rw [List.any_cons, Bool.or_eq_false_iff] at on off
        rw [on.1] at off
        exact absurd off.1 (by decide)
    | true => rfl
  | true => cases listed.any (fun fp => !fp.wanted) <;> rfl

theorem mem_indicesBelow (files : List FileProgress) (p : List Text) (i : Nat) :
    i ∈ indicesBelow files p ↔ ∃ fp, files[i]? = some fp ∧ Above p (comps fp) := by
  rw [indicesBelow, List.mem_filter, List.mem_range]
  constructor
  · rintro ⟨-, found⟩
    obtain ⟨fp, here, above⟩ := (Option.any_eq_true _ _).1 found
    exact ⟨fp, here, of_decide_eq_true above⟩
  · rintro ⟨fp, here, above⟩
    refine ⟨(List.getElem?_eq_some_iff.1 here).1, ?_⟩
    rw [here]
    exact decide_eq_true above

/-! ### The rows of a tree -/

theorem collect_perm (node : Node) : (Node.collectFileIndices node).Perm ((entries node).map Prod.snd) := by
  induction node using node_induction with
  | step dirs files ih =>
    have inner : (Node.collectDirs dirs).Perm ((dirs.flatMap below).map Prod.snd) := by
      induction dirs with
      | nil => exact List.Perm.refl _
      | cons dir rest ih' =>
        have same : (below dir).map Prod.snd = (entries dir.2).map Prod.snd := by
          rw [below, List.map_map]
          rfl
        rw [Node.collectDirs, List.flatMap_cons, List.map_append, same]
        exact (ih dir List.mem_cons_self).append
          (ih' (fun other member => ih other (List.mem_cons_of_mem _ member)))
    rw [Node.collectFileIndices, entries_mk, List.map_append, List.map_map]
    exact List.perm_append_comm.trans (inner.append_right _)

theorem sorted_collect (files : List FileProgress) (P : List Text) (node : Node)
    (holds : Holds files P node) : (Node.collectFileIndices node).mergeSort = indicesBelow files P := by
  have perm := (List.mergeSort_perm (Node.collectFileIndices node) (fun a b => decide (a ≤ b))).trans
    (collect_perm node)
  have nodup : (indicesBelow files P).Nodup := List.nodup_range.filter _
  have same : ((entries node).map Prod.snd).Perm (indicesBelow files P) := by
    rw [List.perm_ext_iff_of_nodup holds.nodup nodup]
    intro i
    rw [mem_indicesBelow, List.mem_map]
    constructor
    · rintro ⟨e, member, rfl⟩
      obtain ⟨longer, fp, found, split⟩ := (holds.names e.1 e.2).1 member
      refine ⟨fp, found, ⟨e.1, split.symm⟩, fun equal => longer ?_⟩
      rw [split] at equal
      exact List.append_right_eq_self.1 equal.symm
    · rintro ⟨fp, found, ⟨c, split⟩, strict⟩
      refine ⟨(c, i), (holds.names c i).2 ⟨?_, fp, found, split.symm⟩, rfl⟩
      rintro rfl
      rw [List.append_nil] at split
      exact strict split
  refine List.Perm.eq_of_pairwise (fun a b _ _ first second => Nat.le_antisymm first second) ?_ ?_
    (perm.trans same)
  · have trans : ∀ a b c : Nat, decide (a ≤ b) = true → decide (b ≤ c) = true → decide (a ≤ c) = true :=
      fun a b c first second =>
        decide_eq_true (Nat.le_trans (of_decide_eq_true first) (of_decide_eq_true second))
    have total : ∀ a b : Nat, (decide (a ≤ b) || decide (b ≤ a)) = true := by
      intro a b
      rw [Bool.or_eq_true, decide_eq_true_eq, decide_eq_true_eq]
      exact Nat.le_total a b
    have sorted := List.pairwise_mergeSort trans total (Node.collectFileIndices node)
    exact sorted.imp (fun less => of_decide_eq_true less)
  · exact (List.pairwise_lt_range.imp (fun less => Nat.le_of_lt less)).filter _

/-- What a row is for. -/
inductive Place where
  | dir (path : List Text)
  | file (path : List Text) (index : Nat)
  deriving DecidableEq

def Place.path : Place → List Text
  | .dir path => path
  | .file path _ => path

def render (files : List FileProgress) (collapsed : Finset Text) : Place → FileTreeRow
  | .dir p => dirRow files collapsed p
  | .file c index => .file (c.length - 1) index

mutual

/-- The places of the rows of a node at a path. -/
def visible (collapsed : Finset Text) (P : List Text) : Node → List Place
  | .mk dirs files => visibleDirs collapsed P dirs ++ files.map (fun file => .file (P ++ [file.1]) file.2)

def visibleDirs (collapsed : Finset Text) (P : List Text) : List (Text × Node) → List Place
  | [] => []
  | (name, child) :: rest =>
    (.dir (P ++ [name]) ::
      if text (P ++ [name]) ∈ collapsed then [] else visible collapsed (P ++ [name]) child) ++
    visibleDirs collapsed P rest

end

/-- The block of one directory. -/
def shown (collapsed : Finset Text) (P : List Text) (dir : Text × Node) : List Place :=
  .dir (P ++ [dir.1]) ::
    if text (P ++ [dir.1]) ∈ collapsed then [] else visible collapsed (P ++ [dir.1]) dir.2

theorem visible_mk (collapsed : Finset Text) (P : List Text) (dirs : List (Text × Node))
    (files : List (Text × Nat)) : visible collapsed P (.mk dirs files) =
      dirs.flatMap (shown collapsed P) ++ files.map (fun file => .file (P ++ [file.1]) file.2) := by
  rw [visible]
  congr 1
  induction dirs with
  | nil => rfl
  | cons dir rest ih =>
    rw [visibleDirs, ih]
    rfl

theorem render_dir (files : List FileProgress) (collapsed : Finset Text) (P : List Text) (dir : Text × Node)
    (holds : Holds files (P ++ [dir.1]) dir.2) (inhabited : entries dir.2 ≠ []) :
    let indices := (Node.collectFileIndices dir.2).mergeSort
    let total := aggregate files indices
    render files collapsed (.dir (P ++ [dir.1])) =
      .dir dir.1 (childPath (text P) dir.1) P.length (decide (childPath (text P) dir.1 ∉ collapsed)) total.1
        total.2.1 total.2.2 indices := by
  dsimp only
  have seen : (indicesBelow files (P ++ [dir.1])).filterMap (fun i => files[i]?) ≠ [] := by
    obtain ⟨e, member⟩ := List.exists_mem_of_ne_nil _ inhabited
    obtain ⟨longer, fp, found, split⟩ := (holds.names e.1 e.2).1 member
    refine List.ne_nil_of_mem (List.mem_filterMap.2 ⟨e.2, (mem_indicesBelow _ _ _).2 ⟨fp, found, ?_⟩, found⟩)
    refine ⟨⟨e.1, split.symm⟩, fun equal => longer ?_⟩
    rw [split] at equal
    exact List.append_right_eq_self.1 equal.symm
  rw [sorted_collect files _ dir.2 holds, aggregate_eq files _ seen, render, dirRow, text_append,
    List.getLastD_concat, List.length_append, List.length_singleton, Nat.add_sub_cancel]

/-- Flattening lists the places and renders each. -/
theorem flattenNode_eq (files : List FileProgress) (collapsed : Finset Text) (node : Node) (P : List Text)
    (holds : Holds files P node) : flattenNode files collapsed (text P) P.length node =
      (visible collapsed P node).map (render files collapsed) := by
  induction node using node_induction generalizing P with
  | step dirs here ih =>
    have good : ∀ dir ∈ dirs, Holds files (P ++ [dir.1]) dir.2 ∧ entries dir.2 ≠ [] := by
      intro dir member
      have wellFormed := holds.wellFormed
      cases wellFormed with
      | mk _ _ _ _ _ inhabited => exact ⟨holds_child files P dirs here holds dir member, inhabited dir member⟩
    have blocks : flattenDirs files collapsed (text P) P.length dirs =
        (dirs.flatMap (shown collapsed P)).map (render files collapsed) := by
      clear holds
      induction dirs with
      | nil => rfl
      | cons dir rest ih' =>
        obtain ⟨below', inhabited⟩ := good dir List.mem_cons_self
        have inner := ih dir List.mem_cons_self (P ++ [dir.1]) below'
        rw [text_append, List.length_append, List.length_singleton] at inner
        rw [flattenDirs, List.flatMap_cons, List.map_append,
          ih' (fun other member => ih other (List.mem_cons_of_mem _ member))
            (fun other member => good other (List.mem_cons_of_mem _ member))]
        congr 1
        rw [shown, List.map_cons, render_dir files collapsed P dir below' inhabited, text_append]
        congr 1
        by_cases folded : childPath (text P) dir.1 ∈ collapsed
        · rw [if_pos folded, if_neg (by rw [decide_eq_true_eq, not_not]; exact folded)]
          rfl
        · rw [if_neg folded, if_pos (decide_eq_true folded), inner]
    rw [flattenNode, visible_mk, List.map_append, List.map_map, blocks]
    congr 1
    apply List.map_congr_left
    intro file _
    rw [Function.comp_apply, render, List.length_append, List.length_singleton, Nat.add_sub_cancel]

end Seedchamp.Tui.FileRows
