import Seedchamp.Disk.Relocate

/-!
Cut short anywhere, a relocation leaves the payload where the catalog has it: until the catalog has
the new root the source is as it was, and from then on every file has arrived and stays.
-/

namespace Seedchamp.Disk.RelocateSafety
open Disk.Spans Foundation.HardLinks Foundation.HardLinks.Volume Foundation.TransitionSystem
open Disk.Relocate

section
variable (resolve : PathBuf → PathBuf) (op : Operation) (origin : Volume PathBuf)

theorem src_congr (file other : FileLayout) (same : file.path = other.path) :
    op.src resolve file = op.src resolve other := by
  rw [Operation.src, Operation.src, same]

theorem dst_eq_iff (file other : FileLayout) :
    op.dst resolve file = op.dst resolve other ↔ file.path = other.path := by
  rw [Operation.dst, Operation.dst, locate, locate, List.append_cancel_left_eq]

/-- The source of the operation is as the operation found it. -/
structure Sourced (volume : Volume PathBuf) : Prop where
  names : ∀ file ∈ op.layout.files,
    volume.names (op.src resolve file) = origin.names (op.src resolve file)
  contents : ∀ inode, inode < origin.next → volume.contents inode = origin.contents inode
  next : origin.next ≤ volume.next

/-- What the source had of a file is under the new root. -/
def Arrived (volume : Volume PathBuf) (file : FileLayout) : Prop :=
  ∀ bytes, origin.read (op.src resolve file) = some bytes →
    volume.read (op.dst resolve file) = some bytes

/-- A name that no file of the source has. -/
def Foreign (name : PathBuf) : Prop := ∀ file ∈ op.layout.files, op.src resolve file ≠ name

theorem sourced_refl : Sourced resolve op origin origin :=
  ⟨fun _ _ => rfl, fun _ _ => rfl, Nat.le_refl _⟩

variable {resolve op origin}

namespace Sourced
variable {volume : Volume PathBuf} (sourced : Sourced resolve op origin volume)
include sourced

theorem read (file : FileLayout) (mem : file ∈ op.layout.files) :
    volume.read (op.src resolve file) = origin.read (op.src resolve file) := by
  rw [Volume.read, Volume.read, sourced.names file mem]
  cases named : origin.names (op.src resolve file) with
  | none => rfl
  | some inode =>
    rw [Option.map_some, Option.map_some, sourced.contents inode (origin.below _ inode named)]

theorem holds (file : FileLayout) (mem : file ∈ op.layout.files) :
    volume.holds (op.src resolve file) = origin.holds (op.src resolve file) := by
  rw [Volume.holds, Volume.holds, sourced.names file mem]

theorem unlink (name : PathBuf) (foreign : Foreign resolve op name) :
    Sourced resolve op origin (volume.unlink name) where
  names := by
    intro file mem
    rw [unlink_names_of_ne volume name _ (foreign file mem)]
    exact sourced.names file mem
  contents := sourced.contents
  next := sourced.next

theorem link (src dst : PathBuf) (foreign : Foreign resolve op dst) :
    Sourced resolve op origin (volume.link src dst) where
  names := by
    intro file mem
    rw [link_names_of_ne volume src dst _ (foreign file mem)]
    exact sourced.names file mem
  contents := sourced.contents
  next := sourced.next

theorem allocate (name : PathBuf) (foreign : Foreign resolve op name) :
    Sourced resolve op origin (volume.allocate name) where
  names := by
    intro file mem
    rw [allocate_names_of_ne volume name _ (foreign file mem)]
    exact sourced.names file mem
  contents := by
    intro inode old
    rw [allocate_contents_of_lt volume name inode (Nat.lt_of_lt_of_le old sourced.next)]
    exact sourced.contents inode old
  next := Nat.le_succ_of_le sourced.next

theorem write (inode offset : Nat) (data : List UInt8) (fresh : origin.next ≤ inode) :
    Sourced resolve op origin (volume.write inode offset data) where
  names := sourced.names
  contents := by
    intro other old
    rw [write_contents_of_ne volume inode other offset data (by omega)]
    exact sourced.contents other old
  next := sourced.next

/-- A new name that reads as the source has arrived. -/
theorem arrived (file : FileLayout) (mem : file ∈ op.layout.files)
    (same : volume.read (op.dst resolve file) = volume.read (op.src resolve file)) :
    Arrived resolve op origin volume file := by
  intro bytes found
  rw [same, sourced.read file mem, found]

end Sourced

theorem arrived_congr (volume : Volume PathBuf) (file other : FileLayout)
    (same : file.path = other.path) (arrived : Arrived resolve op origin volume other) :
    Arrived resolve op origin volume file := by
  intro bytes found
  rw [src_congr resolve op file other same] at found
  rw [(dst_eq_iff resolve op file other).2 same]
  exact arrived bytes found

/-- A change that keeps what the new name reads keeps the file arrived. -/
theorem arrived_frame (before after : Volume PathBuf) (file : FileLayout)
    (same : origin.holds (op.src resolve file) = true →
      after.read (op.dst resolve file) = before.read (op.dst resolve file))
    (arrived : Arrived resolve op origin before file) : Arrived resolve op origin after file := by
  intro bytes found
  rw [same ((holds_iff origin _).2 ⟨bytes, found⟩)]
  exact arrived bytes found

/-- The new name of a file that is there and has to move is no name of the source. -/
theorem foreign_dst (apart : Apart resolve op origin) (file : FileLayout)
    (mem : file ∈ op.layout.files) (there : origin.holds (op.src resolve file) = true)
    (moves : op.src resolve file ≠ op.dst resolve file) :
    Foreign resolve op (op.dst resolve file) := by
  intro other listed clash
  by_cases same : other.path = file.path
  · rw [src_congr resolve op other file same] at clash
    exact moves clash
  · exact apart.names file mem there other listed same clash.symm

variable (resolve op origin) (homeRoot : Option PathBuf)

/-- The catalog still has the old root. -/
structure Pending (s : State) : Prop where
  dataRoot : s.dataRoot = op.layout.dataRoot
  homeRoot : s.homeRoot = homeRoot
  sourced : Sourced resolve op origin s.volume

/-- The catalog has the new root. -/
structure Switched (s : State) : Prop where
  dataRoot : s.dataRoot = op.newRoot
  arrived : ∀ file ∈ op.layout.files, Arrived resolve op origin s.volume file

/-- The files before `todo` have arrived. -/
def Published (volume : Volume PathBuf) (todo : List FileLayout) : Prop :=
  ∃ done, op.layout.files = done ++ todo ∧ ∀ file ∈ done, Arrived resolve op origin volume file

/-- A file that is there is on its way, and those before it have arrived. -/
structure Publishing (volume : Volume PathBuf) (file : FileLayout) (todo : List FileLayout) :
    Prop where
  there : origin.holds (op.src resolve file) = true
  moves : op.src resolve file ≠ op.dst resolve file
  earlier : ∃ done, op.layout.files = done ++ file :: todo ∧
    ∀ other ∈ done, other.path ≠ file.path → Arrived resolve op origin volume other

/-- The copy so far: an inode that nothing else names. -/
structure Copying (volume : Volume PathBuf) (file : FileLayout) (copied inode : Nat)
    (bytes : List UInt8) : Prop where
  source : origin.read (op.src resolve file) = some bytes
  target : volume.names (op.dst resolve file) = some inode
  fresh : origin.next ≤ inode
  alone : ∀ name, volume.names name = some inode → name = op.dst resolve file
  content : volume.contents inode = bytes.take copied
  within : copied ≤ bytes.length

/-- What holds where the operation stands. -/
def Stands (s : State) : Prop :=
  match s.point with
  | .start | .createRoot | .returned .loadFailed | .returned .transferFailed =>
    Pending resolve op origin homeRoot s
  | .publish todo =>
    Pending resolve op origin homeRoot s ∧ Published resolve op origin s.volume todo
  | .hardLink file todo | .openCopy file todo =>
    Pending resolve op origin homeRoot s ∧ Publishing resolve op origin s.volume file todo ∧
      s.volume.names (op.dst resolve file) = none
  | .copy file todo copied =>
    Pending resolve op origin homeRoot s ∧ Publishing resolve op origin s.volume file todo ∧
      ∃ inode bytes, Copying resolve op origin s.volume file copied inode bytes
  | .setDataRoot => Pending resolve op origin homeRoot s ∧ Published resolve op origin s.volume []
  | .unpublish todo => Switched resolve op origin s ∧ ∀ file ∈ todo, file ∈ op.layout.files
  | .wipeRoot => Switched resolve op origin s ∧ op.clearHomeRoot = true ∧
      resolve op.layout.dataRoot ≠ resolve op.newRoot
  | .setDataRootLive | .setHomeRoot | .returned .ok | .returned .cleanupFailed =>
    Switched resolve op origin s
  | .returned .catalogFailed =>
    Pending resolve op origin homeRoot s ∨ Switched resolve op origin s

variable {resolve op origin homeRoot}

theorem Publishing.mem {volume : Volume PathBuf} {file : FileLayout} {todo : List FileLayout}
    (publishing : Publishing resolve op origin volume file todo) : file ∈ op.layout.files := by
  obtain ⟨done, split, _⟩ := publishing.earlier
  rw [split]
  exact List.mem_append_right done List.mem_cons_self

theorem published_all (volume : Volume PathBuf) (published : Published resolve op origin volume [])
    (file : FileLayout) (mem : file ∈ op.layout.files) : Arrived resolve op origin volume file := by
  obtain ⟨done, split, arrived⟩ := published
  rw [List.append_nil] at split
  exact arrived file (split ▸ mem)

/-- One more file has arrived, and with it those before it of the same path. -/
theorem published_next (volume : Volume PathBuf) (file : FileLayout) (todo : List FileLayout)
    (earlier : ∃ done, op.layout.files = done ++ file :: todo ∧
      ∀ other ∈ done, other.path ≠ file.path → Arrived resolve op origin volume other)
    (arrived : Arrived resolve op origin volume file) :
    Published resolve op origin volume todo := by
  obtain ⟨done, split, before⟩ := earlier
  refine ⟨done ++ [file], by rw [split, List.append_assoc]; rfl, ?_⟩
  intro other mem
  by_cases same : other.path = file.path
  · exact arrived_congr volume other file same arrived
  · rcases List.mem_append.1 mem with listed | last
    · exact before other listed same
    · rw [List.mem_singleton.1 last] at same
      exact absurd rfl same

theorem Published.earlier {volume : Volume PathBuf} {file : FileLayout} {todo : List FileLayout}
    (published : Published resolve op origin volume (file :: todo)) :
    ∃ done, op.layout.files = done ++ file :: todo ∧
      ∀ other ∈ done, other.path ≠ file.path → Arrived resolve op origin volume other := by
  obtain ⟨done, split, arrived⟩ := published
  exact ⟨done, split, fun other mem _ => arrived other mem⟩

/-- What only touches the new name of a file keeps the others arrived. -/
theorem Publishing.frame {before after : Volume PathBuf} {file : FileLayout}
    {todo : List FileLayout} (publishing : Publishing resolve op origin before file todo)
    (others : ∀ name, name ≠ op.dst resolve file → after.read name = before.read name) :
    Publishing resolve op origin after file todo := by
  refine ⟨publishing.there, publishing.moves, ?_⟩
  obtain ⟨done, split, arrived⟩ := publishing.earlier
  refine ⟨done, split, ?_⟩
  intro other mem distinct
  apply arrived_frame before after other
  · intro _
    exact others _ (fun clash => distinct ((dst_eq_iff resolve op other file).1 clash))
  · exact arrived other mem distinct

theorem Pending.frame {s : State} (pending : Pending resolve op origin homeRoot s) (s' : State)
    (dataRoot : s'.dataRoot = s.dataRoot) (home : s'.homeRoot = s.homeRoot)
    (sourced : Sourced resolve op origin s'.volume) : Pending resolve op origin homeRoot s' :=
  ⟨dataRoot.trans pending.dataRoot, home.trans pending.homeRoot, sourced⟩

theorem publish_stands (apart : Apart resolve op origin) (s s' : State) (event : Event)
    (file : FileLayout) (todo : List FileLayout) (pending : Pending resolve op origin homeRoot s)
    (published : Published resolve op origin s.volume (file :: todo))
    (taken : s.publish resolve op file todo event = some s') :
    Stands resolve op origin homeRoot s' := by
  have earlier := published.earlier
  have mem : file ∈ op.layout.files := by
    obtain ⟨done, split, _⟩ := earlier
    rw [split]
    exact List.mem_append_right done List.mem_cons_self
  have sourced := pending.sourced
  cases event with
  | chunk count => cases taken
  | remove name => cases taken
  | refused =>
    rw [State.publish] at taken
    split_ifs at taken
    cases taken
    exact pending.frame _ rfl rfl sourced
  | ok =>
    rw [State.publish] at taken
    split_ifs at taken with missing same occupied linked
    · cases taken
      refine ⟨pending.frame _ rfl rfl sourced, published_next s.volume file todo earlier ?_⟩
      intro bytes found
      rw [Bool.not_eq_true', sourced.holds file mem] at missing
      rw [(holds_iff origin _).2 ⟨bytes, found⟩] at missing
      cases missing
    · cases taken
      refine ⟨pending.frame _ rfl rfl sourced, published_next s.volume file todo earlier ?_⟩
      rw [Operation.samePath, Bool.and_eq_true, decide_eq_true_eq] at same
      exact sourced.arrived file mem (by rw [same.1])
    · cases taken
      refine ⟨pending.frame _ rfl rfl sourced, published_next s.volume file todo earlier ?_⟩
      rw [Operation.sameInode, Bool.and_eq_true, decide_eq_true_eq] at linked
      exact sourced.arrived file mem (by rw [Volume.read, Volume.read, linked.2])
    · have there : s.volume.holds (op.src resolve file) = true := by
        rw [Bool.not_eq_true', Bool.not_eq_false] at missing
        exact missing
      have moves : op.src resolve file ≠ op.dst resolve file := by
        intro clash
        exact same (by rw [Operation.samePath, decide_eq_true clash, there]; rfl)
      have publishing : Publishing resolve op origin s.volume file todo :=
        ⟨by rw [← sourced.holds file mem]; exact there, moves, earlier⟩
      have foreign := foreign_dst apart file mem publishing.there moves
      cases taken
      refine ⟨pending.frame _ rfl rfl (sourced.unlink _ foreign), ?_, unlink_names_self _ _⟩
      exact publishing.frame (fun name other => read_unlink_of_ne s.volume _ name other)
    · have there : s.volume.holds (op.src resolve file) = true := by
        rw [Bool.not_eq_true', Bool.not_eq_false] at missing
        exact missing
      have moves : op.src resolve file ≠ op.dst resolve file := by
        intro clash
        exact same (by rw [Operation.samePath, decide_eq_true clash, there]; rfl)
      cases taken
      refine ⟨pending.frame _ rfl rfl sourced, ?_, ?_⟩
      · exact ⟨by rw [← sourced.holds file mem]; exact there, moves, earlier⟩
      · rw [Volume.holds, Option.isSome_iff_ne_none, not_not] at occupied
        exact occupied

theorem hardLink_stands (apart : Apart resolve op origin) (s s' : State) (event : Event)
    (file : FileLayout) (todo : List FileLayout) (pending : Pending resolve op origin homeRoot s)
    (publishing : Publishing resolve op origin s.volume file todo)
    (free : s.volume.names (op.dst resolve file) = none)
    (taken : s.hardLink resolve op file todo event = some s') :
    Stands resolve op origin homeRoot s' := by
  have foreign := foreign_dst apart file publishing.mem publishing.there publishing.moves
  cases event with
  | chunk count => cases taken
  | remove name => cases taken
  | refused =>
    cases taken
    exact ⟨pending.frame _ rfl rfl pending.sourced, publishing, free⟩
  | ok =>
    cases taken
    have sourced := pending.sourced.link (op.src resolve file) (op.dst resolve file) foreign
    refine ⟨pending.frame _ rfl rfl sourced, ?_⟩
    have after := publishing.frame
      (fun name other => read_link_of_ne s.volume (op.src resolve file) _ name other)
    refine published_next _ file todo after.earlier (sourced.arrived file publishing.mem ?_)
    rw [read_link_self, read_link_of_ne s.volume _ _ _ publishing.moves]

theorem openCopy_stands (apart : Apart resolve op origin) (s s' : State) (event : Event)
    (file : FileLayout) (todo : List FileLayout) (pending : Pending resolve op origin homeRoot s)
    (publishing : Publishing resolve op origin s.volume file todo)
    (free : s.volume.names (op.dst resolve file) = none)
    (taken : s.openCopy resolve op file todo event = some s') :
    Stands resolve op origin homeRoot s' := by
  have foreign := foreign_dst apart file publishing.mem publishing.there publishing.moves
  cases event with
  | chunk count => cases taken
  | remove name => cases taken
  | refused =>
    cases taken
    exact pending.frame _ rfl rfl pending.sourced
  | ok =>
    rw [State.openCopy, create_absent s.volume _ free] at taken
    cases taken
    refine ⟨pending.frame _ rfl rfl (pending.sourced.allocate _ foreign), ?_, ?_⟩
    · exact publishing.frame (fun name other => read_allocate_of_ne s.volume _ name other)
    · obtain ⟨bytes, found⟩ := (holds_iff origin _).1 publishing.there
      refine ⟨s.volume.next, bytes, found, allocate_names_self _ _, pending.sourced.next, ?_, ?_, ?_⟩
      · exact fun name named => allocate_alone s.volume _ name named
      · rw [List.take_zero]
        exact Function.update_self _ _ _
      · exact Nat.zero_le _

/-- A chunk appends to the copy. -/
theorem copying_chunk (volume : Volume PathBuf) (file : FileLayout) (copied inode count : Nat)
    (bytes : List UInt8) (copying : Copying resolve op origin volume file copied inode bytes) :
    Copying resolve op origin (volume.write inode copied ((bytes.drop copied).take count)) file
      (copied + ((bytes.drop copied).take count).length) inode bytes := by
  have sized : (volume.contents inode).length = copied := by
    rw [copying.content, List.length_take, Nat.min_eq_left copying.within]
  have chunk : ((bytes.drop copied).take count).length = min count (bytes.length - copied) := by
    rw [List.length_take, List.length_drop]
  refine ⟨copying.source, copying.target, copying.fresh, copying.alone, ?_, ?_⟩
  · rw [write_contents_self]
    nth_rewrite 1 [← sized]
    rw [splice_end, copying.content, List.take_add, chunk]
    congr 1
    rw [← List.take_take, ← List.length_drop, List.take_length]
  · have within := copying.within
    omega

theorem copy_stands (s s' : State) (event : Event)
    (file : FileLayout) (todo : List FileLayout) (copied : Nat)
    (pending : Pending resolve op origin homeRoot s)
    (publishing : Publishing resolve op origin s.volume file todo) (inode : Nat)
    (bytes : List UInt8) (copying : Copying resolve op origin s.volume file copied inode bytes)
    (taken : s.copy resolve op file todo copied event = some s') :
    Stands resolve op origin homeRoot s' := by
  have source : s.volume.read (op.src resolve file) = some bytes := by
    rw [pending.sourced.read file publishing.mem, copying.source]
  cases event with
  | remove name => cases taken
  | refused =>
    cases taken
    exact pending.frame _ rfl rfl pending.sourced
  | chunk count =>
    cases named : s.volume.names (op.src resolve file) with
    | none => rw [read_none s.volume _ named] at source; cases source
    | some old =>
      rw [read_of_names s.volume _ old named, Option.some.injEq] at source
      simp only [State.copy, named, copying.target, source] at taken
      cases taken
      refine ⟨pending.frame _ rfl rfl (pending.sourced.write inode _ _ copying.fresh), ?_, inode,
        bytes, copying_chunk s.volume file copied inode count bytes copying⟩
      apply publishing.frame
      intro name other
      exact read_write_of_ne s.volume inode _ _ name (fun named => other (copying.alone name named))
  | ok =>
    simp only [State.copy, source] at taken
    split_ifs at taken with whole
    cases taken
    refine ⟨pending.frame _ rfl rfl pending.sourced,
      published_next s.volume file todo publishing.earlier ?_⟩
    apply pending.sourced.arrived file publishing.mem
    rw [source, read_of_names s.volume _ inode copying.target, copying.content,
      List.take_of_length_le whole]

/-- Removing a name that no arrived file needs. -/
theorem switched_unlinkAll (s s' : State) (gone : PathBuf → Bool)
    (switched : Switched resolve op origin s) (dataRoot : s'.dataRoot = s.dataRoot)
    (removed : s'.volume = s.volume.unlinkAll gone)
    (kept : ∀ file ∈ op.layout.files, origin.holds (op.src resolve file) = true →
      gone (op.dst resolve file) = false) : Switched resolve op origin s' := by
  refine ⟨dataRoot.trans switched.dataRoot, ?_⟩
  intro file mem
  apply arrived_frame s.volume s'.volume file
  · intro there
    rw [removed]
    exact read_unlinkAll_kept s.volume gone _ (kept file mem there)
  · exact switched.arrived file mem

theorem unpublish_stands (apart : Apart resolve op origin) (s s' : State) (event : Event)
    (file : FileLayout) (todo : List FileLayout) (switched : Switched resolve op origin s)
    (listed : ∀ other ∈ file :: todo, other ∈ op.layout.files)
    (taken : s.unpublish resolve op file todo event = some s') :
    Stands resolve op origin homeRoot s' := by
  have rest : ∀ other ∈ todo, other ∈ op.layout.files :=
    fun other mem => listed other (List.mem_cons_of_mem _ mem)
  cases event with
  | chunk count => cases taken
  | remove name => cases taken
  | refused =>
    cases taken
    exact ⟨⟨switched.dataRoot, switched.arrived⟩, rest⟩
  | ok =>
    rw [State.unpublish] at taken
    split_ifs at taken with same
    · cases taken
      exact ⟨⟨switched.dataRoot, switched.arrived⟩, rest⟩
    · cases taken
      refine ⟨switched_unlinkAll s _ _ switched rfl rfl ?_, rest⟩
      intro other mem there
      apply decide_eq_false
      intro clash
      by_cases path : file.path = other.path
      · -- the file is where it was: its source is not removed
        obtain ⟨bytes, found⟩ := (holds_iff origin _).1 there
        have arrived := switched.arrived other mem bytes found
        apply same
        rw [Operation.samePath, ← clash, (dst_eq_iff resolve op other file).2 path.symm,
          decide_eq_true rfl, Bool.true_and, holds_iff]
        rw [(dst_eq_iff resolve op other file).2 path.symm] at arrived
        exact ⟨bytes, arrived⟩
      · exact apart.names other mem there file (listed file List.mem_cons_self) path clash

theorem wipeRoot_stands (apart : Apart resolve op origin) (s s' : State) (event : Event)
    (switched : Switched resolve op origin s) (cleared : op.clearHomeRoot = true)
    (distinct : resolve op.layout.dataRoot ≠ resolve op.newRoot) (at' : s.point = .wipeRoot)
    (taken : s.wipeRoot resolve op event = some s') : Stands resolve op origin homeRoot s' := by
  have outside := apart.stage cleared distinct
  cases event with
  | chunk count => cases taken
  | refused =>
    cases taken
    exact ⟨switched.dataRoot, switched.arrived⟩
  | ok =>
    cases taken
    exact switched_unlinkAll s _ _ switched rfl rfl outside
  | remove name =>
    rw [State.wipeRoot] at taken
    split_ifs at taken with inside
    cases taken
    rw [Stands]
    simp only [at']
    refine ⟨switched_unlinkAll s _ _ switched rfl rfl ?_, cleared, distinct⟩
    intro file mem there
    apply decide_eq_false
    intro clash
    rw [← clash, outside file mem there] at inside
    cases inside

/-- What holds where the operation stands, holds after its next call. -/
theorem step_stands (apart : Apart resolve op origin) (s : State) (event : Event) (s' : State)
    (stands : Stands resolve op origin homeRoot s) (taken : step resolve op s event = some s') :
    Stands resolve op origin homeRoot s' := by
  unfold step at taken
  unfold Stands at stands
  cases at' : s.point with
  | start =>
    rw [at'] at taken stands
    by_cases same : op.layout.dataRoot = op.newRoot
    · have switched (cleared : Bool) : Switched resolve op origin (s.unmoved op cleared) := by
        refine ⟨stands.dataRoot.trans same, ?_⟩
        intro file mem
        exact stands.sourced.arrived file mem (by rw [Operation.src, Operation.dst, same])
      cases event with
      | ok =>
        simp only [same, if_true, Option.some.injEq] at taken
        exact taken ▸ switched true
      | refused =>
        simp only [same, if_true, Option.some.injEq] at taken
        exact taken ▸ switched false
      | _ => cases taken
    · cases event with
      | ok =>
        simp only [same, if_false, Option.some.injEq] at taken
        exact taken ▸ stands.frame _ rfl rfl stands.sourced
      | refused =>
        simp only [same, if_false, Option.some.injEq] at taken
        exact taken ▸ stands.frame _ rfl rfl stands.sourced
      | _ => cases taken
  | createRoot =>
    rw [at'] at taken stands
    cases event with
    | ok =>
      cases taken
      exact ⟨stands.frame _ rfl rfl stands.sourced, [], rfl, fun file mem => (by cases mem)⟩
    | refused => cases taken; exact stands.frame _ rfl rfl stands.sourced
    | _ => cases taken
  | publish todo =>
    rw [at'] at taken stands
    cases todo with
    | cons file todo => exact publish_stands apart s s' event file todo stands.1 stands.2 taken
    | nil =>
      cases event with
      | ok => cases taken; exact ⟨stands.1.frame _ rfl rfl stands.1.sourced, stands.2⟩
      | _ => cases taken
  | hardLink file todo =>
    rw [at'] at taken stands
    exact hardLink_stands apart s s' event file todo stands.1 stands.2.1 stands.2.2 taken
  | openCopy file todo =>
    rw [at'] at taken stands
    exact openCopy_stands apart s s' event file todo stands.1 stands.2.1 stands.2.2 taken
  | copy file todo copied =>
    rw [at'] at taken stands
    obtain ⟨pending, publishing, inode, bytes, copying⟩ := stands
    exact copy_stands s s' event file todo copied pending publishing inode bytes copying taken
  | setDataRoot =>
    rw [at'] at taken stands
    cases event with
    | ok => cases taken; exact ⟨rfl, published_all s.volume stands.2⟩
    | refused => cases taken; exact Or.inl (stands.1.frame _ rfl rfl stands.1.sourced)
    | _ => cases taken
  | setDataRootLive =>
    rw [at'] at taken stands
    cases event with
    | ok => cases taken; exact ⟨⟨stands.dataRoot, stands.arrived⟩, fun file mem => mem⟩
    | _ => cases taken
  | unpublish todo =>
    rw [at'] at taken stands
    cases todo with
    | cons file todo => exact unpublish_stands apart s s' event file todo stands.1 stands.2 taken
    | nil =>
      have switched := stands.1
      cases event with
      | ok =>
        cases taken
        rw [State.unpublished]
        split_ifs with cleared same
        · exact ⟨switched.dataRoot, switched.arrived⟩
        · exact ⟨⟨switched.dataRoot, switched.arrived⟩, cleared, same⟩
        · exact ⟨switched.dataRoot, switched.arrived⟩
      | _ => cases taken
  | wipeRoot =>
    rw [at'] at taken stands
    exact wipeRoot_stands apart s s' event stands.1 stands.2.1 stands.2.2 at' taken
  | setHomeRoot =>
    rw [at'] at taken stands
    cases event with
    | ok => cases taken; exact ⟨stands.dataRoot, stands.arrived⟩
    | refused => cases taken; exact Or.inr ⟨stands.dataRoot, stands.arrived⟩
    | _ => cases taken
  | returned result =>
    rw [at'] at taken
    cases event <;> cases taken

theorem pending_safe (s : State) (pending : Pending resolve op origin homeRoot s)
    (running : s.point ≠ .returned .ok) : Safe resolve op (begin op origin homeRoot) s where
  readable := by
    intro file mem bytes found
    rw [State.payload, pending.dataRoot]
    exact (pending.sourced.read file mem).trans found
  transfer := fun _ => ⟨pending.dataRoot, pending.homeRoot, pending.sourced.read⟩
  moved := fun done => absurd done running

theorem switched_safe (s : State) (switched : Switched resolve op origin s)
    (transferred : s.point ≠ .returned .transferFailed) :
    Safe resolve op (begin op origin homeRoot) s where
  readable := by
    intro file mem bytes found
    rw [State.payload, switched.dataRoot]
    exact switched.arrived file mem bytes found
  transfer := fun failed => absurd failed transferred
  moved := fun _ => ⟨switched.dataRoot, switched.arrived⟩

theorem stands_safe (s : State) (stands : Stands resolve op origin homeRoot s) :
    Safe resolve op (begin op origin homeRoot) s := by
  unfold Stands at stands
  cases at' : s.point with
  | publish _ | hardLink _ _ | openCopy _ _ | copy _ _ _ | setDataRoot
     => rw [at'] at stands; exact pending_safe s stands.1 (by rw [at']; simp)
  | unpublish _ | wipeRoot => rw [at'] at stands; exact switched_safe s stands.1 (by rw [at']; simp)
  | start | createRoot => rw [at'] at stands; exact pending_safe s stands (by rw [at']; simp)
  | setDataRootLive | setHomeRoot => rw [at'] at stands; exact switched_safe s stands (by rw [at']; simp)
  | returned result =>
    rw [at'] at stands
    cases result with
    | ok | cleanupFailed => exact switched_safe s stands (by rw [at']; simp)
    | loadFailed | transferFailed => exact pending_safe s stands (by rw [at']; simp)
    | catalogFailed =>
      rcases stands with pending | switched
      · exact pending_safe s pending (by rw [at']; simp)
      · exact switched_safe s switched (by rw [at']; simp)

/-- Wherever the operation is cut short, by an error or by the end of the run, the payload is where
the catalog has it, as long as no file's new name is another file's old one and a wiped stage has
no new name in it. -/
theorem relocation_safe (resolve : PathBuf → PathBuf) (op : Operation) (origin : Volume PathBuf)
    (homeRoot : Option PathBuf) (apart : Apart resolve op origin) (events : List Event) (s : State)
    (ran : exec (step resolve op) (begin op origin homeRoot) events = some s) :
    Safe resolve op (begin op origin homeRoot) s := by
  apply stands_safe
  apply exec_invariant_free (step resolve op) (Stands resolve op origin homeRoot)
    (step_stands apart) (begin op origin homeRoot) s events _ ran
  exact ⟨rfl, rfl, sourced_refl resolve op origin⟩

end

/-- Two files of one name, one of them in a folder. -/
def album : StorageLayout where
  dataRoot := ["r"]
  pieceLength := 16384
  pieceCount := 1
  totalSize := 2
  files := [⟨["x"], 1, 0, 1⟩, ⟨["sub", "x"], 1, 1, 1⟩]

def stored : Volume PathBuf where
  names := fun name =>
    if name = ["r", "x"] then some 0 else if name = ["r", "sub", "x"] then some 1 else none
  contents := fun inode => if inode = 0 then [1] else [2]
  next := 2
  below := by
    intro name inode named
    split_ifs at named <;> cases named <;> decide

/-- The folder as the new root. -/
def nestedMove : Operation where
  layout := album
  newRoot := ["r", "sub"]
  hot := true
  clearHomeRoot := false

/-- A cold move into a folder next to the files. -/
def coldMove : Operation := relocateTorrentData album ["r", "done"]

/-- A hand-off from a stage. -/
def handoff : Operation where
  layout := album
  newRoot := ["home"]
  hot := true
  clearHomeRoot := true

theorem coldMove_apart : Apart id coldMove stored where
  names := by decide
  stage := by decide

theorem handoff_apart : Apart id handoff stored where
  names := by decide
  stage := by decide

/-- The cold move copies its second file, and the hand-off wipes its stage. -/
theorem coldMove_handoff_safe :
    (∃ s, exec (step id coldMove) (begin coldMove stored none)
        [.ok, .ok, .ok, .ok, .ok, .refused, .ok, .chunk 1, .ok, .ok, .ok, .ok, .ok, .ok, .ok] = some s ∧
      s.point = .returned .ok ∧ Safe id coldMove (begin coldMove stored none) s) ∧
    ∃ s, exec (step id handoff) (begin handoff stored (some ["home"]))
        [.ok, .ok, .ok, .ok, .ok, .ok, .ok, .ok, .ok, .refused, .ok, .ok, .remove ["r", "x"], .ok, .ok] =
          some s ∧
      s.point = .returned .ok ∧ Safe id handoff (begin handoff stored (some ["home"])) s :=
  ⟨⟨_, rfl, rfl, relocation_safe id coldMove stored none coldMove_apart
      [.ok, .ok, .ok, .ok, .ok, .refused, .ok, .chunk 1, .ok, .ok, .ok, .ok, .ok, .ok, .ok] _ rfl⟩,
    ⟨_, rfl, rfl, relocation_safe id handoff stored (some ["home"]) handoff_apart
      [.ok, .ok, .ok, .ok, .ok, .ok, .ok, .ok, .ok, .refused, .ok, .ok, .remove ["r", "x"], .ok, .ok]
      _ rfl⟩⟩

/-- Publishing `x` removes the source of `sub/x`: a transfer that then fails has changed the source,
and one that succeeds leaves no `x` under the new root. -/
theorem nestedMove_unsafe :
    (∃ s, exec (step id nestedMove) (begin nestedMove stored none) [.ok, .ok, .ok, .refused, .refused] =
        some s ∧ s.point = .returned .transferFailed ∧
      s.payload id ⟨["sub", "x"], 1, 1, 1⟩ = none ∧ ¬ Safe id nestedMove (begin nestedMove stored none) s) ∧
    ∃ s, exec (step id nestedMove) (begin nestedMove stored none)
        [.ok, .ok, .ok, .ok, .ok, .ok, .ok, .ok, .ok, .ok, .ok, .ok] = some s ∧
      s.point = .returned .ok ∧ s.payload id ⟨["x"], 1, 0, 1⟩ = none ∧
      ¬ Safe id nestedMove (begin nestedMove stored none) s := by
  constructor
  · refine ⟨_, rfl, rfl, rfl, ?_⟩
    intro safe
    have kept := safe.readable ⟨["sub", "x"], 1, 1, 1⟩ (by decide) [2] rfl
    exact absurd kept (by decide)
  · refine ⟨_, rfl, rfl, rfl, ?_⟩
    intro safe
    have kept := safe.readable ⟨["x"], 1, 0, 1⟩ (by decide) [1] rfl
    exact absurd kept (by decide)

end Seedchamp.Disk.RelocateSafety
