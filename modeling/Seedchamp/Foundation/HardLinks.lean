import Seedchamp.Foundation.Files

/-!
A volume with hard links: names lead to inodes, and an inode has the content. Inodes from `next` on
are free.
-/

namespace Seedchamp.Foundation.HardLinks
open Foundation.Files

variable {π : Type} [DecidableEq π]

structure Volume (π : Type) where
  names : π → Option Nat
  contents : Nat → List UInt8
  next : Nat
  below : ∀ name inode, names name = some inode → inode < next

namespace Volume

/-- The content of a file, where the name leads to one. -/
def read (volume : Volume π) (name : π) : Option (List UInt8) :=
  (volume.names name).map volume.contents

def holds (volume : Volume π) (name : π) : Bool := (volume.names name).isSome

/-- Give the file of `src` the name `dst` too. -/
def link (volume : Volume π) (src dst : π) : Volume π where
  names := Function.update volume.names dst (volume.names src)
  contents := volume.contents
  next := volume.next
  below := by
    intro name inode named
    rw [Function.update_apply] at named
    split_ifs at named with same
    · exact volume.below src inode named
    · exact volume.below name inode named

/-- Remove every name that `gone` picks. -/
def unlinkAll (volume : Volume π) (gone : π → Bool) : Volume π where
  names := fun name => if gone name then none else volume.names name
  contents := volume.contents
  next := volume.next
  below := by
    intro name inode named
    split_ifs at named with removed
    exact volume.below name inode named

def unlink (volume : Volume π) (name : π) : Volume π :=
  volume.unlinkAll (fun other => decide (other = name))

/-- Write `data` at an offset of an inode. -/
def write (volume : Volume π) (inode offset : Nat) (data : List UInt8) : Volume π :=
  { volume with
    contents := Function.update volume.contents inode
      (splice (volume.contents inode) offset data) }

/-- Give a fresh empty file the name. -/
def allocate (volume : Volume π) (name : π) : Volume π where
  names := Function.update volume.names name (some volume.next)
  contents := Function.update volume.contents volume.next []
  next := volume.next + 1
  below := by
    intro other inode named
    rw [Function.update_apply] at named
    split_ifs at named with same
    · cases named
      exact Nat.lt_succ_self _
    · exact Nat.lt_succ_of_lt (volume.below other inode named)

/-- Open for writing from the start, which empties the file or creates it. -/
def create (volume : Volume π) (name : π) : Volume π :=
  match volume.names name with
  | some inode => { volume with contents := Function.update volume.contents inode [] }
  | none => volume.allocate name

omit [DecidableEq π] in
theorem read_of_names (volume : Volume π) (name : π) (inode : Nat)
    (named : volume.names name = some inode) : volume.read name = some (volume.contents inode) := by
  rw [read, named, Option.map_some]

omit [DecidableEq π] in
theorem read_none (volume : Volume π) (name : π) (absent : volume.names name = none) :
    volume.read name = none := by
  rw [read, absent, Option.map_none]

omit [DecidableEq π] in
/-- A file that is there has a content. -/
theorem holds_iff (volume : Volume π) (name : π) :
    volume.holds name = true ↔ ∃ bytes, volume.read name = some bytes := by
  rw [holds, read]
  cases volume.names name with
  | none => exact ⟨fun clash => (by cases clash), by rintro ⟨bytes, clash⟩; cases clash⟩
  | some inode => exact ⟨fun _ => ⟨volume.contents inode, rfl⟩, fun _ => rfl⟩

theorem link_names_self (volume : Volume π) (src dst : π) :
    (volume.link src dst).names dst = volume.names src :=
  Function.update_self _ _ _

theorem link_names_of_ne (volume : Volume π) (src dst name : π) (different : name ≠ dst) :
    (volume.link src dst).names name = volume.names name :=
  Function.update_of_ne different _ _

/-- Both names of a linked file read the same. -/
theorem read_link_self (volume : Volume π) (src dst : π) :
    (volume.link src dst).read dst = volume.read src := by
  rw [read, link_names_self]
  rfl

theorem read_link_of_ne (volume : Volume π) (src dst name : π) (different : name ≠ dst) :
    (volume.link src dst).read name = volume.read name := by
  rw [read, link_names_of_ne volume src dst name different]
  rfl

omit [DecidableEq π] in
theorem unlinkAll_names (volume : Volume π) (gone : π → Bool) (name : π) :
    (volume.unlinkAll gone).names name = if gone name then none else volume.names name := rfl

theorem unlink_names_self (volume : Volume π) (name : π) : (volume.unlink name).names name = none := by
  rw [unlink, unlinkAll_names, if_pos (decide_eq_true rfl)]

theorem unlink_names_of_ne (volume : Volume π) (name other : π) (different : other ≠ name) :
    (volume.unlink name).names other = volume.names other := by
  rw [unlink, unlinkAll_names, decide_eq_false different, if_neg Bool.false_ne_true]

omit [DecidableEq π] in
theorem read_unlinkAll_kept (volume : Volume π) (gone : π → Bool) (name : π)
    (kept : gone name = false) : (volume.unlinkAll gone).read name = volume.read name := by
  rw [read, unlinkAll_names, kept, if_neg Bool.false_ne_true]
  rfl

theorem read_unlink_of_ne (volume : Volume π) (name other : π) (different : other ≠ name) :
    (volume.unlink name).read other = volume.read other :=
  read_unlinkAll_kept volume _ other (decide_eq_false different)

theorem allocate_names_self (volume : Volume π) (name : π) :
    (volume.allocate name).names name = some volume.next :=
  Function.update_self _ _ _

theorem allocate_names_of_ne (volume : Volume π) (name other : π) (different : other ≠ name) :
    (volume.allocate name).names other = volume.names other :=
  Function.update_of_ne different _ _

theorem allocate_contents_of_lt (volume : Volume π) (name : π) (inode : Nat)
    (old : inode < volume.next) :
    (volume.allocate name).contents inode = volume.contents inode :=
  Function.update_of_ne (Nat.ne_of_lt old) _ _

theorem read_allocate_of_ne (volume : Volume π) (name other : π) (different : other ≠ name) :
    (volume.allocate name).read other = volume.read other := by
  rw [read, read, allocate_names_of_ne volume name other different]
  cases named : volume.names other with
  | none => rfl
  | some inode =>
    rw [Option.map_some, Option.map_some,
      allocate_contents_of_lt volume name inode (volume.below other inode named)]

/-- The fresh inode has no other name. -/
theorem allocate_alone (volume : Volume π) (name other : π)
    (named : (volume.allocate name).names other = some volume.next) : other = name := by
  by_contra different
  rw [allocate_names_of_ne volume name other different] at named
  exact absurd (volume.below other volume.next named) (Nat.lt_irrefl _)

theorem create_absent (volume : Volume π) (name : π) (absent : volume.names name = none) :
    volume.create name = volume.allocate name := by
  rw [create, absent]

omit [DecidableEq π] in
theorem write_contents_self (volume : Volume π) (inode offset : Nat) (data : List UInt8) :
    (volume.write inode offset data).contents inode =
      splice (volume.contents inode) offset data :=
  Function.update_self _ _ _

omit [DecidableEq π] in
theorem write_contents_of_ne (volume : Volume π) (inode other offset : Nat) (data : List UInt8)
    (different : other ≠ inode) :
    (volume.write inode offset data).contents other = volume.contents other :=
  Function.update_of_ne different _ _

omit [DecidableEq π] in
/-- A write changes only what the names of its inode read. -/
theorem read_write_of_ne (volume : Volume π) (inode offset : Nat) (data : List UInt8) (name : π)
    (different : volume.names name ≠ some inode) :
    (volume.write inode offset data).read name = volume.read name := by
  change (volume.names name).map (volume.write inode offset data).contents =
    (volume.names name).map volume.contents
  cases named : volume.names name with
  | none => rfl
  | some other =>
    rw [Option.map_some, Option.map_some, write_contents_of_ne volume inode other offset data
      (fun same => different (by rw [named, same]))]

end Volume

/-- A write at the end appends. -/
theorem splice_end (content data : List UInt8) :
    splice content content.length data = content ++ data := by
  rw [splice]
  split_ifs with blank
  · rw [blank, List.append_nil]
  · rw [Nat.sub_self, List.replicate_zero, List.append_nil, List.take_length,
      List.drop_eq_nil_of_le (Nat.le_add_right _ _), List.append_nil]

end Seedchamp.Foundation.HardLinks
