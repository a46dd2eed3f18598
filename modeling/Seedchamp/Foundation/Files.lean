import Mathlib.Data.List.Range
import Mathlib.Logic.Function.Basic

/-!
Regular files by name, with reads and writes at an offset, and what they do to single bytes.
-/

namespace Seedchamp.Foundation.Files

variable {π : Type} [DecidableEq π]

/-- The content of every file that exists. -/
abbrev Volume (π : Type) := π → Option (List UInt8)

/-- The content with `data` at `offset`. Beyond the end the file grows, and a gap reads as zeros. -/
def splice (content : List UInt8) (offset : Nat) (data : List UInt8) : List UInt8 :=
  if data = [] then content
  else
    (content ++ List.replicate (offset - content.length) 0).take offset ++ data ++
      content.drop (offset + data.length)

/-- Open for writing, which creates a missing file. -/
def create (volume : Volume π) (name : π) : Volume π :=
  Function.update volume name (some ((volume name).getD []))

/-- Open for writing and write all of `data` at `offset`. -/
def writeAt (volume : Volume π) (name : π) (offset : Nat) (data : List UInt8) : Volume π :=
  Function.update volume name (some (splice ((volume name).getD []) offset data))

inductive ReadError where
  | missing
  | short (got : Nat)
  deriving DecidableEq, Repr

/-- Read exactly `len` bytes at `offset`. -/
def readAt (volume : Volume π) (name : π) (offset len : Nat) : Except ReadError (List UInt8) :=
  match volume name with
  | none => .error .missing
  | some content =>
    let got := (content.drop offset).take len
    if got.length = len then .ok got else .error (.short got.length)

/-- The byte at a place of a file, where there is one. -/
def byteAt (volume : Volume π) (place : π × Nat) : Option UInt8 :=
  (volume place.1).bind fun content => content[place.2]?

/-- A byte is as it was, or a zero where there was none. -/
def Kept (before after : Option UInt8) : Prop := after = before ∨ before = none ∧ after = some 0

theorem kept_refl (byte : Option UInt8) : Kept byte byte := Or.inl rfl

theorem kept_some (byte : UInt8) (after : Option UInt8) (kept : Kept (some byte) after) :
    after = some byte := by
  rcases kept with same | ⟨absent, _⟩
  · exact same
  · cases absent

theorem kept_trans (first second third : Option UInt8) (before : Kept first second)
    (after : Kept second third) : Kept first third := by
  rcases before with same | ⟨absent, zero⟩
  · rw [← same]
    exact after
  · rw [zero] at after
    exact Or.inr ⟨absent, kept_some 0 third after⟩

theorem splice_getElem? (content : List UInt8) (offset : Nat) (data : List UInt8) (i : Nat) :
    (splice content offset data)[i]? =
      if offset ≤ i ∧ i < offset + data.length then data[i - offset]?
      else if i < content.length then content[i]?
      else if data ≠ [] ∧ i < offset then some 0 else none := by
  rw [splice]
  by_cases blank : data = []
  · rw [if_pos blank, blank]
    have never : ¬ (offset ≤ i ∧ i < offset + ([] : List UInt8).length) := by
      simp only [List.length_nil]
      omega
    rw [if_neg never]
    by_cases inside : i < content.length
    · rw [if_pos inside]
    · rw [if_neg inside, if_neg (fun both => both.1 rfl), List.getElem?_eq_none (by omega)]
  · have sized : 0 < data.length := List.length_pos_of_ne_nil blank
    rw [if_neg blank]
    have front : ((content ++ List.replicate (offset - content.length) (0 : UInt8)).take offset).length
        = offset := by
      rw [List.length_take, List.length_append, List.length_replicate]
      omega
    rw [List.getElem?_append, List.getElem?_append, List.length_append, front]
    by_cases low : i < offset
    · rw [if_pos (by omega), if_pos low, if_neg (by omega), List.getElem?_take, if_pos low,
        List.getElem?_append]
      by_cases inside : i < content.length
      · rw [if_pos inside, if_pos inside]
      · rw [if_neg inside, if_neg inside, if_pos ⟨blank, low⟩, List.getElem?_replicate,
          if_pos (by omega)]
    · by_cases middle : i < offset + data.length
      · rw [if_pos middle, if_neg low, if_pos (by omega)]
      · rw [if_neg middle, if_neg (by omega), List.getElem?_drop]
        have index : offset + data.length + (i - (offset + data.length)) = i := by omega
        rw [index]
        by_cases inside : i < content.length
        · rw [if_pos inside]
        · rw [if_neg inside, if_neg (by omega), List.getElem?_eq_none (by omega)]

omit [DecidableEq π] in
/-- A volume is known by the names of its files and by its bytes. -/
theorem volume_ext (first second : Volume π)
    (names : ∀ name, (first name).isSome = (second name).isSome)
    (bytes : ∀ place, byteAt first place = byteAt second place) : first = second := by
  funext name
  have here := names name
  have content : ∀ i, byteAt first (name, i) = byteAt second (name, i) := fun i => bytes (name, i)
  simp only [byteAt] at content
  cases left : first name with
  | none =>
    cases right : second name with
    | none => rfl
    | some b => rw [left, right] at here; cases here
  | some a =>
    cases right : second name with
    | none => rw [left, right] at here; cases here
    | some b =>
      rw [left, right] at content
      congr 1
      ext1 i
      exact content i

theorem create_isSome (volume : Volume π) (name other : π) :
    (create volume name other).isSome = (decide (other = name) || (volume other).isSome) := by
  rw [create, Function.update_apply]
  split_ifs with same
  · rw [decide_eq_true same, Bool.true_or]
    rfl
  · rw [decide_eq_false same, Bool.false_or]

theorem byteAt_create (volume : Volume π) (name : π) (place : π × Nat) :
    byteAt (create volume name) place = byteAt volume place := by
  rw [byteAt, byteAt, create, Function.update_apply]
  split_ifs with same
  · rw [same]
    cases volume name with
    | _ => rfl
  · rfl

theorem writeAt_isSome (volume : Volume π) (name : π) (offset : Nat) (data : List UInt8) (other : π) :
    (writeAt volume name offset data other).isSome =
      (decide (other = name) || (volume other).isSome) := by
  rw [writeAt, Function.update_apply]
  split_ifs with same
  · rw [decide_eq_true same, Bool.true_or]
    rfl
  · rw [decide_eq_false same, Bool.false_or]

theorem byteAt_writeAt (volume : Volume π) (name : π) (offset : Nat) (data : List UInt8)
    (place : π × Nat) :
    byteAt (writeAt volume name offset data) place =
      if place.1 = name ∧ offset ≤ place.2 ∧ place.2 < offset + data.length then data[place.2 - offset]?
      else if (byteAt volume place).isSome then byteAt volume place
      else if place.1 = name ∧ data ≠ [] ∧ place.2 < offset then some 0 else none := by
  obtain ⟨other, i⟩ := place
  dsimp only
  by_cases same : other = name
  · subst same
    have old : byteAt volume (other, i) = ((volume other).getD [])[i]? := by
      rw [byteAt]
      cases volume other with
      | _ => rfl
    have new : byteAt (writeAt volume other offset data) (other, i) =
        (splice ((volume other).getD []) offset data)[i]? := by
      rw [byteAt, writeAt, Function.update_self, Option.bind_some]
    rw [new, old, splice_getElem?]
    simp only [true_and, isSome_getElem?]
  · have untouched : byteAt (writeAt volume name offset data) (other, i) = byteAt volume (other, i) := by
      rw [byteAt, byteAt, writeAt, Function.update_of_ne same]
    have inside : ¬ (other = name ∧ offset ≤ i ∧ i < offset + data.length) := fun both => same both.1
    have gap : ¬ (other = name ∧ data ≠ [] ∧ i < offset) := fun both => same both.1
    rw [untouched, if_neg inside, if_neg gap]
    cases byteAt volume (other, i) with
    | _ => rfl

/-- A write leaves its bytes behind. -/
theorem byteAt_writeAt_inside (volume : Volume π) (name : π) (offset : Nat) (data : List UInt8) (k : Nat)
    (inside : k < data.length) :
    byteAt (writeAt volume name offset data) (name, offset + k) = data[k]? := by
  rw [byteAt_writeAt, if_pos ⟨rfl, by omega, by omega⟩, Nat.add_sub_cancel_left]

/-- A write keeps every byte outside of it. -/
theorem byteAt_writeAt_outside (volume : Volume π) (name : π) (offset : Nat) (data : List UInt8)
    (place : π × Nat)
    (outside : ¬ (place.1 = name ∧ offset ≤ place.2 ∧ place.2 < offset + data.length)) :
    Kept (byteAt volume place) (byteAt (writeAt volume name offset data) place) := by
  rw [byteAt_writeAt, if_neg outside]
  cases byteAt volume place with
  | none =>
    rw [if_neg (by decide)]
    split_ifs
    · exact Or.inr ⟨rfl, rfl⟩
    · exact Or.inl rfl
  | some byte => exact Or.inl rfl

/-- A write keeps every other file. -/
theorem writeAt_other (volume : Volume π) (name other : π) (offset : Nat) (data : List UInt8)
    (different : other ≠ name) : writeAt volume name offset data other = volume other :=
  Function.update_of_ne different _ _

/-- Writes that do not overlap can be swapped. -/
theorem writeAt_comm (volume : Volume π) (name other : π) (offset at' : Nat) (data bytes : List UInt8)
    (apart : name ≠ other ∨ offset + data.length ≤ at' ∨ at' + bytes.length ≤ offset) :
    writeAt (writeAt volume name offset data) other at' bytes =
      writeAt (writeAt volume other at' bytes) name offset data := by
  apply volume_ext
  · intro file
    rw [writeAt_isSome, writeAt_isSome, writeAt_isSome, writeAt_isSome]
    exact Bool.or_left_comm _ _ _
  · intro place
    simp only [byteAt_writeAt]
    by_cases first : place.1 = name ∧ offset ≤ place.2 ∧ place.2 < offset + data.length
    · have second : ¬ (place.1 = other ∧ at' ≤ place.2 ∧ place.2 < at' + bytes.length) := by
        intro inside
        obtain ⟨named, low, high⟩ := inside
        rcases apart with different | before | after
        · exact different (first.1.symm.trans named)
        · omega
        · omega
      have found : (data[place.2 - offset]?).isSome = true := by
        rw [isSome_getElem?]
        omega
      rw [if_neg second, if_pos first, if_pos first, if_pos found]
    · by_cases second : place.1 = other ∧ at' ≤ place.2 ∧ place.2 < at' + bytes.length
      · have found : (bytes[place.2 - at']?).isSome = true := by
          rw [isSome_getElem?]
          omega
        rw [if_pos second, if_neg first, if_pos second, if_pos found]
      · rw [if_neg first, if_neg first, if_neg second, if_neg second]
        cases byteAt volume place with
        | some byte => rfl
        | none =>
          by_cases left : place.1 = name ∧ data ≠ [] ∧ place.2 < offset <;>
            by_cases right : place.1 = other ∧ bytes ≠ [] ∧ place.2 < at' <;>
              simp [left, right]

/-- The bytes from an offset on, one by one. -/
theorem drop_take_iff (content : List UInt8) (offset len : Nat) (bytes : List UInt8) :
    bytes.map some = (List.range len).map (fun k => content[offset + k]?) ↔
      bytes = (content.drop offset).take len ∧ bytes.length = len := by
  constructor
  · intro listed
    have sized : bytes.length = len := by
      have counted := congrArg List.length listed
      rw [List.length_map, List.length_map, List.length_range] at counted
      exact counted
    refine ⟨?_, sized⟩
    ext1 k
    by_cases inside : k < len
    · have here := congrArg (fun list => list[k]?) listed
      simp only [List.getElem?_map, List.getElem?_range inside, Option.map_some] at here
      rw [List.getElem?_take, if_pos inside, List.getElem?_drop]
      rw [List.getElem?_eq_getElem (by omega), Option.map_some, Option.some.injEq] at here
      rw [List.getElem?_eq_getElem (by omega), here]
    · rw [List.getElem?_eq_none (by omega), List.getElem?_take, if_neg inside]
  · intro taken
    obtain ⟨equal, sized⟩ := taken
    apply List.ext_getElem
    · rw [List.length_map, List.length_map, List.length_range, sized]
    · intro k low high
      rw [List.length_map] at low
      rw [List.getElem_map, List.getElem_map, List.getElem_range, ← List.getElem?_eq_getElem low]
      rw [equal, List.getElem?_take, if_pos (by omega), List.getElem?_drop]

omit [DecidableEq π] in
/-- A read succeeds just when the file is there and has every byte, and then gives these bytes. -/
theorem readAt_ok_iff (volume : Volume π) (name : π) (offset len : Nat) (bytes : List UInt8) :
    readAt volume name offset len = .ok bytes ↔
      (volume name).isSome = true ∧
        bytes.map some = (List.range len).map fun k => byteAt volume (name, offset + k) := by
  rw [readAt]
  simp only [byteAt]
  cases volume name with
  | none => simp
  | some content =>
    simp only [Option.isSome_some, true_and, Option.bind_some]
    rw [drop_take_iff]
    by_cases whole : ((content.drop offset).take len).length = len
    · rw [if_pos whole, Except.ok.injEq]
      constructor
      · intro same
        rw [← same]
        exact ⟨rfl, whole⟩
      · intro same
        exact same.1.symm
    · rw [if_neg whole]
      constructor
      · nofun
      · intro same
        rw [← same.1] at whole
        exact absurd same.2 whole

end Seedchamp.Foundation.Files
