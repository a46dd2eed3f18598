import Seedchamp.Torrentfile.RoundTrip

/-!
The bencode decoder with every index, slice and sum checked, and with a stack of limited room: where
it panics, and what it returns elsewhere.
-/

namespace Seedchamp.Torrentfile.CheckedDecode
open Foundation Foundation.Decimal Torrentfile.Bencode Torrentfile.Grammar

/-- What ends the process or the thread in the place of a result. -/
inductive Trap where
  | overflow
  | outOfBounds
  | stackOverflow
  deriving DecidableEq, Repr

inductive Fault where
  | trap (trap : Trap)
  | fail (problem : Error)
  deriving DecidableEq, Repr

abbrev Checked (α : Type) := Except Fault α

/-- `input[i]`. -/
def index (input : Bytes) (i : Nat) : Checked UInt8 :=
  match input[i]? with
  | some c => .ok c
  | none => .error (.trap .outOfBounds)

/-- A sum on `usize`: a build with overflow checks panics, one without them wraps. -/
def add (checks : Bool) (a b : Nat) : Checked Nat :=
  if a + b < 2 ^ 64 then .ok (a + b)
  else if checks then .error (.trap .overflow)
  else .ok ((a + b) % 2 ^ 64)

/-- `&input[start..end]`. -/
def sliceOf (input : Bytes) (start stop : Nat) : Checked Bytes :=
  if start ≤ stop ∧ stop ≤ input.length then .ok (slice input start stop)
  else .error (.trap .outOfBounds)

/-- `*i < input.len() && input[*i] != stop`. -/
def goesOn (input : Bytes) (stop : UInt8) (i : Nat) : Checked Bool :=
  if i < input.length then (index input i).map (fun c => decide (c ≠ stop)) else .ok false

/-- The loop that moves the cursor to a stop byte, at most `turns` times. -/
def skipTo (checks : Bool) (input : Bytes) (stop : UInt8) : Nat → Nat → Checked Nat
  | 0, _ => .error (.fail .outOfFuel)
  | turns + 1, i => do
    let goes ← goesOn input stop i
    if goes then
      let i ← add checks i 1
      skipTo checks input stop turns i
    else return i

def decodeInt (checks : Bool) (input : Bytes) (i : Nat) : Checked (Value × Nat) := do
  let start ← add checks i 1
  let stop ← skipTo checks input (byte 'e') (input.length + 1) start
  if input.length ≤ stop then .error (.fail .unterminatedInteger)
  else
    let s ← sliceOf input start stop
    if (Utf8.decode s).isNone then .error (.fail .integerNotUtf8)
    else
      match parseI64 s with
      | none => .error (.fail (.badInteger s))
      | some v =>
        let i ← add checks stop 1
        return (.int v, i)

def decodeBytes (checks : Bool) (input : Bytes) (i : Nat) : Checked (Value × Nat) := do
  let stop ← skipTo checks input (byte ':') (input.length + 1) i
  if input.length ≤ stop then .error (.fail .unterminatedStringLength)
  else
    let lenS ← sliceOf input i stop
    if (Utf8.decode lenS).isNone then .error (.fail .stringLengthNotUtf8)
    else
      match parseUsize lenS with
      | none => .error (.fail (.badStringLength lenS))
      | some len =>
        let i ← add checks stop 1
        let past ← add checks i len
        if input.length < past then .error (.fail .stringExtendsPastEnd)
        else
          let past ← add checks i len
          let bytes ← sliceOf input i past
          let i ← add checks i len
          return (.bytes bytes, i)

mutual

/-- `decode_at` on a stack with room for `room` nested values. -/
def decodeAt (checks : Bool) (input : Bytes) : Nat → Nat → Nat → Checked (Value × Nat)
  | 0, _, _ => .error (.fail .outOfFuel)
  | _ + 1, 0, _ => .error (.trap .stackOverflow)
  | fuel + 1, room + 1, i => do
    if input.length ≤ i then .error (.fail .unexpectedEnd)
    else
      let c ← index input i
      if c = byte 'i' then decodeInt checks input i
      else if c = byte 'l' then
        let i ← add checks i 1
        decodeList checks input fuel room i []
      else if c = byte 'd' then
        let i ← add checks i 1
        decodeDict checks input fuel room i []
      else if isDigit c then decodeBytes checks input i
      else .error (.fail (.invalidTypeMarker c i))

def decodeList (checks : Bool) (input : Bytes) :
    Nat → Nat → Nat → List Value → Checked (Value × Nat)
  | 0, _, _, _ => .error (.fail .outOfFuel)
  | fuel + 1, room, i, list => do
    let goes ← goesOn input (byte 'e') i
    if goes then
      let (v, i) ← decodeAt checks input fuel room i
      decodeList checks input fuel room i (list ++ [v])
    else if input.length ≤ i then .error (.fail .unterminatedList)
    else
      let i ← add checks i 1
      return (.list list, i)

def decodeDict (checks : Bool) (input : Bytes) :
    Nat → Nat → Nat → List (Bytes × Value) → Checked (Value × Nat)
  | 0, _, _, _ => .error (.fail .outOfFuel)
  | fuel + 1, room, i, map => do
    let goes ← goesOn input (byte 'e') i
    if goes then
      let (k, i) ← decodeAt checks input fuel room i
      match k.asBytes with
      | none => .error (.fail .dictKeyNotString)
      | some key =>
        let (v, i) ← decodeAt checks input fuel room i
        decodeDict checks input fuel room i (SortedMap.insert key v map)
    else if input.length ≤ i then .error (.fail .unterminatedDict)
    else
      let i ← add checks i 1
      return (.dict map, i)

end

def decode (checks : Bool) (room : Nat) (input : Bytes) : Checked (Value × Nat) :=
  decodeAt checks input (turns input) room 0

def trapOf {α : Type} : Checked α → Option Trap
  | .error (.trap trap) => some trap
  | _ => none

example : trapOf (decode true 5 (Value.key "18446744073709551615:")) = some .overflow := by
  decide +kernel

example : trapOf (decode false 5 (Value.key "18446744073709551615:")) = some .outOfBounds := by
  decide +kernel

example : trapOf (decode false 2 (Value.key "llle")) = some .stackOverflow := by decide +kernel

/-- A result of the plain decoder. -/
def lift {α : Type} : Except Error α → Checked α
  | .ok a => .ok a
  | .error problem => .error (.fail problem)

theorem ok_bind {α β : Type} (a : α) (f : α → Checked β) : ((.ok a : Checked α) >>= f) = f a := rfl

theorem error_bind {α β : Type} (fault : Fault) (f : α → Checked β) :
    ((.error fault : Checked α) >>= f) = .error fault := rfl

section Steps
variable (checks : Bool) (input : Bytes)

theorem index_inside (i : Nat) (inside : i < input.length) :
    index input i = .ok (input.getD i 0) := by
  rw [index, List.getD_eq_getElem?_getD, List.getElem?_eq_getElem inside]
  rfl

theorem add_small (a b : Nat) (small : a + b < 2 ^ 64) : add checks a b = .ok (a + b) := by
  rw [add, if_pos small]

theorem sliceOf_inside (start stop : Nat) (order : start ≤ stop) (bounded : stop ≤ input.length) :
    sliceOf input start stop = .ok (slice input start stop) := by
  rw [sliceOf, if_pos ⟨order, bounded⟩]

theorem goesOn_eq (stop : UInt8) (i : Nat) :
    goesOn input stop i = .ok (decide (i < input.length ∧ input.getD i 0 ≠ stop)) := by
  rw [goesOn]
  by_cases inside : i < input.length
  · rw [if_pos inside, index_inside input i inside]
    simp only [Except.map, inside, true_and]
  · simp only [inside, if_false, false_and, decide_false]

theorem scan_goes (stop : UInt8) (i : Nat) (inside : i < input.length)
    (other : input.getD i 0 ≠ stop) : scan input stop i = scan input stop (i + 1) := by
  rw [scan, drop_eq_cons input i inside,
    List.takeWhile_cons_of_pos (by rw [decide_eq_true_eq]; exact other), List.length_cons, scan]
  omega

theorem scan_stops (stop : UInt8) (i : Nat)
    (stops : ¬ (i < input.length ∧ input.getD i 0 ≠ stop)) : scan input stop i = i := by
  rw [scan]
  by_cases inside : i < input.length
  · rw [not_and_not_right] at stops
    rw [drop_eq_cons input i inside, stops inside, List.takeWhile_cons_of_neg (by simp)]
    rfl
  · rw [List.drop_eq_nil_of_le (by omega)]
    rfl

theorem skipTo_eq (fits : input.length < 2 ^ 63) (stop : UInt8) (turns i : Nat)
    (enough : input.length < turns + i) (bounded : 0 < turns) :
    skipTo checks input stop turns i = .ok (scan input stop i) := by
  induction turns generalizing i with
  | zero => omega
  | succ turns ih =>
    rw [skipTo, goesOn_eq, ok_bind]
    by_cases goes : i < input.length ∧ input.getD i 0 ≠ stop
    · rw [if_pos (decide_eq_true goes), add_small checks i 1 (by omega), ok_bind,
        ih (i + 1) (by omega) (by omega), scan_goes input stop i goes.1 goes.2]
    · rw [if_neg (by rw [decide_eq_true_eq]; exact goes), scan_stops input stop i goes]
      rfl

theorem decodeInt_eq (fits : input.length < 2 ^ 63) (i : Nat) (inside : i < input.length) :
    decodeInt checks input i = lift (Bencode.decodeInt input i) := by
  have after := le_scan input (byte 'e') (i + 1)
  rw [decodeInt, add_small checks i 1 (by omega), ok_bind,
    skipTo_eq checks input fits _ _ _ (by omega) (by omega), ok_bind, Bencode.decodeInt]
  dsimp only
  by_cases past : input.length ≤ scan input (byte 'e') (i + 1)
  · rw [if_pos past, if_pos past]
    rfl
  · rw [if_neg past, if_neg past, sliceOf_inside input _ _ after (by omega), ok_bind]
    split_ifs
    · rfl
    · cases parseI64 (slice input (i + 1) (scan input (byte 'e') (i + 1))) with
      | none => rfl
      | some v =>
        dsimp only
        rw [add_small checks _ 1 (by omega), ok_bind]
        rfl

/-- A declared length is added to the cursor without a check: where the sum does not fit, the build
with overflow checks panics at the sum, the other at the slice. -/
theorem decodeBytes_cases (fits : input.length < 2 ^ 63) (i : Nat) :
    (Bencode.decodeBytes input i = .error .panicked ∧
      ∃ trap, decodeBytes checks input i = .error (.trap trap)) ∨
    (Bencode.decodeBytes input i ≠ .error .panicked ∧
      decodeBytes checks input i = lift (Bencode.decodeBytes input i)) := by
  have after := le_scan input (byte ':') i
  rw [decodeBytes, skipTo_eq checks input fits _ _ _ (by omega) (by omega), ok_bind,
    Bencode.decodeBytes]
  dsimp only
  by_cases past : input.length ≤ scan input (byte ':') i
  · rw [if_pos past, if_pos past]
    exact Or.inr ⟨(fun clash => by cases clash), rfl⟩
  · rw [if_neg past, if_neg past, sliceOf_inside input _ _ after (by omega), ok_bind]
    by_cases broken : (Utf8.decode (slice input i (scan input (byte ':') i))).isNone = true
    · rw [if_pos broken, if_pos broken]
      exact Or.inr ⟨(fun clash => by cases clash), rfl⟩
    · rw [if_neg broken, if_neg broken]
      cases parsed : parseUsize (slice input i (scan input (byte ':') i)) with
      | none => exact Or.inr ⟨(fun clash => by cases clash), rfl⟩
      | some len =>
        dsimp only
        rw [add_small checks _ 1 (by omega), ok_bind]
        by_cases large : 2 ^ 64 ≤ scan input (byte ':') i + 1 + len
        · rw [if_pos large]
          have limit := parseUsize_lt _ len parsed
          refine Or.inl ⟨rfl, ?_⟩
          cases checks with
          | true =>
            rw [add, if_neg (by omega), if_pos rfl]
            exact ⟨.overflow, rfl⟩
          | false =>
            -- The wrapped sum lies before the cursor.
            have wrapped : (scan input (byte ':') i + 1 + len) % 2 ^ 64 < scan input (byte ':') i + 1 := by
              omega
            rw [add, if_neg (by omega), if_neg (by intro clash; cases clash), ok_bind, if_neg (by omega), ok_bind, sliceOf,
              if_neg (by omega)]
            exact ⟨.outOfBounds, rfl⟩
        · rw [if_neg large, add_small checks _ len (by omega), ok_bind]
          by_cases short : input.length < scan input (byte ':') i + 1 + len
          · rw [if_pos short, if_pos short]
            exact Or.inr ⟨(fun clash => by cases clash), rfl⟩
          · rw [if_neg short, if_neg short, ok_bind, sliceOf_inside input _ _ (by omega) (by omega),
              ok_bind, ok_bind]
            exact Or.inr ⟨(fun clash => by cases clash), rfl⟩

end Steps

end Seedchamp.Torrentfile.CheckedDecode
