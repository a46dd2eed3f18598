import Mathlib.Algebra.Group.Nat.Defs
import Mathlib.Data.Option.Basic
import Mathlib.Order.Lattice
import Seedchamp.Torrentfile.Bencode

/-!
The reply of an HTTP tracker. Its integers are 64 bits wide and those of the session 32, and its
texts are byte strings.
-/

namespace Seedchamp.Tracker.Http
open Foundation
open Torrentfile.Bencode (Value Bytes decodeFull)

/-! ### The reply -/

/-- An IPv4 address and a port. -/
structure SocketAddr where
  ip : UInt8 × UInt8 × UInt8 × UInt8
  port : UInt16
  deriving DecidableEq, Repr

structure AnnounceResponse where
  interval : Nat := 0
  minInterval : Nat := 0
  peers : List SocketAddr := []
  failure : Option String := none
  complete : Option Nat := none
  incomplete : Option Nat := none
  deriving DecidableEq, Repr

/-- `u16::from_be_bytes`. -/
def portOf (high low : UInt8) : UInt16 := UInt16.ofNat (high.toNat * 256 + low.toNat)

/-- `u16::to_be_bytes`. -/
def portBytes (port : UInt16) : Bytes := [UInt8.ofNat (port.toNat / 256), UInt8.ofNat port.toNat]

theorem portOf_portBytes (port : UInt16) :
    portOf (UInt8.ofNat (port.toNat / 256)) (UInt8.ofNat port.toNat) = port := by
  have bound := port.toNat_lt
  rw [portOf, UInt8.toNat_ofNat', UInt8.toNat_ofNat']
  apply UInt16.toNat_inj.1
  rw [UInt16.toNat_ofNat']
  omega

/-- The chunks of `as_chunks::<6>().0` as addresses; what is left at the end is no chunk. -/
def compactPeers : Bytes → List SocketAddr
  | a :: b :: c :: d :: high :: low :: rest => ⟨(a, b, c, d), portOf high low⟩ :: compactPeers rest
  | _ => []

/-- `n as u32`. -/
def asU32 (n : Int) : Nat := (n % 2 ^ 32).toNat

/-- A number of seeders or leechers; a negative one is none. -/
def swarmStat : Option Int64 → Option Nat
  | none => none
  | some n => if 0 ≤ n.toInt then some (asU32 n.toInt) else none

/-- `parse_announce_response` behind the decoder. -/
def responseOf (v : Value) : AnnounceResponse :=
  match v.dictGetStr "failure reason" with
  | some f => { failure := some (String.ofList f) }
  | none =>
    let interval := asU32 (max ((v.dictGetInt "interval").getD 1800).toInt 0)
    let minInterval := asU32 (max ((v.dictGetInt "min interval").getD 0).toInt 0)
    { interval := if interval = 0 then 1800 else interval
      minInterval := minInterval
      complete := swarmStat (v.dictGetInt "complete")
      incomplete := swarmStat (v.dictGetInt "incomplete")
      peers := compactPeers ((v.dictGetBytes "peers").getD []) }

/-- The text of an error is that of the decoder behind `tracker bencode: `. -/
def parseAnnounceResponse (bytes : Bytes) :
    Except Seedchamp.Torrentfile.Bencode.Error AnnounceResponse :=
  match decodeFull bytes with
  | .error problem => .error problem
  | .ok v => .ok (responseOf v)

/-! ### Compact peers -/

/-- The six bytes of an address. -/
def compact (peer : SocketAddr) : Bytes :=
  [peer.ip.1, peer.ip.2.1, peer.ip.2.2.1, peer.ip.2.2.2, UInt8.ofNat (peer.port.toNat / 256),
    UInt8.ofNat peer.port.toNat]

/-- The bytes are these entries and less than one entry more. -/
def CompleteEntries (bytes : Bytes) (entries : List SocketAddr) : Prop :=
  ∃ rest, rest.length < 6 ∧ bytes = entries.flatMap compact ++ rest

theorem compact_portOf (a b c d high low : UInt8) :
    compact ⟨(a, b, c, d), portOf high low⟩ = [a, b, c, d, high, low] := by
  have high_lt := high.toNat_lt
  have low_lt := low.toNat_lt
  have port : (portOf high low).toNat = high.toNat * 256 + low.toNat := by
    rw [portOf, UInt16.toNat_ofNat', Nat.mod_eq_of_lt (by omega)]
  have first : UInt8.ofNat ((portOf high low).toNat / 256) = high := by
    rw [port, show (high.toNat * 256 + low.toNat) / 256 = high.toNat by omega, UInt8.ofNat_toNat]
  have second : UInt8.ofNat (portOf high low).toNat = low := by
    apply UInt8.toNat_inj.1
    rw [port, UInt8.toNat_ofNat']
    omega
  rw [compact, first, second]

/-- The entries read are the complete ones, in order. -/
theorem compactPeers_complete (bytes : Bytes) : CompleteEntries bytes (compactPeers bytes) := by
  induction bytes using compactPeers.induct with
  | case1 a b c d high low rest ih =>
    obtain ⟨left, short, split⟩ := ih
    refine ⟨left, short, ?_⟩
    rw [compactPeers, List.flatMap_cons, compact_portOf, List.append_assoc, ← split]
    rfl
  | case2 bytes short =>
    refine ⟨bytes, ?_, ?_⟩
    · rcases bytes with _ | ⟨a, _ | ⟨b, _ | ⟨c, _ | ⟨d, _ | ⟨high, _ | ⟨low, rest⟩⟩⟩⟩⟩⟩
      case cons.cons.cons.cons.cons.cons => exact (short a b c d high low rest rfl).elim
      all_goals simp only [List.length_cons, List.length_nil, Nat.reduceAdd, Nat.reduceLT]
    · rw [compactPeers]
      · rfl
      · exact short

/-! ### What a dictionary declares -/

/-- A declared number of seconds or of peers, held to 32 bits. -/
def saturated (n : Int64) : Nat := min n.toInt.toNat (2 ^ 32 - 1)

def declaredInterval : Option Int64 → Nat
  | none => 1800
  | some n => if n.toInt ≤ 0 then 1800 else saturated n

def declaredMinInterval : Option Int64 → Nat
  | none => 0
  | some n => saturated n

def declaredStat : Option Int64 → Option Nat
  | none => none
  | some n => if n.toInt < 0 then none else some (saturated n)

/-- A response that says what a dictionary without a failure reason declares. -/
structure Declared (v : Value) (out : AnnounceResponse) : Prop where
  failure : out.failure = none
  interval : out.interval = declaredInterval (v.dictGetInt "interval")
  minInterval : out.minInterval = declaredMinInterval (v.dictGetInt "min interval")
  complete : out.complete = declaredStat (v.dictGetInt "complete")
  incomplete : out.incomplete = declaredStat (v.dictGetInt "incomplete")
  peers : CompleteEntries ((v.dictGetBytes "peers").getD []) out.peers

/-- A failure reason, which is any byte string, fails the announce with its text if it is one. -/
structure Classified (v : Value) (out : AnnounceResponse) : Prop where
  failed : ∀ reason, v.dictGetBytes "failure reason" = some reason → ∃ text,
    out.failure = some text ∧ ∀ chars, Utf8.decode reason = some chars → text = String.ofList chars
  declared : v.dictGetBytes "failure reason" = none → Declared v out

/-- An integer that the cast keeps, or takes to the greatest of 32 bits by chance. -/
def CastSaturates (n : Int64) : Prop := n.toInt < 2 ^ 32 ∨ n.toInt % 2 ^ 32 = 2 ^ 32 - 1

/-- The dictionaries that are read as they should be. -/
structure Readable (v : Value) : Prop where
  text : ∀ reason, v.dictGetBytes "failure reason" = some reason → (Utf8.decode reason).isSome
  casts : v.dictGetBytes "failure reason" = none →
    ∀ k ∈ ["interval", "min interval", "complete", "incomplete"],
      ∀ n, v.dictGetInt k = some n → CastSaturates n

theorem asU32_eq_saturated (n : Int64) (positive : 0 ≤ n.toInt) :
    asU32 n.toInt = saturated n ↔ CastSaturates n := by
  rw [asU32, saturated, CastSaturates]
  omega

/-- A reading of an optional integer is right when it is for an absent one, and for a present one
exactly when the cast saturates. -/
theorem declared_iff {α : Type} (read declared : Option Int64 → α) (absent : read none = declared none)
    (present : ∀ n, read (some n) = declared (some n) ↔ CastSaturates n) (told : Option Int64) :
    read told = declared told ↔ ∀ n, told = some n → CastSaturates n := by
  cases told with
  | none => exact ⟨fun _ n clash => (by cases clash), fun _ => absent⟩
  | some m =>
    rw [present]
    exact ⟨fun saturates n same => Option.some.inj same ▸ saturates, fun all => all m rfl⟩

/-- What is below zero is below 32 bits. -/
theorem castSaturates_of_nonpos (n : Int64) (low : n.toInt ≤ 0) : CastSaturates n :=
  .inl (Int.lt_of_le_of_lt low (by decide))

def readInterval (told : Option Int64) : Nat :=
  if asU32 (max (told.getD 1800).toInt 0) = 0 then 1800 else asU32 (max (told.getD 1800).toInt 0)

def readMinInterval (told : Option Int64) : Nat := asU32 (max (told.getD 0).toInt 0)

theorem interval_iff (told : Option Int64) :
    readInterval told = declaredInterval told ↔ ∀ n, told = some n → CastSaturates n := by
  refine declared_iff readInterval declaredInterval (by decide) (fun n => ?_) told
  rw [readInterval, Option.getD_some, declaredInterval]
  by_cases low : n.toInt ≤ 0
  · rw [Int.max_eq_right low, if_pos low]
    exact ⟨fun _ => castSaturates_of_nonpos n low, fun _ => rfl⟩
  · rw [Int.max_eq_left (by omega), if_neg low]
    by_cases zero : asU32 n.toInt = 0
    · rw [if_pos zero]
      rw [asU32] at zero
      rw [saturated, CastSaturates]
      omega
    · rw [if_neg zero, asU32_eq_saturated n (by omega)]

theorem minInterval_iff (told : Option Int64) :
    readMinInterval told = declaredMinInterval told ↔ ∀ n, told = some n → CastSaturates n := by
  refine declared_iff readMinInterval declaredMinInterval (by decide) (fun n => ?_) told
  rw [readMinInterval, Option.getD_some, declaredMinInterval]
  by_cases low : n.toInt ≤ 0
  · rw [Int.max_eq_right low, saturated, Int.toNat_of_nonpos low]
    exact ⟨fun _ => castSaturates_of_nonpos n low, fun _ => rfl⟩
  · rw [Int.max_eq_left (by omega), asU32_eq_saturated n (by omega)]

theorem swarmStat_iff (told : Option Int64) :
    swarmStat told = declaredStat told ↔ ∀ n, told = some n → CastSaturates n := by
  refine declared_iff swarmStat declaredStat rfl (fun n => ?_) told
  rw [swarmStat, declaredStat]
  by_cases low : n.toInt < 0
  · rw [if_pos low, if_neg (by omega)]
    exact ⟨fun _ => castSaturates_of_nonpos n (by omega), fun _ => rfl⟩
  · rw [if_neg low, if_pos (by omega), Option.some_inj, asU32_eq_saturated n (by omega)]

theorem dictGetStr_eq (v : Value) (k : String) :
    v.dictGetStr k = (v.dictGetBytes k).bind Utf8.decode := by
  rw [Value.dictGetStr, Value.dictGetBytes, Option.bind_assoc]
  rfl

/-- What the dictionary declares is read exactly when every cast saturates. -/
theorem declared_responseOf_iff (v : Value) (silent : v.dictGetBytes "failure reason" = none) :
    Declared v (responseOf v) ↔ ∀ k ∈ ["interval", "min interval", "complete", "incomplete"],
      ∀ n, v.dictGetInt k = some n → CastSaturates n := by
  have none_read : v.dictGetStr "failure reason" = none := by rw [dictGetStr_eq, silent]; rfl
  have response : responseOf v =
      { interval := readInterval (v.dictGetInt "interval")
        minInterval := readMinInterval (v.dictGetInt "min interval")
        complete := swarmStat (v.dictGetInt "complete")
        incomplete := swarmStat (v.dictGetInt "incomplete")
        peers := compactPeers ((v.dictGetBytes "peers").getD []) } := by
    rw [responseOf, none_read]
    rfl
  rw [response]
  constructor
  · intro declared k member
    simp only [List.mem_cons, List.not_mem_nil, or_false] at member
    rcases member with rfl | rfl | rfl | rfl
    · exact (interval_iff _).1 declared.interval
    · exact (minInterval_iff _).1 declared.minInterval
    · exact (swarmStat_iff _).1 declared.complete
    · exact (swarmStat_iff _).1 declared.incomplete
  · intro casts
    simp only [List.forall_mem_cons] at casts
    obtain ⟨interval, minInterval, complete, incomplete, -⟩ := casts
    exact ⟨rfl, (interval_iff _).2 interval, (minInterval_iff _).2 minInterval,
      (swarmStat_iff _).2 complete, (swarmStat_iff _).2 incomplete, compactPeers_complete _⟩

/-- A failure reason fails the announce exactly when it is UTF-8. -/
theorem failed_responseOf_iff (v : Value) (reason : Bytes)
    (told : v.dictGetBytes "failure reason" = some reason) :
    (∃ text, (responseOf v).failure = some text ∧
      ∀ chars, Utf8.decode reason = some chars → text = String.ofList chars) ↔
      (Utf8.decode reason).isSome := by
  have read : v.dictGetStr "failure reason" = Utf8.decode reason := by rw [dictGetStr_eq, told]; rfl
  cases valid : Utf8.decode reason with
  | none =>
    rw [valid] at read
    have quiet : (responseOf v).failure = none := by rw [responseOf, read]
    rw [quiet]
    exact ⟨fun failed => (by obtain ⟨text, clash, -⟩ := failed; cases clash), fun clash => (by cases clash)⟩
  | some chars =>
    rw [valid] at read
    have loud : (responseOf v).failure = some (String.ofList chars) := by rw [responseOf, read]
    exact ⟨fun _ => rfl, fun _ => ⟨_, loud, fun other same => (by cases same; rfl)⟩⟩

theorem classified_responseOf_iff (v : Value) : Classified v (responseOf v) ↔ Readable v := by
  constructor
  · intro classified
    exact ⟨fun reason told => (failed_responseOf_iff v reason told).1 (classified.failed reason told),
      fun silent => (declared_responseOf_iff v silent).1 (classified.declared silent)⟩
  · intro readable
    exact ⟨fun reason told => (failed_responseOf_iff v reason told).2 (readable.text reason told),
      fun silent => (declared_responseOf_iff v silent).2 (readable.casts silent)⟩

end Seedchamp.Tracker.Http
