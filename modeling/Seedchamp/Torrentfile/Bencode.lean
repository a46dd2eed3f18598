import Seedchamp.Foundation.Decimal
import Seedchamp.Foundation.SortedMap
import Seedchamp.Foundation.Utf8

/-!
The bencode codec: values, the index-based recursive decoder, and the encoder.
-/

namespace Seedchamp.Torrentfile.Bencode
open Foundation Foundation.Decimal

abbrev Bytes := List UInt8

/-- A decoded value; a dictionary is the list of its entries in key order. -/
inductive Value where
  | int (v : Int64)
  | bytes (b : Bytes)
  | list (items : List Value)
  | dict (map : List (Bytes × Value))

/-- The errors of the decoder, one for each text. `panicked` is an arithmetic or slice panic, and
`outOfFuel` does not occur (`decode_total`). -/
inductive Error where
  | unexpectedEnd
  | invalidTypeMarker (marker : UInt8) (i : Nat)
  | unterminatedInteger
  | integerNotUtf8
  | badInteger (text : Bytes)
  | unterminatedStringLength
  | stringLengthNotUtf8
  | badStringLength (text : Bytes)
  | stringExtendsPastEnd
  | unterminatedList
  | dictKeyNotString
  | unterminatedDict
  | trailingData (consumed total : Nat)
  | rootNotDict
  | rawDictKeyNotString
  | keyNotFound (key : Bytes)
  | panicked
  | outOfFuel
  deriving DecidableEq, Repr

def byte (c : Char) : UInt8 := UInt8.ofNat c.toNat

namespace Value

def asInt : Value → Option Int64
  | int v => some v
  | _ => none

def asBytes : Value → Option Bytes
  | bytes b => some b
  | _ => none

def asStr (value : Value) : Option (List Char) := value.asBytes.bind Utf8.decode

def asList : Value → Option (List Value)
  | list items => some items
  | _ => none

def asDict : Value → Option (List (Bytes × Value))
  | dict map => some map
  | _ => none

/-- An ASCII key as bytes. -/
def key (text : String) : Bytes := text.toList.map byte

def dictGet (value : Value) (k : String) : Option Value :=
  value.asDict.bind (SortedMap.get? (key k))

def dictGetInt (value : Value) (k : String) : Option Int64 := (value.dictGet k).bind asInt

def dictGetBytes (value : Value) (k : String) : Option Bytes := (value.dictGet k).bind asBytes

def dictGetStr (value : Value) (k : String) : Option (List Char) := (value.dictGet k).bind asStr

def dictGetList (value : Value) (k : String) : Option (List Value) := (value.dictGet k).bind asList

end Value

/-- `str::parse::<usize>` on 64 bits. -/
def parseUsize (text : Bytes) : Option Nat :=
  let digits := if text.head? = some (byte '+') then text.tail else text
  (readDigits digits).filter (fun n => n < 2 ^ 64)

/-- `str::parse::<i64>`. -/
def parseI64 (text : Bytes) : Option Int64 :=
  if text.head? = some (byte '-') then
    ((readDigits text.tail).filter (fun n => n ≤ 2 ^ 63)).map
      (fun n : Nat => Int64.ofInt (-(n : Int)))
  else
    let digits := if text.head? = some (byte '+') then text.tail else text
    ((readDigits digits).filter (fun n => n < 2 ^ 63)).map (fun n : Nat => Int64.ofInt (n : Int))

/-- The index at which a `while i < len && input[i] != stop` loop ends. -/
def scan (input : Bytes) (stop : UInt8) (i : Nat) : Nat :=
  i + ((input.drop i).takeWhile (fun c => decide (c ≠ stop))).length

/-- `input[start..end]`. -/
def slice (input : Bytes) (start stop : Nat) : Bytes := (input.drop start).take (stop - start)

def decodeInt (input : Bytes) (i : Nat) : Except Error (Value × Nat) :=
  let start := i + 1
  let stop := scan input (byte 'e') start
  if input.length ≤ stop then .error .unterminatedInteger
  else
    let s := slice input start stop
    if (Utf8.decode s).isNone then .error .integerNotUtf8
    else
      match parseI64 s with
      | none => .error (.badInteger s)
      | some v => .ok (.int v, stop + 1)

def decodeBytes (input : Bytes) (i : Nat) : Except Error (Value × Nat) :=
  let stop := scan input (byte ':') i
  if input.length ≤ stop then .error .unterminatedStringLength
  else
    let lenS := slice input i stop
    if (Utf8.decode lenS).isNone then .error .stringLengthNotUtf8
    else
      match parseUsize lenS with
      | none => .error (.badStringLength lenS)
      | some len =>
        let from' := stop + 1
        if 2 ^ 64 ≤ from' + len then .error .panicked
        else if input.length < from' + len then .error .stringExtendsPastEnd
        else .ok (.bytes (slice input from' (from' + len)), from' + len)

mutual

def decodeAt (input : Bytes) : Nat → Nat → Except Error (Value × Nat)
  | 0, _ => .error .outOfFuel
  | fuel + 1, i =>
    if input.length ≤ i then .error .unexpectedEnd
    else
      let c := input.getD i 0
      if c = byte 'i' then decodeInt input i
      else if c = byte 'l' then decodeList input fuel (i + 1) []
      else if c = byte 'd' then decodeDict input fuel (i + 1) []
      else if isDigit c then decodeBytes input i
      else .error (.invalidTypeMarker c i)

/-- The loop of `decode_list`, behind its marker. -/
def decodeList (input : Bytes) : Nat → Nat → List Value → Except Error (Value × Nat)
  | 0, _, _ => .error .outOfFuel
  | fuel + 1, i, list =>
    if i < input.length ∧ input.getD i 0 ≠ byte 'e' then
      match decodeAt input fuel i with
      | .error problem => .error problem
      | .ok (v, i) => decodeList input fuel i (list ++ [v])
    else if input.length ≤ i then .error .unterminatedList
    else .ok (.list list, i + 1)

/-- The loop of `decode_dict`, behind its marker. -/
def decodeDict (input : Bytes) : Nat → Nat → List (Bytes × Value) → Except Error (Value × Nat)
  | 0, _, _ => .error .outOfFuel
  | fuel + 1, i, map =>
    if i < input.length ∧ input.getD i 0 ≠ byte 'e' then
      match decodeAt input fuel i with
      | .error problem => .error problem
      | .ok (k, i) =>
        match k.asBytes with
        | none => .error .dictKeyNotString
        | some key =>
          match decodeAt input fuel i with
          | .error problem => .error problem
          | .ok (v, i) => decodeDict input fuel i (SortedMap.insert key v map)
    else if input.length ≤ i then .error .unterminatedDict
    else .ok (.dict map, i + 1)

end

/-- Two turns for every byte: one for the value at it and one for the loop it is in. -/
def turns (input : Bytes) : Nat := 2 * input.length + 2

def decode (input : Bytes) : Except Error (Value × Nat) := decodeAt input (turns input) 0

def decodeFull (input : Bytes) : Except Error Value :=
  match decode input with
  | .error problem => .error problem
  | .ok (v, n) => if n ≠ input.length then .error (.trailingData n input.length) else .ok v

/-- The loop of `find_raw_dict_value` over the entries of the root. -/
def findRawLoop (input key : Bytes) : Nat → Nat → Except Error Bytes
  | 0, _ => .error .outOfFuel
  | fuel + 1, i =>
    if i < input.length ∧ input.getD i 0 ≠ byte 'e' then
      match decodeAt input (turns input) i with
      | .error problem => .error problem
      | .ok (k, valStart) =>
        match k.asBytes with
        | none => .error .rawDictKeyNotString
        | some keyBytes =>
          match decodeAt input (turns input) valStart with
          | .error problem => .error problem
          | .ok (_, valEnd) =>
            if keyBytes = key then .ok (slice input valStart valEnd)
            else findRawLoop input key fuel valEnd
    else .error (.keyNotFound key)

def findRawDictValue (input key : Bytes) : Except Error Bytes :=
  if input.head? ≠ some (byte 'd') then .error .rootNotDict
  else findRawLoop input key (turns input) 1

/-- `i64::to_string`. -/
def intText (v : Int64) : Bytes :=
  if v.toInt < 0 then byte '-' :: decimal v.toInt.natAbs else decimal v.toInt.natAbs

def encodeBytes (b : Bytes) : Bytes := decimal b.length ++ byte ':' :: b

mutual

def encode : Value → Bytes
  | .int n => byte 'i' :: (intText n ++ [byte 'e'])
  | .bytes b => encodeBytes b
  | .list items => byte 'l' :: (encodeItems items ++ [byte 'e'])
  | .dict map => byte 'd' :: (encodeEntries map ++ [byte 'e'])

def encodeItems : List Value → Bytes
  | [] => []
  | item :: rest => encode item ++ encodeItems rest

def encodeEntries : List (Bytes × Value) → Bytes
  | [] => []
  | (k, v) :: rest => encodeBytes k ++ encode v ++ encodeEntries rest

end

/-- The keys of every dictionary are strictly increasing, as those of a `BTreeMap` are. -/
inductive WellFormed : Value → Prop where
  | int (v : Int64) : WellFormed (.int v)
  | bytes (b : Bytes) : WellFormed (.bytes b)
  | list (items : List Value) (each : ∀ item ∈ items, WellFormed item) : WellFormed (.list items)
  | dict (map : List (Bytes × Value)) (sorted : SortedMap.Sorted map)
    (each : ∀ entry ∈ map, WellFormed entry.2) : WellFormed (.dict map)

example : encode (.dict [(Value.key "a", .list [.int (-3), .bytes (Value.key "xy")])]) =
    Value.key "d1:ali-3e2:xyee" := by decide

end Seedchamp.Torrentfile.Bencode
