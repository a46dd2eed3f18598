import Seedchamp.Torrentfile.Geometry

/-!
Two walks over one dictionary: the decoder keeps the last entry of a key, the search for the raw text
of a value stops at the first. They agree on the keys whose first and last entries hold one value.
-/

namespace Seedchamp.Torrentfile.RawValue
open Foundation Torrentfile.Bencode Torrentfile.Parse
open Torrentfile.Geometry (Parsed parseBytes_parsed)
open Torrentfile.Grammar hiding Reads
open Torrentfile.RoundTrip (Fits)

/-- The first entry of a key. -/
def firstOf (key : Bytes) (entries : List Entry) : Option Entry :=
  entries.find? (fun entry => decide (entry.key = key))

/-- The last entry of a key. -/
def lastOf (key : Bytes) (entries : List Entry) : Option Entry :=
  entries.reverse.find? (fun entry => decide (entry.key = key))

theorem get?_collect (key : Bytes) (map : List (Bytes × Value)) (entries : List Entry) :
    SortedMap.get? key (collect map entries) =
      ((lastOf key entries).map Entry.value).or (SortedMap.get? key map) := by
  induction entries generalizing map with
  | nil => rfl
  | cons entry rest ih =>
    rw [collect, List.foldl_cons, ← collect, ih, SortedMap.get?_insert, lastOf, lastOf, List.reverse_cons,
      List.find?_append]
    cases rest.reverse.find? (fun entry => decide (entry.key = key)) with
    | some later => rfl
    | none =>
      by_cases same : entry.key = key
      · simp [same]
      · simp [same]

/-- The last of a list has a first one. -/
theorem lastOf_isSome (key : Bytes) (entries : List Entry) :
    (lastOf key entries).isSome = (firstOf key entries).isSome := by
  rw [lastOf, firstOf, Bool.eq_iff_iff, List.find?_isSome, List.find?_isSome]
  simp only [List.mem_reverse]

theorem decodeFull_spelled (raw : Bytes) (fits : Fits raw) (v : Value) (spelled : Spells raw (.value v)) :
    decodeFull raw = .ok v := by
  have read := decodeAt_spelled raw fits raw v spelled 0 [] (turns raw) (List.append_nil raw).symm
    (by rw [turns]; omega)
  rw [Nat.zero_add] at read
  rw [decodeFull, decode, read]
  dsimp only
  rw [if_neg (not_not.2 rfl)]

section Walks
variable (input : Bytes) (fits : Fits input)
include fits

/-- The search passes the entries before the first one of the key. -/
theorem findRawLoop_eq (key body rest : Bytes) (entries : List Entry) (i fuel : Nat)
    (spelled : Spells body (.entries entries)) (seen : input.drop i = body ++ byte 'e' :: rest)
    (enough : body.length + 1 ≤ fuel) :
    findRawLoop input key fuel i =
      match firstOf key entries with
      | some entry => .ok entry.raw
      | none => .error (.keyNotFound key) := by
  induction entries generalizing body i fuel with
  | nil =>
    cases spelled
    obtain ⟨stops, _⟩ := loop_ends input i rest seen
    cases fuel with
    | zero => omega
    | succ fuel =>
      rw [findRawLoop, if_neg stops]
      rfl
  | cons entry entries ih =>
    cases spelled with
    | entry keyText raw later key' v _ named held tail =>
      have key_positive := spells_pos keyText _ named
      rw [List.append_assoc, List.append_assoc] at seen
      rw [List.length_append, List.length_append] at enough
      have value_seen := drop_of_drop input i _ _ _ seen rfl
      have later_seen := drop_of_drop input (i + keyText.length) _ _ _ value_seen rfl
      have bounded := congrArg List.length seen
      rw [List.length_drop, List.length_append, List.length_append] at bounded
      cases fuel with
      | zero => omega
      | succ fuel =>
        rw [findRawLoop, if_pos (loop_continues input keyText _ named i _ seen),
          decodeAt_spelled input fits keyText _ named i _ (turns input) seen (by rw [turns]; omega)]
        dsimp only [Value.asBytes]
        rw [decodeAt_spelled input fits raw v held _ _ (turns input) value_seen (by rw [turns]; omega)]
        dsimp only
        by_cases same : key' = key
        · rw [if_pos same, slice_of_drop input _ raw _ value_seen, firstOf,
            List.find?_cons_of_pos (by rw [decide_eq_true_eq]; exact same)]
        · have passed : firstOf key (⟨key', raw, v⟩ :: entries) = firstOf key entries :=
            List.find?_cons_of_neg (by rw [decide_eq_true_eq]; exact same)
          rw [if_neg same, ih later _ fuel tail later_seen (by omega), passed]

/-- Both walks over a dictionary in terms of its entries. -/
theorem walks (body : Bytes) (entries : List Entry) (spelled : Spells body (.entries entries))
    (shape : input = byte 'd' :: (body ++ [byte 'e'])) :
    decodeFull input = .ok (.dict (collect [] entries)) ∧
      ∀ key, findRawDictValue input key =
        match firstOf key entries with
        | some entry => .ok entry.raw
        | none => .error (.keyNotFound key) := by
  have size := congrArg List.length shape
  rw [List.length_cons, List.length_append, List.length_singleton] at size
  constructor
  · exact decodeFull_spelled input fits _ (shape ▸ .dict body entries spelled)
  · intro key
    have headed : input.head? = some (byte 'd') := by rw [shape, List.head?_cons]
    have seen : input.drop 1 = body ++ byte 'e' :: [] := by rw [shape]; rfl
    rw [findRawDictValue, if_neg (not_not.2 headed),
      findRawLoop_eq input fits key body [] entries 1 _ spelled seen (by rw [turns]; omega)]

/-- What is accepted as a dictionary has the text of one. -/
theorem dict_of_accepted (map : List (Bytes × Value)) (accepted : decodeFull input = .ok (.dict map)) :
    ∃ body entries, input = byte 'd' :: (body ++ [byte 'e']) ∧ Spells body (.entries entries) ∧
      map = collect [] entries := by
  rw [decodeFull] at accepted
  cases decoded : decode input with
  | error problem =>
    rw [decoded] at accepted
    cases accepted
  | ok pair =>
    rw [decoded] at accepted
    dsimp only at accepted
    split_ifs at accepted with consumed
    obtain ⟨text, seen, size, spelled⟩ := decodeAt_taken input _ 0 pair.2 pair.1 decoded
    rw [not_not] at consumed
    rw [List.drop_zero, consumed, List.drop_length, List.append_nil] at seen
    rw [Except.ok.inj accepted, ← seen] at spelled
    generalize same : Reading.value (.dict map) = reading at spelled
    cases spelled with
    | dict body entries each =>
      rw [Reading.value.injEq, Value.dict.injEq] at same
      exact ⟨body, entries, rfl, each, same⟩
    | _ => cases same

end Walks


theorem spells_member (body : Bytes) (entries : List Entry) (spelled : Spells body (.entries entries))
    (entry : Entry) (member : entry ∈ entries) :
    Spells entry.raw (.value entry.value) ∧ entry.raw.length ≤ body.length := by
  induction entries generalizing body with
  | nil => cases member
  | cons first rest ih =>
    cases spelled with
    | entry keyText raw later key v _ named held tail =>
      rw [List.length_append, List.length_append]
      rcases List.mem_cons.1 member with head | listed
      · rw [head]
        exact ⟨held, by dsimp only; omega⟩
      · obtain ⟨spelled', below⟩ := ih later tail listed
        exact ⟨spelled', by omega⟩

/-- A raw value is found for a key just when the map holds one, and decodes to it. -/
structure Agrees (input : Bytes) (map : List (Bytes × Value)) (key : Bytes) : Prop where
  found : (∃ raw, findRawDictValue input key = .ok raw) ↔ ∃ v, SortedMap.get? key map = some v
  decoded : ∀ raw, findRawDictValue input key = .ok raw →
    ∃ v, SortedMap.get? key map = some v ∧ decodeFull raw = .ok v

/-- The first and the last entry of the key in the dictionary's text, where it has any, hold one
value. -/
def OneValue (input key : Bytes) : Prop :=
  ∀ body entries, input = byte 'd' :: (body ++ [byte 'e']) → Spells body (.entries entries) →
    (firstOf key entries).map Entry.value = (lastOf key entries).map Entry.value

theorem agrees_entries (input : Bytes) (fits : Fits input) (body : Bytes) (entries : List Entry)
    (spelled : Spells body (.entries entries)) (shape : input = byte 'd' :: (body ++ [byte 'e']))
    (key : Bytes) :
    Agrees input (collect [] entries) key ↔
      (firstOf key entries).map Entry.value = (lastOf key entries).map Entry.value := by
  have found := (walks input fits body entries spelled shape).2 key
  have held : SortedMap.get? key (collect [] entries) = (lastOf key entries).map Entry.value :=
    (get?_collect key [] entries).trans (Option.or_none)
  have both := lastOf_isSome key entries
  cases first : firstOf key entries with
  | none =>
    rw [first, Option.isSome_none, Option.isSome_eq_false_iff, Option.isNone_iff_eq_none] at both
    rw [first] at found
    rw [both] at held ⊢
    refine ⟨fun _ => rfl, fun _ => ⟨?_, ?_⟩⟩
    · rw [found, held]
      exact ⟨fun some => (nomatch some), fun some => (nomatch some)⟩
    · intro raw same
      rw [found] at same
      cases same
  | some entry =>
    rw [first, Option.isSome_some, Option.isSome_iff_exists] at both
    obtain ⟨last, last_same⟩ := both
    rw [first] at found
    rw [last_same] at held ⊢
    obtain ⟨entry_spelled, below⟩ :=
      spells_member body entries spelled entry (List.mem_of_find?_eq_some first)
    have size := congrArg List.length shape
    rw [List.length_cons, List.length_append] at size
    have read := decodeFull_spelled entry.raw (by rw [Fits] at fits ⊢; omega) entry.value entry_spelled
    rw [Option.map_some, Option.map_some, Option.some.injEq]
    constructor
    · intro agrees
      obtain ⟨v, got, decoded⟩ := agrees.decoded entry.raw found
      rw [held, Option.map_some, Option.some.injEq] at got
      rw [read, Except.ok.injEq] at decoded
      rw [decoded, got]
    · intro same
      refine ⟨⟨fun _ => ⟨last.value, held⟩, fun _ => ⟨entry.raw, found⟩⟩, ?_⟩
      intro raw located
      rw [found, Except.ok.injEq] at located
      rw [← located]
      exact ⟨last.value, held, same ▸ read⟩

theorem agrees_iff (input : Bytes) (fits : Fits input) (map : List (Bytes × Value))
    (accepted : decodeFull input = .ok (.dict map)) (key : Bytes) :
    Agrees input map key ↔ OneValue input key := by
  obtain ⟨body, entries, shape, spelled, collected⟩ := dict_of_accepted input fits map accepted
  constructor
  · intro agrees other_body other other_shape other_spelled
    have other_accepted := (walks input fits other_body other other_spelled other_shape).1
    rw [accepted, Except.ok.injEq, Value.dict.injEq] at other_accepted
    rw [other_accepted] at agrees
    exact (agrees_entries input fits other_body other other_spelled other_shape key).1 agrees
  · intro one
    rw [collected]
    exact (agrees_entries input fits body entries spelled shape key).2 (one body entries shape spelled)

/-- The hashed bytes are the text of the dictionary that the fields are read from. -/
def HashesInfo (sha1 : Bytes → Bytes) (data : Bytes) (m : Metainfo) : Prop :=
  ∃ parts, Parsed sha1 data m parts ∧ decodeFull parts.infoRaw = .ok parts.info

theorem hashesInfo_iff (sha1 : Bytes → Bytes) (data : Bytes) (fits : Fits data)
    (map : List (Bytes × Value)) (accepted : decodeFull data = .ok (.dict map)) (m : Metainfo)
    (parsed : parseBytes sha1 data = .ok m) :
    HashesInfo sha1 data m ↔ OneValue data (Value.key "info") := by
  rw [← agrees_iff data fits map accepted (Value.key "info")]
  have held : ∀ parts, Parsed sha1 data m parts →
      SortedMap.get? (Value.key "info") map = some parts.info := by
    intro parts read
    have root := read.decoded
    rw [accepted, Except.ok.injEq] at root
    have info := read.info
    rw [← root] at info
    exact info
  constructor
  · rintro ⟨parts, read, same⟩
    refine ⟨⟨fun _ => ⟨_, held parts read⟩, fun _ => ⟨_, read.located⟩⟩, ?_⟩
    intro raw located
    rw [read.located, Except.ok.injEq] at located
    exact ⟨parts.info, held parts read, located ▸ same⟩
  · intro agrees
    obtain ⟨parts, read⟩ := parseBytes_parsed sha1 data m parsed
    obtain ⟨v, got, same⟩ := agrees.decoded parts.infoRaw read.located
    rw [held parts read, Option.some.injEq] at got
    exact ⟨parts, read, got ▸ same⟩

/-- The two walks agree, and the hash is that of the dictionary read, exactly where repeated entries
of the key do not differ between the first and the last. -/
theorem raw_value_iff (sha1 : Bytes → Bytes) (input : Bytes) (fits : Fits input)
    (map : List (Bytes × Value)) (accepted : decodeFull input = .ok (.dict map)) :
    (∀ key, Agrees input map key ↔ OneValue input key) ∧
      ∀ m, parseBytes sha1 input = .ok m →
        (HashesInfo sha1 input m ↔ OneValue input (Value.key "info")) :=
  ⟨agrees_iff input fits map accepted, hashesInfo_iff sha1 input fits map accepted⟩

/-- A dictionary with two values under one key. -/
def repeated : Bytes := Value.key "d4:infoi1e4:infoi2ee"

def repeatedEntries : List Entry :=
  [⟨Value.key "info", Value.key "i1e", .int 1⟩, ⟨Value.key "info", Value.key "i2e", .int 2⟩]

theorem repeated_spelled :
    Spells (Value.key "4:infoi1e4:infoi2e") (.entries repeatedEntries) := by
  have info : Spells (Value.key "4:info") (.value (.bytes (Value.key "info"))) :=
    .bytes 52 [] (Value.key "info") (by decide) (by decide) (by decide)
  have one : Spells (Value.key "i1e") (.value (.int 1)) := .int (Value.key "1") 1 (by decide) (by decide)
  have two : Spells (Value.key "i2e") (.value (.int 2)) := .int (Value.key "2") 2 (by decide) (by decide)
  exact .entry _ _ _ _ _ _ info one (.entry _ _ [] _ _ _ info two .noEntries)

theorem repeated_accepted :
    decodeFull repeated = .ok (.dict [(Value.key "info", .int 2)]) :=
  (walks repeated (by rw [Fits]; decide) _ repeatedEntries repeated_spelled (by decide)).1

theorem raw_value_iff_repeated :
    OneValue repeated (Value.key "name") ∧ ¬OneValue repeated (Value.key "info") := by
  have fits : Fits repeated := by rw [Fits]; decide
  have agrees := (raw_value_iff id repeated fits [(Value.key "info", .int 2)] repeated_accepted).1
  have listed := agrees_entries repeated fits _ repeatedEntries repeated_spelled (by decide)
  constructor
  · exact (agrees (Value.key "name")).1 ((listed (Value.key "name")).2 rfl)
  · intro one
    have same := (listed (Value.key "info")).1 ((agrees (Value.key "info")).2 one)
    exact absurd (congrArg (fun value => value.bind Value.asInt) same) (by decide)

/-- The first entry is found, the last one is kept. -/
theorem repeated_differs : ¬ ∀ (input : Bytes) (map : List (Bytes × Value)) (key : Bytes),
    Fits input → decodeFull input = .ok (.dict map) → Agrees input map key := by
  intro always
  have agrees := always repeated [(Value.key "info", .int 2)] (Value.key "info")
    (by rw [Fits]; decide) repeated_accepted
  have one := (agrees_entries repeated (by rw [Fits]; decide) _ repeatedEntries repeated_spelled
    (by decide) (Value.key "info")).1 agrees
  have differs := congrArg (fun value => value.bind Value.asInt) one
  exact absurd differs (by decide)

end Seedchamp.Torrentfile.RawValue
