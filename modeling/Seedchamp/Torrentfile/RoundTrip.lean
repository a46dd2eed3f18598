import Seedchamp.Torrentfile.Grammar

/-!
Encoding and decoding bencode are inverse on every well-formed value, whatever follows the encoding:
the encoding spells the value. The decoder ends on every input.
-/

namespace Seedchamp.Torrentfile.RoundTrip
open Foundation Foundation.Decimal Torrentfile.Bencode
open Torrentfile.Grammar hiding Reads

theorem decimal_head (n : Nat) : ∃ c rest, decimal n = c :: rest ∧ isDigit c = true := by
  cases text : decimal n with
  | nil => exact absurd text (decimal_ne_nil n)
  | cons c rest => exact ⟨c, rest, rfl, decimal_digits n c (by rw [text]; exact List.mem_cons_self)⟩

theorem decimal_absent (n : Nat) (stop : UInt8) (plain : isDigit stop = false) : stop ∉ decimal n := by
  intro member
  exact digit_ne stop stop (decimal_digits n stop member) plain rfl

theorem parseUsize_decimal (n : Nat) (fits : n < 2 ^ 64) : parseUsize (decimal n) = some n := by
  obtain ⟨c, rest, text, digit⟩ := decimal_head n
  have unsigned : (decimal n).head? ≠ some (byte '+') := by
    rw [text, List.head?_cons, Ne, Option.some.injEq]
    exact digit_ne c _ digit rfl
  rw [parseUsize, if_neg unsigned, readDigits_decimal]
  exact Option.filter_some_pos (by rw [decide_eq_true_eq]; exact fits)

theorem parseI64_intText (v : Int64) : parseI64 (intText v) = some v := by
  have low := Int64.le_toInt v
  have high := Int64.toInt_lt v
  rw [parseI64, intText]
  dsimp only
  by_cases negative : v.toInt < 0
  · have small : v.toInt.natAbs ≤ 2 ^ 63 := by omega
    rw [if_pos negative, List.head?_cons, if_pos rfl, List.tail_cons, readDigits_decimal,
      Option.filter_some_pos (by rw [decide_eq_true_eq]; exact small), Option.map_some]
    have same : -(v.toInt.natAbs : Int) = v.toInt := by omega
    rw [same, Int64.ofInt_toInt]
  · obtain ⟨c, rest, text, digit⟩ := decimal_head v.toInt.natAbs
    have small : v.toInt.natAbs < 2 ^ 63 := by omega
    have unsigned : ∀ sign, isDigit sign = false → (decimal v.toInt.natAbs).head? ≠ some sign := by
      intro sign plain
      rw [text, List.head?_cons, Ne, Option.some.injEq]
      exact digit_ne c _ digit plain
    rw [if_neg negative, if_neg (unsigned _ rfl), if_neg (unsigned _ rfl), readDigits_decimal,
      Option.filter_some_pos (by rw [decide_eq_true_eq]; exact small), Option.map_some]
    have same : (v.toInt.natAbs : Int) = v.toInt := by omega
    rw [same, Int64.ofInt_toInt]

theorem intText_ascii (v : Int64) (c : UInt8) (member : c ∈ intText v) :
    c = byte '-' ∨ isDigit c = true := by
  rw [intText] at member
  split_ifs at member
  · rcases List.mem_cons.1 member with sign | digit
    · exact Or.inl sign
    · exact Or.inr (decimal_digits _ c digit)
  · exact Or.inr (decimal_digits _ c member)

theorem intText_absent (v : Int64) : byte 'e' ∉ intText v := by
  intro member
  rcases intText_ascii v _ member with sign | digit
  · exact absurd sign (by decide)
  · exact digit_ne _ (byte 'e') digit rfl rfl

/-- The decoder reads a value off the input wherever its encoding stands. -/
def Reads (input : Bytes) (v : Value) : Prop :=
  ∀ i rest fuel, input.drop i = encode v ++ rest → (encode v).length ≤ fuel →
    decodeAt input fuel i = .ok (v, i + (encode v).length)

theorem spells_encodeBytes (b : Bytes) (fits : b.length < 2 ^ 64) :
    Spells (encodeBytes b) (.value (.bytes b)) := by
  obtain ⟨c, rest, text, digit⟩ := decimal_head b.length
  have absent := decimal_absent b.length (byte ':') rfl
  have parsed := parseUsize_decimal b.length fits
  rw [text] at absent parsed
  rw [encodeBytes, text]
  exact .bytes c rest b digit absent parsed

theorem spells_encodeItems (items : List Value)
    (each : ∀ item ∈ items, Spells (encode item) (.value item)) :
    Spells (encodeItems items) (.items items) := by
  induction items with
  | nil => exact .noItems
  | cons item rest ih =>
    have first := each item List.mem_cons_self
    have later := ih (fun other member => each other (List.mem_cons_of_mem _ member))
    rw [encodeItems]
    exact .item _ _ item rest first later

/-- An entry of a map as it is encoded. -/
def entryOf (entry : Bytes × Value) : Entry := ⟨entry.1, encode entry.2, entry.2⟩

theorem spells_encodeEntries (map : List (Bytes × Value))
    (fits : ∀ entry ∈ map, entry.1.length < 2 ^ 64)
    (each : ∀ entry ∈ map, Spells (encode entry.2) (.value entry.2)) :
    Spells (encodeEntries map) (.entries (map.map entryOf)) := by
  induction map with
  | nil => exact .noEntries
  | cons entry rest ih =>
    have named := spells_encodeBytes entry.1 (fits entry List.mem_cons_self)
    have held := each entry List.mem_cons_self
    have later := ih (fun other member => fits other (List.mem_cons_of_mem _ member))
      (fun other member => each other (List.mem_cons_of_mem _ member))
    rw [encodeEntries]
    exact .entry _ _ _ _ _ _ named held later

/-- Entries in key order are collected as they stand. -/
theorem collect_sorted (front map : List (Bytes × Value)) (sorted : SortedMap.Sorted (front ++ map)) :
    collect front (map.map entryOf) = front ++ map := by
  induction map generalizing front with
  | nil => rw [List.append_nil]; rfl
  | cons entry rest ih =>
    have above : ∀ other ∈ front, other.1 < entry.1 := by
      intro other member
      exact (List.pairwise_append.1 sorted).2.2 other member entry List.mem_cons_self
    have written := SortedMap.insert_last entry.1 entry.2 front above
    have kept : front ++ [entry] ++ rest = front ++ entry :: rest := by
      rw [List.append_assoc, List.singleton_append]
    rw [List.map_cons, collect, List.foldl_cons, ← collect, entryOf]
    dsimp only
    rw [written, ih (front ++ [entry]) (by rw [kept]; exact sorted), kept]

theorem length_encodeItems (items : List Value) (item : Value) (member : item ∈ items) :
    (encode item).length ≤ (encodeItems items).length := by
  induction items with
  | nil => cases member
  | cons first rest ih =>
    rw [encodeItems, List.length_append]
    rcases List.mem_cons.1 member with head | later
    · rw [head]
      omega
    · have below := ih later
      omega

theorem length_encodeEntries (map : List (Bytes × Value)) (entry : Bytes × Value)
    (member : entry ∈ map) :
    entry.1.length + (encode entry.2).length ≤ (encodeEntries map).length := by
  induction map with
  | nil => cases member
  | cons first rest ih =>
    rw [encodeEntries, List.length_append, List.length_append, encodeBytes, List.length_append,
      List.length_cons]
    rcases List.mem_cons.1 member with head | later
    · rw [head]
      omega
    · have below := ih later
      omega

/-- The encoding of a well-formed value spells it. -/
theorem spells_encode (v : Value) (wellFormed : WellFormed v) (fits : (encode v).length < 2 ^ 64) :
    Spells (encode v) (.value v) := by
  induction wellFormed with
  | int v =>
    rw [encode]
    exact .int (intText v) v (intText_absent v) (parseI64_intText v)
  | bytes b =>
    rw [encode] at fits ⊢
    refine spells_encodeBytes b ?_
    rw [encodeBytes, List.length_append, List.length_cons] at fits
    omega
  | list items _ ih =>
    rw [encode, List.length_cons, List.length_append] at fits
    rw [encode]
    refine .list _ items (spells_encodeItems items ?_)
    intro item member
    have below := length_encodeItems items item member
    exact ih item member (by omega)
  | dict map sorted _ ih =>
    rw [encode, List.length_cons, List.length_append] at fits
    have collected := collect_sorted [] map sorted
    have spelled := Spells.dict _ _ (spells_encodeEntries map
      (by
        intro entry member
        have below := length_encodeEntries map entry member
        omega)
      (by
        intro entry member
        have below := length_encodeEntries map entry member
        exact ih entry member (by omega)))
    rw [collected, List.nil_append] at spelled
    rw [encode]
    exact spelled

/-- Every well-formed value is read wherever its encoding stands. -/
theorem reads_encode (input : Bytes) (fits : input.length < 2 ^ 63) (v : Value)
    (wellFormed : WellFormed v) : Reads input v := by
  intro i rest fuel seen enough
  have inside := congrArg List.length seen
  rw [List.length_drop, List.length_append] at inside
  have spelled := spells_encode v wellFormed (by omega)
  exact decodeAt_spelled input fits _ v spelled i rest fuel seen enough

theorem decode_encode (v : Value) (wellFormed : WellFormed v) (suffix : Bytes)
    (fits : (encode v ++ suffix).length < 2 ^ 63) :
    decode (encode v ++ suffix) = .ok (v, (encode v).length) := by
  have read := reads_encode _ fits v wellFormed 0 suffix (turns (encode v ++ suffix)) rfl (by
    rw [turns, List.length_append]
    omega)
  rw [Nat.zero_add] at read
  exact read

theorem decodeFull_encode (v : Value) (wellFormed : WellFormed v)
    (fits : (encode v).length < 2 ^ 63) : decodeFull (encode v) = .ok v := by
  have read := decode_encode v wellFormed [] (by rw [List.append_nil]; exact fits)
  rw [List.append_nil] at read
  rw [decodeFull, read]
  dsimp only
  rw [if_neg (not_not.2 rfl)]

/-- What a decoder call may return: a well-formed value and a later index, or an error, which is
`outOfFuel` only for less fuel than needed. -/
def Sound (input : Bytes) (need fuel i : Nat) : Except Error (Value × Nat) → Prop
  | .ok (v, j) => WellFormed v ∧ i < j ∧ j ≤ input.length
  | .error problem => problem = .outOfFuel → fuel < need

theorem sound_decodeInt (input : Bytes) (need fuel i : Nat) :
    Sound input need fuel i (decodeInt input i) := by
  have after := le_scan input (byte 'e') (i + 1)
  rw [decodeInt]
  dsimp only
  split_ifs
  · intro clash
    cases clash
  · intro clash
    cases clash
  · split
    · intro clash
      cases clash
    · exact ⟨.int _, by omega, by omega⟩

theorem sound_decodeBytes (input : Bytes) (need fuel i : Nat) :
    Sound input need fuel i (decodeBytes input i) := by
  have after := le_scan input (byte ':') i
  rw [decodeBytes]
  dsimp only
  split_ifs
  · intro clash
    cases clash
  · intro clash
    cases clash
  · split
    · intro clash
      cases clash
    · split_ifs
      · intro clash
        cases clash
      · intro clash
        cases clash
      · exact ⟨.bytes _, by omega, by omega⟩

/-- A later call of a loop answers for the loop. -/
theorem Sound.later (input : Bytes) (fuel i j : Nat) (result : Except Error (Value × Nat))
    (sound : Sound input (2 * (input.length - j) + 2) fuel j result) (moved : i < j)
    (inside : j ≤ input.length) :
    Sound input (2 * (input.length - i) + 2) (fuel + 1) i result := by
  cases result with
  | error problem =>
    intro starved
    have short := sound starved
    omega
  | ok taken =>
    obtain ⟨wellFormed, further, bounded⟩ := sound
    exact ⟨wellFormed, by omega, bounded⟩

/-- One induction over the fuel for the decoder and its two loops. -/
theorem decoder_sound (input : Bytes) (fuel : Nat) :
    (∀ i, Sound input (2 * (input.length - i) + 1) fuel i (decodeAt input fuel i)) ∧
    (∀ i list, (∀ item ∈ list, WellFormed item) →
      Sound input (2 * (input.length - i) + 2) fuel i (decodeList input fuel i list)) ∧
    (∀ i map, SortedMap.Sorted map → (∀ entry ∈ map, WellFormed entry.2) →
      Sound input (2 * (input.length - i) + 2) fuel i (decodeDict input fuel i map)) := by
  induction fuel with
  | zero =>
    refine ⟨?_, ?_, ?_⟩
    · intro i
      rw [decodeAt]
      intro _
      omega
    · intro i list _
      rw [decodeList]
      intro _
      omega
    · intro i map _ _
      rw [decodeDict]
      intro _
      omega
  | succ fuel ih =>
    obtain ⟨value, items, entries⟩ := ih
    -- A loop behind a marker starts one byte on.
    have enter : ∀ i result, i < input.length →
        Sound input (2 * (input.length - (i + 1)) + 2) fuel (i + 1) result →
        Sound input (2 * (input.length - i) + 1) (fuel + 1) i result := by
      intro i result inside sound
      cases result with
      | error problem =>
        intro starved
        have short := sound starved
        omega
      | ok taken =>
        obtain ⟨wellFormed, further, bounded⟩ := sound
        exact ⟨wellFormed, by omega, bounded⟩
    refine ⟨?_, ?_, ?_⟩
    · intro i
      rw [decodeAt]
      dsimp only
      split_ifs
      · intro clash
        cases clash
      · exact sound_decodeInt input _ _ i
      · exact enter i _ (by omega) (items (i + 1) [] (by simp))
      · exact enter i _ (by omega) (entries (i + 1) [] List.Pairwise.nil (by simp))
      · exact sound_decodeBytes input _ _ i
      · intro clash
        cases clash
    · intro i list wellFormed
      have first := value i
      rw [decodeList]
      split_ifs
      · cases taken : decodeAt input fuel i with
        | error problem =>
          rw [taken] at first
          intro starved
          have short := first starved
          omega
        | ok pair =>
          rw [taken] at first
          obtain ⟨good, moved, inside⟩ := first
          apply Sound.later input fuel i pair.2 _ _ moved inside
          apply items
          intro item member
          rcases List.mem_append.1 member with old | new
          · exact wellFormed item old
          · rw [List.mem_singleton.1 new]
            exact good
      · intro clash
        cases clash
      · exact ⟨.list list wellFormed, by omega, by omega⟩
    · intro i map sorted wellFormed
      have first := value i
      rw [decodeDict]
      split_ifs
      · cases taken : decodeAt input fuel i with
        | error problem =>
          rw [taken] at first
          intro starved
          have short := first starved
          omega
        | ok pair =>
          rw [taken] at first
          obtain ⟨_, moved, inside⟩ := first
          dsimp only
          cases named : pair.1.asBytes with
          | none =>
            intro clash
            cases clash
          | some key =>
            have second := value pair.2
            dsimp only
            cases held : decodeAt input fuel pair.2 with
            | error problem =>
              rw [held] at second
              intro starved
              have short := second starved
              omega
            | ok entry =>
              rw [held] at second
              obtain ⟨good, further, bounded⟩ := second
              apply Sound.later input fuel i entry.2 _ _ (by omega) bounded
              apply entries
              · exact SortedMap.sorted_insert key entry.1 map sorted
              · intro other member
                rcases SortedMap.mem_insert key entry.1 map other member with new | old
                · rw [new]
                  exact good
                · exact wellFormed other old
      · intro clash
        cases clash
      · exact ⟨.dict map sorted wellFormed, by omega, by omega⟩

/-- The decoder ends on every input. -/
theorem decode_total (input : Bytes) : decode input ≠ .error .outOfFuel := by
  intro starved
  have sound := (decoder_sound input (turns input)).1 0
  rw [decode] at starved
  rw [starved] at sound
  have short := sound rfl
  rw [turns] at short
  omega

theorem encodeEntries_eq (map : List (Bytes × Value)) :
    encodeEntries map = map.flatMap (fun entry => encodeBytes entry.1 ++ encode entry.2) := by
  induction map with
  | nil => rfl
  | cons entry rest ih => rw [encodeEntries, ih, List.flatMap_cons]

/-- `isize::MAX`, the length of the longest slice or vector. -/
def Fits (bytes : Bytes) : Prop := bytes.length < 2 ^ 63

theorem encode_injective (v w : Value) (v_wellFormed : WellFormed v) (w_wellFormed : WellFormed w)
    (fits : Fits (encode v)) (same : encode v = encode w) : v = w := by
  have first := decodeFull_encode v v_wellFormed fits
  rw [same] at first fits
  rw [decodeFull_encode w w_wellFormed fits] at first
  cases first
  rfl

/-- Decoding inverts encoding: as a whole, as a prefix of anything, and so that no two values share
an encoding; a dictionary is written with strictly increasing keys. -/
theorem bencode_round_trip (v : Value) (wellFormed : WellFormed v) (fits : Fits (encode v)) :
    decodeFull (encode v) = .ok v ∧
      (∀ suffix, Fits (encode v ++ suffix) →
        decode (encode v ++ suffix) = .ok (v, (encode v).length)) ∧
      (∀ w, WellFormed w → encode v = encode w → v = w) ∧
      ∀ map, v = .dict map → (map.map Prod.fst).Pairwise (· < ·) ∧
        encode v = byte 'd' ::
          (map.flatMap (fun entry => encodeBytes entry.1 ++ encode entry.2) ++ [byte 'e']) := by
  refine ⟨decodeFull_encode v wellFormed fits, ?_, ?_, ?_⟩
  · intro suffix bounded
    exact decode_encode v wellFormed suffix bounded
  · intro w other same
    exact encode_injective v w wellFormed other fits same
  · intro map shape
    subst shape
    cases wellFormed with
    | dict _ sorted _ =>
      rw [encode, encodeEntries_eq]
      exact ⟨List.pairwise_map.2 sorted, rfl⟩

theorem bencode_round_trip_dict :
    decodeFull (encode (.dict [([97], .list [.int (-3)]), ([98], .bytes [0, 255])])) =
      .ok (.dict [([97], .list [.int (-3)]), ([98], .bytes [0, 255])]) := by
  have wellFormed : WellFormed (.dict [([97], .list [.int (-3)]), ([98], .bytes [0, 255])]) := by
    refine .dict _ (by rw [SortedMap.Sorted]; decide) ?_
    intro entry member
    rcases List.mem_cons.1 member with first | later
    · rw [first]
      refine .list _ ?_
      intro item listed
      rw [List.mem_singleton.1 listed]
      exact .int _
    · rw [List.mem_singleton.1 later]
      exact .bytes _
  exact (bencode_round_trip _ wellFormed (by rw [Fits]; decide)).1

end Seedchamp.Torrentfile.RoundTrip
