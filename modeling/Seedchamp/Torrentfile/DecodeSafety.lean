import Seedchamp.Torrentfile.CheckedDecode

/-!
The inputs on which the bencode decoder panics: a string header that the decoder comes to declares a
length that no index reaches, or values are nested deeper than the stack has room for.
-/

namespace Seedchamp.Torrentfile.DecodeSafety
open Foundation Foundation.Decimal Torrentfile.Bencode Torrentfile.Grammar
open Torrentfile.CheckedDecode (Trap Fault Checked lift ok_bind error_bind goesOn_eq
  add_small index_inside)

/-- The text goes on with something other than a terminator. -/
def Begins (text : Bytes) : Prop := ∃ c rest, text = c :: rest ∧ c ≠ byte 'e'

/-- A value is begun at `rest`, inside `depth` lists and dictionaries that are begun before it: what
stands before it in each of them is spelled out. -/
inductive Reaches : Bytes → Nat → Bytes → Prop where
  | here (text : Bytes) : Reaches text 0 text
  | item (done after rest : Bytes) (list : List Value) (depth : Nat)
      (passed : Spells done (.items list)) (goes : Begins after) (inner : Reaches after depth rest) :
      Reaches (byte 'l' :: (done ++ after)) (depth + 1) rest
  | key (done after rest : Bytes) (entries : List Entry) (depth : Nat)
      (passed : Spells done (.entries entries)) (goes : Begins after)
      (inner : Reaches after depth rest) : Reaches (byte 'd' :: (done ++ after)) (depth + 1) rest
  | value (done keyText after rest key : Bytes) (entries : List Entry) (depth : Nat)
      (passed : Spells done (.entries entries)) (named : Spells keyText (.value (.bytes key)))
      (inner : Reaches after depth rest) :
      Reaches (byte 'd' :: (done ++ (keyText ++ after))) (depth + 1) rest

/-- A string header whose string would end past the last index, in an input of `total` bytes. -/
def Oversized (total : Nat) (rest : Bytes) : Prop :=
  ∃ c s body len, rest = c :: s ++ byte ':' :: body ∧ isDigit c = true ∧ byte ':' ∉ c :: s ∧
    parseUsize (c :: s) = some len ∧ 2 ^ 64 ≤ total - body.length + len

/-- The decoder comes to an oversized header or to a value the stack has no room for. -/
def Hazard (total room : Nat) (text : Bytes) : Prop :=
  ∃ depth rest, Reaches text depth rest ∧ (room ≤ depth ∨ Oversized total rest)

/-- The same for what is left of a list. -/
def ItemHazard (total room : Nat) (text : Bytes) : Prop :=
  ∃ done after list, text = done ++ after ∧ Spells done (.items list) ∧ Begins after ∧
    Hazard total room after

/-- The same for what is left of a dictionary. -/
def EntryHazard (total room : Nat) (text : Bytes) : Prop :=
  (∃ done after entries, text = done ++ after ∧ Spells done (.entries entries) ∧ Begins after ∧
    Hazard total room after) ∨
  ∃ done keyText after key entries, text = done ++ (keyText ++ after) ∧
    Spells done (.entries entries) ∧ Spells keyText (.value (.bytes key)) ∧ Hazard total room after

section Hazards
variable (total room : Nat)

theorem hazard_full (text : Bytes) : Hazard total 0 text := ⟨0, text, .here text, Or.inl (Nat.le_refl 0)⟩

theorem oversized_digit (c : UInt8) (rest : Bytes) (large : Oversized total (c :: rest)) :
    isDigit c = true := by
  obtain ⟨d, s, body, len, same, digit, _⟩ := large
  rw [List.cons_append, List.cons.injEq] at same
  rw [same.1]
  exact digit

theorem not_oversized_nil : ¬ Oversized total [] := by
  rintro ⟨d, s, body, len, same, _⟩
  cases same

theorem hazard_list (text : Bytes) :
    Hazard total (room + 1) (byte 'l' :: text) ↔ ItemHazard total room text := by
  constructor
  · rintro ⟨depth, rest, reached, danger⟩
    cases reached with
    | here =>
      rcases danger with deep | large
      · omega
      · exact absurd (oversized_digit total _ _ large) (by decide)
    | item done after rest list depth passed goes inner =>
      refine ⟨done, after, list, rfl, passed, goes, depth, rest, inner, ?_⟩
      exact danger.imp_left (fun deep => by omega)
  · rintro ⟨done, after, list, rfl, passed, goes, depth, rest, inner, danger⟩
    refine ⟨depth + 1, rest, .item done after rest list depth passed goes inner, ?_⟩
    exact danger.imp_left (fun deep => by omega)

theorem hazard_dict (text : Bytes) :
    Hazard total (room + 1) (byte 'd' :: text) ↔ EntryHazard total room text := by
  constructor
  · rintro ⟨depth, rest, reached, danger⟩
    cases reached with
    | here =>
      rcases danger with deep | large
      · omega
      · exact absurd (oversized_digit total _ _ large) (by decide)
    | key done after rest entries depth passed goes inner =>
      refine Or.inl ⟨done, after, entries, rfl, passed, goes, depth, rest, inner, ?_⟩
      exact danger.imp_left (fun deep => by omega)
    | value done keyText after rest key entries depth passed named inner =>
      refine Or.inr ⟨done, keyText, after, key, entries, rfl, passed, named, depth, rest, inner, ?_⟩
      exact danger.imp_left (fun deep => by omega)
  · rintro (⟨done, after, entries, rfl, passed, goes, depth, rest, inner, danger⟩ |
      ⟨done, keyText, after, key, entries, rfl, passed, named, depth, rest, inner, danger⟩)
    · refine ⟨depth + 1, rest, .key done after rest entries depth passed goes inner, ?_⟩
      exact danger.imp_left (fun deep => by omega)
    · refine ⟨depth + 1, rest, .value done keyText after rest key entries depth passed named inner, ?_⟩
      exact danger.imp_left (fun deep => by omega)

/-- Outside lists and dictionaries only the header itself can be a hazard. -/
theorem hazard_leaf (text : Bytes) (no_list : text.head? ≠ some (byte 'l'))
    (no_dict : text.head? ≠ some (byte 'd')) :
    Hazard total (room + 1) text ↔ Oversized total text := by
  constructor
  · rintro ⟨depth, rest, reached, danger⟩
    cases reached with
    | here => exact danger.resolve_left (by omega)
    | item => exact absurd rfl no_list
    | key | value => exact absurd rfl no_dict
  · intro large
    exact ⟨0, text, .here text, Or.inr large⟩

/-- One turn of a list's loop. -/
theorem itemHazard_turn (text : Bytes) (danger : ItemHazard total room text) :
    Begins text ∧ (Hazard total room text ∨ ∃ first v rest, text = first ++ rest ∧
      Spells first (.value v) ∧ ItemHazard total room rest) := by
  obtain ⟨done, after, list, rfl, passed, goes, inner⟩ := danger
  cases passed with
  | noItems => exact ⟨goes, Or.inl inner⟩
  | item first rest v list spelled later =>
    obtain ⟨c, tail, same, other⟩ := spells_head first v spelled
    constructor
    · rw [same]
      exact ⟨c, _, rfl, other⟩
    · rw [List.append_assoc]
      exact Or.inr ⟨first, v, rest ++ after, rfl, spelled, rest, after, list, rfl, later, goes, inner⟩

theorem itemHazard_first (text : Bytes) (goes : Begins text) (danger : Hazard total room text) :
    ItemHazard total room text := ⟨[], text, [], rfl, .noItems, goes, danger⟩

theorem itemHazard_later (first rest : Bytes) (v : Value) (spelled : Spells first (.value v))
    (danger : ItemHazard total room rest) : ItemHazard total room (first ++ rest) := by
  obtain ⟨done, after, list, rfl, passed, goes, inner⟩ := danger
  refine ⟨first ++ done, after, v :: list, ?_, .item _ _ _ _ spelled passed, goes, inner⟩
  rw [List.append_assoc]

/-- One turn of a dictionary's loop. -/
theorem entryHazard_turn (text : Bytes) (danger : EntryHazard total room text) :
    Begins text ∧ (Hazard total room text ∨ ∃ keyText key rest, text = keyText ++ rest ∧
      Spells keyText (.value (.bytes key)) ∧ (Hazard total room rest ∨
        ∃ raw v later, rest = raw ++ later ∧ Spells raw (.value v) ∧ EntryHazard total room later)) := by
  have begun : ∀ keyText key rest, Spells keyText (.value (.bytes key)) → Begins (keyText ++ rest) := by
    intro keyText key rest spelled
    obtain ⟨c, tail, same, other⟩ := spells_head keyText _ spelled
    rw [same]
    exact ⟨c, _, rfl, other⟩
  rcases danger with ⟨done, after, entries, rfl, passed, goes, inner⟩ |
    ⟨done, keyText, after, key, entries, rfl, passed, named, inner⟩
  · cases passed with
    | noEntries => exact ⟨goes, Or.inl inner⟩
    | entry keyText raw rest key v entries spelled held later =>
      rw [List.append_assoc, List.append_assoc]
      refine ⟨begun keyText key _ spelled, Or.inr ⟨keyText, key, _, rfl, spelled, Or.inr ?_⟩⟩
      exact ⟨raw, v, rest ++ after, rfl, held, Or.inl ⟨rest, after, entries, rfl, later, goes, inner⟩⟩
  · cases passed with
    | noEntries =>
      exact ⟨begun keyText key _ named, Or.inr ⟨keyText, key, after, rfl, named, Or.inl inner⟩⟩
    | entry firstText raw rest first v entries spelled held later =>
      rw [List.append_assoc, List.append_assoc]
      refine ⟨begun firstText first _ spelled, Or.inr ⟨firstText, first, _, rfl, spelled, Or.inr ?_⟩⟩
      exact ⟨raw, v, _, rfl, held, Or.inr ⟨rest, keyText, after, key, entries, rfl, later, named, inner⟩⟩

theorem entryHazard_key (text : Bytes) (goes : Begins text) (danger : Hazard total room text) :
    EntryHazard total room text := Or.inl ⟨[], text, [], rfl, .noEntries, goes, danger⟩

theorem entryHazard_value (keyText key rest : Bytes) (named : Spells keyText (.value (.bytes key)))
    (danger : Hazard total room rest) : EntryHazard total room (keyText ++ rest) :=
  Or.inr ⟨[], keyText, rest, key, [], rfl, .noEntries, named, danger⟩

theorem entryHazard_later (keyText key raw rest : Bytes) (v : Value)
    (named : Spells keyText (.value (.bytes key))) (held : Spells raw (.value v))
    (danger : EntryHazard total room rest) :
    EntryHazard total room (keyText ++ (raw ++ rest)) := by
  rcases danger with ⟨done, after, entries, rfl, passed, goes, inner⟩ |
    ⟨done, nextText, after, next, entries, rfl, passed, spelled, inner⟩
  · refine Or.inl ⟨keyText ++ raw ++ done, after, _, ?_, .entry _ _ _ _ _ _ named held passed, goes, inner⟩
    simp only [List.append_assoc]
  · refine Or.inr ⟨keyText ++ raw ++ done, nextText, after, next, _, ?_,
      .entry _ _ _ _ _ _ named held passed, spelled, inner⟩
    simp only [List.append_assoc]

end Hazards

section Turns
variable (checks : Bool) (input : Bytes)

theorem begins_iff (i : Nat) :
    Begins (input.drop i) ↔ i < input.length ∧ input.getD i 0 ≠ byte 'e' := by
  constructor
  · rintro ⟨c, rest, seen, other⟩
    obtain ⟨head, inside⟩ := getD_of_drop input i c rest seen
    rw [head]
    exact ⟨inside, other⟩
  · rintro ⟨inside, other⟩
    exact ⟨_, _, drop_eq_cons input i inside, other⟩

/-- The plain decoder reports a panic exactly at an oversized header. -/
theorem panicked_iff (i : Nat) (inside : i < input.length)
    (digit : isDigit (input.getD i 0) = true) :
    Bencode.decodeBytes input i = .error .panicked ↔ Oversized input.length (input.drop i) := by
  constructor
  · intro panicked
    rw [Bencode.decodeBytes] at panicked
    dsimp only at panicked
    by_cases past : input.length ≤ scan input (byte ':') i
    · rw [if_pos past] at panicked
      cases panicked
    · obtain ⟨absent, ending⟩ := drop_scan input (byte ':') i (by omega)
      have cut := drop_slice input i _ (le_scan input (byte ':') i)
      have total := length_of_drop input _ _ _ ending
      rw [ending] at cut
      rw [if_neg past] at panicked
      split_ifs at panicked with broken
      · cases panicked
      · cases parsed : parseUsize (slice input i (scan input (byte ':') i)) with
        | none =>
          rw [parsed] at panicked
          cases panicked
        | some len =>
          rw [parsed] at panicked
          dsimp only at panicked
          split_ifs at panicked with large short
          · cases header : slice input i (scan input (byte ':') i) with
            | nil =>
              rw [header, List.nil_append, drop_eq_cons input i inside, List.cons.injEq] at cut
              exact absurd (cut.1 ▸ digit) (by decide)
            | cons c s =>
              rw [header] at cut absent parsed
              have lead := cut
              rw [drop_eq_cons input i inside, List.cons_append, List.cons.injEq] at lead
              rw [lead.1] at digit
              exact ⟨c, s, _, len, cut, digit, absent, parsed, by omega⟩
          · cases panicked
  · rintro ⟨c, s, body, len, seen, _, absent, parsed, large⟩
    have stopped := scan_of_drop input i (c :: s) body (byte ':') seen absent
    have header := slice_of_drop input i (c :: s) (byte ':' :: body) seen
    have colon := drop_of_drop input i _ _ _ seen rfl
    have total := length_of_drop input _ _ _ colon
    rw [Bencode.decodeBytes]
    dsimp only
    rw [stopped, header, if_neg (by omega), parseUsize_utf8 _ len parsed, if_neg (by intro clash; cases clash), parsed]
    dsimp only
    rw [if_pos (by omega)]

theorem decodeInt_ne_panicked (i : Nat) : Bencode.decodeInt input i ≠ .error .panicked := by
  rw [Bencode.decodeInt]
  dsimp only
  split_ifs
  · intro clash
    cases clash
  · intro clash
    cases clash
  · cases parseI64 (slice input (i + 1) (scan input (byte 'e') (i + 1))) with
    | none =>
      intro clash
      cases clash
    | some v =>
      intro clash
      cases clash

theorem decodeAt_inside (fits : input.length < 2 ^ 63) (fuel room i : Nat)
    (inside : i < input.length) :
    CheckedDecode.decodeAt checks input (fuel + 1) (room + 1) i =
      if input.getD i 0 = byte 'i' then CheckedDecode.decodeInt checks input i
      else if input.getD i 0 = byte 'l' then
        CheckedDecode.decodeList checks input fuel room (i + 1) []
      else if input.getD i 0 = byte 'd' then
        CheckedDecode.decodeDict checks input fuel room (i + 1) []
      else if isDigit (input.getD i 0) then CheckedDecode.decodeBytes checks input i
      else .error (.fail (.invalidTypeMarker (input.getD i 0) i)) := by
  rw [CheckedDecode.decodeAt, if_neg (by omega), index_inside input i inside, ok_bind,
    add_small checks i 1 (by omega), ok_bind, ok_bind]

theorem decodeList_goes (fuel room i : Nat) (list : List Value)
    (goes : i < input.length ∧ input.getD i 0 ≠ byte 'e') :
    CheckedDecode.decodeList checks input (fuel + 1) room i list =
      CheckedDecode.decodeAt checks input fuel room i >>= fun taken =>
        CheckedDecode.decodeList checks input fuel room taken.2 (list ++ [taken.1]) := by
  rw [CheckedDecode.decodeList, goesOn_eq, ok_bind, if_pos (decide_eq_true goes)]

theorem decodeList_stops (fits : input.length < 2 ^ 63) (fuel room i : Nat) (list : List Value)
    (stops : ¬ (i < input.length ∧ input.getD i 0 ≠ byte 'e')) :
    CheckedDecode.decodeList checks input (fuel + 1) room i list =
      lift (Bencode.decodeList input (fuel + 1) i list) := by
  rw [CheckedDecode.decodeList, goesOn_eq, ok_bind, if_neg (by rw [decide_eq_true_eq]; exact stops),
    Bencode.decodeList, if_neg stops]
  split_ifs
  · rfl
  · rw [add_small checks i 1 (by omega), ok_bind]
    rfl

theorem decodeDict_goes (fuel room i : Nat) (map : List (Bytes × Value))
    (goes : i < input.length ∧ input.getD i 0 ≠ byte 'e') :
    CheckedDecode.decodeDict checks input (fuel + 1) room i map =
      CheckedDecode.decodeAt checks input fuel room i >>= fun taken =>
        match taken.1.asBytes with
        | none => .error (.fail .dictKeyNotString)
        | some key =>
          CheckedDecode.decodeAt checks input fuel room taken.2 >>= fun held =>
            CheckedDecode.decodeDict checks input fuel room held.2
              (SortedMap.insert key held.1 map) := by
  rw [CheckedDecode.decodeDict, goesOn_eq, ok_bind]
  exact if_pos (decide_eq_true goes)

theorem decodeDict_stops (fits : input.length < 2 ^ 63) (fuel room i : Nat)
    (map : List (Bytes × Value)) (stops : ¬ (i < input.length ∧ input.getD i 0 ≠ byte 'e')) :
    CheckedDecode.decodeDict checks input (fuel + 1) room i map =
      lift (Bencode.decodeDict input (fuel + 1) i map) := by
  rw [CheckedDecode.decodeDict, goesOn_eq, ok_bind, if_neg (by rw [decide_eq_true_eq]; exact stops),
    Bencode.decodeDict, if_neg stops]
  split_ifs
  · rfl
  · rw [add_small checks i 1 (by omega), ok_bind]
    rfl

end Turns

/-- What the checked decoder does where a hazard lies ahead, and where none does. -/
structure Guarded (need fuel : Nat) (danger : Prop) (plain : Except Error (Value × Nat))
    (result : Checked (Value × Nat)) : Prop where
  traps : danger → need ≤ fuel → ∃ trap, result = .error (.trap trap)
  agrees : ¬ danger → result = lift plain ∧ plain ≠ .error .panicked

section Induction
variable (checks : Bool) (input : Bytes) (fits : input.length < 2 ^ 63)
include fits

theorem guarded_value (fuel room i need : Nat)
    (items : Guarded (2 * (input.length - (i + 1)) + 2) fuel
      (ItemHazard input.length room (input.drop (i + 1))) (Bencode.decodeList input fuel (i + 1) [])
      (CheckedDecode.decodeList checks input fuel room (i + 1) []))
    (entries : Guarded (2 * (input.length - (i + 1)) + 2) fuel
      (EntryHazard input.length room (input.drop (i + 1))) (Bencode.decodeDict input fuel (i + 1) [])
      (CheckedDecode.decodeDict checks input fuel room (i + 1) []))
    (enough : need = 2 * (input.length - i) + 1) :
    Guarded need (fuel + 1) (Hazard input.length (room + 1) (input.drop i))
      (Bencode.decodeAt input (fuel + 1) i)
      (CheckedDecode.decodeAt checks input (fuel + 1) (room + 1) i) := by
  by_cases inside : i < input.length
  · have seen := drop_eq_cons input i inside
    rw [decodeAt_inside checks input fits fuel room i inside, Bencode.decodeAt, if_neg (by omega)]
    dsimp only
    by_cases list : input.getD i 0 = byte 'l'
    · rw [list] at seen ⊢
      rw [seen, hazard_list, if_neg (by decide), if_pos rfl, if_neg (by decide), if_pos rfl]
      exact ⟨fun danger _ => items.traps danger (by omega), items.agrees⟩
    by_cases dict : input.getD i 0 = byte 'd'
    · rw [dict] at seen ⊢
      rw [seen, hazard_dict, if_neg (by decide), if_neg (by decide), if_pos rfl, if_neg (by decide),
        if_neg (by decide), if_pos rfl]
      exact ⟨fun danger _ => entries.traps danger (by omega), entries.agrees⟩
    have leaf := hazard_leaf input.length room (input.drop i)
      (by rw [seen, List.head?_cons, Ne, Option.some.injEq]; exact list)
      (by rw [seen, List.head?_cons, Ne, Option.some.injEq]; exact dict)
    rw [leaf, if_neg list, if_neg list, if_neg dict, if_neg dict]
    by_cases digit : isDigit (input.getD i 0) = true
    · rw [if_neg (digit_ne _ _ digit rfl), if_neg (digit_ne _ _ digit rfl), if_pos digit, if_pos digit,
        ← panicked_iff input i inside digit]
      rcases CheckedDecode.decodeBytes_cases checks input fits i with ⟨panicked, trapped⟩ | ⟨plain, same⟩
      · exact ⟨fun _ _ => trapped, fun safe => absurd panicked safe⟩
      · exact ⟨fun danger => absurd danger plain, fun _ => ⟨same, plain⟩⟩
    · have harmless : ¬ Oversized input.length (input.drop i) := by
        intro large
        rw [seen] at large
        exact digit (oversized_digit _ _ _ large)
      refine ⟨fun danger => absurd danger harmless, fun _ => ?_⟩
      by_cases int : input.getD i 0 = byte 'i'
      · rw [if_pos int, if_pos int]
        exact ⟨CheckedDecode.decodeInt_eq checks input fits i inside, decodeInt_ne_panicked input i⟩
      · rw [if_neg int, if_neg int, if_neg digit, if_neg digit]
        exact ⟨rfl, (fun clash => by cases clash)⟩
  · have ended : input.drop i = [] := List.drop_eq_nil_of_le (by omega)
    rw [ended, hazard_leaf _ _ [] (fun clash => by cases clash) (fun clash => by cases clash), CheckedDecode.decodeAt, if_pos (by omega),
      Bencode.decodeAt, if_pos (by omega)]
    exact ⟨fun danger => absurd danger (not_oversized_nil _), fun _ => ⟨rfl, (fun clash => by cases clash)⟩⟩

/-- A spelled value that stands at the cursor is what the decoder returns there. -/
theorem decodeAt_seen (fuel i j : Nat) (first rest : Bytes) (v w : Value)
    (seen : input.drop i = first ++ rest) (spelled : Spells first (.value v))
    (taken : Bencode.decodeAt input fuel i = .ok (w, j)) : v = w ∧ rest = input.drop j := by
  obtain ⟨text, seen', _, spelled'⟩ := decodeAt_taken input fuel i j w taken
  obtain ⟨_, same, behind⟩ := spells_unique (input.drop i) (by rw [List.length_drop]; omega)
    first rest text _ v w seen seen' spelled spelled'
  exact ⟨same, behind⟩

theorem decodeAt_no_error (fuel i : Nat) (problem : Error) (first rest : Bytes) (v : Value)
    (seen : input.drop i = first ++ rest) (spelled : Spells first (.value v))
    (enough : input.length - i ≤ fuel) : Bencode.decodeAt input fuel i ≠ .error problem := by
  have size := congrArg List.length seen
  rw [List.length_drop, List.length_append] at size
  rw [decodeAt_spelled input fits first v spelled i rest fuel seen (by omega)]
  nofun

/-- One turn of a list's loop, given what the value and the later turns do. -/
theorem guarded_items (fuel room i : Nat) (list : List Value)
    (value : Guarded (2 * (input.length - i) + 1) fuel (Hazard input.length room (input.drop i))
      (Bencode.decodeAt input fuel i) (CheckedDecode.decodeAt checks input fuel room i))
    (items : ∀ j list, Guarded (2 * (input.length - j) + 2) fuel
      (ItemHazard input.length room (input.drop j)) (Bencode.decodeList input fuel j list)
      (CheckedDecode.decodeList checks input fuel room j list)) :
    Guarded (2 * (input.length - i) + 2) (fuel + 1) (ItemHazard input.length room (input.drop i))
      (Bencode.decodeList input (fuel + 1) i list)
      (CheckedDecode.decodeList checks input (fuel + 1) room i list) := by
  by_cases goes : i < input.length ∧ input.getD i 0 ≠ byte 'e'
  · have begun := (begins_iff input i).2 goes
    rw [decodeList_goes checks input fuel room i list goes, Bencode.decodeList, if_pos goes]
    by_cases danger : Hazard input.length room (input.drop i)
    · have ahead := itemHazard_first _ _ _ begun danger
      constructor
      · intro _ enough
        obtain ⟨trap, trapped⟩ := value.traps danger (by omega)
        rw [trapped]
        exact ⟨trap, rfl⟩
      · intro safe
        exact absurd ahead safe
    · obtain ⟨same, plain⟩ := value.agrees danger
      rw [same]
      cases taken : Bencode.decodeAt input fuel i with
      | error problem =>
        constructor
        · intro ahead enough
          obtain ⟨_, now | ⟨first, v, rest, seen, spelled, _⟩⟩ := itemHazard_turn _ _ _ ahead
          · exact absurd now danger
          · exact absurd taken
              (decodeAt_no_error input fits fuel i problem first rest v seen spelled (by omega))
        · intro _
          rw [taken] at plain
          exact ⟨rfl, fun panicked => plain (by cases panicked; rfl)⟩
      | ok pair =>
        obtain ⟨text, seen, size, spelled⟩ := decodeAt_taken input fuel i pair.2 pair.1 taken
        have later := items pair.2 (list ++ [pair.1])
        have positive := spells_pos text pair.1 spelled
        constructor
        · intro ahead enough
          obtain ⟨_, now | ⟨first, v, rest, seen', spelled', left⟩⟩ := itemHazard_turn _ _ _ ahead
          · exact absurd now danger
          · have behind := (decodeAt_seen input fits fuel i _ first rest _ _ seen' spelled' taken).2
            rw [behind] at left
            exact later.traps left (by omega)
        · intro safe
          refine later.agrees (fun left => safe ?_)
          rw [seen]
          exact itemHazard_later _ _ text _ pair.1 spelled left
  · rw [decodeList_stops checks input fits fuel room i list goes]
    constructor
    · intro ahead
      exact absurd ((begins_iff input i).1 (itemHazard_turn _ _ _ ahead).1) goes
    · intro _
      refine ⟨rfl, ?_⟩
      rw [Bencode.decodeList, if_neg goes]
      split_ifs
      · intro clash
        cases clash
      · intro clash
        cases clash

/-- One turn of a dictionary's loop, given what its key, its value and the later turns do. -/
theorem guarded_entries (fuel room i : Nat) (map : List (Bytes × Value))
    (value : ∀ j, Guarded (2 * (input.length - j) + 1) fuel (Hazard input.length room (input.drop j))
      (Bencode.decodeAt input fuel j) (CheckedDecode.decodeAt checks input fuel room j))
    (entries : ∀ j map, Guarded (2 * (input.length - j) + 2) fuel
      (EntryHazard input.length room (input.drop j)) (Bencode.decodeDict input fuel j map)
      (CheckedDecode.decodeDict checks input fuel room j map)) :
    Guarded (2 * (input.length - i) + 2) (fuel + 1) (EntryHazard input.length room (input.drop i))
      (Bencode.decodeDict input (fuel + 1) i map)
      (CheckedDecode.decodeDict checks input (fuel + 1) room i map) := by
  by_cases goes : i < input.length ∧ input.getD i 0 ≠ byte 'e'
  · have begun := (begins_iff input i).2 goes
    rw [decodeDict_goes checks input fuel room i map goes, Bencode.decodeDict, if_pos goes]
    by_cases danger : Hazard input.length room (input.drop i)
    · have ahead := entryHazard_key _ _ _ begun danger
      constructor
      · intro _ enough
        obtain ⟨trap, trapped⟩ := (value i).traps danger (by omega)
        rw [trapped]
        exact ⟨trap, rfl⟩
      · intro safe
        exact absurd ahead safe
    · obtain ⟨same, plain⟩ := (value i).agrees danger
      rw [same]
      cases taken : Bencode.decodeAt input fuel i with
      | error problem =>
        constructor
        · intro ahead enough
          obtain ⟨_, now | ⟨keyText, key, rest, seen, named, _⟩⟩ := entryHazard_turn _ _ _ ahead
          · exact absurd now danger
          · exact absurd taken
              (decodeAt_no_error input fits fuel i problem keyText rest _ seen named (by omega))
        · intro _
          rw [taken] at plain
          exact ⟨rfl, fun panicked => plain (by cases panicked; rfl)⟩
      | ok pair =>
        obtain ⟨keyText, seen, size, spelled⟩ := decodeAt_taken input fuel i pair.2 pair.1 taken
        have positive := spells_pos keyText pair.1 spelled
        rw [lift, ok_bind]
        dsimp only
        cases name : pair.1.asBytes with
        | none =>
          constructor
          · intro ahead _
            obtain ⟨_, now | ⟨first, key, rest, seen', named, _⟩⟩ := entryHazard_turn _ _ _ ahead
            · exact absurd now danger
            · have key_same := (decodeAt_seen input fits fuel i _ first rest _ _ seen' named taken).1
              rw [← key_same] at name
              cases name
          · intro _
            exact ⟨rfl, (fun clash => by cases clash)⟩
        | some key =>
          dsimp only
          have key_spelled := spelled
          rw [asBytes_some pair.1 key name] at key_spelled
          by_cases inner : Hazard input.length room (input.drop pair.2)
          · constructor
            · intro _ enough
              obtain ⟨trap, trapped⟩ := (value pair.2).traps inner (by omega)
              rw [trapped]
              exact ⟨trap, rfl⟩
            · intro safe
              refine absurd ?_ safe
              rw [seen]
              exact entryHazard_value _ _ keyText key _ key_spelled inner
          · obtain ⟨value_same, value_plain⟩ := (value pair.2).agrees inner
            rw [value_same]
            cases held : Bencode.decodeAt input fuel pair.2 with
            | error problem =>
              constructor
              · intro ahead enough
                obtain ⟨_, now | ⟨first, _, rest, seen', named, later⟩⟩ := entryHazard_turn _ _ _ ahead
                · exact absurd now danger
                · have behind := (decodeAt_seen input fits fuel i _ first rest _ _ seen' named taken).2
                  rw [behind] at later
                  rcases later with now | ⟨raw, v, left, value_seen, value_spelled, _⟩
                  · exact absurd now inner
                  · exact absurd held (decodeAt_no_error input fits fuel pair.2 problem raw left v
                      value_seen value_spelled (by omega))
              · intro _
                rw [held] at value_plain
                exact ⟨rfl, fun panicked => value_plain (by cases panicked; rfl)⟩
            | ok entry =>
              obtain ⟨raw, raw_seen, raw_size, raw_spelled⟩ :=
                decodeAt_taken input fuel pair.2 entry.2 entry.1 held
              have next := entries entry.2 (SortedMap.insert key entry.1 map)
              constructor
              · intro ahead enough
                obtain ⟨_, now | ⟨first, _, rest, seen', named, later⟩⟩ := entryHazard_turn _ _ _ ahead
                · exact absurd now danger
                · have behind := (decodeAt_seen input fits fuel i _ first rest _ _ seen' named taken).2
                  rw [behind] at later
                  rcases later with now | ⟨text, v, left, value_seen, value_spelled, last⟩
                  · exact absurd now inner
                  · have rest_same := (decodeAt_seen input fits fuel pair.2 _ text left _ _ value_seen
                      value_spelled held).2
                    rw [rest_same] at last
                    exact next.traps last (by omega)
              · intro safe
                refine next.agrees (fun last => safe ?_)
                rw [seen, raw_seen]
                exact entryHazard_later _ _ keyText key raw _ entry.1 key_spelled raw_spelled last
  · rw [decodeDict_stops checks input fits fuel room i map goes]
    constructor
    · intro ahead
      exact absurd ((begins_iff input i).1 (entryHazard_turn _ _ _ ahead).1) goes
    · intro _
      refine ⟨rfl, ?_⟩
      rw [Bencode.decodeDict, if_neg goes]
      split_ifs
      · intro clash
        cases clash
      · intro clash
        cases clash

/-- One induction over the fuel for the decoder and its two loops. -/
theorem decoder_guarded (fuel : Nat) :
    (∀ room i, Guarded (2 * (input.length - i) + 1) fuel (Hazard input.length room (input.drop i))
      (Bencode.decodeAt input fuel i) (CheckedDecode.decodeAt checks input fuel room i)) ∧
    (∀ room i list, Guarded (2 * (input.length - i) + 2) fuel
      (ItemHazard input.length room (input.drop i)) (Bencode.decodeList input fuel i list)
      (CheckedDecode.decodeList checks input fuel room i list)) ∧
    (∀ room i map, Guarded (2 * (input.length - i) + 2) fuel
      (EntryHazard input.length room (input.drop i)) (Bencode.decodeDict input fuel i map)
      (CheckedDecode.decodeDict checks input fuel room i map)) := by
  induction fuel with
  | zero =>
    refine ⟨?_, ?_, ?_⟩
    · intro room i
      rw [CheckedDecode.decodeAt, Bencode.decodeAt]
      exact ⟨fun _ enough => by omega, fun _ => ⟨rfl, (fun clash => by cases clash)⟩⟩
    · intro room i list
      rw [CheckedDecode.decodeList, Bencode.decodeList]
      exact ⟨fun _ enough => by omega, fun _ => ⟨rfl, (fun clash => by cases clash)⟩⟩
    · intro room i map
      rw [CheckedDecode.decodeDict, Bencode.decodeDict]
      exact ⟨fun _ enough => by omega, fun _ => ⟨rfl, (fun clash => by cases clash)⟩⟩
  | succ fuel ih =>
    obtain ⟨value, items, entries⟩ := ih
    refine ⟨?_, ?_, ?_⟩
    · intro room i
      cases room with
      | zero =>
        rw [CheckedDecode.decodeAt]
        exact ⟨fun _ _ => ⟨.stackOverflow, rfl⟩, fun safe => absurd (hazard_full _ _) safe⟩
      | succ room =>
        exact guarded_value checks input fits fuel room i _ (items room (i + 1) [])
          (entries room (i + 1) []) rfl
    · intro room i list
      exact guarded_items checks input fits fuel room i list (value room i) (items room)
    · intro room i map
      exact guarded_entries checks input fits fuel room i map (value room) (entries room)

end Induction

/-- The call ends with a value or an error, and a value with the length of exactly its text. -/
structure Sane (input : Bytes) (result : Checked (Value × Nat)) : Prop where
  ends : (∃ v n, result = .ok (v, n)) ∨
    ∃ problem, result = .error (.fail problem) ∧ problem ≠ .outOfFuel ∧ problem ≠ .panicked
  consumed : ∀ v n, result = .ok (v, n) →
    n ≤ input.length ∧ Spells (input.take n) (.value v)

theorem decode_guarded (checks : Bool) (room : Nat) (input : Bytes) (fits : input.length < 2 ^ 63) :
    Guarded (turns input) (turns input) (Hazard input.length room input) (Bencode.decode input)
      (CheckedDecode.decode checks room input) := by
  have guarded := (decoder_guarded checks input fits (turns input)).1 room 0
  rw [List.drop_zero] at guarded
  rw [CheckedDecode.decode, Bencode.decode]
  exact ⟨fun danger _ => guarded.traps danger (by rw [turns]; omega), guarded.agrees⟩

/-- What the plain decoder returns without a panic. -/
theorem sane_lift (input : Bytes) (plain : Bencode.decode input ≠ .error .panicked) :
    Sane input (lift (Bencode.decode input)) := by
  cases decoded : Bencode.decode input with
  | error problem =>
    refine ⟨Or.inr ⟨problem, rfl, ?_, ?_⟩, nofun⟩
    · rintro rfl
      exact RoundTrip.decode_total input decoded
    · rintro rfl
      exact plain decoded
  | ok pair =>
    obtain ⟨text, seen, size, spelled⟩ := decodeAt_taken input _ 0 pair.2 pair.1 decoded
    rw [List.drop_zero] at seen
    refine ⟨Or.inl ⟨pair.1, pair.2, rfl⟩, ?_⟩
    intro v n same
    simp only [lift, Except.ok.injEq] at same
    rw [same] at seen size spelled
    dsimp only at seen size spelled
    rw [Nat.zero_add] at size
    have length := congrArg List.length seen
    rw [List.length_append] at length
    refine ⟨by omega, ?_⟩
    rw [seen, size, List.take_left]
    exact spelled

/-- Decoding is total and bounded exactly on the inputs without a hazard. -/
theorem decode_sane_iff (checks : Bool) (room : Nat) (input : Bytes)
    (fits : RoundTrip.Fits input) :
    Sane input (CheckedDecode.decode checks room input) ↔ ¬ Hazard input.length room input := by
  have guarded := decode_guarded checks room input fits
  constructor
  · intro sane danger
    obtain ⟨trap, trapped⟩ := guarded.traps danger (Nat.le_refl _)
    rcases sane.ends with ⟨v, n, same⟩ | ⟨problem, same, _⟩
    · rw [trapped] at same
      cases same
    · rw [trapped] at same
      cases same
  · intro safe
    obtain ⟨same, plain⟩ := guarded.agrees safe
    rw [same]
    exact sane_lift input plain

/-- The largest length a header can declare, and nothing behind it. -/
def longest : Bytes := Value.key "18446744073709551615:"

theorem longest_insane : ¬Sane longest (CheckedDecode.decode false 100 longest) := by
  intro sane
  have trapped : CheckedDecode.trapOf (CheckedDecode.decode false 100 longest) =
      some .outOfBounds := by decide +kernel
  rcases sane.ends with ⟨v, n, same⟩ | ⟨problem, same, _⟩
  · rw [same] at trapped
    cases trapped
  · rw [same] at trapped
    cases trapped

theorem decode_sane_iff_longest :
    Sane (Value.key "i7e") (CheckedDecode.decode false 100 (Value.key "i7e")) ∧
      Hazard longest.length 100 longest := by
  constructor
  · refine (decode_sane_iff false 100 (Value.key "i7e") (by rw [RoundTrip.Fits]; decide)).2 (fun danger => ?_)
    have large := (hazard_leaf _ 99 _ (by decide) (by decide)).1 danger
    exact absurd (oversized_digit _ (byte 'i') (Value.key "7e") large) (by decide)
  · by_contra safe
    exact longest_insane
      ((decode_sane_iff false 100 longest (by rw [RoundTrip.Fits]; decide)).2 safe)

theorem longest_panics : ¬ ∀ input : Bytes, RoundTrip.Fits input →
    Sane input (CheckedDecode.decode false 100 input) :=
  fun always => longest_insane (always longest (by rw [RoundTrip.Fits]; decide))

/-- No stack has room for every input: one list marker for each level is enough. -/
theorem nested_hazard (total room : Nat) :
    Hazard total room (List.replicate (room + 1) (byte 'l')) := by
  have reached : ∀ depth, Reaches (List.replicate (depth + 1) (byte 'l')) depth [byte 'l'] := by
    intro depth
    induction depth with
    | zero => exact .here _
    | succ depth ih =>
      have begun : Begins (List.replicate (depth + 1) (byte 'l')) := by
        rw [List.replicate_succ]
        exact ⟨_, _, rfl, by decide⟩
      rw [List.replicate_succ]
      exact .item [] _ _ [] depth .noItems begun ih
  exact ⟨room, _, reached room, Or.inl (Nat.le_refl room)⟩

end Seedchamp.Torrentfile.DecodeSafety
