import Seedchamp.Torrentfile.Bencode

/-!
The texts the bencode decoder reads. A text spells a value, the items of a list or the entries of a
dictionary; the decoder returns a value from where its text stands, and returns none otherwise.
-/

namespace Seedchamp.Torrentfile.Grammar
open Foundation Foundation.Decimal Torrentfile.Bencode

/-- An entry as it stands in a dictionary's text: the value with its own text. -/
structure Entry where
  key : Bytes
  raw : Bytes
  value : Value

/-- The map that the entries leave, written one after another. -/
def collect (map : List (Bytes × Value)) (entries : List Entry) : List (Bytes × Value) :=
  entries.foldl (fun map entry => SortedMap.insert entry.key entry.value map) map

/-- What a stretch of text is read as. -/
inductive Reading where
  | value (v : Value)
  | items (list : List Value)
  | entries (entries : List Entry)

/-- The grammar. Numbers are as the standard parsers take them, keys in any order and repeated. -/
inductive Spells : Bytes → Reading → Prop where
  | int (s : Bytes) (v : Int64) (absent : byte 'e' ∉ s) (parsed : parseI64 s = some v) :
      Spells (byte 'i' :: (s ++ [byte 'e'])) (.value (.int v))
  | bytes (c : UInt8) (s b : Bytes) (digit : isDigit c = true) (absent : byte ':' ∉ c :: s)
      (parsed : parseUsize (c :: s) = some b.length) :
      Spells (c :: s ++ byte ':' :: b) (.value (.bytes b))
  | list (body : Bytes) (list : List Value) (each : Spells body (.items list)) :
      Spells (byte 'l' :: (body ++ [byte 'e'])) (.value (.list list))
  | dict (body : Bytes) (entries : List Entry) (each : Spells body (.entries entries)) :
      Spells (byte 'd' :: (body ++ [byte 'e'])) (.value (.dict (collect [] entries)))
  | noItems : Spells [] (.items [])
  | item (text rest : Bytes) (v : Value) (list : List Value) (first : Spells text (.value v))
      (later : Spells rest (.items list)) : Spells (text ++ rest) (.items (v :: list))
  | noEntries : Spells [] (.entries [])
  | entry (keyText raw rest key : Bytes) (v : Value) (entries : List Entry)
      (named : Spells keyText (.value (.bytes key))) (held : Spells raw (.value v))
      (later : Spells rest (.entries entries)) :
      Spells (keyText ++ raw ++ rest) (.entries (⟨key, raw, v⟩ :: entries))

section Cursor
variable (input : Bytes)

/-- The byte under the cursor. -/
theorem getD_of_drop (i : Nat) (c : UInt8) (rest : Bytes) (seen : input.drop i = c :: rest) :
    input.getD i 0 = c ∧ i < input.length := by
  have inside : i < input.length := by
    by_contra past
    rw [List.drop_eq_nil_of_le (by omega)] at seen
    cases seen
  rw [List.drop_eq_getElem_cons inside, List.cons.injEq] at seen
  rw [List.getD_eq_getElem?_getD, List.getElem?_eq_getElem inside]
  exact ⟨seen.1, inside⟩

theorem length_of_drop (i : Nat) (c : UInt8) (rest : Bytes) (seen : input.drop i = c :: rest) :
    input.length = i + (rest.length + 1) := by
  have inside := (getD_of_drop input i c rest seen).2
  have size := congrArg List.length seen
  rw [List.length_drop, List.length_cons] at size
  omega

/-- What is left at a cursor inside the input. -/
theorem drop_eq_cons (i : Nat) (inside : i < input.length) :
    input.drop i = input.getD i 0 :: input.drop (i + 1) := by
  rw [List.drop_eq_getElem_cons inside, List.getD_eq_getElem?_getD, List.getElem?_eq_getElem inside]
  rfl

theorem drop_of_drop (i n : Nat) (front rest : Bytes) (seen : input.drop i = front ++ rest)
    (size : n = front.length) : input.drop (i + n) = rest := by
  rw [← List.drop_drop, seen, size, List.drop_left]

theorem slice_of_drop (i : Nat) (text rest : Bytes) (seen : input.drop i = text ++ rest) :
    slice input i (i + text.length) = text := by
  rw [slice, seen, Nat.add_sub_cancel_left, List.take_left]

theorem length_slice (i j : Nat) (order : i ≤ j) (bounded : j ≤ input.length) :
    j = i + (slice input i j).length := by
  rw [slice, List.length_take, List.length_drop]
  omega

/-- A slice and what is left behind it. -/
theorem drop_slice (i j : Nat) (order : i ≤ j) :
    input.drop i = slice input i j ++ input.drop j := by
  have behind : input.drop j = (input.drop i).drop (j - i) := by
    rw [List.drop_drop]
    rw [show i + (j - i) = j by omega]
  rw [slice, behind, List.take_append_drop]

theorem scan_of_drop (i : Nat) (text rest : Bytes) (stop : UInt8)
    (seen : input.drop i = text ++ stop :: rest) (absent : stop ∉ text) :
    scan input stop i = i + text.length := by
  have passed : ∀ c ∈ text, decide (c ≠ stop) = true := by
    intro c member
    rw [decide_eq_true_eq]
    intro same
    exact absent (same ▸ member)
  rw [scan, seen, List.takeWhile_append_of_pos passed, List.takeWhile_cons_of_neg (by simp),
    List.append_nil]

theorem le_scan (stop : UInt8) (i : Nat) : i ≤ scan input stop i := Nat.le_add_right _ _

/-- What a scan passes has no stop byte, and one stands where it ends. -/
theorem drop_scan (stop : UInt8) (i : Nat) (inside : scan input stop i < input.length) :
    stop ∉ slice input i (scan input stop i) ∧
      input.drop (scan input stop i) = stop :: input.drop (scan input stop i + 1) := by
  have cut := List.takeWhile_append_dropWhile (p := fun c => decide (c ≠ stop)) (l := input.drop i)
  have passed : slice input i (scan input stop i) =
      (input.drop i).takeWhile (fun c => decide (c ≠ stop)) := by
    rw [scan]
    exact slice_of_drop input i _ _ cut.symm
  have left := drop_of_drop input i _ _ _ cut.symm rfl
  have cursor : input.drop (scan input stop i) =
      (input.drop i).dropWhile (fun c => decide (c ≠ stop)) := left
  constructor
  · rw [passed]
    intro member
    have other := List.all_eq_true.1 List.all_takeWhile stop member
    rw [decide_eq_true_eq] at other
    exact other rfl
  · have ahead := drop_eq_cons input _ inside
    rw [ahead, List.cons.injEq]
    refine ⟨?_, rfl⟩
    rw [cursor] at ahead
    have stopped := List.head_dropWhile_not (fun c => decide (c ≠ stop)) (l := input.drop i)
      (by rw [ahead]; nofun)
    simp only [ahead, List.head_cons, decide_eq_false_iff_not, not_not] at stopped
    exact stopped

end Cursor

theorem digit_ascii (c : UInt8) (digit : isDigit c = true) : c < 0x80 := by
  rw [isDigit, Bool.and_eq_true, decide_eq_true_eq, decide_eq_true_eq] at digit
  exact Std.lt_of_le_of_lt digit.2 (by decide)

/-- A digit is not one of the other markers. -/
theorem digit_ne (c other : UInt8) (digit : isDigit c = true) (plain : isDigit other = false) :
    c ≠ other := by
  intro same
  rw [same, plain] at digit
  cases digit

theorem digits_of_readDigits (text : Bytes) (n : Nat) (read : readDigits text = some n) (c : UInt8)
    (member : c ∈ text) : isDigit c = true := by
  rw [readDigits] at read
  split_ifs at read with digits
  exact List.all_eq_true.1 digits.2 c member

/-- Digits behind a sign are ASCII. -/
theorem signed_ascii (sign : UInt8) (ascii : sign < 0x80) (s : Bytes) (headed : s.head? = some sign)
    (n : Nat) (read : readDigits s.tail = some n) : ∀ c ∈ s, c < 0x80 := by
  intro c member
  cases s with
  | nil => cases member
  | cons first rest =>
    rw [List.head?_cons, Option.some.injEq] at headed
    rcases List.mem_cons.1 member with lead | later
    · rw [lead, headed]
      exact ascii
    · exact digit_ascii c (digits_of_readDigits rest n read c later)

theorem unsigned_ascii (s : Bytes) (n : Nat)
    (read : readDigits (if s.head? = some (byte '+') then s.tail else s) = some n) :
    ∀ c ∈ s, c < 0x80 := by
  split_ifs at read with plus
  · exact signed_ascii _ (by decide) s plus n read
  · intro c member
    exact digit_ascii c (digits_of_readDigits s n read c member)

theorem filter_some (digits : Option Nat) (p : Nat → Bool) (n : Nat)
    (kept : digits.filter p = some n) : digits = some n ∧ p n = true := by
  rw [Option.filter_eq_some_iff] at kept
  exact kept

/-- What the number parsers accept is UTF-8. -/
theorem utf8_of_ascii (s : Bytes) (ascii : ∀ c ∈ s, c < 0x80) : (Utf8.decode s).isNone = false := by
  rw [Utf8.decode_ascii s ascii]
  rfl

theorem parseUsize_utf8 (s : Bytes) (n : Nat) (parsed : parseUsize s = some n) :
    (Utf8.decode s).isNone = false := by
  rw [parseUsize] at parsed
  exact utf8_of_ascii s (unsigned_ascii s n (filter_some _ _ n parsed).1)

theorem parseUsize_lt (s : Bytes) (n : Nat) (parsed : parseUsize s = some n) : n < 2 ^ 64 := by
  rw [parseUsize] at parsed
  have small := (filter_some _ _ n parsed).2
  rw [decide_eq_true_eq] at small
  exact small

theorem parseI64_utf8 (s : Bytes) (v : Int64) (parsed : parseI64 s = some v) :
    (Utf8.decode s).isNone = false := by
  rw [parseI64] at parsed
  apply utf8_of_ascii
  by_cases negative : s.head? = some (byte '-')
  · rw [if_pos negative, Option.map_eq_some_iff] at parsed
    obtain ⟨n, kept, _⟩ := parsed
    exact signed_ascii _ (by decide) s negative n (filter_some _ _ n kept).1
  · rw [if_neg negative] at parsed
    obtain ⟨n, kept, _⟩ := Option.map_eq_some_iff.1 parsed
    exact unsigned_ascii s n (filter_some _ _ n kept).1

/-- No value's text starts with the terminator of a list or a dictionary. -/
theorem spells_head (text : Bytes) (v : Value) (spelled : Spells text (.value v)) :
    ∃ c rest, text = c :: rest ∧ c ≠ byte 'e' := by
  cases spelled with
  | int s v absent parsed => exact ⟨byte 'i', _, rfl, by decide⟩
  | bytes c s b digit absent parsed => exact ⟨c, _, rfl, digit_ne c _ digit rfl⟩
  | list body list each => exact ⟨byte 'l', _, rfl, by decide⟩
  | dict body entries each => exact ⟨byte 'd', _, rfl, by decide⟩

theorem spells_pos (text : Bytes) (v : Value) (spelled : Spells text (.value v)) :
    0 < text.length := by
  obtain ⟨c, rest, same, _⟩ := spells_head text v spelled
  rw [same, List.length_cons]
  omega

theorem asBytes_some (v : Value) (key : Bytes) (named : v.asBytes = some key) : v = .bytes key := by
  cases v with
  | bytes b => exact congrArg Value.bytes (Option.some.inj named)
  | _ => cases named

section Complete
variable (input : Bytes)

/-- A loop of the decoder goes on over the text of a value. -/
theorem loop_continues (text : Bytes) (v : Value) (spelled : Spells text (.value v)) (i : Nat)
    (rest : Bytes) (seen : input.drop i = text ++ rest) :
    i < input.length ∧ input.getD i 0 ≠ byte 'e' := by
  obtain ⟨c, tail, same, other⟩ := spells_head text v spelled
  rw [same, List.cons_append] at seen
  obtain ⟨head, inside⟩ := getD_of_drop input i _ _ seen
  rw [head]
  exact ⟨inside, other⟩

theorem loop_ends (i : Nat) (rest : Bytes) (seen : input.drop i = byte 'e' :: rest) :
    ¬ (i < input.length ∧ input.getD i 0 ≠ byte 'e') ∧ ¬ input.length ≤ i := by
  obtain ⟨head, inside⟩ := getD_of_drop input i _ _ seen
  rw [head]
  exact ⟨fun goes => goes.2 rfl, by omega⟩

theorem decodeInt_spelled (s : Bytes) (v : Int64) (absent : byte 'e' ∉ s)
    (parsed : parseI64 s = some v) (i : Nat) (rest : Bytes)
    (seen : input.drop i = byte 'i' :: (s ++ byte 'e' :: rest)) :
    decodeInt input i = .ok (.int v, i + (s.length + 2)) := by
  have text := drop_of_drop input i 1 [byte 'i'] _ seen rfl
  have stopped := scan_of_drop input (i + 1) s rest (byte 'e') text absent
  have digits := slice_of_drop input (i + 1) s (byte 'e' :: rest) text
  have ending := drop_of_drop input (i + 1) _ _ _ text rfl
  have total := length_of_drop input _ _ _ ending
  rw [decodeInt]
  dsimp only
  rw [stopped, digits, if_neg (by omega), parseI64_utf8 s v parsed, if_neg (by nofun), parsed]
  dsimp only
  rw [show i + 1 + s.length + 1 = i + (s.length + 2) by omega]

theorem decodeBytes_spelled (fits : input.length < 2 ^ 63) (s b : Bytes) (absent : byte ':' ∉ s)
    (parsed : parseUsize s = some b.length) (i : Nat) (rest : Bytes)
    (seen : input.drop i = s ++ byte ':' :: (b ++ rest)) :
    decodeBytes input i = .ok (.bytes b, i + (s.length + (b.length + 1))) := by
  have stopped := scan_of_drop input i s (b ++ rest) (byte ':') seen absent
  have digits := slice_of_drop input i s (byte ':' :: (b ++ rest)) seen
  have colon := drop_of_drop input i _ _ _ seen rfl
  have body := drop_of_drop input (i + s.length) 1 [byte ':'] (b ++ rest) colon rfl
  have total := length_of_drop input _ _ _ colon
  have bytes := slice_of_drop input _ b rest body
  rw [List.length_append] at total
  rw [decodeBytes]
  dsimp only
  rw [stopped, digits, if_neg (by omega), parseUsize_utf8 s _ parsed, if_neg (by nofun), parsed]
  dsimp only
  rw [if_neg (by omega), if_neg (by omega), bytes]
  rw [show i + s.length + 1 + b.length = i + (s.length + (b.length + 1)) by omega]

/-- The decoder, or the loop for the items or the entries, passes exactly the text. -/
def Reads (text : Bytes) : Reading → Prop
  | .value v => ∀ i rest fuel, input.drop i = text ++ rest → text.length ≤ fuel →
      decodeAt input fuel i = .ok (v, i + text.length)
  | .items list => ∀ i rest fuel front, input.drop i = text ++ byte 'e' :: rest →
      text.length + 1 ≤ fuel →
      decodeList input fuel i front = .ok (.list (front ++ list), i + (text.length + 1))
  | .entries entries => ∀ i rest fuel map, input.drop i = text ++ byte 'e' :: rest →
      text.length + 1 ≤ fuel →
      decodeDict input fuel i map = .ok (.dict (collect map entries), i + (text.length + 1))

theorem reads_int (s : Bytes) (v : Int64) (absent : byte 'e' ∉ s) (parsed : parseI64 s = some v) :
    Reads input (byte 'i' :: (s ++ [byte 'e'])) (.value (.int v)) := by
  intro i rest fuel seen enough
  rw [List.length_cons, List.length_append, List.length_singleton] at enough ⊢
  rw [List.cons_append, List.append_assoc, List.singleton_append] at seen
  obtain ⟨head, inside⟩ := getD_of_drop input i _ _ seen
  cases fuel with
  | zero => omega
  | succ fuel =>
    rw [decodeAt]
    dsimp only
    rw [head, if_neg (by omega), if_pos rfl]
    exact decodeInt_spelled input s v absent parsed i rest seen

theorem reads_bytes (fits : input.length < 2 ^ 63) (c : UInt8) (s b : Bytes)
    (digit : isDigit c = true) (absent : byte ':' ∉ c :: s)
    (parsed : parseUsize (c :: s) = some b.length) :
    Reads input (c :: s ++ byte ':' :: b) (.value (.bytes b)) := by
  intro i rest fuel seen enough
  rw [List.length_append, List.length_cons (a := byte ':')] at enough ⊢
  rw [List.append_assoc, List.cons_append] at seen
  have marker := seen
  rw [List.cons_append] at marker
  obtain ⟨head, inside⟩ := getD_of_drop input i _ _ marker
  cases fuel with
  | zero => omega
  | succ fuel =>
    rw [decodeAt]
    dsimp only
    rw [head, if_neg (by omega), if_neg (digit_ne c _ digit rfl), if_neg (digit_ne c _ digit rfl),
      if_neg (digit_ne c _ digit rfl), if_pos digit]
    exact decodeBytes_spelled input fits (c :: s) b absent parsed i rest seen

theorem reads_list (body : Bytes) (list : List Value) (each : Reads input body (.items list)) :
    Reads input (byte 'l' :: (body ++ [byte 'e'])) (.value (.list list)) := by
  intro i rest fuel seen enough
  rw [List.length_cons, List.length_append, List.length_singleton] at enough ⊢
  rw [List.cons_append, List.append_assoc, List.singleton_append] at seen
  obtain ⟨head, inside⟩ := getD_of_drop input i _ _ seen
  cases fuel with
  | zero => omega
  | succ fuel =>
    have loop := each (i + 1) rest fuel [] (drop_of_drop input i 1 [byte 'l'] _ seen rfl) (by omega)
    rw [decodeAt]
    dsimp only
    rw [head, if_neg (by omega), if_neg (by decide), if_pos rfl, loop, List.nil_append]
    rw [show i + 1 + (body.length + 1) = i + (body.length + 1 + 1) by omega]

theorem reads_dict (body : Bytes) (entries : List Entry)
    (each : Reads input body (.entries entries)) :
    Reads input (byte 'd' :: (body ++ [byte 'e'])) (.value (.dict (collect [] entries))) := by
  intro i rest fuel seen enough
  rw [List.length_cons, List.length_append, List.length_singleton] at enough ⊢
  rw [List.cons_append, List.append_assoc, List.singleton_append] at seen
  obtain ⟨head, inside⟩ := getD_of_drop input i _ _ seen
  cases fuel with
  | zero => omega
  | succ fuel =>
    have loop := each (i + 1) rest fuel [] (drop_of_drop input i 1 [byte 'd'] _ seen rfl) (by omega)
    rw [decodeAt]
    dsimp only
    rw [head, if_neg (by omega), if_neg (by decide), if_neg (by decide), if_pos rfl, loop]
    rw [show i + 1 + (body.length + 1) = i + (body.length + 1 + 1) by omega]

theorem reads_noItems : Reads input [] (.items []) := by
  intro i rest fuel front seen enough
  obtain ⟨stops, inside⟩ := loop_ends input i rest seen
  cases fuel with
  | zero => exact absurd enough (by simp)
  | succ fuel =>
    rw [decodeList, if_neg stops, if_neg inside, List.append_nil]
    rfl

theorem reads_item (text rest : Bytes) (v : Value) (list : List Value)
    (spelled : Spells text (.value v)) (first : Reads input text (.value v))
    (later : Reads input rest (.items list)) : Reads input (text ++ rest) (.items (v :: list)) := by
  intro i behind fuel front seen enough
  have positive := spells_pos text v spelled
  rw [List.append_assoc] at seen
  rw [List.length_append] at enough ⊢
  cases fuel with
  | zero => omega
  | succ fuel =>
    have taken := first i _ fuel seen (by omega)
    have loop := later (i + text.length) behind fuel (front ++ [v])
      (drop_of_drop input i _ _ _ seen rfl) (by omega)
    rw [decodeList, if_pos (loop_continues input text v spelled i _ seen), taken]
    dsimp only
    rw [loop, List.append_assoc, List.singleton_append]
    rw [show i + text.length + (rest.length + 1) = i + (text.length + rest.length + 1) by omega]

theorem reads_noEntries : Reads input [] (.entries []) := by
  intro i rest fuel map seen enough
  obtain ⟨stops, inside⟩ := loop_ends input i rest seen
  cases fuel with
  | zero => exact absurd enough (by simp)
  | succ fuel =>
    rw [decodeDict, if_neg stops, if_neg inside]
    rfl

theorem reads_entry (keyText raw rest key : Bytes) (v : Value) (entries : List Entry)
    (key_spelled : Spells keyText (.value (.bytes key))) (spelled : Spells raw (.value v))
    (named : Reads input keyText (.value (.bytes key))) (held : Reads input raw (.value v))
    (later : Reads input rest (.entries entries)) :
    Reads input (keyText ++ raw ++ rest) (.entries (⟨key, raw, v⟩ :: entries)) := by
  intro i behind fuel map seen enough
  have key_positive := spells_pos keyText _ key_spelled
  have positive := spells_pos raw v spelled
  rw [List.append_assoc, List.append_assoc] at seen
  rw [List.length_append, List.length_append] at enough ⊢
  have value_seen := drop_of_drop input i _ _ _ seen rfl
  have later_seen := drop_of_drop input (i + keyText.length) _ _ _ value_seen rfl
  cases fuel with
  | zero => omega
  | succ fuel =>
    have key_taken := named i _ fuel seen (by omega)
    have value_taken := held (i + keyText.length) _ fuel value_seen (by omega)
    have loop := later (i + keyText.length + raw.length) behind fuel (SortedMap.insert key v map)
      later_seen (by omega)
    rw [decodeDict, if_pos (loop_continues input keyText _ key_spelled i _ seen), key_taken]
    dsimp only [Value.asBytes]
    rw [value_taken]
    dsimp only
    rw [loop]
    rw [show i + keyText.length + raw.length + (rest.length + 1) =
      i + (keyText.length + raw.length + rest.length + 1) by omega]
    rfl

/-- Every text of the grammar is read wherever it stands. -/
theorem reads_spelled (fits : input.length < 2 ^ 63) (text : Bytes) (reading : Reading)
    (spelled : Spells text reading) : Reads input text reading := by
  induction spelled with
  | int s v absent parsed => exact reads_int input s v absent parsed
  | bytes c s b digit absent parsed => exact reads_bytes input fits c s b digit absent parsed
  | list body list _ ih => exact reads_list input body list ih
  | dict body entries _ ih => exact reads_dict input body entries ih
  | noItems => exact reads_noItems input
  | item text rest v list first _ first_ih later_ih =>
    exact reads_item input text rest v list first first_ih later_ih
  | noEntries => exact reads_noEntries input
  | entry keyText raw rest key v entries named held _ named_ih held_ih later_ih =>
    exact reads_entry input keyText raw rest key v entries named held named_ih held_ih later_ih

theorem decodeAt_spelled (fits : input.length < 2 ^ 63) (text : Bytes) (v : Value)
    (spelled : Spells text (.value v)) (i : Nat) (rest : Bytes) (fuel : Nat)
    (seen : input.drop i = text ++ rest) (enough : text.length ≤ fuel) :
    decodeAt input fuel i = .ok (v, i + text.length) :=
  reads_spelled input fits text (.value v) spelled i rest fuel seen enough

/-- No text of a value is the front of another, and none spells two values. -/
theorem spells_unique (fits : input.length < 2 ^ 63) (text rest other behind : Bytes) (v w : Value)
    (first : input = text ++ rest) (second : input = other ++ behind)
    (spelled : Spells text (.value v)) (spelled' : Spells other (.value w)) :
    text = other ∧ v = w ∧ rest = behind := by
  have left := decodeAt_spelled input fits text v spelled 0 rest (text.length + other.length)
    first (by omega)
  have right := decodeAt_spelled input fits other w spelled' 0 behind (text.length + other.length)
    second (by omega)
  rw [left] at right
  simp only [Except.ok.injEq, Prod.mk.injEq, Nat.zero_add] at right
  obtain ⟨same, size⟩ := right
  obtain ⟨texts, rests⟩ := List.append_inj (first.symm.trans second) size
  exact ⟨texts, same, rests⟩

end Complete

section Sound
variable (input : Bytes)

/-- The text between two cursors spells the value. -/
def Taken (i j : Nat) (v : Value) : Prop :=
  ∃ text, input.drop i = text ++ input.drop j ∧ j = i + text.length ∧ Spells text (.value v)

theorem decodeInt_taken (i j : Nat) (v : Value) (inside : i < input.length)
    (marker : input.getD i 0 = byte 'i') (decoded : decodeInt input i = .ok (v, j)) :
    Taken input i j v := by
  have after := le_scan input (byte 'e') (i + 1)
  rw [decodeInt] at decoded
  dsimp only at decoded
  split_ifs at decoded with past _
  obtain ⟨absent, ending⟩ := drop_scan input (byte 'e') (i + 1) (by omega)
  have size := length_slice input (i + 1) (scan input (byte 'e') (i + 1)) after (by omega)
  have cut := drop_slice input (i + 1) (scan input (byte 'e') (i + 1)) after
  cases parsed : parseI64 (slice input (i + 1) (scan input (byte 'e') (i + 1))) with
  | none =>
    rw [parsed] at decoded
    cases decoded
  | some n =>
    rw [parsed] at decoded
    simp only [Except.ok.injEq, Prod.mk.injEq] at decoded
    obtain ⟨value, stop⟩ := decoded
    refine ⟨byte 'i' :: (slice input (i + 1) (scan input (byte 'e') (i + 1)) ++ [byte 'e']), ?_, ?_, ?_⟩
    · rw [drop_eq_cons input i inside, marker, cut, ending, ← stop, List.cons_append,
        List.append_assoc, List.singleton_append]
    · rw [List.length_cons, List.length_append, List.length_singleton]
      omega
    · rw [← value]
      exact .int _ n absent parsed

theorem decodeBytes_taken (i j : Nat) (v : Value) (inside : i < input.length)
    (digit : isDigit (input.getD i 0) = true) (decoded : decodeBytes input i = .ok (v, j)) :
    Taken input i j v := by
  have after := le_scan input (byte ':') i
  rw [decodeBytes] at decoded
  dsimp only at decoded
  split_ifs at decoded with past _
  obtain ⟨absent, ending⟩ := drop_scan input (byte ':') i (by omega)
  have size := length_slice input i (scan input (byte ':') i) after (by omega)
  have cut := drop_slice input i (scan input (byte ':') i) after
  cases parsed : parseUsize (slice input i (scan input (byte ':') i)) with
  | none =>
    rw [parsed] at decoded
    cases decoded
  | some n =>
    rw [parsed] at decoded
    dsimp only at decoded
    split_ifs at decoded with _ short
    simp only [Except.ok.injEq, Prod.mk.injEq] at decoded
    obtain ⟨value, stop⟩ := decoded
    have body := drop_slice input (scan input (byte ':') i + 1) j (by omega)
    have body_size := length_slice input (scan input (byte ':') i + 1) j (by omega) (by omega)
    rw [← stop] at body body_size
    cases header : slice input i (scan input (byte ':') i) with
    | nil =>
      -- The digit under the cursor is not the colon, so the scan passes it.
      rw [header, List.nil_append, ending, drop_eq_cons input i inside, List.cons.injEq] at cut
      exact absurd (cut.1 ▸ digit) (by decide)
    | cons c rest =>
      rw [header] at absent parsed cut size
      have lead := cut
      rw [drop_eq_cons input i inside, List.cons_append, List.cons.injEq] at lead
      rw [lead.1] at digit
      refine ⟨c :: rest ++ byte ':' :: slice input (scan input (byte ':') i + 1)
        (scan input (byte ':') i + 1 + n), ?_, ?_, ?_⟩
      · rw [cut, ending, ← stop, List.append_assoc, List.cons_append (a := byte ':'), ← body]
      · rw [List.length_append, List.length_cons (a := byte ':')]
        omega
      · rw [← value]
        refine .bytes c rest _ digit absent ?_
        rw [parsed, Option.some.injEq]
        omega

/-- What a value or a loop of the decoder returns was spelled by the text it passed. -/
theorem decoder_taken (fuel : Nat) :
    (∀ i j v, decodeAt input fuel i = .ok (v, j) → Taken input i j v) ∧
    (∀ i j v front, decodeList input fuel i front = .ok (v, j) →
      ∃ text list, input.drop i = text ++ byte 'e' :: input.drop j ∧ j = i + (text.length + 1) ∧
        Spells text (.items list) ∧ v = .list (front ++ list)) ∧
    (∀ i j v map, decodeDict input fuel i map = .ok (v, j) →
      ∃ text entries, input.drop i = text ++ byte 'e' :: input.drop j ∧ j = i + (text.length + 1) ∧
        Spells text (.entries entries) ∧ v = .dict (collect map entries)) := by
  induction fuel with
  | zero =>
    refine ⟨?_, ?_, ?_⟩
    · intro i j v decoded
      rw [decodeAt] at decoded
      cases decoded
    · intro i j v front decoded
      rw [decodeList] at decoded
      cases decoded
    · intro i j v map decoded
      rw [decodeDict] at decoded
      cases decoded
  | succ fuel ih =>
    obtain ⟨value, items, entries⟩ := ih
    -- Where a loop stops without an error, the terminator stands.
    have ended : ∀ i, ¬ (i < input.length ∧ input.getD i 0 ≠ byte 'e') → ¬ input.length ≤ i →
        input.drop i = byte 'e' :: input.drop (i + 1) := by
      intro i stops inside
      rw [drop_eq_cons input i (by omega)]
      rw [not_and_not_right] at stops
      rw [stops (by omega)]
    refine ⟨?_, ?_, ?_⟩
    · intro i j v decoded
      rw [decodeAt] at decoded
      dsimp only at decoded
      split_ifs at decoded with past int list dict digit
      · exact decodeInt_taken input i j v (by omega) int decoded
      · obtain ⟨text, items, seen, size, spelled, same⟩ := items (i + 1) j v [] decoded
        refine ⟨byte 'l' :: (text ++ [byte 'e']), ?_, ?_, ?_⟩
        · rw [drop_eq_cons input i (by omega), list, seen, List.cons_append, List.append_assoc,
            List.singleton_append]
        · rw [List.length_cons, List.length_append, List.length_singleton]
          omega
        · rw [same]
          exact .list text items spelled
      · obtain ⟨text, entries, seen, size, spelled, same⟩ := entries (i + 1) j v [] decoded
        refine ⟨byte 'd' :: (text ++ [byte 'e']), ?_, ?_, ?_⟩
        · rw [drop_eq_cons input i (by omega), dict, seen, List.cons_append, List.append_assoc,
            List.singleton_append]
        · rw [List.length_cons, List.length_append, List.length_singleton]
          omega
        · rw [same]
          exact .dict text entries spelled
      · exact decodeBytes_taken input i j v (by omega) digit decoded
    · intro i j v front decoded
      rw [decodeList] at decoded
      split_ifs at decoded with goes past
      · cases taken : decodeAt input fuel i with
        | error problem =>
          rw [taken] at decoded
          cases decoded
        | ok pair =>
          rw [taken] at decoded
          obtain ⟨text, seen, size, spelled⟩ := value i pair.2 pair.1 taken
          obtain ⟨later, list, seen', size', spelled', same⟩ := items pair.2 j v _ decoded
          refine ⟨text ++ later, pair.1 :: list, ?_, ?_, .item _ _ _ _ spelled spelled', ?_⟩
          · rw [seen, seen', List.append_assoc]
          · rw [List.length_append]
            omega
          · rw [same, List.append_assoc, List.singleton_append]
      · simp only [Except.ok.injEq, Prod.mk.injEq] at decoded
        refine ⟨[], [], ?_, by rw [List.length_nil]; omega, .noItems, ?_⟩
        · rw [ended i goes past, decoded.2]
          rfl
        · rw [List.append_nil]
          exact decoded.1.symm
    · intro i j v map decoded
      rw [decodeDict] at decoded
      split_ifs at decoded with goes past
      · cases taken : decodeAt input fuel i with
        | error problem =>
          rw [taken] at decoded
          cases decoded
        | ok pair =>
          rw [taken] at decoded
          dsimp only at decoded
          obtain ⟨text, seen, size, spelled⟩ := value i pair.2 pair.1 taken
          cases named : pair.1.asBytes with
          | none =>
            rw [named] at decoded
            cases decoded
          | some key =>
            rw [named] at decoded
            dsimp only at decoded
            cases held : decodeAt input fuel pair.2 with
            | error problem =>
              rw [held] at decoded
              cases decoded
            | ok entry =>
              rw [held] at decoded
              obtain ⟨raw, raw_seen, raw_size, raw_spelled⟩ := value pair.2 entry.2 entry.1 held
              obtain ⟨later, rest, seen', size', spelled', same⟩ := entries entry.2 j v _ decoded
              have shape := asBytes_some pair.1 key named
              rw [shape] at spelled
              refine ⟨text ++ raw ++ later, ⟨key, raw, entry.1⟩ :: rest, ?_, ?_,
                .entry _ _ _ _ _ _ spelled raw_spelled spelled', same⟩
              · rw [seen, raw_seen, seen', List.append_assoc, List.append_assoc]
              · rw [List.length_append, List.length_append]
                omega
      · simp only [Except.ok.injEq, Prod.mk.injEq] at decoded
        refine ⟨[], [], ?_, by rw [List.length_nil]; omega, .noEntries, decoded.1.symm⟩
        rw [ended i goes past, decoded.2]
        rfl

theorem decodeAt_taken (fuel i j : Nat) (v : Value) (decoded : decodeAt input fuel i = .ok (v, j)) :
    Taken input i j v := (decoder_taken input fuel).1 i j v decoded

end Sound

end Seedchamp.Torrentfile.Grammar
