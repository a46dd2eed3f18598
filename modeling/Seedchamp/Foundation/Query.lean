import Mathlib.Data.List.Basic
import Mathlib.Data.List.TakeWhile
import Mathlib.Logic.Basic
import Mathlib.Tactic.IntervalCases

/-!
The query of a URL as bytes: percent encoding, hexadecimal digits, and the fields of a query as the
receiver takes them apart.
-/

namespace Seedchamp.Foundation.Query

abbrev Bytes := List UInt8

def ascii (text : String) : Bytes := text.toList.map (fun c => UInt8.ofNat c.toNat)

def AMPERSAND : UInt8 := 0x26
def EQUALS : UInt8 := 0x3D
def PERCENT : UInt8 := 0x25
def QUESTION : UInt8 := 0x3F
def HASH : UInt8 := 0x23

/-! ### Hexadecimal digits -/

/-- A digit below 16; `ten` is the letter for ten. -/
def hexDigit (ten : UInt8) (n : Nat) : UInt8 :=
  if n < 10 then UInt8.ofNat (48 + n) else UInt8.ofNat (ten.toNat + n - 10)

def hexPair (ten b : UInt8) : Bytes := [hexDigit ten (b.toNat / 16), hexDigit ten (b.toNat % 16)]

def upperTen : UInt8 := 0x41
def lowerTen : UInt8 := 0x61

def hexValue (digit : UInt8) : Option Nat :=
  if 0x30 ≤ digit ∧ digit ≤ 0x39 then some (digit.toNat - 0x30)
  else if 0x41 ≤ digit ∧ digit ≤ 0x46 then some (digit.toNat - 0x37)
  else if 0x61 ≤ digit ∧ digit ≤ 0x66 then some (digit.toNat - 0x57)
  else none

/-- The value of hexadecimal digits, most significant first. -/
def readHex (text : Bytes) : Option Nat :=
  text.foldl (fun acc digit => acc.bind (fun n => (hexValue digit).map (16 * n + ·))) (some 0)

/-- What a byte is that stands for itself and never separates anything. -/
def Plain (b : UInt8) : Prop :=
  b ≠ AMPERSAND ∧ b ≠ EQUALS ∧ b ≠ PERCENT ∧ b ≠ QUESTION ∧ b ≠ HASH

instance (b : UInt8) : Decidable (Plain b) := inferInstanceAs (Decidable (_ ∧ _))

theorem hexDigit_spec (ten : UInt8) (letters : ten = upperTen ∨ ten = lowerTen) (n : Nat) (small : n < 16) :
    hexValue (hexDigit ten n) = some n ∧ Plain (hexDigit ten n) := by
  rcases letters with same | same
  · rw [same]
    interval_cases n <;> decide
  · rw [same]
    interval_cases n <;> decide

theorem hexPair_plain (ten : UInt8) (letters : ten = upperTen ∨ ten = lowerTen) (b : UInt8) :
    ∀ digit ∈ hexPair ten b, Plain digit := by
  have bound := b.toNat_lt
  intro digit listed
  rw [hexPair, List.mem_cons, List.mem_singleton] at listed
  rcases listed with high | low
  · rw [high]
    exact (hexDigit_spec ten letters _ (by omega)).2
  · rw [low]
    exact (hexDigit_spec ten letters _ (by omega)).2

/-- The digits of bytes, most significant first, are read as the number that the bytes make up. -/
theorem readHex_flatMap (ten : UInt8) (letters : ten = upperTen ∨ ten = lowerTen) (bytes : Bytes) :
    readHex (bytes.flatMap (hexPair ten)) = some (bytes.foldl (fun n b => n * 256 + b.toNat) 0) := by
  have general : ∀ start : Nat,
      (bytes.flatMap (hexPair ten)).foldl
          (fun acc digit => acc.bind (fun n => (hexValue digit).map (16 * n + ·))) (some start) =
        some (bytes.foldl (fun n b => n * 256 + b.toNat) start) := by
    induction bytes with
    | nil => exact fun start => rfl
    | cons b rest ih =>
      intro start
      have bound := b.toNat_lt
      have high := (hexDigit_spec ten letters (b.toNat / 16) (by omega)).1
      have low := (hexDigit_spec ten letters (b.toNat % 16) (by omega)).1
      rw [List.flatMap_cons, hexPair, List.foldl_append, List.foldl_cons, List.foldl_cons, List.foldl_nil,
        high, low, List.foldl_cons]
      simp only [Option.map_some, Option.bind_some]
      rw [ih, show 16 * (16 * start + b.toNat / 16) + b.toNat % 16 = start * 256 + b.toNat by omega]
  exact general 0

/-! ### Percent encoding -/

def percentEncode (bytes : Bytes) : Bytes := bytes.flatMap (fun b => PERCENT :: hexPair upperTen b)

/-- A percent sign without two digits stands for itself. -/
def percentDecode : Bytes → Bytes
  | [] => []
  | [b] => [b]
  | [b, h] => [b, h]
  | b :: h :: l :: rest =>
    if b = PERCENT then
      match hexValue h, hexValue l with
      | some high, some low => UInt8.ofNat (16 * high + low) :: percentDecode rest
      | _, _ => b :: percentDecode (h :: l :: rest)
    else b :: percentDecode (h :: l :: rest)

theorem percentDecode_cons (b : UInt8) (rest : Bytes) (other : b ≠ PERCENT) :
    percentDecode (b :: rest) = b :: percentDecode rest := by
  cases rest with
  | nil => rfl
  | cons h rest =>
    cases rest with
    | nil => rfl
    | cons l rest => rw [percentDecode, if_neg other]

theorem percentDecode_plain (text : Bytes) (plain : ∀ b ∈ text, Plain b) : percentDecode text = text := by
  induction text with
  | nil => rfl
  | cons b rest ih =>
    have here := plain b List.mem_cons_self
    rw [percentDecode_cons b rest here.2.2.1, ih (fun other listed => plain other (List.mem_cons_of_mem b listed))]

theorem percentDecode_percentEncode (bytes : Bytes) : percentDecode (percentEncode bytes) = bytes := by
  induction bytes with
  | nil => rfl
  | cons b rest ih =>
    have bound := b.toNat_lt
    have high := (hexDigit_spec upperTen (Or.inl rfl) (b.toNat / 16) (by omega)).1
    have low := (hexDigit_spec upperTen (Or.inl rfl) (b.toNat % 16) (by omega)).1
    rw [percentEncode] at ih
    rw [percentEncode, List.flatMap_cons, hexPair, List.cons_append, List.cons_append, List.cons_append,
      List.nil_append, percentDecode, if_pos rfl, high, low]
    dsimp only
    rw [ih, show 16 * (b.toNat / 16) + b.toNat % 16 = b.toNat by omega, UInt8.ofNat_toNat]

/-! ### Fields -/

/-- The text of a value separates nothing. -/
def Contained (text : Bytes) : Prop := ∀ b ∈ text, b ≠ AMPERSAND ∧ b ≠ HASH

theorem contained_of_plain (text : Bytes) (plain : ∀ b ∈ text, Plain b) : Contained text := by
  intro b listed
  exact ⟨(plain b listed).1, (plain b listed).2.2.2.2⟩

theorem contained_percentEncode (bytes : Bytes) : Contained (percentEncode bytes) := by
  intro b listed
  obtain ⟨byte, -, digit⟩ := List.mem_flatMap.1 listed
  rcases List.mem_cons.1 digit with sign | hex
  · rw [sign]
    decide
  · have plain := hexPair_plain upperTen (Or.inl rfl) byte b hex
    exact ⟨plain.1, plain.2.2.2.2⟩

/-- The name and the value of one field. -/
def field (segment : Bytes) : Bytes × Bytes :=
  (percentDecode (segment.takeWhile (· ≠ EQUALS)),
    percentDecode ((segment.dropWhile (· ≠ EQUALS)).drop 1))

def fields (query : Bytes) : List (Bytes × Bytes) := (query.splitOn AMPERSAND).map field

/-- The query of a URL, up to its fragment. -/
def queryOf (url : Bytes) : Option Bytes :=
  match (url.takeWhile (· ≠ HASH)).dropWhile (· ≠ QUESTION) with
  | [] => none
  | _ :: query => some query

def queryFields (url : Bytes) : List (Bytes × Bytes) := ((queryOf url).map fields).getD []

/-- Fields as a query. -/
def render : List (Bytes × Bytes) → Bytes
  | [] => []
  | [f] => f.1 ++ EQUALS :: f.2
  | f :: g :: rest => f.1 ++ EQUALS :: f.2 ++ AMPERSAND :: render (g :: rest)

theorem fields_append (front rest : Bytes) :
    fields (front ++ AMPERSAND :: rest) = fields front ++ fields rest := by
  rw [fields, List.splitOn_append_cons_self, List.map_append, fields, fields]

theorem field_render (name value : Bytes) (plain : ∀ b ∈ name, Plain b) :
    field (name ++ EQUALS :: value) = (name, percentDecode value) := by
  have foreign : ∀ b ∈ name, decide (b ≠ EQUALS) = true := by
    intro b listed
    exact decide_eq_true (plain b listed).2.1
  rw [field, List.takeWhile_append_of_pos foreign, List.dropWhile_append_of_pos foreign,
    List.takeWhile_cons_of_neg (by decide), List.dropWhile_cons_of_neg (by decide), List.append_nil,
    percentDecode_plain name plain, List.drop_one, List.tail_cons]

theorem fields_single (name value : Bytes) (plain : ∀ b ∈ name, Plain b) (contained : Contained value) :
    fields (name ++ EQUALS :: value) = [(name, percentDecode value)] := by
  have whole : AMPERSAND ∉ name ++ EQUALS :: value := by
    intro listed
    rcases List.mem_append.1 listed with inName | inRest
    · exact (plain _ inName).1 rfl
    · rcases List.mem_cons.1 inRest with sign | inValue
      · exact absurd sign (by decide)
      · exact (contained _ inValue).1 rfl
  rw [fields, List.splitOn_eq_singleton whole, List.map_singleton, field_render name value plain]

/-- Fields with plain names are read as they were rendered, their values decoded. -/
theorem fields_render (params : List (Bytes × Bytes)) (some' : params ≠ [])
    (plain : ∀ f ∈ params, ∀ b ∈ f.1, Plain b) (contained : ∀ f ∈ params, Contained f.2) :
    fields (render params) = params.map (fun f => (f.1, percentDecode f.2)) := by
  induction params with
  | nil => exact absurd rfl some'
  | cons f rest ih =>
    have here := fields_single f.1 f.2 (plain f List.mem_cons_self) (contained f List.mem_cons_self)
    cases rest with
    | nil => exact here
    | cons g rest =>
      have later := ih (List.cons_ne_nil g rest)
        (fun other listed => plain other (List.mem_cons_of_mem f listed))
        (fun other listed => contained other (List.mem_cons_of_mem f listed))
      rw [render, fields_append, here, later]
      rfl

theorem render_no_hash (params : List (Bytes × Bytes)) (plain : ∀ f ∈ params, ∀ b ∈ f.1, Plain b)
    (contained : ∀ f ∈ params, Contained f.2) : ∀ b ∈ render params, b ≠ HASH := by
  induction params with
  | nil => exact fun b listed => absurd listed (List.not_mem_nil)
  | cons f rest ih =>
    have single : ∀ b ∈ f.1 ++ EQUALS :: f.2, b ≠ HASH := by
      intro b listed
      rcases List.mem_append.1 listed with inName | inRest
      · exact (plain f List.mem_cons_self b inName).2.2.2.2
      · rcases List.mem_cons.1 inRest with sign | inValue
        · rw [sign]
          decide
        · exact (contained f List.mem_cons_self b inValue).2
    cases rest with
    | nil => exact single
    | cons g rest =>
      intro b listed
      rw [render] at listed
      rcases List.mem_append.1 listed with front | behind
      · exact single b front
      · rcases List.mem_cons.1 behind with sign | inRest
        · rw [sign]
          decide
        · exact ih (fun other there => plain other (List.mem_cons_of_mem f there))
            (fun other there => contained other (List.mem_cons_of_mem f there)) b inRest

/-! ### The query of an extended URL -/

theorem queryFields_none (base : Bytes) (none' : QUESTION ∉ base) : queryFields base = [] := by
  have empty : (base.takeWhile (· ≠ HASH)).dropWhile (· ≠ QUESTION) = [] := by
    apply List.dropWhile_eq_nil_iff.2
    intro b listed
    exact decide_eq_true (fun same => none' (same ▸ (List.takeWhile_sublist _).mem listed))
  rw [queryFields, queryOf, empty]
  rfl

section
variable (base query : Bytes) (whole : ∀ b ∈ base, b ≠ HASH) (plainQuery : ∀ b ∈ query, b ≠ HASH)
include whole plainQuery

theorem takeWhile_no_hash (sign : UInt8) (other : sign ≠ HASH) :
    (base ++ sign :: query).takeWhile (· ≠ HASH) = base ++ sign :: query := by
  apply List.takeWhile_eq_self_iff.2
  intro b listed
  apply decide_eq_true
  rcases List.mem_append.1 listed with front | behind
  · exact whole b front
  · rcases List.mem_cons.1 behind with same | rest
    · rw [same]
      exact other
    · exact plainQuery b rest

theorem queryFields_first (none' : QUESTION ∉ base) :
    queryFields (base ++ QUESTION :: query) = fields query := by
  have front : ∀ b ∈ base, decide (b ≠ QUESTION) = true := by
    intro b listed
    exact decide_eq_true (fun same => none' (same ▸ listed))
  rw [queryFields, queryOf, takeWhile_no_hash base query whole plainQuery QUESTION (by decide),
    List.dropWhile_append_of_pos front, List.dropWhile_cons_of_neg (by decide)]
  rfl

theorem queryFields_more (some' : QUESTION ∈ base) :
    queryFields (base ++ AMPERSAND :: query) = queryFields base ++ fields query := by
  obtain ⟨front, own, split, fresh⟩ := List.eq_append_cons_of_mem some'
  have before : ∀ b ∈ front, decide (b ≠ QUESTION) = true := by
    intro b listed
    exact decide_eq_true (fun same => fresh (same ▸ listed))
  have alone : base.takeWhile (· ≠ HASH) = base := by
    apply List.takeWhile_eq_self_iff.2
    intro b listed
    exact decide_eq_true (whole b listed)
  have extended : queryOf (base ++ AMPERSAND :: query) = some (own ++ AMPERSAND :: query) := by
    rw [queryOf, takeWhile_no_hash base query whole plainQuery AMPERSAND (by decide), split,
      List.append_assoc, List.dropWhile_append_of_pos before, List.cons_append,
      List.dropWhile_cons_of_neg (by decide)]
  have self : queryOf base = some own := by
    rw [queryOf, alone, split, List.dropWhile_append_of_pos before,
      List.dropWhile_cons_of_neg (by decide)]
  rw [queryFields, queryFields, extended, self, Option.map_some, Option.map_some, Option.getD_some,
    Option.getD_some, fields_append]

end

end Seedchamp.Foundation.Query
