import Mathlib.Data.List.Basic
import Mathlib.Tactic.SplitIfs

/-!
Decoding of UTF-8 text: the well-formed byte sequences, without overlong forms, surrogates and code
points past U+10FFFF.
-/

namespace Seedchamp.Foundation.Utf8

def within (low high byte : UInt8) : Bool := low ≤ byte && byte ≤ high

def continuation (byte : UInt8) : Bool := within 0x80 0xBF byte

/-- The second byte of a three-byte sequence. -/
def second3 (lead byte : UInt8) : Bool :=
  if lead = 0xE0 then within 0xA0 0xBF byte
  else if lead = 0xED then within 0x80 0x9F byte
  else within 0xE1 0xEF lead && continuation byte

/-- The second byte of a four-byte sequence. -/
def second4 (lead byte : UInt8) : Bool :=
  if lead = 0xF0 then within 0x90 0xBF byte
  else if lead = 0xF4 then within 0x80 0x8F byte
  else within 0xF1 0xF3 lead && continuation byte

/-- The bits a continuation byte adds. -/
def extend (code : Nat) (byte : UInt8) : Nat := code * 64 + byte.toNat % 64

def decode : List UInt8 → Option (List Char)
  | [] => some []
  | lead :: rest =>
    if lead < 0x80 then (decode rest).map (Char.ofNat lead.toNat :: ·)
    else
      match rest with
      | [] => none
      | b1 :: rest =>
        if within 0xC2 0xDF lead && continuation b1 then
          (decode rest).map (Char.ofNat (extend (lead.toNat % 32) b1) :: ·)
        else
          match rest with
          | [] => none
          | b2 :: rest =>
            if second3 lead b1 && continuation b2 then
              (decode rest).map (Char.ofNat (extend (extend (lead.toNat % 16) b1) b2) :: ·)
            else
              match rest with
              | [] => none
              | b3 :: rest =>
                if second4 lead b1 && continuation b2 && continuation b3 then
                  (decode rest).map
                    (Char.ofNat (extend (extend (extend (lead.toNat % 8) b1) b2) b3) :: ·)
                else none

/-- Stands for bytes that are not UTF-8. -/
def replacement : Char := Char.ofNat 0xFFFD

/-- `String::from_utf8_lossy`: what no continuation of the text could complete is replaced, as far as
it is the start of a character at once and otherwise byte by byte. -/
def fromUtf8Lossy : List UInt8 → List Char
  | [] => []
  | lead :: rest =>
    if lead < 0x80 then Char.ofNat lead.toNat :: fromUtf8Lossy rest
    else
      match rest with
      | [] => [replacement]
      | b1 :: rest =>
        if within 0xC2 0xDF lead && continuation b1 then
          Char.ofNat (extend (lead.toNat % 32) b1) :: fromUtf8Lossy rest
        else if second3 lead b1 then
          match rest with
          | [] => [replacement]
          | b2 :: rest =>
            if continuation b2 then
              Char.ofNat (extend (extend (lead.toNat % 16) b1) b2) :: fromUtf8Lossy rest
            else replacement :: fromUtf8Lossy (b2 :: rest)
        else if second4 lead b1 then
          match rest with
          | [] => [replacement]
          | b2 :: rest =>
            if continuation b2 then
              match rest with
              | [] => [replacement]
              | b3 :: rest =>
                if continuation b3 then
                  Char.ofNat (extend (extend (extend (lead.toNat % 8) b1) b2) b3) ::
                    fromUtf8Lossy rest
                else replacement :: fromUtf8Lossy (b3 :: rest)
            else replacement :: fromUtf8Lossy (b2 :: rest)
        else replacement :: fromUtf8Lossy (b1 :: rest)

/-- ASCII is read byte by byte. -/
theorem decode_ascii (text : List UInt8) (ascii : ∀ byte ∈ text, byte < 0x80) :
    decode text = some (text.map (fun byte => Char.ofNat byte.toNat)) := by
  induction text with
  | nil => rfl
  | cons byte rest ih =>
    rw [decode.eq_def]
    dsimp only
    rw [if_pos (ascii byte List.mem_cons_self),
      ih (fun other member => ascii other (List.mem_cons_of_mem _ member))]
    rfl

/-- No lead byte begins both a three-byte and a four-byte sequence. -/
theorem second4_of_second3 (lead byte : UInt8) (three : second3 lead byte = true) :
    second4 lead byte = false := by
  have lead_lt : lead < 0xF0 := by
    rw [second3] at three
    split_ifs at three with first last
    · subst first
      decide
    · subst last
      decide
    · simp only [within, Bool.and_eq_true, decide_eq_true_eq, UInt8.le_iff_toNat_le] at three
      rw [UInt8.lt_iff_toNat_lt]
      exact Nat.lt_succ_of_le three.1.2
  rw [UInt8.lt_iff_toNat_lt] at lead_lt
  rw [second4, if_neg (fun same => by rw [same] at lead_lt; exact absurd lead_lt (by decide)),
    if_neg (fun same => by rw [same] at lead_lt; exact absurd lead_lt (by decide))]
  have outside : within 0xF1 0xF3 lead = false := by
    rw [within, decide_eq_false (fun low => ?_), Bool.false_and]
    rw [UInt8.le_iff_toNat_le] at low
    exact absurd (Nat.lt_of_le_of_lt low lead_lt) (by decide)
  rw [outside, Bool.false_and]

/-! ### Encoding -/

/-- The bytes of a text. -/
def encode (text : List Char) : List UInt8 := text.flatMap String.utf8EncodeChar

theorem within_iff (low high byte : UInt8) :
    within low high byte = true ↔ low.toNat ≤ byte.toNat ∧ byte.toNat ≤ high.toNat := by
  rw [within, Bool.and_eq_true, decide_eq_true_eq, decide_eq_true_eq, UInt8.le_iff_toNat_le,
    UInt8.le_iff_toNat_le]

theorem toNat_small (n : Nat) (small : n < 256) : (UInt8.ofNat n).toNat = n := by
  rw [UInt8.toNat_ofNat', Nat.mod_eq_of_lt small]

/-- The byte of six bits behind a lead. -/
theorem tail_byte (n : Nat) : (UInt8.ofNat (n % 64 + 128)).toNat = n % 64 + 128 :=
  toNat_small _ (by omega)

theorem continuation_tail (n : Nat) : continuation (UInt8.ofNat (n % 64 + 128)) = true := by
  rw [continuation, within_iff, tail_byte]
  change 128 ≤ n % 64 + 128 ∧ n % 64 + 128 ≤ 191
  omega

theorem extend_tail (code n : Nat) : extend code (UInt8.ofNat (n % 64 + 128)) = code * 64 + n % 64 := by
  rw [extend, tail_byte]
  omega

theorem not_ascii (byte : UInt8) (high : 128 ≤ byte.toNat) : ¬ byte < 0x80 := by
  rw [UInt8.lt_iff_toNat_lt]
  exact Nat.not_lt.2 high

theorem decode_two (n : Nat) (low : 0x7F < n) (high : n ≤ 0x7FF) (rest : List UInt8) :
    decode (UInt8.ofNat (n / 64 % 32 + 192) :: UInt8.ofNat (n % 64 + 128) :: rest) =
      (decode rest).map (Char.ofNat n :: ·) := by
  have lead := toNat_small (n / 64 % 32 + 192) (by omega)
  have two : within 0xC2 0xDF (UInt8.ofNat (n / 64 % 32 + 192)) = true := by
    rw [within_iff, lead]
    change 194 ≤ n / 64 % 32 + 192 ∧ n / 64 % 32 + 192 ≤ 223
    omega
  have code : (n / 64 % 32 + 192) % 32 * 64 + n % 64 = n := by omega
  rw [decode.eq_def]
  dsimp only
  rw [if_neg (not_ascii _ (by rw [lead]; omega)), if_pos (by rw [two, continuation_tail, Bool.and_self]),
    extend_tail, lead, code]

theorem decode_three (n : Nat) (low : 0x7FF < n) (high : n ≤ 0xFFFF) (plain : n < 0xD800 ∨ 0xDFFF < n)
    (rest : List UInt8) :
    decode (UInt8.ofNat (n / 4096 % 16 + 224) :: UInt8.ofNat (n / 64 % 64 + 128) ::
      UInt8.ofNat (n % 64 + 128) :: rest) = (decode rest).map (Char.ofNat n :: ·) := by
  have lead := toNat_small (n / 4096 % 16 + 224) (by omega)
  have two : ¬ (within 0xC2 0xDF (UInt8.ofNat (n / 4096 % 16 + 224)) &&
      continuation (UInt8.ofNat (n / 64 % 64 + 128))) = true := by
    rw [Bool.and_eq_true, within_iff, lead]
    change ¬ ((194 ≤ n / 4096 % 16 + 224 ∧ n / 4096 % 16 + 224 ≤ 223) ∧ _)
    omega
  have three : second3 (UInt8.ofNat (n / 4096 % 16 + 224)) (UInt8.ofNat (n / 64 % 64 + 128)) = true := by
    rw [second3]
    split_ifs with first last
    · have same := congrArg UInt8.toNat first
      rw [lead] at same
      change n / 4096 % 16 + 224 = 224 at same
      rw [within_iff, tail_byte]
      change 160 ≤ n / 64 % 64 + 128 ∧ n / 64 % 64 + 128 ≤ 191
      omega
    · have same := congrArg UInt8.toNat last
      rw [lead] at same
      change n / 4096 % 16 + 224 = 237 at same
      rw [within_iff, tail_byte]
      change 128 ≤ n / 64 % 64 + 128 ∧ n / 64 % 64 + 128 ≤ 159
      omega
    · have other : n / 4096 % 16 + 224 ≠ 224 := by
        intro same
        rw [same] at first
        exact first rfl
      rw [continuation_tail, Bool.and_true, within_iff, lead]
      change 225 ≤ n / 4096 % 16 + 224 ∧ n / 4096 % 16 + 224 ≤ 239
      omega
  have code : ((n / 4096 % 16 + 224) % 16 * 64 + n / 64 % 64) * 64 + n % 64 = n := by omega
  rw [decode.eq_def]
  dsimp only
  rw [if_neg (not_ascii _ (by rw [lead]; omega)), if_neg two,
    if_pos (by rw [three, continuation_tail, Bool.and_self]), extend_tail, extend_tail, lead, code]

theorem decode_four (n : Nat) (low : 0xFFFF < n) (high : n ≤ 0x10FFFF) (rest : List UInt8) :
    decode (UInt8.ofNat (n / 262144 % 8 + 240) :: UInt8.ofNat (n / 4096 % 64 + 128) ::
      UInt8.ofNat (n / 64 % 64 + 128) :: UInt8.ofNat (n % 64 + 128) :: rest) =
      (decode rest).map (Char.ofNat n :: ·) := by
  have lead := toNat_small (n / 262144 % 8 + 240) (by omega)
  have two : ¬ (within 0xC2 0xDF (UInt8.ofNat (n / 262144 % 8 + 240)) &&
      continuation (UInt8.ofNat (n / 4096 % 64 + 128))) = true := by
    rw [Bool.and_eq_true, within_iff, lead]
    change ¬ ((194 ≤ n / 262144 % 8 + 240 ∧ n / 262144 % 8 + 240 ≤ 223) ∧ _)
    omega
  have four : second4 (UInt8.ofNat (n / 262144 % 8 + 240)) (UInt8.ofNat (n / 4096 % 64 + 128)) = true := by
    rw [second4]
    split_ifs with first last
    · have same := congrArg UInt8.toNat first
      rw [lead] at same
      change n / 262144 % 8 + 240 = 240 at same
      rw [within_iff, tail_byte]
      change 144 ≤ n / 4096 % 64 + 128 ∧ n / 4096 % 64 + 128 ≤ 191
      omega
    · have same := congrArg UInt8.toNat last
      rw [lead] at same
      change n / 262144 % 8 + 240 = 244 at same
      rw [within_iff, tail_byte]
      change 128 ≤ n / 4096 % 64 + 128 ∧ n / 4096 % 64 + 128 ≤ 143
      omega
    · have other : n / 262144 % 8 + 240 ≠ 240 := by
        intro same
        rw [same] at first
        exact first rfl
      have other' : n / 262144 % 8 + 240 ≠ 244 := by
        intro same
        rw [same] at last
        exact last rfl
      rw [continuation_tail, Bool.and_true, within_iff, lead]
      change 241 ≤ n / 262144 % 8 + 240 ∧ n / 262144 % 8 + 240 ≤ 243
      omega
  have three : ¬ (second3 (UInt8.ofNat (n / 262144 % 8 + 240)) (UInt8.ofNat (n / 4096 % 64 + 128)) &&
      continuation (UInt8.ofNat (n / 64 % 64 + 128))) = true := by
    intro both
    have clash := second4_of_second3 _ _ (Bool.and_eq_true_iff.1 both).1
    rw [four] at clash
    cases clash
  have code : (((n / 262144 % 8 + 240) % 8 * 64 + n / 4096 % 64) * 64 + n / 64 % 64) * 64 + n % 64 = n := by
    omega
  rw [decode.eq_def]
  dsimp only
  rw [if_neg (not_ascii _ (by rw [lead]; omega)), if_neg two, if_neg three,
    if_pos (by rw [four, continuation_tail, continuation_tail, Bool.and_self, Bool.and_self]),
    extend_tail, extend_tail, extend_tail, lead, code]

theorem decode_encodeChar (c : Char) (rest : List UInt8) :
    decode (String.utf8EncodeChar c ++ rest) = (decode rest).map (c :: ·) := by
  have valid : c.toNat < 0xD800 ∨ 0xDFFF < c.toNat ∧ c.toNat < 0x110000 := c.valid
  have named : c.val.toNat = c.toNat := rfl
  rw [String.utf8EncodeChar, named]
  conv_rhs => rw [← Char.ofNat_toNat c]
  split_ifs with one two three
  · have ascii : UInt8.ofNat c.toNat < 0x80 := by
      rw [UInt8.lt_iff_toNat_lt, toNat_small _ (by omega)]
      exact Nat.lt_succ_of_le one
    rw [List.singleton_append, decode.eq_def]
    dsimp only
    rw [if_pos ascii, toNat_small _ (by omega)]
  · exact decode_two c.toNat (by omega) two rest
  · exact decode_three c.toNat (by omega) three (by omega) rest
  · exact decode_four c.toNat (by omega) (by omega) rest

/-- A text is read back from its bytes. -/
theorem decode_encode (text : List Char) : decode (encode text) = some text := by
  induction text with
  | nil => rfl
  | cons c rest ih =>
    rw [encode, List.flatMap_cons, decode_encodeChar]
    rw [encode] at ih
    rw [ih, Option.map_some]

end Seedchamp.Foundation.Utf8
