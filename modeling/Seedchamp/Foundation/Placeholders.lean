import Mathlib.Data.List.Infix
import Mathlib.Algebra.Group.Nat.Defs
import Mathlib.Algebra.GroupWithZero.Nat

/-!
Placeholders in a text: the text read from the left as characters and placeholders, values put in
for all placeholders at once, and one placeholder replaced after the other.
-/

namespace Seedchamp.Foundation.Placeholders

inductive Token (α κ : Type) where
  | char (c : α)
  | key (k : κ)
  deriving DecidableEq

variable {α κ : Type}

def Token.text (value : κ → List α) : Token α κ → List α
  | .char c => [c]
  | .key k => value k

/-- The text with a value for each placeholder. -/
def fill (value : κ → List α) (tokens : List (Token α κ)) : List α := tokens.flatMap (Token.text value)

theorem fill_cons (value : κ → List α) (token : Token α κ) (rest : List (Token α κ)) :
    fill value (token :: rest) = token.text value ++ fill value rest := rfl

theorem fill_append (value : κ → List α) (front back : List (Token α κ)) :
    fill value (front ++ back) = fill value front ++ fill value back := List.flatMap_append

theorem fill_chars (value : κ → List α) (text : List α) : fill value (text.map Token.char) = text := by
  induction text with
  | nil => rfl
  | cons c rest ih =>
    rw [List.map_cons, fill_cons, ih]
    rfl

theorem fill_congr (value value' : κ → List α) (tokens : List (Token α κ))
    (same : ∀ k, .key k ∈ tokens → value k = value' k) : fill value tokens = fill value' tokens := by
  induction tokens with
  | nil => rfl
  | cons token rest ih =>
    rw [fill_cons, fill_cons, ih (fun k member => same k (List.mem_cons_of_mem _ member))]
    cases token with
    | char c => rfl
    | key k =>
      rw [Token.text, Token.text, same k List.mem_cons_self]

/-- Values of the same lengths give the same text only where they are the same. -/
theorem fill_inj (value value' : κ → List α) (tokens : List (Token α κ))
    (lengths : ∀ k, (value k).length = (value' k).length) (same : fill value tokens = fill value' tokens) (k : κ)
    (member : .key k ∈ tokens) : value k = value' k := by
  induction tokens with
  | nil => cases member
  | cons token rest ih =>
    rw [fill_cons, fill_cons] at same
    have heads : (token.text value).length = (token.text value').length := by
      cases token with
      | char c => rfl
      | key j => exact lengths j
    obtain ⟨first, others⟩ := List.append_inj same heads
    rcases List.mem_cons.1 member with here | later
    · rw [← here] at first
      exact first
    · exact ih others later

section Counting
variable [DecidableEq α] [DecidableEq κ] (value value' : κ → List α) (k : κ)
  (same : ∀ j, j ≠ k → value' j = value j)
include same

/-- What another value for one placeholder does to the number of certain characters. -/
theorem countP_fill (test : α → Bool) (tokens : List (Token α κ)) :
    (fill value' tokens).countP test + tokens.count (.key k) * (value k).countP test =
      (fill value tokens).countP test + tokens.count (.key k) * (value' k).countP test := by
  induction tokens with
  | nil => rw [List.count_nil, Nat.zero_mul, Nat.zero_mul, fill, fill, List.flatMap_nil, List.flatMap_nil]
  | cons token rest ih =>
    rw [fill_cons, fill_cons, List.countP_append, List.countP_append]
    by_cases here : token = .key k
    · rw [here, List.count_cons_self, Token.text, Token.text, Nat.add_mul, Nat.add_mul]
      omega
    · have equal : token.text value' = token.text value := by
        cases token with
        | char c => rfl
        | key j => exact same j (fun clash => here (congrArg Token.key clash))
      rw [equal, List.count_cons_of_ne here]
      omega

end Counting

section Reading
variable [DecidableEq α]

/-- Reads from the left, past the first characters; the first key whose pattern is next is taken. -/
def parse (keys : List κ) (pattern : κ → List α) : Nat → List α → List (Token α κ)
  | _, [] => []
  | skip + 1, _ :: rest => parse keys pattern skip rest
  | 0, c :: rest =>
    match keys.find? (fun k => decide (pattern k <+: c :: rest)) with
    | some k => .key k :: parse keys pattern ((pattern k).length - 1) rest
    | none => .char c :: parse keys pattern 0 rest

/-- The text read for one pattern. -/
def marks (pattern text : List α) : List (Token α Unit) := parse [()] (fun _ => pattern) 0 text

/-- `str::replace`, for a pattern that is not empty. -/
def replace (pattern value text : List α) : List α := fill (fun _ => value) (marks pattern text)

/-- How often `str::replace` finds the pattern. -/
def occurrences (pattern text : List α) : Nat := (marks pattern text).count (.key ())

section
variable (keys : List κ) (pattern : κ → List α)

theorem parse_skip (skip : Nat) (text : List α) : parse keys pattern skip text = parse keys pattern 0 (text.drop skip) := by
  induction text generalizing skip with
  | nil => rw [List.drop_nil, parse, parse]
  | cons c rest ih =>
    cases skip with
    | zero => rfl
    | succ skip =>
      rw [parse, List.drop_succ_cons]
      exact ih skip

theorem parse_key (k : κ) (c : α) (rest : List α)
    (found : keys.find? (fun k => decide (pattern k <+: c :: rest)) = some k) :
    ∃ rest', c :: rest = pattern k ++ rest' ∧
      (pattern k ≠ [] → parse keys pattern 0 (c :: rest) = .key k :: parse keys pattern 0 rest') := by
  have next := List.find?_some found
  obtain ⟨rest', same⟩ : pattern k <+: c :: rest := of_decide_eq_true next
  refine ⟨rest', same.symm, fun nonempty => ?_⟩
  rw [parse, found]
  dsimp only
  rw [parse_skip]
  congr 1
  cases shape : pattern k with
  | nil => exact absurd shape nonempty
  | cons first body =>
    rw [shape, List.cons_append, List.cons.injEq] at same
    rw [← same.2, List.length_cons, Nat.add_sub_cancel, List.drop_left]

theorem parse_char (c : α) (rest : List α) (absent : ∀ k ∈ keys, ¬pattern k <+: c :: rest) :
    parse keys pattern 0 (c :: rest) = .char c :: parse keys pattern 0 rest := by
  have none : keys.find? (fun k => decide (pattern k <+: c :: rest)) = none := by
    rw [List.find?_eq_none]
    intro k member found
    exact absent k member (of_decide_eq_true found)
  rw [parse, none]

/-- Induction along the reading: a placeholder or a character, and what comes after it. -/
theorem parse_induction (nonempty : ∀ k, pattern k ≠ []) (P : List α → List (Token α κ) → Prop)
    (empty : P [] [])
    (char : ∀ c rest, (∀ k ∈ keys, ¬pattern k <+: c :: rest) → P rest (parse keys pattern 0 rest) →
      P (c :: rest) (.char c :: parse keys pattern 0 rest))
    (key : ∀ k ∈ keys, ∀ rest, P rest (parse keys pattern 0 rest) →
      P (pattern k ++ rest) (.key k :: parse keys pattern 0 rest))
    (text : List α) : P text (parse keys pattern 0 text) := by
  induction size : text.length using Nat.strong_induction_on generalizing text with
  | _ size ih =>
    cases text with
    | nil =>
      rw [parse]
      exact empty
    | cons c rest =>
      cases found : keys.find? (fun k => decide (pattern k <+: c :: rest)) with
      | none =>
        have absent : ∀ k ∈ keys, ¬pattern k <+: c :: rest := by
          intro k member inside
          exact List.find?_eq_none.1 found k member (decide_eq_true inside)
        rw [parse_char keys pattern c rest absent]
        exact char c rest absent (ih rest.length (by rw [← size]; exact Nat.lt_succ_self _) rest rfl)
      | some k =>
        obtain ⟨rest', same, step⟩ := parse_key keys pattern k c rest found
        rw [step (nonempty k), same]
        refine key k (List.mem_of_find?_eq_some found) rest' (ih rest'.length ?_ rest' rfl)
        have long := List.length_pos_iff.2 (nonempty k)
        rw [← size, same, List.length_append]
        omega

/-- Reading and writing back gives the text. -/
theorem fill_parse (nonempty : ∀ k, pattern k ≠ []) (text : List α) :
    fill pattern (parse keys pattern 0 text) = text := by
  refine parse_induction keys pattern nonempty (fun text tokens => fill pattern tokens = text) rfl ?_ ?_ text
  · intro c rest _ ih
    rw [fill_cons, ih]
    rfl
  · intro k _ rest ih
    rw [fill_cons, ih]
    rfl

end

/-! ### One pattern -/

section One
variable (pattern : List α)

theorem marks_nil : marks pattern [] = [] := by rw [marks, parse]

theorem marks_char (c : α) (rest : List α) (absent : ¬pattern <+: c :: rest) :
    marks pattern (c :: rest) = .char c :: marks pattern rest :=
  parse_char [()] (fun _ => pattern) c rest (fun _ _ => absent)

theorem marks_pattern (nonempty : pattern ≠ []) (rest : List α) :
    marks pattern (pattern ++ rest) = .key () :: marks pattern rest := by
  cases shape : pattern with
  | nil => exact absurd shape nonempty
  | cons first body =>
    have next : decide (first :: body <+: first :: (body ++ rest)) = true :=
      decide_eq_true (List.prefix_append (first :: body) rest)
    rw [List.cons_append, marks, parse, List.find?_cons, next]
    dsimp only
    rw [parse_skip, List.length_cons, Nat.add_sub_cancel, List.drop_left]
    rfl

theorem occurrences_nil : occurrences pattern [] = 0 := by
  rw [occurrences, marks_nil]
  rfl

theorem occurrences_char (c : α) (rest : List α) (absent : ¬pattern <+: c :: rest) :
    occurrences pattern (c :: rest) = occurrences pattern rest := by
  rw [occurrences, marks_char pattern c rest absent, List.count_cons_of_ne (fun clash => by cases clash)]
  rfl

theorem occurrences_pattern (nonempty : pattern ≠ []) (rest : List α) :
    occurrences pattern (pattern ++ rest) = occurrences pattern rest + 1 := by
  rw [occurrences, marks_pattern pattern nonempty, List.count_cons_self]
  rfl

theorem marks_induction (nonempty : pattern ≠ []) (P : List α → List (Token α Unit) → Prop)
    (empty : P [] [])
    (char : ∀ c rest, ¬pattern <+: c :: rest → P rest (marks pattern rest) →
      P (c :: rest) (.char c :: marks pattern rest))
    (key : ∀ rest, P rest (marks pattern rest) → P (pattern ++ rest) (.key () :: marks pattern rest))
    (text : List α) : P text (marks pattern text) :=
  parse_induction [()] (fun _ => pattern) (fun _ => nonempty) P empty
    (fun c rest absent => char c rest (absent () List.mem_cons_self)) (fun _ _ rest => key rest) text

theorem fill_marks (nonempty : pattern ≠ []) (text : List α) : fill (fun _ => pattern) (marks pattern text) = text :=
  fill_parse [()] (fun _ => pattern) (fun _ => nonempty) text

theorem replace_self (nonempty : pattern ≠ []) (text : List α) : replace pattern pattern text = text :=
  fill_marks pattern nonempty text

end One

/-- What is not found is not replaced. -/
theorem replace_absent (pattern value text : List α) (nonempty : pattern ≠ []) (absent : occurrences pattern text = 0) :
    replace pattern value text = text := by
  have none := List.count_eq_zero.1 absent
  calc
    replace pattern value text = fill (fun _ => pattern) (marks pattern text) :=
      fill_congr _ _ _ (fun k member => absurd member (by cases k; exact none))
    _ = text := fill_marks pattern nonempty text

/-- A value of the pattern's length that changes nothing is the pattern. -/
theorem replace_fixed (pattern value text : List α) (nonempty : pattern ≠ []) (lengths : value.length = pattern.length)
    (different : value ≠ pattern) (fixed : replace pattern value text = text) : occurrences pattern text = 0 := by
  refine List.count_eq_zero.2 (fun member => different ?_)
  exact fill_inj (fun _ => value) (fun _ => pattern) (marks pattern text) (fun _ => lengths)
    (fixed.trans (fill_marks pattern nonempty text).symm) () member

theorem countP_replace (pattern value text : List α) (nonempty : pattern ≠ []) (test : α → Bool) :
    (replace pattern value text).countP test + occurrences pattern text * pattern.countP test =
      text.countP test + occurrences pattern text * value.countP test := by
  have counted := countP_fill (fun _ : Unit => pattern) (fun _ => value) () (fun _ different => absurd rfl different)
    test (marks pattern text)
  rw [fill_marks pattern nonempty text] at counted
  exact counted

/-! ### Patterns with an opening mark -/

/-- The pattern begins with a mark that does not come again in it. -/
def Opens (opening : α) (pattern : List α) : Prop := ∃ body, pattern = opening :: body ∧ opening ∉ body

section Opened
variable (opening : α) (pattern : List α) (opens : Opens opening pattern)
include opens

omit [DecidableEq α] in
theorem opens_ne_nil : pattern ≠ [] := by
  obtain ⟨body, rfl, -⟩ := opens
  exact List.cons_ne_nil _ _

/-- Without the mark there is no placeholder. -/
theorem marks_unopened (front rest : List α) (absent : opening ∉ front) :
    marks pattern (front ++ rest) = front.map .char ++ marks pattern rest := by
  induction front with
  | nil => rfl
  | cons c front ih =>
    rw [List.mem_cons, not_or] at absent
    have different : ¬pattern <+: c :: (front ++ rest) := by
      obtain ⟨body, rfl, -⟩ := opens
      intro next
      exact absent.1 (List.cons_prefix_cons.1 next).1
    rw [List.cons_append, marks_char pattern c _ different, ih absent.2]
    rfl

theorem occurrences_unopened (front rest : List α) (absent : opening ∉ front) :
    occurrences pattern (front ++ rest) = occurrences pattern rest := by
  induction front with
  | nil => rfl
  | cons c front ih =>
    rw [List.mem_cons, not_or] at absent
    have different : ¬pattern <+: c :: (front ++ rest) := by
      obtain ⟨body, rfl, -⟩ := opens
      intro next
      exact absent.1 (List.cons_prefix_cons.1 next).1
    rw [List.cons_append, occurrences_char pattern c _ different, ih absent.2]

/-- Another opened pattern is passed over. -/
theorem marks_other (other rest : List α) (opens' : Opens opening other) (longer : ¬pattern <+: other)
    (shorter : ¬other <+: pattern) : marks pattern (other ++ rest) = other.map .char ++ marks pattern rest := by
  obtain ⟨body, rfl, single⟩ := opens'
  have different : ¬pattern <+: opening :: (body ++ rest) := by
    intro next
    rcases List.prefix_or_prefix_of_prefix next (List.prefix_append (opening :: body) rest) with inside | outside
    · exact longer inside
    · exact shorter outside
  rw [List.cons_append, marks_char pattern opening _ different, marks_unopened opening pattern opens body rest single]
  rfl

/-- No placeholder reaches into a text that begins with the mark. -/
theorem marks_append (front rest : List α) (starts : rest.head? = some opening) :
    marks pattern (front ++ rest) = marks pattern front ++ marks pattern rest := by
  refine marks_induction pattern (opens_ne_nil opening pattern opens)
    (fun front tokens => marks pattern (front ++ rest) = tokens ++ marks pattern rest) rfl ?_ ?_ front
  · intro c front absent ih
    have different : ¬pattern <+: c :: (front ++ rest) := by
      intro next
      rcases List.prefix_or_prefix_of_prefix next (List.prefix_append (c :: front) rest) with inside | outside
      · exact absent inside
      · obtain ⟨left, same⟩ := outside
        obtain ⟨more, whole⟩ := next
        obtain ⟨body, shape, single⟩ := opens
        rw [← same, List.append_assoc] at whole
        have tail : left ++ more = rest := (List.append_right_inj (c :: front)).1 whole
        cases left with
        | nil => exact absent ⟨[], by rw [← same, List.append_nil, List.append_nil]⟩
        | cons first left =>
          rw [← tail, List.cons_append, List.head?_cons, Option.some.injEq] at starts
          rw [shape, List.cons_append, List.cons.injEq] at same
          exact single (by rw [← same.2, starts]; simp)
    rw [List.cons_append, marks_char pattern c _ different, ih]
    rfl
  · intro front ih
    rw [List.append_assoc, marks_pattern pattern (opens_ne_nil opening pattern opens), ih]
    rfl

/-- A placeholder that reaches over the end of a text is in neither part. -/
theorem occurrences_across (c : α) (front rest : List α) (absent : ¬pattern <+: c :: front)
    (next : pattern <+: c :: (front ++ rest)) :
    occurrences pattern (c :: front) + occurrences pattern rest < occurrences pattern (c :: (front ++ rest)) := by
  have nonempty := opens_ne_nil opening pattern opens
  rcases List.prefix_or_prefix_of_prefix next (List.prefix_append (c :: front) rest) with inside | outside
  · exact absurd inside absent
  · obtain ⟨left, same⟩ := outside
    obtain ⟨more, whole⟩ := next
    have tail : left ++ more = rest := by
      rw [← same, List.append_assoc] at whole
      exact (List.append_right_inj (c :: front)).1 whole
    have single : opening ∉ front ++ left := by
      obtain ⟨body, shape, single⟩ := opens
      rw [shape, List.cons_append, List.cons.injEq] at same
      rw [same.2]
      exact single
    rw [List.mem_append, not_or] at single
    have alone := occurrences_unopened opening pattern opens front [] single.1
    rw [List.append_nil, occurrences_nil] at alone
    rw [occurrences_char pattern c front absent, alone, ← whole, occurrences_pattern pattern nonempty, ← tail,
      occurrences_unopened opening pattern opens left more single.2]
    omega

/-- A text is read in two parts, or more is found in it than in the parts. -/
theorem marks_split (front rest : List α) :
    marks pattern (front ++ rest) = marks pattern front ++ marks pattern rest ∨
      occurrences pattern front + occurrences pattern rest < occurrences pattern (front ++ rest) := by
  have nonempty := opens_ne_nil opening pattern opens
  refine marks_induction pattern nonempty
    (fun front tokens => marks pattern (front ++ rest) = tokens ++ marks pattern rest ∨
      occurrences pattern front + occurrences pattern rest < occurrences pattern (front ++ rest)) (Or.inl rfl) ?_ ?_ front
  · intro c front absent ih
    by_cases next : pattern <+: c :: (front ++ rest)
    · exact Or.inr (occurrences_across opening pattern opens c front rest absent next)
    · rw [List.cons_append, marks_char pattern c _ next, occurrences_char pattern c _ next,
        occurrences_char pattern c _ absent]
      exact ih.imp_left (congrArg (List.cons (Token.char c)))
  · intro front ih
    rw [List.append_assoc, marks_pattern pattern nonempty, occurrences_pattern pattern nonempty,
      occurrences_pattern pattern nonempty]
    rcases ih with split | more
    · left
      rw [split]
      rfl
    · right
      omega

theorem occurrences_append_le (front rest : List α) :
    occurrences pattern front + occurrences pattern rest ≤ occurrences pattern (front ++ rest) := by
  rcases marks_split opening pattern opens front rest with split | more
  · rw [occurrences, occurrences, occurrences, split, List.count_append]
  · exact Nat.le_of_lt more

theorem replace_append (value front rest : List α)
    (sum : occurrences pattern (front ++ rest) = occurrences pattern front + occurrences pattern rest) :
    replace pattern value (front ++ rest) = replace pattern value front ++ replace pattern value rest := by
  rcases marks_split opening pattern opens front rest with split | more
  · rw [replace, split, fill_append]
    rfl
  · omega

section Tokens
variable {κ : Type} [DecidableEq κ] (value value' : κ → List α) (k : κ) (own : value k = pattern)
  (same : ∀ j, j ≠ k → value' j = value j)
include own

/-- The placeholders of a token list are found in its text. -/
theorem count_le_occurrences (tokens : List (Token α κ)) :
    tokens.count (.key k) ≤ occurrences pattern (fill value tokens) := by
  induction tokens with
  | nil => exact Nat.zero_le _
  | cons token rest ih =>
    have parts := occurrences_append_le opening pattern opens (token.text value) (fill value rest)
    rw [fill_cons]
    by_cases here : token = .key k
    · rw [here, List.count_cons_self]
      have one := occurrences_pattern pattern (opens_ne_nil opening pattern opens) []
      rw [List.append_nil, occurrences_nil] at one
      rw [here, Token.text, own, one] at parts
      rw [Token.text, own]
      omega
    · rw [List.count_cons_of_ne here]
      omega

include same

/-- Where no other is found, the replacement puts the value in for the placeholder. -/
theorem replace_fill (tokens : List (Token α κ))
    (only : occurrences pattern (fill value tokens) = tokens.count (.key k)) :
    replace pattern (value' k) (fill value tokens) = fill value' tokens := by
  have nonempty := opens_ne_nil opening pattern opens
  induction tokens with
  | nil => exact replace_absent pattern (value' k) [] nonempty (occurrences_nil pattern)
  | cons token rest ih =>
    have parts := occurrences_append_le opening pattern opens (token.text value) (fill value rest)
    have later := count_le_occurrences opening pattern opens value k own rest
    rw [fill_cons] at only ⊢
    by_cases here : token = .key k
    · have one := occurrences_pattern pattern nonempty []
      rw [List.append_nil, occurrences_nil] at one
      rw [here, List.count_cons_self, Token.text, own] at only
      rw [here, Token.text, own, one] at parts
      rw [here, Token.text, own, replace_append opening pattern opens _ _ _ (by omega), ih (by omega), fill_cons]
      congr 1
      have alone := marks_pattern pattern nonempty []
      rw [List.append_nil, marks_nil] at alone
      rw [replace, alone, fill_cons]
      exact List.append_nil _
    · rw [List.count_cons_of_ne here] at only
      have equal : token.text value' = token.text value := by
        cases token with
        | char c => rfl
        | key j => exact same j (fun clash => here (congrArg Token.key clash))
      rw [replace_append opening pattern opens _ _ _ (by omega), ih (by omega), fill_cons, equal,
        replace_absent pattern _ (token.text value) nonempty (by omega)]

/-- A value of the pattern's length can hide other places only where it is the pattern. -/
theorem replace_fill_fixed (lengths : (value' k).length = pattern.length) (different : value' k ≠ pattern)
    (front : List α) (tokens : List (Token α κ))
    (fixed : replace pattern (value' k) (front ++ fill value tokens) = front ++ fill value' tokens) :
    occurrences pattern (front ++ fill value tokens) = tokens.count (.key k) := by
  have nonempty := opens_ne_nil opening pattern opens
  induction tokens generalizing front with
  | nil => exact replace_fixed pattern (value' k) _ nonempty lengths different fixed
  | cons token rest ih =>
    by_cases here : token = .key k
    · have starts : (pattern ++ fill value rest).head? = some opening := by
        obtain ⟨body, rfl, -⟩ := opens
        rfl
      have read := marks_append opening pattern opens front (pattern ++ fill value rest) starts
      rw [marks_pattern pattern nonempty] at read
      rw [here, fill_cons, fill_cons, Token.text, Token.text, own, replace, read, fill_append, fill_cons] at fixed
      have size : (replace pattern (value' k) front).length = front.length := by
        have counted := countP_replace pattern (value' k) front nonempty (fun _ => true)
        simp only [List.countP_true, lengths] at counted
        omega
      obtain ⟨first, others⟩ := List.append_inj fixed size
      have later := ih [] (List.append_cancel_left others)
      rw [List.nil_append] at later
      rw [here, fill_cons, Token.text, own, occurrences, read, List.count_append, List.count_cons_self,
        List.count_cons_self]
      have before := replace_fixed pattern (value' k) front nonempty lengths different first
      rw [occurrences] at before later
      omega
    · have equal : token.text value' = token.text value := by
        cases token with
        | char c => rfl
        | key j => exact same j (fun clash => here (congrArg Token.key clash))
      rw [fill_cons, fill_cons, equal, ← List.append_assoc, ← List.append_assoc] at fixed
      rw [fill_cons, ← List.append_assoc, List.count_cons_of_ne here]
      exact ih _ fixed

end Tokens

end Opened

/-! ### Texts whose values cannot be read as placeholders -/

/-- Each pattern begins with one mark and ends with another, and none begins with another. -/
structure Family (opening closing : α) (pattern : κ → List α) : Prop where
  opens : ∀ k, Opens opening (pattern k)
  closes : ∀ k, (pattern k).getLast? = some closing
  apart : ∀ j k, pattern j <+: pattern k → j = k

/-- A value without marks, and in no pattern. -/
structure Inert (opening closing : α) (pattern : κ → List α) (value : List α) : Prop where
  unopened : opening ∉ value
  unclosed : closing ∉ value
  outside : ∀ k, ¬value <:+: pattern k

omit [DecidableEq α] in
/-- A value of special characters, of which every pattern has fewer. -/
theorem inert_of_test (opening closing : α) (pattern : κ → List α) (value : List α) (test : α → Bool)
    (special : ∀ c ∈ value, test c = true) (unopened : test opening = false) (unclosed : test closing = false)
    (few : ∀ k, (pattern k).countP test < value.length) : Inert opening closing pattern value := by
  refine ⟨fun member => ?_, fun member => ?_, fun k inside => ?_⟩
  · rw [special opening member] at unopened
    cases unopened
  · rw [special closing member] at unclosed
    cases unclosed
  · have counted : value.countP test ≤ (pattern k).countP test := inside.sublist.countP_le
    rw [List.countP_eq_length.2 special] at counted
    exact absurd (few k) (Nat.not_lt.2 counted)

section Family
variable (opening closing : α) (pattern : κ → List α) (family : Family opening closing pattern)
  (value : κ → List α) (inert : ∀ k, value k = pattern k ∨ Inert opening closing pattern (value k))
include family inert

omit [DecidableEq α] in
/-- The rest of a placeholder stands in the text only as characters. -/
theorem prefix_fill (k : κ) (s : List α) (rest : s <:+ pattern k) (unopened : opening ∉ s)
    (tokens : List (Token α κ)) (next : s <+: fill value tokens) : s.map Token.char <+: tokens := by
  induction s generalizing tokens with
  | nil => exact List.nil_prefix
  | cons a s ih =>
    cases tokens with
    | nil => exact absurd (List.prefix_nil.1 next) (List.cons_ne_nil _ _)
    | cons token tokens =>
      rw [List.mem_cons, not_or] at unopened
      rw [fill_cons] at next
      cases token with
      | char c =>
        obtain ⟨first, later⟩ := List.cons_prefix_cons.1 next
        rw [List.map_cons, first]
        exact List.cons_prefix_cons.2 ⟨rfl, ih ((List.suffix_cons a s).trans rest) unopened.2 tokens later⟩
      | key j =>
        exfalso
        rw [Token.text] at next
        rcases inert j with kept | put
        · obtain ⟨body, shape, -⟩ := family.opens j
          rw [kept, shape] at next
          exact unopened.1 (List.cons_prefix_cons.1 next).1.symm
        · rcases List.prefix_or_prefix_of_prefix next (List.prefix_append (value j) (fill value tokens)) with
            inside | outside
          · have last : (a :: s).getLast? = some closing := by
              obtain ⟨before, whole⟩ := rest
              have ends := family.closes k
              rw [← whole, List.getLast?_append_of_ne_nil _ (List.cons_ne_nil a s)] at ends
              exact ends
            exact put.unclosed (inside.subset (List.mem_of_getLast? last))
          · exact put.outside k (outside.isInfix.trans rest.isInfix)

/-- Only the placeholders of the template are found while others have such values. -/
theorem occurrences_fill_parse (keys : List κ) [DecidableEq κ] (k : κ) (listed : k ∈ keys) (own : value k = pattern k)
    (text : List α) : occurrences (pattern k) (fill value (parse keys pattern 0 text)) =
      (parse keys pattern 0 text).count (.key k) := by
  have nonempty : ∀ j, pattern j ≠ [] := fun j => opens_ne_nil opening (pattern j) (family.opens j)
  refine parse_induction keys pattern nonempty
    (fun _ tokens => occurrences (pattern k) (fill value tokens) = tokens.count (.key k)) ?_ ?_ ?_ text
  · exact occurrences_nil _
  · intro c rest absent ih
    have different : ¬pattern k <+: c :: fill value (parse keys pattern 0 rest) := by
      intro next
      obtain ⟨body, shape, single⟩ := family.opens k
      refine absent k listed ?_
      rw [shape] at next ⊢
      obtain ⟨first, later⟩ := List.cons_prefix_cons.1 next
      refine List.cons_prefix_cons.2 ⟨first, ?_⟩
      obtain ⟨more, spelled⟩ := prefix_fill opening closing pattern family value inert k body
        (shape ▸ List.suffix_cons opening body) single _ later
      rw [← fill_parse keys pattern nonempty rest, ← spelled, fill_append, fill_chars]
      exact List.prefix_append _ _
    rw [fill_cons, List.count_cons_of_ne (fun clash => by cases clash), ← ih]
    exact occurrences_char (pattern k) c _ different
  · intro j _ rest ih
    rw [fill_cons, Token.text]
    by_cases here : j = k
    · rw [here, own, List.count_cons_self, occurrences_pattern (pattern k) (nonempty k), ih]
    · rw [List.count_cons_of_ne (fun clash => here (by injection clash)), ← ih]
      rcases inert j with kept | put
      · have passed := marks_other opening (pattern k) (family.opens k) (pattern j)
          (fill value (parse keys pattern 0 rest)) (family.opens j) (fun inside => here (family.apart k j inside).symm)
          (fun inside => here (family.apart j k inside))
        rw [kept, occurrences, passed, List.count_append, List.count_eq_zero_of_not_mem (by simp), Nat.zero_add]
        rfl
      · exact occurrences_unopened opening (pattern k) (family.opens k) _ _ put.unopened

end Family

/-! ### One placeholder after the other -/

/-- Values for the placeholders that are done. -/
def stage [DecidableEq κ] (pattern value : κ → List α) (done : List κ) (k : κ) : List α :=
  if k ∈ done then value k else pattern k

section Stages
variable [DecidableEq κ] (opening closing : α) (pattern value : κ → List α)
  (family : Family opening closing pattern) (keys : List κ) (text : List α)
include family

/-- One replacement, while the values before it have no marks. -/
theorem replace_stage (done : List κ) (k : κ) (listed : k ∈ keys) (fresh : k ∉ done)
    (inert : ∀ j ∈ done, Inert opening closing pattern (value j)) :
    replace (pattern k) (value k) (fill (stage pattern value done) (parse keys pattern 0 text)) =
      fill (stage pattern value (k :: done)) (parse keys pattern 0 text) := by
  have own : stage pattern value done k = pattern k := if_neg fresh
  have put : stage pattern value (k :: done) k = value k := if_pos List.mem_cons_self
  have same : ∀ j, j ≠ k → stage pattern value (k :: done) j = stage pattern value done j := by
    intro j different
    simp only [stage, List.mem_cons, different, false_or]
  have good : ∀ j, stage pattern value done j = pattern j ∨
      Inert opening closing pattern (stage pattern value done j) := by
    intro j
    by_cases before : j ∈ done
    · rw [stage, if_pos before]
      exact Or.inr (inert j before)
    · exact Or.inl (if_neg before)
  have found := occurrences_fill_parse opening closing pattern family _ good keys k listed own text
  have filled := replace_fill opening (pattern k) (family.opens k) _ _ k own same _ found
  rw [put] at filled
  exact filled

/-- Replacements with values without marks are one substitution. -/
theorem foldl_replace (done todo : List κ) (listed : ∀ k ∈ todo, k ∈ keys) (distinct : (todo ++ done).Nodup)
    (inert : ∀ k ∈ todo ++ done, Inert opening closing pattern (value k)) :
    todo.foldl (fun text k => replace (pattern k) (value k) text)
        (fill (stage pattern value done) (parse keys pattern 0 text)) =
      fill (stage pattern value (todo.reverse ++ done)) (parse keys pattern 0 text) := by
  induction todo generalizing done with
  | nil => rfl
  | cons k todo ih =>
    rw [List.cons_append, List.nodup_cons, List.mem_append, not_or] at distinct
    rw [List.foldl_cons, replace_stage opening closing pattern value family keys text done k
      (listed k List.mem_cons_self) distinct.1.2
      (fun j member => inert j (List.mem_append_right _ member)), List.reverse_cons, List.append_assoc]
    refine ih (k :: done) (fun j member => listed j (List.mem_cons_of_mem _ member)) ?_ ?_
    · rw [List.perm_middle.nodup_iff, List.nodup_cons, List.mem_append, not_or]
      exact distinct
    · intro j member
      exact inert j (List.perm_middle.mem_iff.1 member)

end Stages

end Reading

end Seedchamp.Foundation.Placeholders
