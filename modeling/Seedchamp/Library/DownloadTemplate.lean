import Mathlib.Algebra.Order.Ring.Int
import Mathlib.Logic.Function.Basic
import Mathlib.Tactic.LinearCombination
import Seedchamp.Library.DownloadPath

/-!
When the replacements of a download path, one after the other, are the substitution of all
placeholders at once, and the names in it are path components.
-/

namespace Seedchamp.Library.DownloadTemplate
open Foundation.PathComponents Foundation.Placeholders Library.DownloadPath

/-! ### The placeholders -/

inductive Placeholder where
  | date
  | YYYY
  | yyyy
  | YY
  | yy
  | MM
  | DD
  | watchName
  | torrentName
  | ih8
  deriving DecidableEq

def Placeholder.pattern : Placeholder → Text
  | .date => "{date}".toList
  | .YYYY => "{YYYY}".toList
  | .yyyy => "{yyyy}".toList
  | .YY => "{YY}".toList
  | .yy => "{yy}".toList
  | .MM => "{MM}".toList
  | .DD => "{DD}".toList
  | .watchName => "{watch_name}".toList
  | .torrentName => "{torrent_name}".toList
  | .ih8 => "{ih8}".toList

def Placeholder.value (today : Day) (ctx : DlPathContext) : Placeholder → Text
  | .date => today.date
  | .YYYY => paddedInt 4 today.y
  | .yyyy => paddedInt 4 today.y
  | .YY => today.yy
  | .yy => today.yy
  | .MM => padded 2 today.m
  | .DD => padded 2 today.d
  | .watchName => ctx.watchName
  | .torrentName => ctx.torrentName
  | .ih8 => ctx.ih8

def days : List Placeholder := [.date, .YYYY, .yyyy, .YY, .yy, .MM, .DD]

def placeholders : List Placeholder := days ++ [.watchName, .torrentName, .ih8]

/-- The template read as characters and placeholders. -/
def tokens (template : Text) : List (Token Char Placeholder) := parse placeholders Placeholder.pattern 0 template

/-- All placeholders of the template substituted at once. -/
def substituted (today : Day) (template : Text) (ctx : DlPathContext) : Text :=
  fill (Placeholder.value today ctx) (tokens template)

def valueBut (kept : List Placeholder) (today : Day) (ctx : DlPathContext) (k : Placeholder) : Text :=
  if k ∈ kept then k.pattern else k.value today ctx

/-- All placeholders of the template but these substituted at once. -/
def allBut (kept : List Placeholder) (today : Day) (template : Text) (ctx : DlPathContext) : Text :=
  fill (valueBut kept today ctx) (tokens template)

theorem mem_placeholders (k : Placeholder) : k ∈ placeholders := by cases k <;> decide

theorem family : Family '{' '}' Placeholder.pattern := by
  refine ⟨?_, ?_, ?_⟩
  · intro k
    refine ⟨k.pattern.tail, ?_, ?_⟩ <;> cases k <;> decide
  · intro k
    cases k <;> decide
  · have apart : ∀ j ∈ placeholders, ∀ k ∈ placeholders, j.pattern <+: k.pattern → j = k := by decide
    exact fun j k => apart j (mem_placeholders j) k (mem_placeholders k)

theorem expand_eq_foldl (today : Day) (template : Text) (ctx : DlPathContext) :
    expandDlPathTemplate today template ctx =
      placeholders.foldl (fun text k => replace k.pattern (k.value today ctx) text) template := by
  rw [placeholders, days]
  simp only [List.cons_append, List.nil_append, List.foldl_cons, List.foldl_nil]
  rfl

/-! ### The day -/

def dayChar (c : Char) : Bool := c.isDigit || c = '-'

theorem padded_day (width n : Nat) : (∀ c ∈ padded width n, dayChar c = true) ∧ width ≤ (padded width n).length := by
  constructor
  · intro c member
    rw [padded, List.leftpad, List.mem_append] at member
    rcases member with pad | digit
    · rw [(List.mem_replicate.1 pad).2]
      decide
    · rw [dayChar, Nat.isDigit_of_mem_toDigits (by decide) (by decide) digit]
      rfl
  · rw [padded, List.leftpad, List.length_append, List.length_replicate]
    omega

theorem paddedInt_day (width : Nat) (n : Int) :
    (∀ c ∈ paddedInt width n, dayChar c = true) ∧ width ≤ (paddedInt width n).length := by
  rw [paddedInt]
  split_ifs
  · obtain ⟨digits, long⟩ := padded_day (width - 1) n.natAbs
    constructor
    · intro c member
      rcases List.mem_cons.1 member with rfl | later
      · decide
      · exact digits c later
    · rw [List.length_cons]
      omega
  · exact padded_day width n.natAbs

theorem date_day (today : Day) : (∀ c ∈ today.date, dayChar c = true) ∧ 2 ≤ today.date.length := by
  obtain ⟨year, long⟩ := paddedInt_day 4 today.y
  constructor
  · intro c member
    rw [Day.date, List.mem_append, List.mem_append, List.mem_cons, List.mem_cons] at member
    rcases member with (inYear | rfl | inMonth) | rfl | inDay
    · exact year c inYear
    · decide
    · exact (padded_day 2 today.m).1 c inMonth
    · decide
    · exact (padded_day 2 today.d).1 c inDay
  · rw [Day.date, List.length_append, List.length_append]
    omega

/-- The parts of a date cannot be read as a placeholder. -/
theorem day_inert (today : Day) (ctx : DlPathContext) (k : Placeholder) (listed : k ∈ days) :
    Inert '{' '}' Placeholder.pattern (k.value today ctx) := by
  have few : ∀ j : Placeholder, j.pattern.countP dayChar < 2 := by
    intro j
    cases j <;> decide
  have good : (∀ c ∈ k.value today ctx, dayChar c = true) ∧ 2 ≤ (k.value today ctx).length := by
    have year := paddedInt_day 4 today.y
    have short := paddedInt_day 2 (today.y % 100)
    cases k with
    | date => exact date_day today
    | YYYY | yyyy => exact ⟨year.1, Nat.le_trans (by decide) year.2⟩
    | YY => exact short
    | yy => exact short
    | MM => exact padded_day 2 today.m
    | DD => exact padded_day 2 today.d
    | watchName | torrentName | ih8 => exact absurd listed (by decide)
  exact inert_of_test '{' '}' _ _ dayChar good.1 (by decide) (by decide)
    (fun j => Nat.lt_of_lt_of_le (few j) good.2)

/-! ### The infohash -/

def hexChar (c : Char) : Bool := "0123456789abcdef".toList.contains c

theorem hexByte_hex (b : UInt8) : (∀ c ∈ LeechCache.hexByte b, hexChar c = true) ∧ (LeechCache.hexByte b).length = 2 := by
  have digit : ∀ n, n < 16 → hexChar (Nat.digitChar n) = true := by decide
  have small := b.toNat_lt
  refine ⟨fun c member => ?_, rfl⟩
  rw [LeechCache.hexByte, List.mem_cons, List.mem_singleton] at member
  rcases member with rfl | rfl
  · exact digit _ (by omega)
  · exact digit _ (by omega)

theorem ih8_hex (watchName : Text) (m : Metainfo) :
    (∀ c ∈ (DlPathContext.fromMetainfo watchName m).ih8, hexChar c = true) ∧
      (DlPathContext.fromMetainfo watchName m).ih8.length = 8 := by
  change (∀ c ∈ m.infohashHex.take 8, _) ∧ (m.infohashHex.take 8).length = 8
  constructor
  · intro c member
    obtain ⟨b, -, here⟩ := List.mem_flatMap.1 (List.mem_of_mem_take member)
    exact (hexByte_hex b).1 c here
  · have bytes : m.infohash.toList.length = 20 := by simp
    have long : m.infohashHex.length = 40 := by
      rw [Metainfo.infohashHex, List.length_flatMap, List.map_congr_left (fun b _ => (hexByte_hex b).2),
        List.map_const', List.sum_replicate, bytes]
      rfl
    rw [List.length_take, long]
    rfl

theorem ih8_inert (watchName : Text) (m : Metainfo) :
    Inert '{' '}' Placeholder.pattern (DlPathContext.fromMetainfo watchName m).ih8 := by
  obtain ⟨hex, long⟩ := ih8_hex watchName m
  have few : ∀ j : Placeholder, j.pattern.countP hexChar < 8 := by
    intro j
    cases j <;> decide
  exact inert_of_test '{' '}' _ _ hexChar hex (by decide) (by decide) (fun j => by rw [long]; exact few j)

/-! ### The replacements -/

section
variable (today : Day) (template : Text) (ctx : DlPathContext)

theorem pattern_ne_nil (k : Placeholder) : k.pattern ≠ [] := opens_ne_nil '{' k.pattern (family.opens k)

theorem fill_pattern_tokens : fill Placeholder.pattern (tokens template) = template :=
  fill_parse placeholders Placeholder.pattern pattern_ne_nil template

/-- Up to the watch name the replacements are a substitution. -/
theorem expand_watch : expandDlPathTemplate today template ctx =
    replace Placeholder.ih8.pattern ctx.ih8 (replace Placeholder.torrentName.pattern ctx.torrentName
      (allBut [.torrentName, .ih8] today template ctx)) := by
  have start : fill (stage Placeholder.pattern (Placeholder.value today ctx) []) (tokens template) = template :=
    (fill_congr _ _ _ (fun k _ => if_neg List.not_mem_nil)).trans (fill_pattern_tokens template)
  have inert : ∀ k ∈ days ++ [], Inert '{' '}' Placeholder.pattern (k.value today ctx) := fun k member =>
    day_inert today ctx k (by rw [List.append_nil] at member; exact member)
  have dated := foldl_replace '{' '}' Placeholder.pattern (Placeholder.value today ctx) family placeholders template
    [] days (fun k _ => mem_placeholders k) (by decide) inert
  have read : parse placeholders Placeholder.pattern 0 template = tokens template := rfl
  rw [read, start] at dated
  have named := replace_stage '{' '}' Placeholder.pattern (Placeholder.value today ctx) family placeholders template
    (days.reverse ++ []) .watchName (by decide) (by decide)
    (fun k member => inert k (by rw [List.append_nil] at member ⊢; exact List.mem_reverse.1 member))
  rw [read] at named
  have last : fill (stage Placeholder.pattern (Placeholder.value today ctx) (.watchName :: (days.reverse ++ [])))
      (tokens template) = allBut [.torrentName, .ih8] today template ctx := by
    refine fill_congr _ _ _ (fun k _ => ?_)
    cases k <;> rfl
  rw [expand_eq_foldl, placeholders, List.foldl_append, dated]
  simp only [List.foldl_cons, List.foldl_nil]
  rw [named, last]
  rfl

/-- Nothing that came from a name is read as a later placeholder, unless that stands for itself. -/
structure Unmixed : Prop where
  torrentName : occurrences Placeholder.torrentName.pattern (allBut [.torrentName, .ih8] today template ctx) =
    (tokens template).count (.key .torrentName) ∨ ctx.torrentName = Placeholder.torrentName.pattern
  ih8 : occurrences Placeholder.ih8.pattern (allBut [.ih8] today template ctx) =
    (tokens template).count (.key .ih8)

theorem valueBut_torrentName (j : Placeholder) (different : j ≠ .torrentName) :
    valueBut [.ih8] today ctx j = valueBut [.torrentName, .ih8] today ctx j := by
  simp only [valueBut, List.mem_cons, different, false_or]

theorem valueBut_ih8 (j : Placeholder) (different : j ≠ .ih8) :
    valueBut [.torrentName] today ctx j = valueBut [.torrentName, .ih8] today ctx j := by
  simp only [valueBut, List.mem_cons, List.not_mem_nil, different, or_false]

theorem value_valueBut_torrentName (j : Placeholder) (different : j ≠ .torrentName) :
    j.value today ctx = valueBut [.torrentName] today ctx j :=
  (if_neg (fun member => different (List.mem_singleton.1 member))).symm

theorem value_valueBut (j : Placeholder) (different : j ≠ .ih8) :
    j.value today ctx = valueBut [.ih8] today ctx j :=
  (if_neg (fun member => different (List.mem_singleton.1 member))).symm

/-- The text in which the torrent's name has been put in. -/
def named : Text :=
  replace Placeholder.torrentName.pattern ctx.torrentName (allBut [.torrentName, .ih8] today template ctx)

theorem named_eq (only : occurrences Placeholder.torrentName.pattern (allBut [.torrentName, .ih8] today template ctx) =
    (tokens template).count (.key .torrentName) ∨ ctx.torrentName = Placeholder.torrentName.pattern) :
    named today template ctx = allBut [.ih8] today template ctx := by
  rcases only with once | itself
  · exact replace_fill '{' Placeholder.torrentName.pattern (family.opens _) (valueBut [.torrentName, .ih8] today ctx)
      (valueBut [.ih8] today ctx) .torrentName rfl (valueBut_torrentName today ctx) (tokens template) once
  · rw [named, itself, replace_self _ (pattern_ne_nil .torrentName)]
    refine fill_congr _ _ _ (fun k _ => ?_)
    by_cases here : k = .torrentName
    · rw [here]
      exact itself.symm
    · exact (valueBut_torrentName today ctx k here).symm

theorem expand_of_unmixed (unmixed : Unmixed today template ctx) :
    expandDlPathTemplate today template ctx = substituted today template ctx := by
  have put := named_eq today template ctx unmixed.torrentName
  rw [named] at put
  rw [expand_watch, put]
  exact replace_fill '{' Placeholder.ih8.pattern (family.opens _) (valueBut [.ih8] today ctx)
    (Placeholder.value today ctx) .ih8 rfl (value_valueBut today ctx) (tokens template) unmixed.ih8

/-- Where the texts are the same, what the placeholders found too many lose is what they gain. -/
theorem balance (same : expandDlPathTemplate today template ctx = substituted today template ctx) (test : Char → Bool) :
    ((occurrences Placeholder.torrentName.pattern (allBut [.torrentName, .ih8] today template ctx) : Int) -
        (tokens template).count (.key .torrentName)) *
      (ctx.torrentName.countP test - Placeholder.torrentName.pattern.countP test) =
    ((occurrences Placeholder.ih8.pattern (named today template ctx) : Int) - (tokens template).count (.key .ih8)) *
      (Placeholder.ih8.pattern.countP test - ctx.ih8.countP test) := by
  have first := countP_replace Placeholder.torrentName.pattern ctx.torrentName
    (allBut [.torrentName, .ih8] today template ctx) (pattern_ne_nil _) test
  have second := countP_replace Placeholder.ih8.pattern ctx.ih8 (named today template ctx) (pattern_ne_nil _) test
  have third := countP_fill (valueBut [.torrentName, .ih8] today ctx) (valueBut [.ih8] today ctx) .torrentName
    (valueBut_torrentName today ctx) test (tokens template)
  have fourth := countP_fill (valueBut [.ih8] today ctx) (Placeholder.value today ctx) .ih8
    (value_valueBut today ctx) test (tokens template)
  change _ + _ * Placeholder.torrentName.pattern.countP test = _ + _ * ctx.torrentName.countP test at third
  change _ + _ * Placeholder.ih8.pattern.countP test = _ + _ * ctx.ih8.countP test at fourth
  rw [expand_watch] at same
  change replace _ _ (named today template ctx) = _ at same
  rw [same] at second
  change (named today template ctx).countP test + _ = _ at first
  change (substituted today template ctx).countP test + _ = _ at fourth
  change _ = (allBut [.torrentName, .ih8] today template ctx).countP test + _ at third
  generalize (substituted today template ctx).countP test = z at second fourth
  generalize (named today template ctx).countP test = a at first second
  generalize (allBut [.torrentName, .ih8] today template ctx).countP test = x at first third
  zify at first second third fourth
  linear_combination third + fourth - first - second

def otherChar (c : Char) : Bool := !hexChar c

/-- By its characters, a name that is put in too often has the length of its placeholder, and no
infohash is put in too often. -/
theorem balanced (hex : ∀ c ∈ ctx.ih8, hexChar c = true) (long : ctx.ih8.length = 8)
    (same : expandDlPathTemplate today template ctx = substituted today template ctx)
    (more : (tokens template).count (.key .torrentName) <
      occurrences Placeholder.torrentName.pattern (allBut [.torrentName, .ih8] today template ctx)) :
    ctx.torrentName.length = Placeholder.torrentName.pattern.length ∧
      occurrences Placeholder.ih8.pattern (named today template ctx) = (tokens template).count (.key .ih8) := by
  have lengths := balance today template ctx same (fun _ => true)
  have others := balance today template ctx same otherChar
  have letters := balance today template ctx same (fun c => c = 'i')
  have noOther : ctx.ih8.countP otherChar = 0 := by
    rw [List.countP_eq_zero]
    intro c member
    rw [otherChar, hex c member]
    decide
  have noLetter : ctx.ih8.countP (fun c => c = 'i') = 0 := by
    rw [List.countP_eq_zero]
    intro c member letter
    rw [of_decide_eq_true letter] at member
    exact absurd (hex 'i' member) (by decide)
  have fewer : ctx.torrentName.countP otherChar ≤ ctx.torrentName.length := List.countP_le_length
  rw [show Placeholder.torrentName.pattern.countP otherChar = 11 from rfl,
    show Placeholder.ih8.pattern.countP otherChar = 4 from rfl, noOther] at others
  rw [show Placeholder.torrentName.pattern.countP (fun c => c = 'i') = 0 from rfl,
    show Placeholder.ih8.pattern.countP (fun c => c = 'i') = 1 from rfl, noLetter] at letters
  simp only [List.countP_true, long] at lengths
  rw [show Placeholder.torrentName.pattern.length = 14 from rfl] at lengths ⊢
  rw [show Placeholder.ih8.pattern.length = 5 from rfl] at lengths
  generalize ctx.torrentName.countP otherChar = o at others fewer
  generalize ctx.torrentName.countP (fun c => c = 'i') = i at letters
  generalize ctx.torrentName.length = l at lengths fewer ⊢
  generalize occurrences Placeholder.torrentName.pattern (allBut [.torrentName, .ih8] today template ctx) = found
    at lengths others letters more
  generalize occurrences Placeholder.ih8.pattern (named today template ctx) = found' at lengths others letters ⊢
  generalize (tokens template).count (.key .torrentName) = listed at lengths others letters more
  generalize (tokens template).count (.key .ih8) = listed' at lengths others letters ⊢
  have apart : (found : Int) - listed ≠ 0 := by omega
  have excess : (found' : Int) - listed' = (found - listed) * i := by linear_combination -letters
  rw [excess] at lengths others
  have length_eq : (l : Int) - 14 = -3 * i := by
    refine mul_left_cancel₀ apart ?_
    linear_combination lengths
  have others_eq : (o : Int) - 11 = 4 * i := by
    refine mul_left_cancel₀ apart ?_
    linear_combination others
  have none : i = 0 := by omega
  rw [none] at excess length_eq
  constructor
  · omega
  · omega

/-- Read once more for both of the last placeholders. -/
def reread : List (Token Char Placeholder) :=
  parse [.torrentName, .ih8] Placeholder.pattern 0 (allBut [.torrentName, .ih8] today template ctx)

/-- The patterns of the last placeholders but for the values given. -/
def given (torrentName ih8 : Option Text) (k : Placeholder) : Text :=
  match k with
  | .torrentName => torrentName.getD Placeholder.torrentName.pattern
  | .ih8 => ih8.getD Placeholder.ih8.pattern
  | _ => k.pattern

theorem given_torrentName (value ih8 : Option Text) (j : Placeholder) (different : j ≠ .torrentName) :
    given value ih8 j = given none ih8 j := by
  cases j with
  | torrentName => exact absurd rfl different
  | _ => rfl

theorem given_ih8 (torrentName value : Option Text) (j : Placeholder) (different : j ≠ .ih8) :
    given torrentName value j = given torrentName none j := by
  cases j with
  | ih8 => exact absurd rfl different
  | _ => rfl

theorem given_inert (ih8 : Option Text) (inert : ∀ value ∈ ih8, Inert '{' '}' Placeholder.pattern value)
    (k : Placeholder) :
    given none ih8 k = k.pattern ∨ Inert '{' '}' Placeholder.pattern (given none ih8 k) := by
  cases k with
  | ih8 =>
    cases ih8 with
    | none => exact Or.inl rfl
    | some value => exact Or.inr (inert value rfl)
  | _ => exact Or.inl rfl

/-- A name of the placeholder's length that is put in too often is the placeholder. -/
theorem itself_of_more (inert : Inert '{' '}' Placeholder.pattern ctx.ih8)
    (same : expandDlPathTemplate today template ctx = substituted today template ctx)
    (more : (tokens template).count (.key .torrentName) <
      occurrences Placeholder.torrentName.pattern (allBut [.torrentName, .ih8] today template ctx))
    (lengths : ctx.torrentName.length = Placeholder.torrentName.pattern.length)
    (hashes : occurrences Placeholder.ih8.pattern (named today template ctx) = (tokens template).count (.key .ih8)) :
    ctx.torrentName = Placeholder.torrentName.pattern := by
  have opens := family.opens .torrentName
  have opens' := family.opens .ih8
  have plain := given_inert none (fun value clash => by cases clash)
  have hashed := given_inert (some ctx.ih8) (fun value here => by
    rw [← Option.some.inj here]
    exact inert)
  have start : fill (given none none) (reread today template ctx) = allBut [.torrentName, .ih8] today template ctx := by
    have back := fill_parse [.torrentName, .ih8] Placeholder.pattern pattern_ne_nil
      (allBut [.torrentName, .ih8] today template ctx)
    refine Eq.trans (fill_congr _ _ _ (fun k _ => ?_)) back
    cases k <;> rfl
  -- Both placeholders are found as often as they are read.
  have torrents := occurrences_fill_parse '{' '}' Placeholder.pattern family (given none none) plain
    [.torrentName, .ih8] .torrentName (by decide) rfl (allBut [.torrentName, .ih8] today template ctx)
  have ih8s := occurrences_fill_parse '{' '}' Placeholder.pattern family (given none none) plain
    [.torrentName, .ih8] .ih8 (by decide) rfl (allBut [.torrentName, .ih8] today template ctx)
  change occurrences _ (fill (given none none) (reread today template ctx)) = (reread today template ctx).count _
    at torrents ih8s
  have put := replace_fill '{' Placeholder.torrentName.pattern opens (given none none) (given (some ctx.torrentName) none)
    .torrentName rfl (given_torrentName _ _) (reread today template ctx) torrents
  rw [start] at torrents ih8s put
  change named today template ctx = _ at put
  -- So the infohash is put in at the same places, before the name or after it.
  have within := count_le_occurrences '{' Placeholder.ih8.pattern opens' (given (some ctx.torrentName) none) .ih8 rfl
    (reread today template ctx)
  have before := count_le_occurrences '{' Placeholder.ih8.pattern opens' (valueBut [.torrentName, .ih8] today ctx) .ih8 rfl
    (tokens template)
  change _ ≤ occurrences _ (allBut [.torrentName, .ih8] today template ctx) at before
  rw [← put, hashes] at within
  have after := replace_fill '{' Placeholder.ih8.pattern opens' (given (some ctx.torrentName) none)
    (given (some ctx.torrentName) (some ctx.ih8)) .ih8 rfl (given_ih8 _ _) (reread today template ctx)
    (by rw [← put, hashes]; omega)
  have first := replace_fill '{' Placeholder.ih8.pattern opens' (given none none) (given none (some ctx.ih8)) .ih8 rfl
    (given_ih8 _ _) (reread today template ctx) (by rw [start, ih8s])
  have first' := replace_fill '{' Placeholder.ih8.pattern opens' (valueBut [.torrentName, .ih8] today ctx)
    (valueBut [.torrentName] today ctx) .ih8 rfl (valueBut_ih8 today ctx) (tokens template)
    (by change occurrences _ (allBut [.torrentName, .ih8] today template ctx) = _; omega)
  rw [start] at first
  have hashedFirst : fill (given none (some ctx.ih8)) (reread today template ctx) =
      fill (valueBut [.torrentName] today ctx) (tokens template) := first.symm.trans first'
  have found := occurrences_fill_parse '{' '}' Placeholder.pattern family (given none (some ctx.ih8)) hashed
    [.torrentName, .ih8] .torrentName (by decide) rfl (allBut [.torrentName, .ih8] today template ctx)
  change occurrences _ (fill _ (reread today template ctx)) = (reread today template ctx).count _ at found
  have last := replace_fill '{' Placeholder.torrentName.pattern opens (given none (some ctx.ih8))
    (given (some ctx.torrentName) (some ctx.ih8)) .torrentName rfl (given_torrentName _ _) (reread today template ctx) found
  rw [hashedFirst] at found last
  have whole : substituted today template ctx =
      fill (given (some ctx.torrentName) (some ctx.ih8)) (reread today template ctx) := by
    rw [← same, expand_watch]
    change replace _ _ (named today template ctx) = _
    rw [put]
    exact after
  by_contra different
  have fixed := replace_fill_fixed '{' Placeholder.torrentName.pattern opens (valueBut [.torrentName] today ctx)
    (Placeholder.value today ctx) .torrentName rfl (value_valueBut_torrentName today ctx) lengths different []
    (tokens template) (last.trans whole.symm)
  rw [List.nil_append, found] at fixed
  omega

theorem unmixed_of_expand (hex : ∀ c ∈ ctx.ih8, hexChar c = true) (long : ctx.ih8.length = 8)
    (inert : Inert '{' '}' Placeholder.pattern ctx.ih8)
    (same : expandDlPathTemplate today template ctx = substituted today template ctx) :
    Unmixed today template ctx := by
  have least := count_le_occurrences '{' Placeholder.torrentName.pattern (family.opens .torrentName)
    (valueBut [.torrentName, .ih8] today ctx) .torrentName rfl (tokens template)
  change _ ≤ occurrences _ (allBut [.torrentName, .ih8] today template ctx) at least
  rcases Nat.lt_or_eq_of_le least with more | once
  · obtain ⟨lengths, hashes⟩ := balanced today template ctx hex long same more
    have itself := itself_of_more today template ctx inert same more lengths hashes
    rw [named_eq today template ctx (Or.inr itself)] at hashes
    exact ⟨Or.inr itself, hashes⟩
  · have lengths := balance today template ctx same (fun _ => true)
    rw [named_eq today template ctx (Or.inl once.symm), once] at lengths
    simp only [List.countP_true, long, sub_self, zero_mul] at lengths
    rw [show Placeholder.ih8.pattern.length = 5 from rfl] at lengths
    exact ⟨Or.inl once.symm, by omega⟩

end

/-! ### Well-formed download paths -/

/-- The path of a torrent: the template with all placeholders substituted at once, each name in it one
component, and as many components as for any other torrent. -/
structure WellFormed (today : Day) (template watchName : Text) (m : Metainfo) : Prop where
  simultaneous : expandDlPathTemplate today template (.fromMetainfo watchName m) =
    substituted today template (.fromMetainfo watchName m)
  watch : .key .watchName ∈ tokens template → GoodName (DlPathContext.fromMetainfo watchName m).watchName
  torrent : .key .torrentName ∈ tokens template → GoodName (DlPathContext.fromMetainfo watchName m).torrentName
  components : ∀ other : Metainfo,
    (components (expandDlPathTemplate today template (.fromMetainfo watchName m))).length =
      (components (expandDlPathTemplate today template (.fromMetainfo watchName other))).length

/-- No name is read as a placeholder, and the names that are used fit when they are cleaned. -/
structure Sound (today : Day) (template watchName : Text) (m : Metainfo) : Prop where
  unmixed : Unmixed today template (.fromMetainfo watchName m)
  watch : .key .watchName ∈ tokens template → Fits (cleaned watchName)
  torrent : .key .torrentName ∈ tokens template → Fits (cleaned m.name)

/-- The number of components is that of the template with its last placeholders. -/
theorem expand_components (today : Day) (template watchName : Text) (m : Metainfo) :
    (components (expandDlPathTemplate today template (.fromMetainfo watchName m))).length =
      (components (allBut [.torrentName, .ih8] today template (.watchOnly watchName))).length := by
  obtain ⟨hex, long⟩ := ih8_hex watchName m
  have solid : Solid Placeholder.torrentName.pattern := ⟨by decide, '{', by decide, by decide⟩
  have solid' : Solid Placeholder.ih8.pattern := ⟨by decide, '{', by decide, by decide⟩
  have digits : Solid (DlPathContext.fromMetainfo watchName m).ih8 := by
    refine ⟨fun member => absurd (hex '/' member) (by decide), ?_⟩
    cases shape : (DlPathContext.fromMetainfo watchName m).ih8 with
    | nil =>
      rw [shape] at long
      cases long
    | cons c rest =>
      refine ⟨c, List.mem_cons_self, ?_⟩
      rintro rfl
      exact absurd (hex '.' (shape ▸ List.mem_cons_self)) (by decide)
  have name : Solid (DlPathContext.fromMetainfo watchName m).torrentName := sanitize_solid m.name
  rw [expand_watch, components_replace _ _ _ (pattern_ne_nil .ih8) solid' digits,
    components_replace _ _ _ (pattern_ne_nil .torrentName) solid name]
  refine congrArg (fun text => (components text).length) (fill_congr _ _ _ (fun k _ => ?_))
  cases k <;> rfl

/-- The path of a watch directory has as many components for one torrent as for another. -/
theorem resolveDlPath_components (today : Day) (dlPath : Option Text) (defaultDataRoot watchName : Text)
    (m other : Metainfo) :
    (components (resolveDlPath today dlPath defaultDataRoot (.fromMetainfo watchName m))).length =
      (components (resolveDlPath today dlPath defaultDataRoot (.fromMetainfo watchName other))).length :=
  (expand_components today _ watchName m).trans (expand_components today _ watchName other).symm

theorem wellFormed_iff (today : Day) (template watchName : Text) (m : Metainfo) :
    WellFormed today template watchName m ↔ Sound today template watchName m := by
  obtain ⟨hex, long⟩ := ih8_hex watchName m
  constructor
  · intro good
    exact ⟨unmixed_of_expand today template _ hex long (ih8_inert watchName m) good.simultaneous,
      fun used => (goodName_iff watchName).1 (good.watch used),
      fun used => (goodName_iff m.name).1 (good.torrent used)⟩
  · intro sound
    exact ⟨expand_of_unmixed today template _ sound.unmixed,
      fun used => (goodName_iff watchName).2 (sound.watch used),
      fun used => (goodName_iff m.name).2 (sound.torrent used),
      fun other => (expand_components today template watchName m).trans
        (expand_components today template watchName other).symm⟩

/-- A torrent whose name is the placeholder of the infohash. -/
def masked : Metainfo := ⟨.replicate 20 0xAB, "{ih8}".toList⟩

/-- A torrent whose name is 64 characters of four bytes each. -/
def wide : Metainfo := ⟨.replicate 20 0xAB, List.replicate 64 '𝕏'⟩

theorem names_misplaced : ¬WellFormed ⟨2024, 5, 17⟩ "{torrent_name}-{ih8}".toList "watch".toList masked ∧
    ¬WellFormed ⟨2024, 5, 17⟩ "{torrent_name}".toList "watch".toList wide :=
  ⟨fun good => absurd good.simultaneous (by decide), fun good => absurd (good.torrent (by decide)).short (by decide)⟩

end Seedchamp.Library.DownloadTemplate
