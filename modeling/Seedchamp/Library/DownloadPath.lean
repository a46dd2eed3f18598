import Seedchamp.Foundation.PathComponents
import Seedchamp.Foundation.Text
import Seedchamp.Library.LeechCache
import Seedchamp.Torrentfile.ComponentSafety

/-!
The download path of a watch directory: a template with placeholders for the day, the watch and the
torrent, and the names that come from outside made into path components.
-/

namespace Seedchamp.Library.DownloadPath
open Foundation.Text Foundation.PathComponents Foundation.Placeholders
open Torrentfile.Parse (isControl trimMatches byteLen)
open Torrentfile.ComponentSafety (trimMatches_head trimMatches_self trimEndMatches_front
  trimEndMatches_last trimMatches_eq head_of_front byteLen_front)

abbrev Text := List Char

/-! ### Names -/

/-- Separators, the characters other systems reserve, and control characters. -/
def reserved (ch : Char) : Bool :=
  "/\\:*?\"<>|".toList.contains ch || ch.toNat = 0 || isControl ch

def blank (ch : Char) : Bool := reserved ch || ch = ' '

def edge (ch : Char) : Bool := ch = '.' || ch = '_' || ch = ' '

/-- One character of the loop: the output and whether its last character stands for others. -/
def sanitizeStep (state : Text × Bool) (ch : Char) : Text × Bool :=
  if blank ch then if !state.2 && !state.1.isEmpty then (state.1 ++ ['_'], true) else state
  else (state.1 ++ [ch], false)

def sanitizePathComponent (s : Text) : Text :=
  let out := trimMatches edge (s.foldl sanitizeStep ([], false)).1
  if out.isEmpty then "unnamed".toList else if 200 < byteLen out then out.take 200 else out

/-! ### Templates -/

/-- The fields of a metainfo that are read. -/
structure Metainfo where
  infohash : Vector UInt8 20
  name : Text

def Metainfo.infohashHex (m : Metainfo) : Text := m.infohash.toList.flatMap LeechCache.hexByte

structure DlPathContext where
  watchName : Text
  torrentName : Text
  ih8 : Text

def DlPathContext.watchOnly (watchName : Text) : DlPathContext := ⟨sanitizePathComponent watchName, [], []⟩

def DlPathContext.fromMetainfo (watchName : Text) (m : Metainfo) : DlPathContext :=
  ⟨sanitizePathComponent watchName, sanitizePathComponent m.name, m.infohashHex.take 8⟩

/-- A day of the local calendar. -/
structure Day where
  y : Int
  m : Nat
  d : Nat

/-- `{:0width}` of a number. -/
def padded (width n : Nat) : Text := (Nat.toDigits 10 n).leftpad width '0'

def paddedInt (width : Nat) (n : Int) : Text :=
  if n < 0 then '-' :: padded (width - 1) n.natAbs else padded width n.natAbs

def Day.date (day : Day) : Text := paddedInt 4 day.y ++ '-' :: padded 2 day.m ++ '-' :: padded 2 day.d

def Day.yy (day : Day) : Text := paddedInt 2 (day.y % 100)

def expandDlPathTemplate (today : Day) (template : Text) (ctx : DlPathContext) : Text :=
  let text := replace "{date}".toList today.date template
  let text := replace "{YYYY}".toList (paddedInt 4 today.y) text
  let text := replace "{yyyy}".toList (paddedInt 4 today.y) text
  let text := replace "{YY}".toList today.yy text
  let text := replace "{yy}".toList today.yy text
  let text := replace "{MM}".toList (padded 2 today.m) text
  let text := replace "{DD}".toList (padded 2 today.d) text
  let text := replace "{watch_name}".toList ctx.watchName text
  let text := replace "{torrent_name}".toList ctx.torrentName text
  replace "{ih8}".toList ctx.ih8 text

/-- The template of the watch directory, or the default data root. -/
def resolveDlPath (today : Day) (dlPath : Option Text) (defaultDataRoot : Text) (ctx : DlPathContext) : Text :=
  expandDlPathTemplate today
    (((dlPath.map trim).filter (fun s => !s.isEmpty)).getD defaultDataRoot) ctx

/-! ### What is made of a name -/

/-- Each run of blanks as one underscore, none before the first other character. -/
def collapse : Bool → Text → Text
  | _, [] => []
  | begun, c :: rest =>
    if blank c then (if begun then '_' :: collapse false rest else collapse false rest)
    else c :: collapse true rest

/-- The name without blanks, and with no dot or underscore at either end. -/
def cleaned (s : Text) : Text := trimMatches edge (collapse false s)

theorem foldl_sanitizeStep (s out : Text) (flag : Bool) :
    (s.foldl sanitizeStep (out, flag)).1 = out ++ collapse (!flag && !out.isEmpty) s := by
  induction s generalizing out flag with
  | nil => exact (List.append_nil out).symm
  | cons c rest ih =>
    rw [List.foldl_cons, sanitizeStep, collapse]
    by_cases bad : blank c = true
    · rw [if_pos bad, if_pos bad]
      by_cases begun : (!flag && !out.isEmpty) = true
      · rw [if_pos begun, if_pos begun, ih, List.append_assoc]
        rfl
      · rw [if_neg begun, if_neg begun, ih, Bool.eq_false_iff.2 begun]
    · have some : (out ++ [c]).isEmpty = false := by
        rw [List.isEmpty_eq_false_iff]
        exact List.append_ne_nil_of_right_ne_nil out (List.cons_ne_nil c [])
      rw [if_neg bad, if_neg bad, ih, List.append_assoc, some]
      rfl

theorem edge_blank (c : Char) (kept : blank c = false) : edge c = false ↔ c ≠ '.' ∧ c ≠ '_' := by
  have space : c ≠ ' ' := by
    rintro rfl
    exact absurd kept (by decide)
  simp only [edge, space, Bool.or_eq_false_iff, decide_eq_false_iff_not, not_false_eq_true, and_true]

theorem collapse_plain (begun : Bool) (s : Text) (c : Char) (member : c ∈ collapse begun s) : blank c = false := by
  induction s generalizing begun with
  | nil => cases member
  | cons first rest ih =>
    rw [collapse] at member
    split_ifs at member with bad
    · rcases List.mem_cons.1 member with rfl | later
      · decide
      · exact ih false later
    · exact ih false member
    · rcases List.mem_cons.1 member with rfl | later
      · exact Bool.not_eq_true _ ▸ bad
      · exact ih true later

theorem collapse_of_plain (begun : Bool) (s : Text) (plain : ∀ c ∈ s, blank c = false) : collapse begun s = s := by
  induction s generalizing begun with
  | nil => rfl
  | cons c rest ih =>
    rw [collapse, if_neg (by rw [plain c List.mem_cons_self]; decide),
      ih true (fun other member => plain other (List.mem_cons_of_mem _ member))]

theorem trimMatches_sublist (s : Text) : (trimMatches edge s).Sublist s :=
  (trimEndMatches_front edge (s.dropWhile edge)).sublist.trans (List.dropWhile_sublist edge)

theorem cleaned_plain (s : Text) (c : Char) (member : c ∈ cleaned s) : blank c = false :=
  collapse_plain false s c ((trimMatches_sublist _).subset member)

theorem cleaned_last (s : Text) (c : Char) (last : (cleaned s).getLast? = some c) : edge c = false :=
  trimEndMatches_last edge _ c last

theorem length_le_byteLen (s : Text) : s.length ≤ byteLen s := by
  induction s with
  | nil => exact Nat.le_refl _
  | cons c rest ih =>
    have positive := Char.utf8Size_pos c
    rw [Seedchamp.Torrentfile.ComponentSafety.byteLen_cons, List.length_cons]
    omega

theorem sanitize_eq (s : Text) : sanitizePathComponent s =
    if cleaned s = [] then "unnamed".toList else (cleaned s).take 200 := by
  have out : trimMatches edge (s.foldl sanitizeStep ([], false)).1 = cleaned s := by
    rw [foldl_sanitizeStep]
    rfl
  rw [sanitizePathComponent, out]
  by_cases empty : cleaned s = []
  · rw [if_pos empty, if_pos (by rw [empty]; rfl)]
  · rw [if_neg empty, if_neg (fun none => empty (List.isEmpty_iff.1 none))]
    by_cases long : 200 < byteLen (cleaned s)
    · rw [if_pos long]
    · have short := length_le_byteLen (cleaned s)
      rw [if_neg long, List.take_of_length_le (by omega)]

/-- A name that is one component of a path, on every system, and that is not changed again. -/
structure GoodName (name : Text) : Prop where
  nonempty : name ≠ []
  short : byteLen name ≤ 255
  here : name ≠ ['.']
  parent : name ≠ ['.', '.']
  plain : ∀ c ∈ name, reserved c = false
  fixed : sanitizePathComponent name = name

/-- The first 200 characters take up to 255 bytes, and where there are more, the 200th is kept at an
end. -/
def Fits (name : Text) : Prop :=
  byteLen (name.take 200) ≤ 255 ∧ ∀ c, 200 < name.length → name[199]? = some c → c ≠ '.' ∧ c ≠ '_'

/-- Every sanitised name is nonempty, begins with a kept character and has no blanks. -/
theorem sanitize_basic (s : Text) : sanitizePathComponent s ≠ [] ∧
    (∀ c, (sanitizePathComponent s).head? = some c → edge c = false) ∧
    ∀ c ∈ sanitizePathComponent s, blank c = false := by
  rw [sanitize_eq]
  by_cases empty : cleaned s = []
  · rw [if_pos empty]
    have letters : "unnamed".toList.all (fun c => !blank c) = true := by decide
    refine ⟨by decide, fun c head => ?_, fun c member => ?_⟩
    · rw [← Option.some.inj head]
      decide
    · exact Bool.not_eq_true' _ ▸ List.all_eq_true.1 letters c member
  · rw [if_neg empty]
    have front := List.take_prefix 200 (cleaned s)
    have nonempty : (cleaned s).take 200 ≠ [] := by
      rw [Ne, List.take_eq_nil_iff, not_or]
      exact ⟨by decide, empty⟩
    refine ⟨nonempty, fun c head => ?_, fun c member => cleaned_plain s c (front.subset member)⟩
    rw [head_of_front _ _ front nonempty] at head
    exact trimMatches_head edge _ c head

theorem sanitize_solid (s : Text) : Solid (sanitizePathComponent s) := by
  obtain ⟨nonempty, head, plain⟩ := sanitize_basic s
  refine ⟨fun separator => absurd (plain '/' separator) (by decide), ?_⟩
  cases shape : sanitizePathComponent s with
  | nil => exact absurd shape nonempty
  | cons c rest =>
    rw [shape] at head
    refine ⟨c, List.mem_cons_self, ?_⟩
    rintro rfl
    exact absurd (head '.' rfl) (by decide)

/-- A name without blanks that begins with a kept character stays as it is when it also ends with one
and has no more than 200 characters. -/
theorem sanitize_fixed_iff (name : Text) (nonempty : name ≠ []) (small : name.length ≤ 200)
    (head : ∀ c, name.head? = some c → edge c = false) (plain : ∀ c ∈ name, blank c = false) :
    sanitizePathComponent name = name ↔ ∀ c, name.getLast? = some c → edge c = false := by
  have same : collapse false name = name := collapse_of_plain false name plain
  rw [sanitize_eq, cleaned, same]
  constructor
  · intro fixed c last
    by_cases empty : trimMatches edge name = []
    · cases name with
      | nil => exact absurd rfl nonempty
      | cons first rest =>
        have kept := head first rfl
        have started : (first :: rest).dropWhile edge = first :: rest :=
          List.dropWhile_cons_of_neg (by rw [kept]; decide)
        rw [trimMatches_eq, started] at empty
        have gone := List.rdropWhile_eq_nil_iff.1 empty first List.mem_cons_self
        rw [kept] at gone
        cases gone
    · rw [if_neg empty] at fixed
      have shorter := (List.take_prefix 200 (trimMatches edge name)).length_le
      have equal : trimMatches edge name = name :=
        (trimMatches_sublist name).eq_of_length_le (by rw [fixed] at shorter; exact shorter)
      refine trimEndMatches_last edge (name.dropWhile edge) c ?_
      rw [← trimMatches_eq, equal]
      exact last
  · intro back
    have kept := trimMatches_self edge name head back
    rw [kept, if_neg nonempty, List.take_of_length_le small]

/-- What is made of a name is good exactly where the cleaned name fits. -/
theorem goodName_iff (s : Text) : GoodName (sanitizePathComponent s) ↔ Fits (cleaned s) := by
  obtain ⟨nonempty, head, plain⟩ := sanitize_basic s
  have eq := sanitize_eq s
  have no_dot : (sanitizePathComponent s).head? ≠ some '.' := fun first => absurd (head '.' first) (by decide)
  have others : GoodName (sanitizePathComponent s) ↔ byteLen (sanitizePathComponent s) ≤ 255 ∧
      sanitizePathComponent (sanitizePathComponent s) = sanitizePathComponent s := by
    constructor
    · exact fun good => ⟨good.short, good.fixed⟩
    · rintro ⟨short, fixed⟩
      refine ⟨nonempty, short, fun same => no_dot (by rw [same]; rfl), fun same => no_dot (by rw [same]; rfl), ?_, fixed⟩
      intro c member
      exact (Bool.or_eq_false_iff.1 (plain c member)).1
  rw [others]
  by_cases empty : cleaned s = []
  · rw [if_pos empty] at eq
    rw [eq, empty]
    constructor
    · rintro -
      exact ⟨by decide, fun c long => absurd long (by decide)⟩
    · rintro -
      exact ⟨by decide, by decide⟩
  · rw [if_neg empty] at eq
    have small : (sanitizePathComponent s).length ≤ 200 := by
      rw [eq, List.length_take]
      exact Nat.min_le_left _ _
    rw [sanitize_fixed_iff _ nonempty small head plain, eq, Fits]
    refine and_congr_right (fun _ => ?_)
    by_cases long : 200 < (cleaned s).length
    · have last : ((cleaned s).take 200).getLast? = (cleaned s)[199]? := by
        rw [List.getLast?_take, if_neg (by decide)]
        rw [List.getElem?_eq_getElem (by omega)]
        rfl
      rw [last]
      refine forall_congr' (fun c => ?_)
      constructor
      · exact fun kept _ here => (edge_blank c (cleaned_plain s c (List.mem_of_getElem? here))).1 (kept here)
      · exact fun kept here => (edge_blank c (cleaned_plain s c (List.mem_of_getElem? here))).2 (kept long here)
    · rw [List.take_of_length_le (by omega)]
      constructor
      · exact fun _ c more => absurd more long
      · exact fun _ c last => cleaned_last s c last

end Seedchamp.Library.DownloadPath
