import Mathlib.Algebra.GroupWithZero.Nat
import Mathlib.Data.List.Basic
import Mathlib.Tactic.SplitIfs

/-!
Unix paths as texts: the last component of a path, the path without it, and a path with one more
component. Separators in a row are one, and a dot is a component only at the front of a path.
-/

namespace Seedchamp.Foundation.PathText

/-! ### Components -/

def segments (path : List Char) : List (List Char) := path.splitOn '/'

def rooted (path : List Char) : Bool := path.head? = some '/'

/-- Segments from the last one on, up to the last that is a component. -/
def trimmed : List (List Char) → List (List Char)
  | [] => []
  | [first] => if first = [] then [] else [first]
  | last :: next :: rest =>
    if last = [] ∨ last = ['.'] then trimmed (next :: rest) else last :: next :: rest

/-- The segments of a path from its last component back. -/
def components (path : List Char) : List (List Char) := trimmed (segments path).reverse

/-- The text of segments that are given from the last one on. -/
def textOf (root : Bool) (segs : List (List Char)) : List Char :=
  if segs = [] then (if root then ['/'] else []) else List.intercalate ['/'] segs.reverse

/-- `Path::file_name`. -/
def fileName (path : List Char) : Option (List Char) :=
  match components path with
  | [] => none
  | last :: _ => if last = ['.'] ∨ last = ['.', '.'] then none else some last

/-- `Path::parent`. -/
def parent (path : List Char) : Option (List Char) :=
  match components path with
  | [] => none
  | _ :: rest => some (textOf (rooted path) (trimmed rest))

/-- `Path::join`: an absolute path replaces what it is joined to. -/
def join (path name : List Char) : List Char :=
  if rooted name then name
  else if path = [] ∨ path.getLast? = some '/' then path ++ name
  else path ++ '/' :: name

/-- A path without the separators and dots at its end. -/
def trimPath (path : List Char) : List Char := textOf (rooted path) (components path)

/-- The name of an entry of a directory. -/
def Plain (name : List Char) : Prop :=
  name ≠ [] ∧ '/' ∉ name ∧ name ≠ ['.'] ∧ name ≠ ['.', '.']

instance (name : List Char) : Decidable (Plain name) := inferInstanceAs (Decidable (_ ∧ _))

example : fileName "/dl//pack/./".toList = some "pack".toList ∧
    parent "/dl//pack/./".toList = some "/dl".toList ∧ parent "pack".toList = some [] := by decide

/-! ### Joining a plain name -/

theorem segments_append (path name : List Char) :
    segments (path ++ '/' :: name) = segments path ++ segments name :=
  List.splitOn_append_cons_self path name

theorem segments_plain (name : List Char) (plain : Plain name) : segments name = [name] :=
  List.splitOn_eq_singleton plain.2.1

theorem segments_ne_nil (path : List Char) : segments path ≠ [] := List.splitOn_ne_nil '/' path

theorem trimmed_plain (name : List Char) (rest : List (List Char)) (plain : Plain name) :
    trimmed (name :: rest) = name :: rest := by
  cases rest with
  | nil => rw [trimmed, if_neg plain.1]
  | cons next rest =>
    rw [trimmed, if_neg (not_or.2 ⟨plain.1, plain.2.2.1⟩)]

/-- An empty segment at the end counts for nothing. -/
theorem trimmed_empty (rest : List (List Char)) (more : rest ≠ []) : trimmed ([] :: rest) = trimmed rest := by
  cases rest with
  | nil => exact absurd rfl more
  | cons next rest => rw [trimmed, if_pos (.inl rfl)]

/-- The joined name is the last component, and the path is what stands before it. -/
theorem components_join (path name : List Char) (plain : Plain name) :
    ∃ rest, components (join path name) = name :: rest ∧ trimmed rest = components path := by
  have relative : ¬ rooted name = true := by
    rw [rooted, decide_eq_true_eq]
    exact fun head => plain.2.1 (List.mem_of_head? head)
  have behind : ∀ front, components (front ++ '/' :: name) = name :: (segments front).reverse := by
    intro front
    rw [components, segments_append, segments_plain name plain, List.reverse_append,
      List.reverse_singleton, List.singleton_append, trimmed_plain name _ plain]
  rw [join, if_neg relative]
  by_cases closed : path = [] ∨ path.getLast? = some '/'
  · rw [if_pos closed]
    rcases closed with rfl | last
    · refine ⟨[], ?_, rfl⟩
      rw [List.nil_append, components, segments_plain name plain]
      exact trimmed_plain name [] plain
    · obtain ⟨front, rfl⟩ := List.getLast?_eq_some_iff.1 last
      refine ⟨(segments front).reverse, ?_, ?_⟩
      · rw [List.append_assoc]
        exact behind front
      · have empty : segments [] = [[]] := rfl
        rw [components, segments_append, empty, List.reverse_append, List.reverse_singleton,
          List.singleton_append, trimmed_empty]
        exact fun none => segments_ne_nil front (List.reverse_eq_nil_iff.1 none)
  · rw [if_neg closed]
    exact ⟨_, behind path, rfl⟩

theorem rooted_join (path name : List Char) (plain : Plain name) :
    rooted (join path name) = rooted path := by
  have relative : rooted name = false := by
    rw [rooted, decide_eq_false_iff_not]
    exact fun head => plain.2.1 (List.mem_of_head? head)
  rw [join, relative]
  cases path with
  | nil => exact relative
  | cons c path =>
    rw [if_neg Bool.false_ne_true]
    by_cases closed : c :: path = [] ∨ (c :: path).getLast? = some '/'
    · rw [if_pos closed]
      rfl
    · rw [if_neg closed]
      rfl

theorem fileName_join (path name : List Char) (plain : Plain name) :
    fileName (join path name) = some name := by
  obtain ⟨rest, joined, -⟩ := components_join path name plain
  rw [fileName, joined]
  exact if_neg (not_or.2 plain.2.2)

theorem parent_join (path name : List Char) (plain : Plain name) :
    parent (join path name) = some (trimPath path) := by
  obtain ⟨rest, joined, before⟩ := components_join path name plain
  rw [parent, joined, rooted_join path name plain, trimPath, ← before]

/-! ### What a path consists of -/

theorem not_mem_segments (path : List Char) : ∀ seg ∈ segments path, '/' ∉ seg := by
  induction path with
  | nil =>
    intro seg member
    rw [List.mem_singleton.1 member]
    exact List.not_mem_nil
  | cons c path ih =>
    rw [segments, List.splitOn_cons_eq_if_modifyHead]
    rw [segments] at ih
    intro seg member
    by_cases slash : c = '/'
    · rw [if_pos (beq_iff_eq.2 slash)] at member
      rcases List.mem_cons.1 member with rfl | later
      · exact List.not_mem_nil
      · exact ih seg later
    · rw [if_neg (fun same => slash (beq_iff_eq.1 same))] at member
      obtain ⟨first, rest, split⟩ := List.exists_cons_of_ne_nil (List.splitOn_ne_nil '/' path)
      rw [split] at member ih
      rcases List.mem_cons.1 member with rfl | later
      · intro inside
        rcases List.mem_cons.1 inside with same | old
        · exact slash same.symm
        · exact ih first List.mem_cons_self old
      · exact ih seg (List.mem_cons_of_mem _ later)

theorem trimmed_suffix (segs : List (List Char)) : trimmed segs <:+ segs := by
  induction segs using trimmed.induct with
  | case1 => exact List.suffix_rfl
  | case2 => exact List.nil_suffix
  | case3 first nonempty =>
    simp only [trimmed, if_neg nonempty, List.suffix_rfl]
  | case4 last next rest empty ih =>
    rw [trimmed, if_pos empty]
    exact ih.trans (List.suffix_cons _ _)
  | case5 last next rest full =>
    simp only [trimmed, if_neg full, List.suffix_rfl]

theorem head_trimmed (segs : List (List Char)) (last : List Char) (rest : List (List Char))
    (found : trimmed segs = last :: rest) : last ≠ [] := by
  induction segs using trimmed.induct with
  | case1 => cases found
  | case2 => cases found
  | case3 first nonempty =>
    rw [trimmed, if_neg nonempty] at found
    cases found
    exact nonempty
  | case4 last' next rest' empty ih =>
    rw [trimmed, if_pos empty] at found
    exact ih found
  | case5 last' next rest' full =>
    rw [trimmed, if_neg full] at found
    cases found
    exact fun none => full (.inl none)

theorem plain_of_fileName (path name : List Char) (found : fileName path = some name) : Plain name := by
  rw [fileName] at found
  cases split : components path with
  | nil =>
    rw [split] at found
    cases found
  | cons last rest =>
    rw [split] at found
    dsimp only at found
    split_ifs at found with dots
    cases found
    have inside : name ∈ components path := split ▸ List.mem_cons_self
    have member := List.mem_reverse.1 ((trimmed_suffix _).subset inside)
    exact ⟨head_trimmed _ name rest split, not_mem_segments path name member,
      fun dot => dots (.inl dot), fun dot => dots (.inr dot)⟩

/-! ### The parent is shorter -/

/-- The characters of segments, with a separator behind each. -/
def weight (segs : List (List Char)) : Nat := (segs.map (fun seg => seg.length + 1)).sum

theorem weight_cons (seg : List Char) (segs : List (List Char)) :
    weight (seg :: segs) = seg.length + 1 + weight segs := by
  rw [weight, List.map_cons, List.sum_cons, weight]

theorem weight_reverse (segs : List (List Char)) : weight segs.reverse = weight segs := by
  rw [weight, List.map_reverse, List.sum_reverse, weight]

theorem length_intercalate (segs : List (List Char)) (nonempty : segs ≠ []) :
    (List.intercalate ['/'] segs).length + 1 = weight segs := by
  induction segs with
  | nil => exact absurd rfl nonempty
  | cons first rest ih =>
    cases rest with
    | nil =>
      rw [List.intercalate_singleton]
      rfl
    | cons next rest =>
      have tail := ih (List.cons_ne_nil _ _)
      rw [List.intercalate_cons_cons, weight_cons, ← tail, List.length_append, List.length_append,
        List.length_singleton]
      omega

theorem weight_suffix (segs more : List (List Char)) (inside : segs <:+ more) :
    weight segs ≤ weight more := by
  obtain ⟨front, rfl⟩ := inside
  rw [weight, weight, List.map_append, List.sum_append]
  exact Nat.le_add_left _ _

theorem weight_segments (path : List Char) : weight (segments path) = path.length + 1 := by
  rw [← length_intercalate _ (segments_ne_nil path), segments, List.intercalate_splitOn]

/-- A path is longer than its parent. -/
theorem parent_shorter (path before : List Char) (found : parent path = some before) :
    before.length < path.length := by
  rw [parent] at found
  cases split : components path with
  | nil =>
    rw [split] at found
    cases found
  | cons last rest =>
    rw [split] at found
    cases found
    have shorter : weight rest + 2 ≤ path.length + 1 := by
      have whole := weight_suffix _ _ (trimmed_suffix (segments path).reverse)
      have nonempty := List.length_pos_iff.2 (head_trimmed _ last rest split)
      have first : weight (components path) = last.length + 1 + weight rest := by
        rw [split, weight_cons]
      rw [components] at first
      rw [weight_reverse, weight_segments] at whole
      omega
    by_cases none : trimmed rest = []
    · have two : rooted path = true → 2 ≤ path.length := by
        intro root
        cases path with
        | nil => cases root
        | cons c path =>
          cases path with
          | nil =>
            rw [rooted, decide_eq_true_eq, List.head?_cons, Option.some_inj] at root
            rw [root] at split
            cases split
          | cons d path => exact Nat.le_add_left 2 path.length
      rw [textOf, if_pos none]
      by_cases root : rooted path = true
      · rw [if_pos root]
        exact two root
      · rw [if_neg root]
        change 0 < path.length
        omega
    · have kept := weight_suffix _ _ (trimmed_suffix rest)
      have text := length_intercalate (trimmed rest).reverse
        (fun empty => none (List.reverse_eq_nil_iff.1 empty))
      rw [weight_reverse] at text
      rw [textOf, if_neg none]
      omega

end Seedchamp.Foundation.PathText
