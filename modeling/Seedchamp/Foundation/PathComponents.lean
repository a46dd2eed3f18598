import Seedchamp.Foundation.PathText
import Seedchamp.Foundation.Placeholders

/-!
The components of a path, and why a placeholder and a name in its place make the same number of them.
-/

namespace Seedchamp.Foundation.PathComponents
open Foundation.PathText Foundation.Placeholders

inductive Component where
  | rootDir
  | curDir
  | parentDir
  | normal (name : List Char)
  deriving DecidableEq

def segmentComponent (segment : List Char) : Option Component :=
  if segment = [] ∨ segment = ['.'] then none
  else if segment = ['.', '.'] then some .parentDir
  else some (.normal segment)

/-- `Path::components`: separators in a row are one, and a dot counts only at the front. -/
def components (path : List Char) : List Component :=
  (if rooted path then [.rootDir] else if (segments path).head? = some ['.'] then [.curDir] else []) ++
    (segments path).filterMap segmentComponent

/-- What a segment is made of, as far as its component depends on it. -/
inductive Shape where
  | empty
  | dot
  | dots
  | name
  deriving DecidableEq

def Shape.next (c : Char) : Shape → Shape
  | .empty => if c = '.' then .dot else .name
  | .dot => if c = '.' then .dots else .name
  | .dots => .name
  | .name => .name

def Shape.isComponent : Shape → Bool
  | .empty => false
  | .dot => false
  | .dots => true
  | .name => true

/-- The shapes of the segments, the first of them begun. -/
def shapes : Shape → List Char → List Shape
  | begun, [] => [begun]
  | begun, c :: rest => if c = '/' then begun :: shapes .empty rest else shapes (begun.next c) rest

def shapeOf (segment : List Char) : Shape := segment.foldl (fun shape c => shape.next c) .empty

theorem shapes_segments (begun path : List Char) :
    shapes (shapeOf begun) path = ((segments path).modifyHead (begun ++ ·)).map shapeOf := by
  induction path generalizing begun with
  | nil =>
    rw [segments, List.splitOn_nil, List.modifyHead_cons, List.append_nil]
    rfl
  | cons c rest ih =>
    rw [shapes, segments, List.splitOn, List.splitOnP_cons_eq_if_modifyHead]
    by_cases separator : c = '/'
    · rw [if_pos separator, if_pos (beq_iff_eq.2 separator), List.modifyHead_cons, List.append_nil, List.map_cons]
      have later := ih []
      change shapes .empty rest = ((rest.splitOnP (· == '/')).modifyHead id).map shapeOf at later
      rw [List.modifyHead_id] at later
      exact congrArg (List.cons (shapeOf begun)) later
    · rw [if_neg separator, if_neg (fun same => separator (beq_iff_eq.1 same))]
      have later := ih (begun ++ [c])
      rw [shapeOf, List.foldl_append] at later
      rw [List.modifyHead_modifyHead]
      have grown : ((begun ++ ·) ∘ List.cons c) = (begun ++ [c] ++ ·) := by
        funext piece
        rw [Function.comp_apply, List.append_assoc, List.singleton_append]
      rw [grown]
      exact later

theorem foldl_name (segment : List Char) : segment.foldl (fun shape c => shape.next c) Shape.name = .name := by
  induction segment with
  | nil => rfl
  | cons c rest ih => exact ih

theorem foldl_dots (c : Char) (segment : List Char) :
    (c :: segment).foldl (fun shape c => shape.next c) Shape.dots = .name := foldl_name segment

/-- The shape tells which component the segment is. -/
theorem shapeOf_cases (segment : List Char) :
    (segment = [] ∧ shapeOf segment = .empty) ∨ (segment = ['.'] ∧ shapeOf segment = .dot) ∨
      (segment = ['.', '.'] ∧ shapeOf segment = .dots) ∨
      ((segment ≠ [] ∧ segment ≠ ['.'] ∧ segment ≠ ['.', '.']) ∧ shapeOf segment = .name) := by
  cases segment with
  | nil => exact Or.inl ⟨rfl, rfl⟩
  | cons a rest =>
    right
    by_cases first : a = '.'
    · rw [first]
      cases rest with
      | nil => exact Or.inl ⟨rfl, rfl⟩
      | cons b rest =>
        right
        by_cases second : b = '.'
        · rw [second]
          cases rest with
          | nil => exact Or.inl ⟨rfl, rfl⟩
          | cons c rest => exact Or.inr ⟨by simp, foldl_dots c rest⟩
        · refine Or.inr ⟨by simp [second], ?_⟩
          rw [shapeOf, List.foldl_cons, List.foldl_cons, Shape.next, if_pos rfl, Shape.next, if_neg second]
          exact foldl_name rest
    · refine Or.inr (Or.inr ⟨by simp [first], ?_⟩)
      rw [shapeOf, List.foldl_cons, Shape.next, if_neg first]
      exact foldl_name rest

theorem segmentComponent_isSome (segment : List Char) :
    (segmentComponent segment).isSome = (shapeOf segment).isComponent := by
  rcases shapeOf_cases segment with ⟨rfl, shape⟩ | ⟨rfl, shape⟩ | ⟨rfl, shape⟩ | ⟨other, shape⟩
  · rw [shape]
    rfl
  · rw [shape]
    rfl
  · rw [shape]
    rfl
  · rw [shape, segmentComponent, if_neg (not_or.2 ⟨other.1, other.2.1⟩), if_neg other.2.2]
    rfl

theorem shapeOf_dot (segment : List Char) : shapeOf segment = .dot ↔ segment = ['.'] := by
  rcases shapeOf_cases segment with ⟨rfl, shape⟩ | ⟨rfl, shape⟩ | ⟨rfl, shape⟩ | ⟨other, shape⟩
  · rw [shape]
    exact ⟨fun clash => (by cases clash), fun clash => by cases clash⟩
  · exact ⟨fun _ => rfl, fun _ => shape⟩
  · rw [shape]
    exact ⟨fun clash => (by cases clash), fun clash => by cases clash⟩
  · rw [shape]
    exact ⟨fun clash => (by cases clash), fun same => absurd same other.2.1⟩

/-- How many components a path has, by the shapes of its segments. -/
theorem components_length (path : List Char) : (components path).length =
    (if rooted path then 1 else if (shapes .empty path).head? = some .dot then 1 else 0) +
      (shapes .empty path).countP Shape.isComponent := by
  have read := shapes_segments [] path
  change shapes .empty path = ((segments path).modifyHead id).map shapeOf at read
  rw [List.modifyHead_id, id_eq] at read
  have named : ((segments path).filterMap segmentComponent).length =
      (shapes .empty path).countP Shape.isComponent := by
    rw [List.length_filterMap_eq_countP, read, List.countP_map]
    refine List.countP_congr (fun segment _ => ?_)
    rw [segmentComponent_isSome]
    exact Iff.rfl
  have first : (shapes .empty path).head? = some .dot ↔ (segments path).head? = some ['.'] := by
    rw [read]
    cases segments path with
    | nil => exact ⟨fun clash => (by cases clash), fun clash => by cases clash⟩
    | cons segment rest =>
      rw [List.map_cons, List.head?_cons, List.head?_cons, Option.some_inj, Option.some_inj]
      exact shapeOf_dot segment
  rw [components, List.length_append, named]
  congr 1
  by_cases absolute : rooted path = true
  · rw [if_pos absolute, if_pos absolute]
    rfl
  · rw [if_neg absolute, if_neg absolute]
    by_cases dot : (segments path).head? = some ['.']
    · rw [if_pos dot, if_pos (first.2 dot)]
      rfl
    · rw [if_neg dot, if_neg (fun same => dot (first.1 same))]
      rfl

/-! ### Names -/

/-- A text within one segment that makes it a name. -/
structure Solid (name : List Char) : Prop where
  unseparated : '/' ∉ name
  named : ∃ c ∈ name, c ≠ '.'

theorem shapes_name (name rest : List Char) (unseparated : '/' ∉ name) :
    shapes .name (name ++ rest) = shapes .name rest := by
  induction name with
  | nil => rfl
  | cons c name ih =>
    rw [List.mem_cons, not_or] at unseparated
    rw [List.cons_append, shapes, if_neg (fun same => unseparated.1 same.symm)]
    exact ih unseparated.2

theorem shapes_solid (begun : Shape) (name rest : List Char) (solid : Solid name) :
    shapes begun (name ++ rest) = shapes .name rest := by
  obtain ⟨unseparated, c, member, different⟩ := solid
  induction name generalizing begun with
  | nil => cases member
  | cons first name ih =>
    rw [List.mem_cons, not_or] at unseparated
    rw [List.cons_append, shapes, if_neg (fun same => unseparated.1 same.symm)]
    rcases List.mem_cons.1 member with rfl | later
    · have next : begun.next c = .name := by
        cases begun with
        | empty | dot => exact if_neg different
        | _ => rfl
      rw [next]
      exact shapes_name name rest unseparated.2
    · exact ih _ unseparated.2 later

theorem shapes_fill {κ : Type} (value value' : κ → List Char) (tokens : List (Token Char κ)) (begun : Shape)
    (solid : ∀ k, .key k ∈ tokens → Solid (value k) ∧ Solid (value' k)) :
    shapes begun (fill value tokens) = shapes begun (fill value' tokens) := by
  induction tokens generalizing begun with
  | nil => rfl
  | cons token rest ih =>
    have later := fun begun => ih begun (fun k member => solid k (List.mem_cons_of_mem _ member))
    rw [fill_cons, fill_cons]
    cases token with
    | char c =>
      rw [Token.text, Token.text, List.singleton_append, List.singleton_append, shapes, shapes]
      split_ifs
      · rw [later]
      · exact later _
    | key k =>
      obtain ⟨left, right⟩ := solid k List.mem_cons_self
      rw [Token.text, Token.text, shapes_solid begun _ _ left, shapes_solid begun _ _ right]
      exact later _

theorem rooted_fill {κ : Type} (value value' : κ → List Char) (tokens : List (Token Char κ))
    (solid : ∀ k, .key k ∈ tokens → Solid (value k) ∧ Solid (value' k)) :
    rooted (fill value tokens) = rooted (fill value' tokens) := by
  have unrooted : ∀ name rest : List Char, Solid name → rooted (name ++ rest) = false := by
    intro name rest good
    obtain ⟨unseparated, c, member, -⟩ := good
    cases name with
    | nil => cases member
    | cons first name =>
      rw [List.mem_cons, not_or] at unseparated
      rw [rooted, List.cons_append, List.head?_cons, decide_eq_false_iff_not, Option.some_inj]
      exact fun same => unseparated.1 same.symm
  cases tokens with
  | nil => rfl
  | cons token rest =>
    cases token with
    | char c => rfl
    | key k =>
      obtain ⟨left, right⟩ := solid k List.mem_cons_self
      rw [fill_cons, fill_cons, Token.text, Token.text, unrooted _ _ left, unrooted _ _ right]

/-- With names for placeholders a path has a fixed number of components. -/
theorem components_replace (pattern value text : List Char) (nonempty : pattern ≠ []) (solid : Solid pattern)
    (solid' : Solid value) : (components (replace pattern value text)).length = (components text).length := by
  have both : ∀ k, .key k ∈ marks pattern text → Solid value ∧ Solid pattern := fun _ _ => ⟨solid', solid⟩
  have same := shapes_fill (fun _ => value) (fun _ => pattern) (marks pattern text) .empty both
  have root := rooted_fill (fun _ => value) (fun _ => pattern) (marks pattern text) both
  rw [fill_marks pattern nonempty text] at same root
  rw [components_length, components_length, replace, same, root]

end Seedchamp.Foundation.PathComponents
