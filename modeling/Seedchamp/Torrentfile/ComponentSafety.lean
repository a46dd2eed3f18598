import Mathlib.Data.List.DropRight
import Seedchamp.Torrentfile.Placement

/-!
What the normalisation of a path component guarantees: a safe name that it would not change again,
unless the cut at the length limit leaves nothing of the name.
-/

namespace Seedchamp.Torrentfile.ComponentSafety
open Torrentfile.Bencode Torrentfile.Parse Torrentfile.Geometry Torrentfile.Placement
open Disk.Spans (PathBuf)

/-- The characters that never stand in a component. -/
def replaced (c : Char) : Bool := (c == '/' || c == '\\' || c.toNat == 0) || isControl c

/-- A text with each run of such characters as one underscore. -/
def shown : List Char → List Char
  | [] => []
  | c :: rest => if replaced c then '_' :: shown (rest.dropWhile replaced) else c :: shown rest
termination_by s => s.length
decreasing_by
  · exact Nat.lt_succ_of_le (List.dropWhile_sublist replaced).length_le
  · exact Nat.lt_succ_self _

def trimmed (c : Char) : Bool := c == '.' || c == ' ' || c == '\t'

def filler (c : Char) : Bool := c == '.' || c == ' ' || c == '_'

/-- A component as it is shown, without the dots and blanks around it. -/
def stripped (s : List Char) : List Char := trimMatches trimmed (shown (s.dropWhile replaced))

/-- The name is longer than the limit, and dots, blanks and underscores fill it up to there. -/
def Vanishes (s : List Char) : Prop :=
  MAX_COMPONENT_BYTES < byteLen (stripped s) ∧
    ∀ c ∈ cutTo MAX_COMPONENT_BYTES (stripped s), filler c = true

/-- A component that names an entry of its directory, and that normalisation leaves as it is. -/
structure Safe (out : List Char) : Prop where
  nonempty : out ≠ []
  short : byteLen out ≤ MAX_COMPONENT_BYTES
  plain : ∀ c ∈ out, c ≠ '/' ∧ c ≠ '\\' ∧ c.toNat ≠ 0 ∧ isControl c = false
  here : out ≠ ['.']
  parent : out ≠ ['.', '.']
  fixed : normalizePathComponent out = some out

theorem shown_nil : shown [] = [] := by rw [shown]

theorem shown_cons (c : Char) (rest : List Char) :
    shown (c :: rest) =
      if replaced c then '_' :: shown (rest.dropWhile replaced) else c :: shown rest := by
  rw [shown]

theorem normalizeStep_eq (out : List Char) (prevUs : Bool) (c : Char) :
    normalizeStep (out, prevUs) c =
      if replaced c then (if !prevUs && !out.isEmpty then (out ++ ['_'], true) else (out, prevUs))
      else (out ++ [c], false) := rfl

/-- The loop writes the text as it is shown, behind what it has written. -/
theorem foldl_shown (s out : List Char) (begun : out ≠ []) :
    (s.foldl normalizeStep (out, false)).1 = out ++ shown s ∧
      (s.foldl normalizeStep (out, true)).1 = out ++ shown (s.dropWhile replaced) := by
  induction s generalizing out with
  | nil =>
    rw [List.dropWhile_nil, shown_nil, List.append_nil]
    exact ⟨rfl, rfl⟩
  | cons c rest ih =>
    have marked := (ih (out ++ ['_']) (by simp)).2
    have kept := (ih (out ++ [c]) (by simp)).1
    rw [List.append_assoc, List.singleton_append] at marked kept
    rw [List.foldl_cons, List.foldl_cons, normalizeStep_eq, normalizeStep_eq, shown_cons]
    by_cases bad : replaced c = true
    · rw [if_pos bad, if_pos bad, if_pos bad, List.dropWhile_cons_of_pos bad,
        if_pos (by simpa using begun), if_neg (by simp)]
      exact ⟨marked, (ih out begun).2⟩
    · rw [if_neg bad, if_neg bad, if_neg bad, List.dropWhile_cons_of_neg bad, shown_cons, if_neg bad]
      exact ⟨kept, kept⟩

theorem cleaned_eq (s : List Char) :
    (s.foldl normalizeStep ([], false)).1 = shown (s.dropWhile replaced) := by
  induction s with
  | nil =>
    rw [List.dropWhile_nil, shown_nil]
    rfl
  | cons c rest ih =>
    rw [List.foldl_cons, normalizeStep_eq]
    by_cases bad : replaced c = true
    · rw [if_pos bad, List.dropWhile_cons_of_pos bad]
      exact ih
    · rw [if_neg bad, List.dropWhile_cons_of_neg bad, shown_cons, if_neg bad]
      exact (foldl_shown rest _ (by simp)).1

theorem shown_plain (s : List Char) (c : Char) (member : c ∈ shown s) : replaced c = false := by
  induction s using shown.induct with
  | case1 =>
    rw [shown_nil] at member
    cases member
  | case2 first rest bad ih =>
    rw [shown_cons, if_pos bad] at member
    rcases List.mem_cons.1 member with head | later
    · rw [head]
      decide
    · exact ih later
  | case3 first rest good ih =>
    rw [shown_cons, if_neg good] at member
    rcases List.mem_cons.1 member with head | later
    · rw [head]
      exact Bool.not_eq_true _ ▸ good
    · exact ih later

theorem shown_of_plain (s : List Char) (plain : ∀ c ∈ s, replaced c = false) : shown s = s := by
  induction s with
  | nil => exact shown_nil
  | cons c rest ih =>
    rw [shown_cons, if_neg (by rw [plain c List.mem_cons_self]; decide),
      ih (fun other member => plain other (List.mem_cons_of_mem _ member))]

section Trim
variable (drops : Char → Bool)

theorem head_of_front (front s : List Char) (inside : front <+: s) (nonempty : front ≠ []) :
    front.head? = s.head? := by
  obtain ⟨rest, rfl⟩ := inside
  cases front with
  | nil => exact absurd rfl nonempty
  | cons c front => rfl

theorem trimEndMatches_front (s : List Char) : trimEndMatches drops s <+: s :=
  List.rdropWhile_prefix drops s

theorem trimEndMatches_last (s : List Char) (c : Char)
    (last : (trimEndMatches drops s).getLast? = some c) : drops c = false := by
  have nonempty : trimEndMatches drops s ≠ [] := by
    intro empty
    rw [empty] at last
    cases last
  have kept := List.rdropWhile_last_not drops s nonempty
  rw [List.getLast?_eq_some_getLast nonempty, Option.some.injEq] at last
  rw [← last, ← Bool.not_eq_true]
  exact kept

theorem trimMatches_eq (s : List Char) :
    trimMatches drops s = trimEndMatches drops (s.dropWhile drops) := rfl

theorem trimMatches_head (s : List Char) (c : Char)
    (head : (trimMatches drops s).head? = some c) : drops c = false := by
  have nonempty : trimMatches drops s ≠ [] := by
    intro empty
    rw [empty] at head
    cases head
  have same := head_of_front _ _ (trimEndMatches_front drops (s.dropWhile drops)) nonempty
  rw [← trimMatches_eq] at same
  rw [same] at head
  have stopped := List.head?_dropWhile_not drops s
  rw [head] at stopped
  exact stopped

/-- Nothing is trimmed from a text that begins and ends with kept characters. -/
theorem trimMatches_self (s : List Char) (front : ∀ c, s.head? = some c → drops c = false)
    (back : ∀ c, s.getLast? = some c → drops c = false) : trimMatches drops s = s := by
  have started : s.dropWhile drops = s := by
    cases s with
    | nil => rfl
    | cons c rest => exact List.dropWhile_cons_of_neg (by rw [front c rfl]; decide)
  rw [trimMatches_eq, started]
  refine List.rdropWhile_eq_self_iff.2 ?_
  intro nonempty
  rw [back _ (List.getLast?_eq_getLast_of_ne_nil nonempty)]
  decide

end Trim

theorem cutTo_front (limit : Nat) (s : List Char) : cutTo limit s <+: s := by
  induction s generalizing limit with
  | nil => exact List.nil_prefix
  | cons c rest ih =>
    rw [cutTo]
    split_ifs
    · exact (List.prefix_cons_inj c).2 (ih _)
    · exact List.nil_prefix

theorem byteLen_cons (c : Char) (rest : List Char) : byteLen (c :: rest) = c.utf8Size + byteLen rest := by
  rw [byteLen, List.map_cons, List.sum_cons, byteLen]

theorem byteLen_cutTo (limit : Nat) (s : List Char) : byteLen (cutTo limit s) ≤ limit := by
  induction s generalizing limit with
  | nil => exact Nat.zero_le _
  | cons c rest ih =>
    rw [cutTo]
    split_ifs with fits
    · have below := ih (limit - c.utf8Size)
      rw [byteLen_cons]
      omega
    · exact Nat.zero_le _

theorem byteLen_front (front s : List Char) (inside : front <+: s) : byteLen front ≤ byteLen s := by
  obtain ⟨rest, rfl⟩ := inside
  rw [byteLen, byteLen, List.map_append, List.sum_append]
  omega

/-- A component that normalisation has to change nothing in is safe. -/
theorem safe_of_kept (out : List Char) (nonempty : out ≠ [])
    (short : byteLen out ≤ MAX_COMPONENT_BYTES) (plain : ∀ c ∈ out, replaced c = false)
    (front : ∀ c, out.head? = some c → trimmed c = false)
    (back : ∀ c, out.getLast? = some c → trimmed c = false) : Safe out := by
  have no_dot : out.head? ≠ some '.' := by
    intro head
    exact absurd (front '.' head) (by decide)
  have here : out ≠ ['.'] := fun same => no_dot (by rw [same]; rfl)
  have parent : out ≠ ['.', '.'] := fun same => no_dot (by rw [same]; rfl)
  refine ⟨nonempty, short, ?_, here, parent, ?_⟩
  · intro c member
    have kept := plain c member
    simp only [replaced, Bool.or_eq_false_iff, beq_eq_false_iff_ne] at kept
    exact ⟨kept.1.1.1, kept.1.1.2, kept.1.2, kept.2⟩
  · have started : out.dropWhile replaced = out := by
      cases out with
      | nil => rfl
      | cons c rest => exact List.dropWhile_cons_of_neg (by rw [plain c List.mem_cons_self]; decide)
    have kept : trimMatches trimmed out = out := trimMatches_self trimmed out front back
    have guard : ¬ (out.isEmpty || out == ['.'] || out == ['.', '.']) = true := by
      simp [here, parent, nonempty]
    rw [normalizePathComponent, cleaned_eq, started, shown_of_plain out plain, show (fun c => c == '.' || c == ' ' || c == '\t') = trimmed from rfl, kept, if_neg guard,
      if_neg (by omega)]

/-- What is returned: the stripped component, or what the cut leaves of it. -/
theorem normalize_cases (s out : List Char) (allowed : normalizePathComponent s = some out) :
    stripped s ≠ [] ∧
      (byteLen (stripped s) ≤ MAX_COMPONENT_BYTES ∧ out = stripped s ∨
        MAX_COMPONENT_BYTES < byteLen (stripped s) ∧
          out = trimEndMatches filler (cutTo MAX_COMPONENT_BYTES (stripped s))) := by
  rw [normalizePathComponent, cleaned_eq] at allowed
  change (if (stripped s).isEmpty || stripped s == ['.'] || stripped s == ['.', '.'] then none
    else if MAX_COMPONENT_BYTES < byteLen (stripped s) then
      some (trimEndMatches filler (cutTo MAX_COMPONENT_BYTES (stripped s)))
    else some (stripped s)) = some out at allowed
  by_cases refused : ((stripped s).isEmpty || stripped s == ['.'] || stripped s == ['.', '.']) = true
  · rw [if_pos refused] at allowed
    cases allowed
  · rw [if_neg refused] at allowed
    refine ⟨fun empty => refused (by rw [empty]; rfl), ?_⟩
    by_cases long : MAX_COMPONENT_BYTES < byteLen (stripped s)
    · rw [if_pos long, Option.some.injEq] at allowed
      exact Or.inr ⟨long, allowed.symm⟩
    · rw [if_neg long, Option.some.injEq] at allowed
      exact Or.inl ⟨by omega, allowed.symm⟩

/-- What is refused is too short to vanish. -/
theorem refused_kept (s : List Char) (refused : normalizePathComponent s = none) : ¬ Vanishes s := by
  rintro ⟨long, _⟩
  rw [normalizePathComponent, cleaned_eq] at refused
  change (if (stripped s).isEmpty || stripped s == ['.'] || stripped s == ['.', '.'] then none
    else if MAX_COMPONENT_BYTES < byteLen (stripped s) then
      some (trimEndMatches filler (cutTo MAX_COMPONENT_BYTES (stripped s)))
    else some (stripped s)) = none at refused
  split_ifs at refused with bare
  simp only [Bool.or_eq_true, List.isEmpty_iff, beq_iff_eq] at bare
  rcases bare with (empty | here) | parent
  · exact absurd long (by rw [empty]; decide)
  · exact absurd long (by rw [here]; decide)
  · exact absurd long (by rw [parent]; decide)

theorem stripped_prefix_plain (s front : List Char) (inside : front <+: stripped s) (c : Char)
    (member : c ∈ front) : replaced c = false := by
  have within : c ∈ stripped s := inside.subset member
  have kept : c ∈ (shown (s.dropWhile replaced)).dropWhile trimmed :=
    (trimEndMatches_front trimmed _).subset within
  exact shown_plain _ c ((List.dropWhile_sublist trimmed).subset kept)

theorem stripped_prefix_head (s front : List Char) (inside : front <+: stripped s) (c : Char)
    (head : front.head? = some c) : trimmed c = false := by
  have nonempty : front ≠ [] := by
    intro empty
    rw [empty] at head
    cases head
  rw [head_of_front front _ inside nonempty] at head
  exact trimMatches_head trimmed _ c head

/-- Nothing is returned of a component exactly where the cut leaves only fillers. -/
theorem normalize_empty_iff (s out : List Char) (allowed : normalizePathComponent s = some out) :
    out = [] ↔ Vanishes s := by
  obtain ⟨nonempty, ⟨short, same⟩ | ⟨long, same⟩⟩ := normalize_cases s out allowed
  · rw [same]
    exact ⟨fun empty => absurd empty nonempty, fun vanishes => absurd vanishes.1 (by omega)⟩
  · rw [same]
    have empty_iff : trimEndMatches filler (cutTo MAX_COMPONENT_BYTES (stripped s)) = [] ↔
        ∀ c ∈ cutTo MAX_COMPONENT_BYTES (stripped s), filler c = true := List.rdropWhile_eq_nil_iff
    rw [empty_iff]
    exact ⟨fun fillers => ⟨long, fillers⟩, fun vanishes => vanishes.2⟩

/-- A component is safe exactly where the cut leaves something of it. -/
theorem safe_iff (s out : List Char) (allowed : normalizePathComponent s = some out) :
    Safe out ↔ ¬ Vanishes s := by
  have empty_iff := normalize_empty_iff s out allowed
  constructor
  · intro safe vanishes
    exact safe.nonempty (empty_iff.2 vanishes)
  · intro kept
    have nonempty : out ≠ [] := fun empty => kept (empty_iff.1 empty)
    obtain ⟨_, ⟨short, same⟩ | ⟨long, same⟩⟩ := normalize_cases s out allowed
    · have inside : out <+: stripped s := same ▸ List.prefix_refl _
      refine safe_of_kept out nonempty (same ▸ short) (stripped_prefix_plain s out inside)
        (stripped_prefix_head s out inside) ?_
      intro c last
      rw [same] at last
      exact trimEndMatches_last trimmed _ c last
    · have cut := trimEndMatches_front filler (cutTo MAX_COMPONENT_BYTES (stripped s))
      have inside : out <+: stripped s := same ▸ cut.trans (cutTo_front _ _)
      have short : byteLen out ≤ MAX_COMPONENT_BYTES := by
        rw [same]
        exact (byteLen_front _ _ cut).trans (byteLen_cutTo _ _)
      have plain := stripped_prefix_plain s out inside
      refine safe_of_kept out nonempty short plain (stripped_prefix_head s out inside) ?_
      intro c last
      have member := List.mem_of_getLast? last
      rw [same] at last
      have kept := trimEndMatches_last filler _ c last
      have no_tab : c ≠ '\t' := by
        intro tab
        exact absurd (plain c member) (by rw [tab]; decide)
      simp only [filler, Bool.or_eq_false_iff, beq_eq_false_iff_ne] at kept
      simp only [trimmed, Bool.or_eq_false_iff, beq_eq_false_iff_ne]
      exact ⟨kept.1, no_tab⟩

/-- A name that stands for one entry of the directory it is joined to. -/
structure Plain (name : String) : Prop where
  nonempty : name.toList ≠ []
  whole : ∀ c ∈ name.toList, c ≠ '/' ∧ c ≠ '\\' ∧ c.toNat ≠ 0
  here : name.toList ≠ ['.']
  parent : name.toList ≠ ['.', '.']

/-- The path leads from the root down, by at least one name. -/
def StrictlyBelow (root path : PathBuf) : Prop :=
  ∃ names, path = root ++ names ∧ names ≠ [] ∧ ∀ name ∈ names, Plain name

theorem plain_of_safe (out : List Char) (safe : Safe out) : Plain (String.ofList out) := by
  constructor
  · rw [String.toList_ofList]
    exact safe.nonempty
  · rw [String.toList_ofList]
    intro c member
    obtain ⟨slash, backslash, nul, _⟩ := safe.plain c member
    exact ⟨slash, backslash, nul⟩
  · rw [String.toList_ofList]
    exact safe.here
  · rw [String.toList_ofList]
    exact safe.parent

/-- What a declared component leaves of the path, where the parser accepts it. -/
theorem normalised_cases (comp : List Char) (allowed : (normalizePathComponent comp).isSome = true) :
    (normalised comp = [] ↔ Vanishes comp) ∧ (normalised comp ≠ [] → Safe (normalised comp)) := by
  obtain ⟨out, same⟩ := Option.isSome_iff_exists.1 allowed
  rw [normalised, same, Option.getD_some]
  refine ⟨normalize_empty_iff comp out same, ?_⟩
  intro nonempty
  exact (safe_iff comp out same).2 (fun vanishes => nonempty ((normalize_empty_iff comp out same).2 vanishes))

theorem push_empty_iff (name : List Char) : push [] name = [] ↔ name = [] := by
  rw [push]
  cases name with
  | nil => exact ⟨fun _ => rfl, fun _ => rfl⟩
  | cons c rest => exact ⟨(fun clash => by cases clash), (fun clash => by cases clash)⟩

theorem mem_push (name : List Char) (part : String) (member : part ∈ push [] name) :
    name ≠ [] ∧ part = String.ofList name := by
  rw [push] at member
  cases name with
  | nil => cases member
  | cons c rest => exact ⟨(fun clash => by cases clash), List.mem_singleton.1 member⟩

theorem unnamed_safe : Safe "unnamed".toList := by
  have plain : "unnamed".toList.all (fun c => !replaced c) = true := by decide
  refine safe_of_kept _ (by decide) (by decide) ?_ ?_ ?_
  · intro c member
    exact Bool.not_eq_true' _ ▸ List.all_eq_true.1 plain c member
  · intro c head
    cases head
    decide
  · intro c last
    cases last
    decide

theorem torrentNameOf_cases (info : Value) :
    (torrentNameOf info = [] ↔ Vanishes (nameOf info)) ∧
      (torrentNameOf info ≠ [] → Safe (torrentNameOf info)) := by
  cases given : normalizePathComponent (nameOf info) with
  | none =>
    have same : torrentNameOf info = "unnamed".toList := by rw [torrentNameOf, given]; rfl
    rw [same]
    refine ⟨⟨fun empty => absurd empty (by decide), ?_⟩, fun _ => unnamed_safe⟩
    exact fun vanishes => absurd vanishes (refused_kept _ given)
  | some out =>
    have same : torrentNameOf info = normalised (nameOf info) := by
      rw [torrentNameOf, normalised, given]
      rfl
    rw [same]
    exact normalised_cases (nameOf info) (by rw [given]; rfl)

/-- A file lies strictly below the data root unless its name and all its components vanish. -/
theorem diskPath_below (info : Value) (root : PathBuf) (path : List (List Char))
    (allowed : ∀ comp ∈ path, (normalizePathComponent comp).isSome = true) :
    StrictlyBelow root (root ++ diskPath (torrentNameOf info) path) ↔
      ¬ (Vanishes (nameOf info) ∧ ∀ comp ∈ path, Vanishes comp) := by
  have shape : diskPath (torrentNameOf info) path =
      push [] (torrentNameOf info) ++ (components path).map String.ofList := foldl_push _ path
  obtain ⟨name_empty, name_safe⟩ := torrentNameOf_cases info
  have empty_iff : diskPath (torrentNameOf info) path = [] ↔
      Vanishes (nameOf info) ∧ ∀ comp ∈ path, Vanishes comp := by
    rw [shape, List.append_eq_nil_iff, List.map_eq_nil_iff, ← name_empty]
    refine and_congr (push_empty_iff _) ?_
    rw [components, List.filter_eq_nil_iff, List.forall_mem_map]
    refine forall₂_congr ?_
    intro comp member
    rw [← (normalised_cases comp (allowed comp member)).1]
    cases normalised comp with
    | _ => simp
  have plain : ∀ part ∈ diskPath (torrentNameOf info) path, Plain part := by
    intro part member
    rw [shape] at member
    rcases List.mem_append.1 member with named | listed
    · obtain ⟨nonempty, same⟩ := mem_push _ _ named
      rw [same]
      exact plain_of_safe _ (name_safe nonempty)
    · obtain ⟨kept, inside, same⟩ := List.mem_map.1 listed
      obtain ⟨mapped, nonempty⟩ := List.mem_filter.1 inside
      obtain ⟨comp, given, normal⟩ := List.mem_map.1 mapped
      rw [← same, ← normal]
      refine plain_of_safe _ ((normalised_cases comp (allowed comp given)).2 ?_)
      rw [normal]
      intro empty
      rw [empty] at nonempty
      cases nonempty
  constructor
  · rintro ⟨names, same, nonempty, _⟩ vanishes
    rw [empty_iff.2 vanishes] at same
    exact nonempty (List.append_cancel_left same).symm
  · intro kept
    exact ⟨_, rfl, fun empty => kept (empty_iff.1 empty), plain⟩

/-- The normalised component is safe exactly where the cut at the limit does not take all of it, and
the files of an accepted torrent lie strictly below the data root exactly where each keeps a name. -/
theorem component_safe_iff (sha1 : Bytes → Bytes) (data : Bytes) (m : Metainfo) :
    (∀ s out, normalizePathComponent s = some out → (Safe out ↔ ¬ Vanishes s)) ∧
      (parseBytes sha1 data = .ok m →
        ∃ info d, infoOf data = some info ∧ declared data = some d ∧
          ∀ root : PathBuf, (∀ file ∈ m.files, StrictlyBelow root (root ++ file.path)) ↔
            ∀ entry ∈ d.files, ¬ (Vanishes (nameOf info) ∧ ∀ comp ∈ entry.2, Vanishes comp)) := by
  refine ⟨safe_iff, ?_⟩
  intro parsed
  obtain ⟨parts, read⟩ := parseBytes_parsed sha1 data m parsed
  obtain ⟨entries, listed, laid, allowed⟩ := parseFiles_ok parts.info parts.files read.files
  have info : infoOf data = some parts.info := by
    rw [infoOf, read.decoded]
    exact read.info
  refine ⟨parts.info, ⟨parts.pieceLength, parts.pieces, entries⟩, info, ?_, ?_⟩
  · rw [declared, info, Option.bind_some, declaredInfo, read.pieceLength]
    dsimp only
    rw [read.pieces]
    dsimp only
    rw [listed]
    rfl
  · intro root
    have paths := layEntries_paths (torrentNameOf parts.info) 0 entries
    rw [← laid] at paths
    have files : m.files = parts.files := by rw [read.result]
    rw [files]
    calc
      (∀ file ∈ parts.files, StrictlyBelow root (root ++ file.path)) ↔
          ∀ place ∈ parts.files.map (fun file => (file.path, file.size)),
            StrictlyBelow root (root ++ place.1) := by rw [List.forall_mem_map]
      _ ↔ ∀ entry ∈ entries,
          StrictlyBelow root (root ++ diskPath (torrentNameOf parts.info) entry.2) := by
        rw [paths, List.forall_mem_map]
      _ ↔ ∀ entry ∈ entries,
          ¬ (Vanishes (nameOf parts.info) ∧ ∀ comp ∈ entry.2, Vanishes comp) := by
        refine forall₂_congr ?_
        intro entry member
        exact diskPath_below parts.info root entry.2 (allowed entry member)

/-- A name of underscores alone that is longer than the limit. -/
def underscores : List Char := List.replicate 300 '_'

theorem underscores_unsafe : ¬ ∀ s out, normalizePathComponent s = some out → Safe out := by
  intro always
  have safe := always underscores [] (by decide +kernel)
  exact safe.nonempty rfl

end Seedchamp.Torrentfile.ComponentSafety
