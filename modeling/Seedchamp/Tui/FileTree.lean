import Mathlib.Data.Finset.Empty
import Seedchamp.Foundation.Machine
import Seedchamp.Foundation.SortedMap

/-!
The collapsible tree of the files screen: files are put into nested maps by the components of their
paths, and the maps are flattened into rows.
-/

namespace Seedchamp.Tui.FileTree
open Foundation Foundation.Machine

abbrev Text := List Char

/-! ### Rows -/

/-- The fields of a file that the tree reads. -/
structure FileProgress where
  path : Text
  size : Nat
  priority : Int
  haveBytes : Nat
  deriving DecidableEq

def FileProgress.wanted (fp : FileProgress) : Bool := 0 < fp.priority

inductive DirWanted where
  | all
  | none
  | mixed
  deriving DecidableEq

inductive FileTreeRow where
  | dir (name path : Text) (depth : Nat) (expanded : Bool) (size haveBytes : Nat) (wanted : DirWanted)
    (fileIndices : List Nat)
  | file (depth fileIndex : Nat)
  deriving DecidableEq

/-- Sizes are 64-bit and saturate. -/
def aggregate (files : List FileProgress) (indices : List Nat) : Nat × Nat × DirWanted :=
  if indices.isEmpty then (0, 0, .none)
  else
    let seen := indices.filterMap (fun i => files[i]?)
    let size := seen.foldl (fun size fp => saturatingAdd size fp.size) 0
    let have' := seen.foldl (fun have' fp => saturatingAdd have' (min fp.haveBytes fp.size)) 0
    let anyOn := seen.any FileProgress.wanted
    let anyOff := seen.any (fun fp => !fp.wanted)
    (size, have', if anyOn then (if anyOff then .mixed else .all) else .none)

/-! ### The tree -/

def isSeparator (c : Char) : Bool := c = '/' || c = '\\'

/-- The components of a path; a dot is none. -/
def pathComponents (path : Text) : List Text :=
  (path.splitOnP isSeparator).filter (fun s => !s.isEmpty && s ≠ ['.'])

/-- The directories and files of a directory, each by its name. -/
inductive Node where
  | mk (dirs : List (Text × Node)) (files : List (Text × Nat))

namespace Node

def new : Node := .mk [] []

def dirs : Node → List (Text × Node)
  | .mk dirs _ => dirs

def files : Node → List (Text × Nat)
  | .mk _ files => files

def insertPath : List Text → Nat → Node → Node
  | [], _, node => node
  | [name], index, node => .mk node.dirs (SortedMap.insert name index node.files)
  | name :: next :: rest, index, node =>
    .mk (SortedMap.insert name (insertPath (next :: rest) index
      ((SortedMap.get? name node.dirs).getD new)) node.dirs) node.files

mutual

def collectFileIndices : Node → List Nat
  | .mk dirs files => files.map Prod.snd ++ collectDirs dirs

def collectDirs : List (Text × Node) → List Nat
  | [] => []
  | (_, child) :: rest => collectFileIndices child ++ collectDirs rest

end

end Node

/-- A file without a component is shown at the root under a name of its own. -/
def insertFile (root : Node) (fp : FileProgress) (index : Nat) : Node :=
  let comps := pathComponents fp.path
  if comps.isEmpty then
    .mk root.dirs (SortedMap.insert ("file-".toList ++ (toString index).toList) index root.files)
  else root.insertPath comps index

def childPath (path name : Text) : Text := if path.isEmpty then name else path ++ '/' :: name

mutual

def flattenNode (files : List FileProgress) (collapsed : Finset Text) (path : Text) (depth : Nat) :
    Node → List FileTreeRow
  | .mk dirs entries =>
    flattenDirs files collapsed path depth dirs ++ entries.map (fun entry => .file depth entry.2)

def flattenDirs (files : List FileProgress) (collapsed : Finset Text) (path : Text) (depth : Nat) :
    List (Text × Node) → List FileTreeRow
  | [] => []
  | (name, child) :: rest =>
    let indices := (Node.collectFileIndices child).mergeSort
    let total := aggregate files indices
    let expanded := decide (childPath path name ∉ collapsed)
    (.dir name (childPath path name) depth expanded total.1 total.2.1 total.2.2 indices ::
      if expanded then flattenNode files collapsed (childPath path name) (depth + 1) child else []) ++
    flattenDirs files collapsed path depth rest

end

def buildVisibleRows (files : List FileProgress) (collapsed : Finset Text) : List FileTreeRow :=
  flattenNode files collapsed [] 0 (files.zipIdx.foldl (fun root fp => insertFile root fp.1 fp.2) Node.new)

end Seedchamp.Tui.FileTree
