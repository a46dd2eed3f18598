import Mathlib.Data.List.Basic

/-!
A byte stream that arrives in segments: reads that take exactly so many bytes, and reads that take what
the next segment has, up to a limit. Where a segment ends is of no account to what is read in all.
-/

namespace Seedchamp.Foundation.Segments

variable {α : Type}

/-- What is left of a segment stands before the others, unless it is empty. -/
def put (left : List α) (rest : List (List α)) : List (List α) :=
  if left.isEmpty then rest else left :: rest

/-- A read of exactly `n` items. -/
def readExact (n : Nat) : List (List α) → Option (List α × List (List α))
  | [] => if n = 0 then some ([], []) else none
  | segment :: rest =>
    if n ≤ segment.length then some (segment.take n, put (segment.drop n) rest)
    else (readExact (n - segment.length) rest).map (fun r => (segment ++ r.1, r.2))

/-- A segment in reads of at most `limit`; one turn for each item is enough. -/
def splitLoop (limit : Nat) : Nat → List α → List (List α)
  | 0, segment => [segment]
  | fuel + 1, segment =>
    if segment.length ≤ limit then [segment]
    else segment.take limit :: splitLoop limit fuel (segment.drop limit)

/-- The reads that take what is there, up to a limit. -/
def reads (limit : Nat) (segments : List (List α)) : List (List α) :=
  segments.flatMap (fun segment => splitLoop limit segment.length segment)

theorem splitLoop_flatten (limit fuel : Nat) (segment : List α) :
    (splitLoop limit fuel segment).flatten = segment := by
  induction fuel generalizing segment with
  | zero => exact List.append_nil segment
  | succ fuel ih =>
    rw [splitLoop]
    split_ifs
    · exact List.append_nil segment
    · rw [List.flatten_cons, ih, List.take_append_drop]

theorem reads_flatten (limit : Nat) (segments : List (List α)) :
    (reads limit segments).flatten = segments.flatten := by
  induction segments with
  | nil => rfl
  | cons segment rest ih =>
    rw [reads, List.flatMap_cons, List.flatten_append, splitLoop_flatten, List.flatten_cons]
    exact congrArg (segment ++ ·) ih

end Seedchamp.Foundation.Segments
