import Mathlib.Algebra.GroupWithZero.Nat
import Mathlib.Data.List.Basic

/-!
Framing of a byte stream: a parser that takes one frame off the front of a buffer, draining a
buffer of its whole frames, and feeding a stream in segments. What is framed depends on the stream
alone, not on how it was cut.
-/

namespace Seedchamp.Foundation.Framing

variable {β φ ε : Type}

/-- A parser of one frame. It answers `none` while the frame is incomplete, a frame it returns is
not empty and lies in the buffer, and an answer stands when more of the stream arrives. -/
structure Framer (β φ ε : Type) where
  parse : List β → Except ε (Option (φ × Nat))
  quiet : parse [] = .ok none
  progress : ∀ buf frame used, parse buf = .ok (some (frame, used)) → 0 < used ∧ used ≤ buf.length
  stable : ∀ buf more, parse buf ≠ .ok none → parse (buf ++ more) = parse buf

/-- The frames taken, each with its length, and what ended the draining: the part of a frame that
is left, or an error. -/
structure Drained (β φ ε : Type) where
  frames : List (φ × Nat)
  tail : Except ε (List β)
  deriving DecidableEq

/-- The stream position behind the frames taken. -/
def Drained.position (drained : Drained β φ ε) : Nat := (drained.frames.map Prod.snd).sum

namespace Framer
variable (framer : Framer β φ ε)

/-- Every frame takes at least one element, so a turn for each element is enough. -/
def drainLoop : Nat → List β → Drained β φ ε
  | 0, buf => ⟨[], .ok buf⟩
  | fuel + 1, buf =>
    match framer.parse buf with
    | .error problem => ⟨[], .error problem⟩
    | .ok none => ⟨[], .ok buf⟩
    | .ok (some (frame, used)) =>
      let rest := drainLoop fuel (buf.drop used)
      ⟨(frame, used) :: rest.frames, rest.tail⟩

def drain (buf : List β) : Drained β φ ε := framer.drainLoop buf.length buf

/-- More turns than elements change nothing. -/
theorem drainLoop_fuel (fuel : Nat) (buf : List β)
    (enough : buf.length ≤ fuel) : framer.drainLoop fuel buf = framer.drain buf := by
  induction fuel using Nat.strongRecOn generalizing buf with
  | ind fuel ih =>
    cases buf with
    | nil =>
      cases fuel with
      | zero => rfl
      | succ fuel => simp only [drain, drainLoop, framer.quiet, List.length_nil]
    | cons first rest =>
      cases fuel with
      | zero => simp only [List.length_cons, Nat.le_zero, Nat.add_one_ne_zero] at enough
      | succ fuel =>
        rw [drain, List.length_cons, drainLoop, drainLoop]
        cases parsed : framer.parse (first :: rest) with
        | error problem => rfl
        | ok answer =>
          cases answer with
          | none => rfl
          | some taken =>
            have moved := framer.progress _ taken.1 taken.2 parsed
            rw [List.length_cons] at enough moved
            have shorter : ((first :: rest).drop taken.2).length ≤ rest.length := by
              rw [List.length_drop, List.length_cons]
              omega
            dsimp only
            rw [ih fuel (by omega) _ (by omega), ih rest.length (by omega) _ shorter]

theorem drain_waiting (buf : List β) (waits : framer.parse buf = .ok none) :
    framer.drain buf = ⟨[], .ok buf⟩ := by
  rw [drain]
  cases buf with
  | nil => rfl
  | cons first rest => rw [List.length_cons, drainLoop, waits]

theorem drain_error (buf : List β) (problem : ε)
    (failed : framer.parse buf = .error problem) : framer.drain buf = ⟨[], .error problem⟩ := by
  cases buf with
  | nil => rw [framer.quiet] at failed; cases failed
  | cons first rest => rw [drain, List.length_cons, drainLoop, failed]

theorem drain_frame (buf : List β) (frame : φ) (used : Nat)
    (taken : framer.parse buf = .ok (some (frame, used))) :
    framer.drain buf = ⟨(frame, used) :: (framer.drain (buf.drop used)).frames,
      (framer.drain (buf.drop used)).tail⟩ := by
  have moved := framer.progress buf frame used taken
  rw [← framer.drainLoop_fuel (buf.length + 1) buf (by omega), drainLoop, taken]
  dsimp only
  rw [framer.drainLoop_fuel buf.length _ (by rw [List.length_drop]; omega)]

/-- What a drained buffer leaves is the start of an incomplete frame. -/
theorem drain_tail_waits (buf left : List β)
    (rested : (framer.drain buf).tail = .ok left) : framer.parse left = .ok none := by
  induction size : buf.length using Nat.strongRecOn generalizing buf with
  | ind n ih =>
    cases parsed : framer.parse buf with
    | error problem =>
      rw [framer.drain_error buf problem parsed] at rested
      cases rested
    | ok answer =>
      cases answer with
      | none =>
        rw [framer.drain_waiting buf parsed] at rested
        cases rested
        exact parsed
      | some taken =>
        have moved := framer.progress buf taken.1 taken.2 parsed
        rw [framer.drain_frame buf taken.1 taken.2 parsed] at rested
        exact ih (buf.drop taken.2).length (by rw [List.length_drop]; omega) _ rested rfl

/-- Draining a longer stream continues where draining its start stopped. -/
theorem drain_append (first second : List β) :
    framer.drain (first ++ second) =
      match framer.drain first with
      | ⟨frames, .error problem⟩ => ⟨frames, .error problem⟩
      | ⟨frames, .ok left⟩ =>
        ⟨frames ++ (framer.drain (left ++ second)).frames, (framer.drain (left ++ second)).tail⟩ := by
  induction size : first.length using Nat.strongRecOn generalizing first with
  | ind n ih =>
    cases parsed : framer.parse first with
    | error problem =>
      have same := framer.stable first second (by rw [parsed]; nofun)
      rw [framer.drain_error first problem parsed,
        framer.drain_error (first ++ second) problem (same.trans parsed)]
    | ok answer =>
      cases answer with
      | none =>
        rw [framer.drain_waiting first parsed]
        rfl
      | some taken =>
        have moved := framer.progress first taken.1 taken.2 parsed
        have same := framer.stable first second (by rw [parsed]; nofun)
        have later := ih (first.drop taken.2).length (by rw [List.length_drop]; omega) _ rfl
        rw [framer.drain_frame first taken.1 taken.2 parsed,
          framer.drain_frame (first ++ second) taken.1 taken.2 (same.trans parsed),
          List.drop_append_of_le_length moved.2, later]
        cases framer.drain (first.drop taken.2) with
        | mk frames tail =>
          cases tail with
          | _ => rfl

/-! ### Encoded frames -/

/-- An encoding that the framer takes as one frame, whatever follows it, and waits on before its end. -/
structure Reads (encoding : List β) (frame : φ) : Prop where
  whole : ∀ suffix, framer.parse (encoding ++ suffix) = .ok (some (frame, encoding.length))
  part : ∀ part, part <+: encoding → part ≠ encoding → framer.parse part = .ok none

/-- Nothing is left to take of frames whose first one is longer than all that is left of the stream. -/
theorem later_nil {α : Type} (encode : α → List β) (later : List α) (left : List β)
    (short : ∀ next ∈ later.head?, left.length < (encode next).length)
    (whole : left = later.flatMap encode) : later = [] := by
  cases later with
  | nil => rfl
  | cons next rest =>
    have less := short next rfl
    rw [whole, List.flatMap_cons, List.length_append] at less
    omega

/-- What arrived of a stream of encoded frames is drained into the first of them, and what is left is
shorter than the next one. -/
theorem drain_encoded {α : Type} (encode : α → List β) (frame : α → φ) (sent : List α) (got : List β)
    (reads : ∀ a ∈ sent, framer.Reads (encode a) (frame a)) (arrived : got <+: sent.flatMap encode) :
    ∃ delivered later left, sent = delivered ++ later ∧ got = delivered.flatMap encode ++ left ∧
      framer.drain got = ⟨delivered.map (fun a => (frame a, (encode a).length)), .ok left⟩ ∧
      left <+: later.flatMap encode ∧ ∀ next ∈ later.head?, left.length < (encode next).length := by
  induction sent generalizing got with
  | nil =>
    have none : got = [] := List.prefix_nil.1 arrived
    exact ⟨[], [], [], rfl, none, by rw [none]; rfl, List.prefix_rfl, fun _ next => by cases next⟩
  | cons a rest ih =>
    have read := reads a List.mem_cons_self
    rw [List.flatMap_cons] at arrived
    by_cases whole : encode a <+: got
    · obtain ⟨suffix, split⟩ := whole
      rw [← split] at arrived
      obtain ⟨delivered, later, left, parts, same, drained, starts, shorter⟩ := ih suffix
        (fun b member => reads b (List.mem_cons_of_mem a member))
        ((List.prefix_append_right_inj (encode a)).1 arrived)
      refine ⟨a :: delivered, later, left, by rw [parts, List.cons_append], ?_, ?_, starts, shorter⟩
      · rw [← split, same, List.flatMap_cons, List.append_assoc]
      · rw [← split, framer.drain_frame _ _ _ (read.whole suffix), List.drop_left, drained]
        rfl
    · have short : got.length < (encode a).length := by
        by_contra long
        exact whole (List.prefix_of_prefix_length_le (List.prefix_append _ _) arrived (by omega))
      have inside : got <+: encode a :=
        List.prefix_of_prefix_length_le arrived (List.prefix_append _ _) (by omega)
      have different : got ≠ encode a := fun same => by
        rw [same] at short
        exact Nat.lt_irrefl _ short
      refine ⟨[], a :: rest, got, rfl, rfl, framer.drain_waiting got (read.part got inside different),
        by rw [List.flatMap_cons]; exact arrived, ?_⟩
      intro next first
      cases first
      exact short

end Framer
end Seedchamp.Foundation.Framing
