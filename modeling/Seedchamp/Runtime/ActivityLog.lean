import Seedchamp.Foundation.TransitionSystem
import Seedchamp.Torrentfile.ComponentSafety
import Mathlib.Logic.Function.Basic

/-!
The activity log: a layer turns an event into one line, and the line goes into a ring. A line takes its
number first and its place under the lock later, so that other threads may come between.
-/

namespace Seedchamp.Runtime.ActivityLog
open Foundation.TransitionSystem Torrentfile.Parse
open Torrentfile.ComponentSafety (cutTo_front byteLen_cons byteLen_cutTo)

abbrev Text := List Char

/-! ### The text of an event -/

/-- A recorded value; of a value without a type of its own its `Debug` text. -/
inductive FieldValue where
  | debug (text : Text)
  | str (text : Text)
  | i64 (n : Int64)
  | u64 (n : UInt64)
  | bool (b : Bool)
  deriving DecidableEq

structure MessageVisitor where
  message : Text
  fields : Text

namespace MessageVisitor

def pushField (vis : MessageVisitor) (name text : Text) : MessageVisitor :=
  { vis with fields := (if vis.fields.isEmpty then [] else vis.fields ++ [' ']) ++ name ++ '=' :: text }

/-- Without one pair of quotes around it. -/
def stripQuotes (message : Text) : Text :=
  if message.head? = some '"' ∧ message.getLast? = some '"' ∧ 2 ≤ byteLen message then
    (message.drop 1).dropLast
  else message

def record (vis : MessageVisitor) (name : Text) : FieldValue → MessageVisitor
  | .debug text =>
    if name = "message".toList then { vis with message := stripQuotes (vis.message ++ text) }
    else vis.pushField name text
  | .str text =>
    if name = "message".toList then { vis with message := vis.message ++ text }
    else vis.pushField name text
  | .i64 n => vis.pushField name (toString n).toList
  | .u64 n => vis.pushField name (toString n).toList
  | .bool b => vis.pushField name (toString b).toList

end MessageVisitor

inductive Level where
  | error
  | warn
  | info
  | debug
  | trace
  deriving DecidableEq

def levelChar : Level → Char
  | .error => 'E'
  | .warn => 'W'
  | .info => 'I'
  | .debug => 'D'
  | .trace => 'T'

structure LogEvent where
  level : Level
  target : Text
  name : Text
  fields : List (Text × FieldValue)

/-- The message with the fields behind it; the name of the event where both are empty. -/
def LogEvent.text (e : LogEvent) : Text :=
  let vis : MessageVisitor := e.fields.foldl (fun vis field => vis.record field.1 field.2) ⟨[], []⟩
  let msg :=
    if vis.message.isEmpty then vis.fields
    else if !vis.fields.isEmpty then vis.message ++ ' ' :: vis.fields
    else vis.message
  if msg.isEmpty then e.name else msg

/-- `String::truncate`, which panics inside a character. -/
def truncate (n : Nat) (s : Text) : Option Text :=
  if byteLen s < n then some s
  else if byteLen (cutTo n s) = n then some (cutTo n s)
  else none

def cap (msg : Text) : Option Text :=
  if 400 < byteLen msg then (truncate 397 msg).map (fun front => front ++ "...".toList) else some msg

/-! ### The ring -/

structure LogLine where
  seq : Nat
  time : Text
  level : Char
  target : Text
  message : Text
  deriving DecidableEq

def untilColons : Text → Text
  | [] => []
  | c :: rest => if c = ':' ∧ rest.head? = some ':' then [] else c :: untilColons rest

/-- What follows the last `::`, at most 16 characters of it. -/
def shortTarget (target : Text) : Text := (untilColons target.reverse).reverse.take 16

/-- A line, and the whole text of the event it is for. -/
structure Written where
  line : LogLine
  text : Option Text
  deriving DecidableEq

/-- A thread has a line pending between its two steps. `pushed` is history, and so are the threads
that panicked. -/
structure State where
  seq : Nat
  lines : List LogLine
  capacity : Nat
  pending : Nat → Option Written
  panicked : List Nat
  pushed : List Written

def new (capacity : Nat) : State where
  seq := 0
  lines := []
  capacity := max capacity 64
  pending := fun _ => none
  panicked := []
  pushed := []

/-- `record` is an event of the layer and `push` a line of the program's own, each up to the number it
takes; `append` is the section under the lock. -/
inductive Event where
  | record (thread : Nat) (event : LogEvent) (time : Text)
  | push (thread : Nat) (level : Char) (target message time : Text)
  | append (thread : Nat)

def State.ready (s : State) (thread : Nat) : Bool :=
  (s.pending thread).isNone && decide (thread ∉ s.panicked)

def State.number (s : State) (thread : Nat) (level : Char) (target message time : Text)
    (text : Option Text) : State :=
  { s with
    seq := s.seq + 1
    pending := Function.update s.pending thread
      (some ⟨⟨s.seq + 1, time, level, shortTarget target, message⟩, text⟩) }

/-- The line at the end, and the oldest one gone when the ring is full. -/
def pushLine (capacity : Nat) (lines : List LogLine) (line : LogLine) : List LogLine :=
  (if capacity ≤ lines.length then lines.tail else lines) ++ [line]

def step (s : State) : Event → Option State
  | .record thread event time =>
    if s.ready thread then
      match cap event.text with
      | none => some { s with panicked := thread :: s.panicked }
      | some msg =>
        some (s.number thread (levelChar event.level) event.target msg time (some event.text))
    else none
  | .push thread level target message time =>
    if s.ready thread then some (s.number thread level target message time none) else none
  | .append thread =>
    match s.pending thread with
    | none => none
    | some w =>
      some { s with
        lines := pushLine s.capacity s.lines w.line
        pending := Function.update s.pending thread none
        pushed := s.pushed ++ [w] }

example : cap (List.replicate 396 'a' ++ 'é' :: List.replicate 3 'a') = none ∧
    cap (List.replicate 397 'a' ++ 'é' :: List.replicate 3 'a') =
      some (List.replicate 397 'a' ++ "...".toList) := by decide +kernel

/-! ### Messages -/

/-- The text itself, or a front of it with dots. -/
def Capped (text message : Text) : Prop :=
  byteLen message ≤ 400 ∧ (message = text ∨ ∃ front, front <+: text ∧ message = front ++ "...".toList)

/-- A message that the cap lets through is short enough. -/
theorem cap_capped (text message : Text) (kept : cap text = some message) : Capped text message := by
  rw [cap] at kept
  by_cases long : 400 < byteLen text
  · rw [if_pos long] at kept
    obtain ⟨front, cut, same⟩ := Option.map_eq_some_iff.1 kept
    rw [truncate, if_neg (by omega)] at cut
    split_ifs at cut with boundary
    cases cut
    rw [← same]
    refine ⟨?_, Or.inr ⟨_, cutTo_front 397 text, rfl⟩⟩
    have dots : byteLen (cutTo 397 text ++ "...".toList) = byteLen (cutTo 397 text) + 3 := by
      rw [byteLen, List.map_append, List.sum_append]
      rfl
    rw [dots, boundary]
  · rw [if_neg long] at kept
    cases kept
    exact ⟨not_lt.1 long, Or.inl rfl⟩

/-- Byte 397 of the text starts a character, or the text is short. -/
def Cuttable (text : Text) : Prop := byteLen text ≤ 400 ∨ byteLen (cutTo 397 text) = 397

theorem cap_isSome (text : Text) : (∃ message, cap text = some message) ↔ Cuttable text := by
  rw [cap, Cuttable]
  by_cases long : 400 < byteLen text
  · rw [if_pos long, truncate, if_neg (by omega)]
    by_cases boundary : byteLen (cutTo 397 text) = 397
    · rw [if_pos boundary]
      exact ⟨fun _ => Or.inr boundary, fun _ => ⟨_, rfl⟩⟩
    · rw [if_neg boundary]
      constructor
      · rintro ⟨message, clash⟩
        cases clash
      · rintro (short | boundary')
        · omega
        · exact absurd boundary' boundary
  · rw [if_neg long]
    exact ⟨fun _ => Or.inl (not_lt.1 long), fun _ => ⟨_, rfl⟩⟩

/-! ### The newest lines -/

/-- The last `capacity` of all. -/
def newest (capacity : Nat) (all : List LogLine) : List LogLine := all.drop (all.length - capacity)

theorem length_newest (capacity : Nat) (all : List LogLine) :
    (newest capacity all).length = min all.length capacity := by
  rw [newest, List.length_drop]
  omega

theorem pushLine_newest (capacity : Nat) (positive : 0 < capacity) (all : List LogLine) (line : LogLine) :
    pushLine capacity (newest capacity all) line = newest capacity (all ++ [line]) := by
  rw [pushLine, length_newest]
  by_cases full : capacity ≤ all.length
  · rw [if_pos (by omega), newest, newest, List.tail_drop, List.length_append, List.length_singleton,
      List.drop_append_of_le_length (by omega)]
    congr 2
    omega
  · rw [if_neg (by omega), newest, newest, List.length_append, List.length_singleton,
      Nat.sub_eq_zero_of_le (by omega), Nat.sub_eq_zero_of_le (by omega)]
    rfl

/-- A line behind a ring in order keeps it in order exactly when its number is above the last. -/
theorem ordered_pushLine (capacity : Nat) (room : 2 ≤ capacity) (lines : List LogLine) (line : LogLine)
    (ordered : lines.Pairwise (fun a b => a.seq < b.seq)) :
    (pushLine capacity lines line).Pairwise (fun a b => a.seq < b.seq) ↔
      ∀ last, lines.getLast? = some last → last.seq < line.seq := by
  have below : (∀ last, lines.getLast? = some last → last.seq < line.seq) →
      ∀ a ∈ lines, a.seq < line.seq := by
    intro above a member
    obtain ⟨front, last, split⟩ :=
      (List.eq_nil_or_concat lines).resolve_left (List.ne_nil_of_mem member)
    rw [List.concat_eq_append] at split
    rw [split, List.getLast?_append, List.getLast?_singleton] at above
    have top := above last rfl
    rw [split] at member ordered
    rcases List.mem_append.1 member with earlier | here
    · exact (List.pairwise_append.1 ordered).2.2 a earlier last List.mem_cons_self |>.trans top
    · rw [List.mem_singleton.1 here]
      exact top
  rw [pushLine, List.pairwise_append]
  constructor
  · rintro ⟨-, -, cross⟩ last found
    refine cross last ?_ line List.mem_cons_self
    have member := List.mem_of_getLast? found
    split_ifs with full
    · cases lines with
      | nil => cases member
      | cons first rest =>
        cases rest with
        | nil =>
          rw [List.length_singleton] at full
          omega
        | cons second rest =>
          rw [List.getLast?_cons_cons] at found
          exact List.mem_of_getLast? found
    · exact member
  · intro above
    refine ⟨?_, List.pairwise_singleton _ _, ?_⟩
    · split_ifs
      · exact ordered.tail
      · exact ordered
    · intro a member b here
      rw [List.mem_singleton.1 here]
      refine below above a ?_
      split_ifs at member
      · exact List.mem_of_mem_tail member
      · exact member

/-! ### Runs -/

structure Good (s : State) : Prop where
  returns : s.panicked = []
  capped : ∀ w ∈ s.pushed, ∀ text, w.text = some text → Capped text w.line.message
  newest : s.lines = newest s.capacity (s.pushed.map Written.line)
  ordered : s.lines.Pairwise (fun a b => a.seq < b.seq)

/-- What the steps keep whatever they are. -/
structure Sound (s : State) : Prop where
  room : 2 ≤ s.capacity
  waiting : ∀ thread w text, s.pending thread = some w → w.text = some text → Capped text w.line.message
  capped : ∀ w ∈ s.pushed, ∀ text, w.text = some text → Capped text w.line.message
  newest : s.lines = newest s.capacity (s.pushed.map Written.line)

/-- An event can be cut, and a line that goes into the ring has a number above its last line's. -/
def Calm (s : State) : Event → Prop
  | .record thread event _ => s.ready thread = true → Cuttable event.text
  | .push _ _ _ _ _ => True
  | .append thread => ∀ w last, s.pending thread = some w → s.lines.getLast? = some last →
      last.seq < w.line.seq

theorem sound_new (capacity : Nat) : Sound (new capacity) := by
  refine ⟨?_, fun _ _ _ clash => (by cases clash), fun _ clash => (by cases clash), List.drop_nil.symm⟩
  change 2 ≤ max capacity 64
  omega

theorem sound_number (s : State) (thread : Nat) (level : Char) (target message time : Text)
    (text : Option Text) (sound : Sound s) (fits : ∀ whole, text = some whole → Capped whole message) :
    Sound (s.number thread level target message time text) := by
  refine ⟨sound.room, ?_, sound.capped, sound.newest⟩
  intro other w whole held told
  change Function.update s.pending thread _ other = some w at held
  rw [Function.update_apply] at held
  split_ifs at held
  · cases held
    exact fits whole told
  · exact sound.waiting other w whole held told

theorem sound_step (s : State) (event : Event) (s' : State) (sound : Sound s)
    (taken : step s event = some s') : Sound s' := by
  cases event with
  | record thread event time =>
    rw [step] at taken
    split_ifs at taken
    cases capped : cap event.text with
    | none =>
      rw [capped] at taken
      cases taken
      exact ⟨sound.room, sound.waiting, sound.capped, sound.newest⟩
    | some msg =>
      rw [capped] at taken
      cases taken
      refine sound_number s thread _ _ msg time _ sound (fun whole same => ?_)
      cases same
      exact cap_capped _ msg capped
  | push thread level target message time =>
    rw [step] at taken
    split_ifs at taken
    cases taken
    exact sound_number s thread level target message time none sound (fun _ clash => by cases clash)
  | append thread =>
    rw [step] at taken
    cases held : s.pending thread with
    | none =>
      rw [held] at taken
      cases taken
    | some w =>
      rw [held] at taken
      cases taken
      refine ⟨sound.room, ?_, ?_, ?_⟩
      · intro other w' text waiting told
        change Function.update s.pending thread none other = some w' at waiting
        rw [Function.update_apply] at waiting
        split_ifs at waiting
        exact sound.waiting other w' text waiting told
      · intro w' member text told
        rcases List.mem_append.1 member with earlier | here
        · exact sound.capped w' earlier text told
        · rw [List.mem_singleton.1 here] at told ⊢
          exact sound.waiting thread w text held told
      · change pushLine s.capacity s.lines w.line = newest s.capacity ((s.pushed ++ [w]).map Written.line)
        have room := sound.room
        rw [sound.newest, pushLine_newest s.capacity (by omega), List.map_append]
        rfl

/-- A step keeps the log good exactly when it is calm. -/
theorem good_step_iff (s : State) (event : Event) (s' : State) (sound : Sound s) (good : Good s)
    (taken : step s event = some s') : Good s' ↔ Calm s event := by
  have sound' := sound_step s event s' sound taken
  have parts : Good s' ↔ s'.panicked = [] ∧ s'.lines.Pairwise (fun a b => a.seq < b.seq) :=
    ⟨fun good' => ⟨good'.returns, good'.ordered⟩,
      fun both => ⟨both.1, sound'.capped, sound'.newest, both.2⟩⟩
  rw [parts]
  cases event with
  | record thread event time =>
    rw [step] at taken
    split_ifs at taken with ready
    have calm : Calm s (.record thread event time) ↔ Cuttable event.text :=
      ⟨fun calm => calm ready, fun cuttable _ => cuttable⟩
    rw [calm, ← cap_isSome]
    cases capped : cap event.text with
    | none =>
      rw [capped] at taken
      cases taken
      constructor
      · rintro ⟨clash, -⟩
        cases clash
      · rintro ⟨message, clash⟩
        cases clash
    | some msg =>
      rw [capped] at taken
      cases taken
      exact ⟨fun _ => ⟨msg, rfl⟩, fun _ => ⟨good.returns, good.ordered⟩⟩
  | push thread level target message time =>
    rw [step] at taken
    split_ifs at taken
    cases taken
    exact ⟨fun _ => trivial, fun _ => ⟨good.returns, good.ordered⟩⟩
  | append thread =>
    rw [step] at taken
    cases held : s.pending thread with
    | none =>
      rw [held] at taken
      cases taken
    | some w =>
      rw [held] at taken
      cases taken
      have order := ordered_pushLine s.capacity sound.room s.lines w.line good.ordered
      constructor
      · rintro ⟨-, ordered⟩ w' last held' found
        cases held.symm.trans held'
        exact order.1 ordered last found
      · intro calm
        exact ⟨good.returns, order.2 (fun last found => calm w last held found)⟩

theorem calm_of_stuck (s : State) (event : Event) (stuck : step s event = none) : Calm s event := by
  cases event with
  | record thread event time =>
    intro ready
    rw [step, if_pos ready] at stuck
    cases capped : cap event.text with
    | none =>
      rw [capped] at stuck
      cases stuck
    | some msg =>
      rw [capped] at stuck
      cases stuck
  | push thread level target message time => trivial
  | append thread =>
    intro w last held
    rw [step, held] at stuck
    cases stuck

/-- In every run of the log every state is good exactly when every step is calm. -/
theorem logging_iff (capacity : Nat) (events : List Event) :
    Always step Good (new capacity) events ↔ Guarded step Calm (new capacity) events := by
  have sound := sound_new capacity
  refine always_iff_guarded step Sound Good Calm sound_step good_step_iff calm_of_stuck (new capacity) events
    sound ⟨rfl, sound.capped, sound.newest, List.Pairwise.nil⟩

/-- Two threads: the second one takes the later number and reaches the ring first. -/
example : (exec step (new 64) [.push 0 'I' [] [] [], .push 1 'I' [] [] [], .append 1, .append 0]).map
    (fun s => s.lines.map LogLine.seq) = some [2, 1] := by decide

/-- A torrent whose name is long and has its accent at byte 396. -/
def accented : LogEvent where
  level := .info
  target := "seedchamp_engine::session".toList
  name := "event".toList
  fields := [("message".toList, .debug (List.replicate 396 'a' ++ 'é' :: List.replicate 3 'a'))]

/-- The thread that logs it panics. -/
theorem accented_panics : ¬ ∀ capacity events, Always step Good (new capacity) events := by
  intro always
  have uncut : cap accented.text = none := by decide +kernel
  have taken : step (new 64) (.record 0 accented []) = some { new 64 with panicked := [0] } := by
    rw [step, if_pos (show (new 64).ready 0 = true by decide), uncut]
    rfl
  have after := (always 64 [.record 0 accented []]).2 _ taken
  cases after.returns

end Seedchamp.Runtime.ActivityLog
