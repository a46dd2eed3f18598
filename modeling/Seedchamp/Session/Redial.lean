import Mathlib.Logic.Function.Basic
import Seedchamp.Foundation.TransitionSystem
import Seedchamp.Session.Refill

/-!
The cooldown of dialled addresses over a run: who dials, how each dial ends and what inbound peers are
closed for being idle, in any order. `spawn_outbound` is one step here.
-/

namespace Seedchamp.Session.Redial
open Foundation.Machine Foundation.TransitionSystem Session.Refill
open Session.Slots (SocketAddr)

/-- How `run_outbound_peer` ended; `lived` is in seconds. -/
inductive Outcome where
  | idleClosed
  | failed
  | ok (lived : Nat)
  deriving DecidableEq, Repr

/-- What the end of a dial does to the cooldown. -/
def settle (cool : Cooldown) (key : Key) (now : Nat) : Outcome → Cooldown
  | .idleClosed => recordIdleClose cool key now
  | .failed => recordDialFail cool key now
  | .ok lived =>
    if lived < 5 then recordDialFail cool key now
    else if 30 ≤ lived then clearDialFail cool key
    else lightDisconnectCooldown cool key now

/-- `dialled` is history: the keys for which a connection was begun. -/
structure State where
  clock : Nat
  cool : Cooldown
  connectedOut : List Key
  dialled : List Key

inductive Event where
  | dial (key : Key) (now : Nat)
  | ended (key : Key) (now : Nat) (outcome : Outcome)
  | inboundIdle (key : Key) (now : Nat)

def Event.now : Event → Nat
  | .dial _ now => now
  | .ended _ now _ => now
  | .inboundIdle _ now => now

local instance lawfulKey : LawfulBEq Key := inferInstance

def act (s : State) : Event → Option State
  | .dial key now =>
    if key ∈ s.connectedOut ∨ isCooledDown s.cool key now = true then none
    else some ⟨now, s.cool, s.connectedOut ++ [key], s.dialled ++ [key]⟩
  | .ended key now outcome =>
    if key ∈ s.connectedOut then
      some ⟨now, settle s.cool key now outcome, s.connectedOut.erase key, s.dialled⟩
    else none
  | .inboundIdle key now =>
    some ⟨now, recordIdleClose s.cool key now, s.connectedOut, s.dialled⟩

/-- Time does not go back. -/
def step (s : State) (event : Event) : Option State :=
  if event.now < s.clock then none else act s event

/-- The dial did not bring a peer that stayed. -/
def Outcome.bad : Outcome → Prop
  | .failed => True
  | .ok lived => lived < 5
  | .idleClosed => False

/-! ### One key -/

def restart : State := ⟨100, fun _ => none, [], []⟩

end Seedchamp.Session.Redial
