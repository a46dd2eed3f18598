import Mathlib.Order.Basic
import Seedchamp.Crypto.Mse
import Seedchamp.Foundation.FirstSeen
import Seedchamp.Wire.Parse

/-!
The allowed-fast set of a peer. Indices are drawn from a chain of digests until there are enough
different ones, or 32 digests in a row brought none.
-/

namespace Seedchamp.Wire.AllowedFast
open Crypto.Mse Foundation.FirstSeen Wire.Parse
open Wire.Messages (Bytes toBeBytes)

variable (sha1 : Bytes → Digest)

/-- The masked address and the infohash. -/
def seed (infohash : Bytes) (ip : UInt32) : Bytes := toBeBytes (ip &&& 0xFFFFFF00).toNat ++ infohash

/-- The `i`-th index of a digest. -/
def indexOf (pieceCount : Nat) (x : Bytes) (i : Nat) : Nat := u32At x (i * 4) % pieceCount

def addIndex (k : Nat) (a : List Nat) (index : Nat) : List Nat :=
  if k ≤ a.length then a else if index ∈ a then a else a ++ [index]

/-- The five indices of a digest; the loop over them adds no more once the list is full. -/
def addDigest (k pieceCount : Nat) (a : List Nat) (x : Bytes) : List Nat :=
  (List.range 5).foldl (fun a i => addIndex k a (indexOf pieceCount x i)) a

/-- The `while` loop, for a number of rounds; it has no result when it goes on after them. -/
def generateLoop (k pieceCount : Nat) : Nat → List Nat → Bytes → Nat → Option (List Nat)
  | rounds, a, x, stagnant =>
    if k ≤ a.length then some a
    else match rounds with
      | 0 => none
      | rounds + 1 =>
        let x := (sha1 x).val
        let a' := addDigest k pieceCount a x
        if a'.length = a.length then
          if 32 ≤ stagnant + 1 then some a' else generateLoop k pieceCount rounds a' x (stagnant + 1)
        else generateLoop k pieceCount rounds a' x 0

/-- `generate_allowed_fast_set`. The list is never longer than `k`, so its length as a `u32` is its
length. -/
def generateAllowedFastSet (rounds k pieceCount : Nat) (infohash : Bytes) (ip : UInt32) :
    Option (List Nat) :=
  if k = 0 ∨ pieceCount = 0 then some []
  else generateLoop sha1 (min k pieceCount) pieceCount rounds [] (seed infohash ip) 0

/-! ### The indices as one sequence -/

/-- The digests of the chain, the seed first. -/
def chain (start : Bytes) : Nat → Bytes
  | 0 => start
  | n + 1 => (sha1 (chain start n)).val

/-- The indices in the order in which they are drawn. -/
def drawn (pieceCount : Nat) (start : Bytes) (t : Nat) : Nat :=
  indexOf pieceCount (chain sha1 start (t / 5 + 1)) (t % 5)

section
variable (k pieceCount : Nat) (start : Bytes)

theorem drawn_round (r i : Nat) (below : i < 5) :
    drawn sha1 pieceCount start (5 * r + i) = indexOf pieceCount (chain sha1 start (r + 1)) i := by
  have quotient : (5 * r + i) / 5 = r := by omega
  have remainder : (5 * r + i) % 5 = i := by omega
  rw [drawn, quotient, remainder]

/-- What a round makes of the list. -/
theorem addDigest_firsts (r : Nat) :
    addDigest k pieceCount ((firsts (drawn sha1 pieceCount start) (5 * r)).take k)
      (chain sha1 start (r + 1)) = (firsts (drawn sha1 pieceCount start) (5 * (r + 1))).take k := by
  rw [addDigest, Nat.mul_succ, ← foldl_seeUpTo]
  apply List.foldl_ext
  intro a i member
  rw [drawn_round sha1 pieceCount start r i (List.mem_range.1 member)]
  rfl

/-- Where the loop stands after `r` rounds: what it has gathered, and for how long it has gathered
nothing new. Gathering did not stop before, and not now unless the list is full. -/
structure Standing (r : Nat) (a : List Nat) (x : Bytes) (stagnant : Nat) : Prop where
  list : a = (firsts (drawn sha1 pieceCount start) (5 * r)).take k
  digest : x = chain sha1 start r
  counted : stagnant ≤ r
  patient : stagnant < 32
  still : (firsts (drawn sha1 pieceCount start) (5 * (r - stagnant))).length =
    (firsts (drawn sha1 pieceCount start) (5 * r)).length
  moved : stagnant < r → (firsts (drawn sha1 pieceCount start) (5 * (r - stagnant - 1))).length <
    (firsts (drawn sha1 pieceCount start) (5 * r)).length
  going : Stops (drawn sha1 pieceCount start) 5 32 k r →
    k ≤ (firsts (drawn sha1 pieceCount start) (5 * r)).length

variable {k pieceCount start}

/-- After a round without a new index the counter says whether it was the 32nd in a row. -/
theorem Standing.stalled_iff {r : Nat} {a : List Nat} {x : Bytes} {stagnant : Nat}
    (standing : Standing sha1 k pieceCount start r a x stagnant)
    (same : (firsts (drawn sha1 pieceCount start) (5 * (r + 1))).length =
      (firsts (drawn sha1 pieceCount start) (5 * r)).length) :
    (32 ≤ r + 1 ∧ (firsts (drawn sha1 pieceCount start) (5 * (r + 1))).length =
      (firsts (drawn sha1 pieceCount start) (5 * (r + 1 - 32))).length) ↔ 32 ≤ stagnant + 1 := by
  have counted := standing.counted
  have patient := standing.patient
  have grown := length_rounds_mono (drawn sha1 pieceCount start) 5
  constructor
  · rintro ⟨long, level⟩
    by_contra short
    have before := grown (r + 1 - 32) (r - stagnant - 1) (by omega)
    have moved := standing.moved (by omega)
    omega
  · intro full
    have first : r + 1 - 32 = r - stagnant := by omega
    refine ⟨by omega, ?_⟩
    rw [first, standing.still, same]

theorem Standing.turn {r : Nat} {a : List Nat} {x : Bytes} {stagnant : Nat}
    (standing : Standing sha1 k pieceCount start r a x stagnant) :
    addDigest k pieceCount a (sha1 x).val =
      (firsts (drawn sha1 pieceCount start) (5 * (r + 1))).take k := by
  rw [standing.list, standing.digest]
  exact addDigest_firsts sha1 k pieceCount start r

/-- A round without a new index that is not yet the last. -/
theorem Standing.stay {r : Nat} {a : List Nat} {x : Bytes} {stagnant : Nat}
    (standing : Standing sha1 k pieceCount start r a x stagnant)
    (same : (firsts (drawn sha1 pieceCount start) (5 * (r + 1))).length =
      (firsts (drawn sha1 pieceCount start) (5 * r)).length) (short : ¬32 ≤ stagnant + 1) :
    Standing sha1 k pieceCount start (r + 1) (addDigest k pieceCount a (sha1 x).val) (sha1 x).val
      (stagnant + 1) := by
  refine ⟨standing.turn, by rw [standing.digest]; rfl, Nat.succ_le_succ standing.counted, by omega,
    ?_, ?_, ?_⟩
  · rw [Nat.add_sub_add_right, standing.still, same]
  · intro earlier
    rw [Nat.add_sub_add_right, same]
    exact standing.moved (Nat.lt_of_succ_lt_succ earlier)
  · intro stops
    exact stops.resolve_right (fun stalled => short ((standing.stalled_iff sha1 same).1 stalled))

/-- A round with a new index. -/
theorem Standing.move {r : Nat} {a : List Nat} {x : Bytes} {stagnant : Nat}
    (standing : Standing sha1 k pieceCount start r a x stagnant)
    (longer : (firsts (drawn sha1 pieceCount start) (5 * r)).length <
      (firsts (drawn sha1 pieceCount start) (5 * (r + 1))).length) :
    Standing sha1 k pieceCount start (r + 1) (addDigest k pieceCount a (sha1 x).val) (sha1 x).val 0 := by
  refine ⟨standing.turn, by rw [standing.digest]; rfl, Nat.zero_le _, by decide, rfl, fun _ => longer, ?_⟩
  intro stops
  refine stops.resolve_right ?_
  rintro ⟨long, level⟩
  have before := length_rounds_mono (drawn sha1 pieceCount start) 5 (r + 1 - 32) r (by omega)
  omega

/-- The loop ends after the first round where gathering stops, with what was gathered by then. -/
theorem generateLoop_eq (last : Nat) (stops : Stops (drawn sha1 pieceCount start) 5 32 k last)
    (first : ∀ n, n < last → ¬Stops (drawn sha1 pieceCount start) 5 32 k n) (rounds r : Nat)
    (a : List Nat) (x : Bytes) (stagnant : Nat)
    (standing : Standing sha1 k pieceCount start r a x stagnant) (reached : r ≤ last)
    (enough : last ≤ r + rounds) :
    generateLoop sha1 k pieceCount rounds a x stagnant =
      some ((firsts (drawn sha1 pieceCount start) (5 * last)).take k) := by
  have length : a.length = min k (firsts (drawn sha1 pieceCount start) (5 * r)).length := by
    rw [standing.list, List.length_take]
  have ends : ∀ n, Stops (drawn sha1 pieceCount start) 5 32 k n → last ≤ n := by
    intro n stopped
    by_contra later
    exact first n (not_le.1 later) stopped
  induction rounds generalizing r a x stagnant with
  | zero =>
    have here : r = last := by omega
    subst here
    have full := standing.going stops
    rw [generateLoop, if_pos (by omega), standing.list]
  | succ rounds ih =>
    rw [generateLoop]
    by_cases full : k ≤ a.length
    · rw [if_pos full]
      have here : r = last := Nat.le_antisymm reached (ends r (.inl (by omega)))
      rw [standing.list, here]
    · rw [if_neg full]
      have on : ¬Stops (drawn sha1 pieceCount start) 5 32 k r :=
        fun stopped => full (by have := standing.going stopped; omega)
      have next : r + 1 ≤ last := by
        by_contra past
        have here : r = last := by omega
        exact on (here ▸ stops)
      have turned := standing.turn
      have length' : (addDigest k pieceCount a (sha1 x).val).length =
          min k (firsts (drawn sha1 pieceCount start) (5 * (r + 1))).length := by
        rw [turned, List.length_take]
      have grown := length_rounds_mono (drawn sha1 pieceCount start) 5 r (r + 1) (Nat.le_succ r)
      dsimp only
      by_cases same : (addDigest k pieceCount a (sha1 x).val).length = a.length
      · have level : (firsts (drawn sha1 pieceCount start) (5 * (r + 1))).length =
            (firsts (drawn sha1 pieceCount start) (5 * r)).length := by omega
        rw [if_pos same]
        by_cases long : 32 ≤ stagnant + 1
        · rw [if_pos long, turned]
          have here : r + 1 = last :=
            Nat.le_antisymm next (ends (r + 1) (.inr ((standing.stalled_iff sha1 level).2 long)))
          rw [here]
        · rw [if_neg long]
          exact ih (r + 1) _ _ _ (standing.stay sha1 level long) next (by omega) length'
      · rw [if_neg same]
        have longer : (firsts (drawn sha1 pieceCount start) (5 * r)).length <
            (firsts (drawn sha1 pieceCount start) (5 * (r + 1))).length := by omega
        exact ih (r + 1) _ _ _ (standing.move sha1 longer) next (by omega) length'

end

/-! ### The set -/

/-- The first round at which gathering for `min k piece_count` indices stops, and the set it gives. -/
theorem generate_eq (k pieceCount : Nat) (infohash : Bytes) (ip : UInt32) (some' : k ≠ 0)
    (pieces : pieceCount ≠ 0) :
    ∃ last, last ≤ 32 * min k pieceCount ∧
      Stops (drawn sha1 pieceCount (seed infohash ip)) 5 32 (min k pieceCount) last ∧
      (∀ n, n < last → ¬Stops (drawn sha1 pieceCount (seed infohash ip)) 5 32 (min k pieceCount) n) ∧
      ∀ rounds, last ≤ rounds → generateAllowedFastSet sha1 rounds k pieceCount infohash ip =
        some ((firsts (drawn sha1 pieceCount (seed infohash ip)) (5 * last)).take (min k pieceCount)) := by
  obtain ⟨bound, small, stops⟩ :=
    exists_stops (drawn sha1 pieceCount (seed infohash ip)) 5 32 (min k pieceCount)
  have ends : ∃ r, Stops (drawn sha1 pieceCount (seed infohash ip)) 5 32 (min k pieceCount) r :=
    ⟨bound, stops⟩
  refine ⟨Nat.find ends, (Nat.find_min' ends stops).trans small, Nat.find_spec ends,
    fun n before => Nat.find_min ends before, ?_⟩
  intro rounds enough
  have standing : Standing sha1 (min k pieceCount) pieceCount (seed infohash ip) 0 []
      (seed infohash ip) 0 := by
    refine ⟨List.take_nil.symm, rfl, Nat.le_refl 0, by decide, rfl, fun clash => absurd clash (Nat.lt_irrefl 0), ?_⟩
    rintro (full | ⟨long, -⟩)
    · exact full
    · exact absurd long (by decide)
  rw [generateAllowedFastSet, if_neg (not_or.2 ⟨some', pieces⟩)]
  exact generateLoop_eq sha1 (Nat.find ends) (Nat.find_spec ends) (fun n before => Nat.find_min ends before)
    rounds 0 [] (seed infohash ip) 0 standing (Nat.zero_le _) (by omega)

theorem drawn_lt (pieceCount : Nat) (start : Bytes) (t : Nat) (pieces : pieceCount ≠ 0) :
    drawn sha1 pieceCount start t < pieceCount := Nat.mod_lt _ (Nat.pos_of_ne_zero pieces)

/-- The mask keeps the bits above the last octet. -/
theorem seed_of_network (infohash : Bytes) (ip ip' : UInt32) (network : ip'.toNat / 256 = ip.toNat / 256) :
    seed infohash ip' = seed infohash ip := by
  have bits : ∀ i : Fin 32, Nat.testBit 4294967040 i.val = decide (8 ≤ i.val) := by decide
  have masked : ∀ address : UInt32, (address &&& 0xFFFFFF00).toNat = address.toNat &&& 4294967040 :=
    fun address => UInt32.toNat_and address 0xFFFFFF00
  have same : ip'.toNat &&& 4294967040 = ip.toNat &&& 4294967040 := by
    apply Nat.eq_of_testBit_eq
    intro i
    rw [Nat.testBit_and, Nat.testBit_and]
    by_cases high : 8 ≤ i
    · have shifted : ∀ n : Nat, Nat.testBit n i = Nat.testBit (n / 2 ^ 8) (i - 8) := by
        intro n
        rw [Nat.testBit_div_two_pow, Nat.sub_add_cancel high]
      rw [shifted ip'.toNat, shifted ip.toNat]
      change (Nat.testBit (ip'.toNat / 256) _ && _) = (Nat.testBit (ip.toNat / 256) _ && _)
      rw [network]
    · have low := bits ⟨i, by omega⟩
      rw [decide_eq_false high] at low
      rw [low, Bool.and_false, Bool.and_false]
  rw [seed, seed, masked, masked, same]

/-- Every index of 32 digests in a row is among those that the digests before them gave. -/
def Barren (pieceCount : Nat) (start : Bytes) (list : List Nat) : Prop :=
  ∃ n, list = firsts (drawn sha1 pieceCount start) (5 * n) ∧
    ∀ j, j < 32 → ∀ i, i < 5 → indexOf pieceCount (chain sha1 start (n + j + 1)) i ∈ list

/-- Different pieces of the torrent, as many as asked for unless 32 digests in a row bring none. -/
structure WellFormed (k pieceCount : Nat) (start : Bytes) (list : List Nat) : Prop where
  distinct : list.Nodup
  inRange : ∀ index ∈ list, index < pieceCount
  bounded : list.length ≤ min k pieceCount
  full : list.length = min k pieceCount ∨ Barren sha1 pieceCount start list

theorem wellFormed_gathered (k pieceCount last : Nat) (start : Bytes) (pieces : pieceCount ≠ 0)
    (stops : Stops (drawn sha1 pieceCount start) 5 32 (min k pieceCount) last) :
    WellFormed sha1 k pieceCount start
      ((firsts (drawn sha1 pieceCount start) (5 * last)).take (min k pieceCount)) := by
  have gathered := nodup_firsts (drawn sha1 pieceCount start) (5 * last)
  refine ⟨gathered.sublist (List.take_sublist _ _), ?_, List.length_take_le _ _, ?_⟩
  · intro index member
    obtain ⟨t, -, rfl⟩ := (mem_firsts _ _ _).1 (List.mem_of_mem_take member)
    exact drawn_lt sha1 pieceCount start t pieces
  · by_cases full : min k pieceCount ≤ (firsts (drawn sha1 pieceCount start) (5 * last)).length
    · exact .inl (by rw [List.length_take, Nat.min_eq_left full])
    · obtain ⟨long, level⟩ := stops.resolve_left full
      have all := List.take_of_length_le (Nat.le_of_lt (not_le.1 full))
      refine .inr ⟨last - 32, ?_, ?_⟩
      · rw [all]
        exact firsts_eq_of_length _ _ _ (Nat.mul_le_mul_left 5 (Nat.sub_le last 32)) level
      · intro j early i below
        rw [all, mem_firsts]
        refine ⟨5 * (last - 32 + j) + i, by omega, ?_⟩
        rw [drawn_round sha1 pieceCount start (last - 32 + j) i below]

/-- The loop ends, its set is well formed, the network alone decides it, and a larger set continues
a smaller one. -/
theorem allowed_fast_well_formed (k pieceCount : Nat) (infohash : Bytes) (ip : UInt32) :
    ∃ list, (∀ rounds, 33 * min k pieceCount + 32 ≤ rounds →
        generateAllowedFastSet sha1 rounds k pieceCount infohash ip = some list) ∧
      WellFormed sha1 k pieceCount (seed infohash ip) list ∧
      (∀ ip', ip'.toNat / 256 = ip.toNat / 256 → ∀ rounds, 33 * min k pieceCount + 32 ≤ rounds →
        generateAllowedFastSet sha1 rounds k pieceCount infohash ip' = some list) ∧
      ∀ k', k ≤ k' → ∀ rounds, 33 * min k' pieceCount + 32 ≤ rounds →
        ∃ list', generateAllowedFastSet sha1 rounds k' pieceCount infohash ip = some list' ∧
          list <+: list' := by
  have network : ∀ rounds ip', ip'.toNat / 256 = ip.toNat / 256 →
      generateAllowedFastSet sha1 rounds k pieceCount infohash ip' =
        generateAllowedFastSet sha1 rounds k pieceCount infohash ip := by
    intro rounds ip' same
    rw [generateAllowedFastSet, generateAllowedFastSet, seed_of_network infohash ip ip' same]
  by_cases none : k = 0 ∨ pieceCount = 0
  · have empty : ∀ rounds, generateAllowedFastSet sha1 rounds k pieceCount infohash ip = some [] :=
      fun rounds => by rw [generateAllowedFastSet, if_pos none]
    have zero : min k pieceCount = 0 := by omega
    refine ⟨[], fun rounds _ => empty rounds, ⟨List.nodup_nil, ?_, Nat.zero_le _, .inl zero.symm⟩,
      fun ip' same rounds _ => (network rounds ip' same).trans (empty rounds), ?_⟩
    · exact fun index member => absurd member List.not_mem_nil
    · intro k' _ rounds enough
      by_cases none' : k' = 0 ∨ pieceCount = 0
      · exact ⟨[], by rw [generateAllowedFastSet, if_pos none'], List.prefix_rfl⟩
      · rw [not_or] at none'
        obtain ⟨last, small, -, -, result⟩ := generate_eq sha1 k' pieceCount infohash ip none'.1 none'.2
        exact ⟨_, result rounds (by omega), List.nil_prefix⟩
  · rw [not_or] at none
    obtain ⟨last, small, stops, first, result⟩ :=
      generate_eq sha1 k pieceCount infohash ip none.1 none.2
    refine ⟨_, fun rounds enough => result rounds (by omega),
      wellFormed_gathered sha1 k pieceCount last (seed infohash ip) none.2 stops,
      fun ip' same rounds enough => (network rounds ip' same).trans (result rounds (by omega)), ?_⟩
    intro k' larger rounds enough
    obtain ⟨last', small', stops', first', result'⟩ :=
      generate_eq sha1 k' pieceCount infohash ip (by omega) none.2
    exact ⟨_, result' rounds (by omega), take_prefix_of_larger _ 5 32 (min k pieceCount)
      (min k' pieceCount) last last' (by omega) stops stops' first first'⟩

end Seedchamp.Wire.AllowedFast
