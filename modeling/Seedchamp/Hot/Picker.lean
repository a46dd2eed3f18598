import Seedchamp.Hot.Interleaving
import Mathlib.Data.List.Range
import Mathlib.Data.Nat.ModEq

/-!
The choice of a piece to download: a walk over all pieces or a sample of them, ranked by rarity, and
claimed one after another until a claim succeeds.
-/

namespace Seedchamp.Hot.Picker
open Catalog.Bitfield Disk.Spans Foundation.Machine Foundation.Tally Foundation.TransitionSystem
open Hot.Torrent Hot.Torrent.HotTorrent Hot.Possession

def PICK_SAMPLE_ATTEMPTS : Nat := 256

def PICK_CANDIDATE_CAP : Nat := 32

def INITIAL_RANDOM_PIECES : Nat := 4

def INITIAL_RANDOM_MIN_PC : Nat := 16

/-- What the caller passes in: the bitfield of the peer, and what its session says of each piece. -/
structure Caller where
  peerBf : Bits
  inStaging : Nat → Bool
  isHashing : Nat → Bool
  pieceOk : Nat → Bool
  endgame : Bool

/-- The values that a generator gives, in order. -/
abbrev Rng := Nat → Nat

/-- `random_range(0..pc)`. -/
def randomBelow (rng : Rng) (pc : Nat) : Nat × Rng := (rng 0 % pc, fun k => rng (k + 1))

/-- The claims attempted so far, with their outcomes. -/
abbrev Attempts := List (Nat × Bool)

/-- `try_claim`: the outcome may depend on everything attempted before. -/
abbrev Claims := Attempts → Nat → Bool

/-- A candidate with its rarity. -/
abbrev Candidate := Nat × Nat

/-- What is copied under the locks. -/
structure Snapshot where
  complete : Bool
  haveN : Nat
  haveBf : Option Bits
  wanted : Bits
  avail : List Nat
  missingN : Nat
  inflight : Finset Nat

def snapshot (t : HotTorrent) : Snapshot where
  complete := t.pieces.complete
  haveN := t.pieces.haveCount
  haveBf := if t.pieces.complete then none else some t.pieces.bitfield
  wanted := t.wantedBf
  avail := t.availability
  missingN := if t.pieces.complete then 0 else t.downloadMissing
  inflight := t.inFlight

def eligible (pc : Nat) (snap : Snapshot) (caller : Caller) (i : Nat) : Bool :=
  if pc ≤ i || caller.isHashing i || caller.inStaging i || !caller.pieceOk i then false
  else if snap.complete then false
  else if snap.haveBf.any (fun h => bitfieldGet h i) then false
  else if !bitfieldGet snap.wanted i then false
  else if !caller.endgame && decide (i ∈ snap.inflight) then false
  else bitfieldGet caller.peerBf i

def rarity (snap : Snapshot) (i : Nat) : Nat := snap.avail.getD i 0

/-- The piece that an offset of the walk comes to, on `u32`. -/
def walkIndex (pc start off : Nat) : Nat := asU32 (start + off) % pc

/-- The walk over all pieces, up to the cap of candidates. -/
def walkLoop (pc start : Nat) (pick : Nat → Bool) (key : Nat → Nat) :
    List Nat → List Candidate → List Candidate
  | [], candidates => candidates
  | off :: rest, candidates =>
    if PICK_CANDIDATE_CAP ≤ candidates.length then candidates
    else
      let i := walkIndex pc start off
      walkLoop pc start pick key rest (if pick i then candidates ++ [(i, key i)] else candidates)

/-- `if pc > 1 { rng.random_range(0..pc) } else { 0 }`. -/
def randomStart (rng : Rng) (pc : Nat) : Nat × Rng := if 1 < pc then randomBelow rng pc else (0, rng)

/-- The exact pass from a random start. -/
def exactPass (pc : Nat) (pick : Nat → Bool) (key : Nat → Nat) (rng : Rng) : List Candidate × Rng :=
  let (start, rng) := randomStart rng pc
  (walkLoop pc start pick key (List.range pc) [], rng)

/-- The bounded random sample of a large torrent. -/
def sampleLoop (pc : Nat) (pick : Nat → Bool) (key : Nat → Nat) :
    Nat → Rng → List Candidate → List Candidate × Rng
  | 0, rng, candidates => (candidates, rng)
  | left + 1, rng, candidates =>
    if PICK_CANDIDATE_CAP ≤ candidates.length then (candidates, rng)
    else
      let (i, rng) := randomBelow rng pc
      sampleLoop pc pick key left rng
        (if pick i && !candidates.any (fun c => c.1 == i) then candidates ++ [(i, key i)]
          else candidates)

/-- The first candidates: all of a small torrent, a sample of a large one. -/
def gather (pc : Nat) (pick : Nat → Bool) (key : Nat → Nat) (rng : Rng) : List Candidate × Rng :=
  if pc ≤ PICK_SAMPLE_ATTEMPTS then exactPass pc pick key rng
  else sampleLoop pc pick key PICK_SAMPLE_ATTEMPTS rng []

/-- `sort_by_key` on the rarity. -/
def byRarity (a b : Candidate) : Bool := decide (a.2 ≤ b.2)

/-- Races first, then by rarity. -/
def byRace (inflight : Finset Nat) (a b : Candidate) : Bool :=
  let aRace := decide (a.1 ∈ inflight)
  let bRace := decide (b.1 ∈ inflight)
  if aRace = bRace then decide (a.2 ≤ b.2) else aRace

/-- Claim one candidate after another until a claim succeeds. -/
def tryFrom (layout : StorageLayout) (tryClaim : Claims) :
    List Candidate → Attempts → Option (Nat × Nat) × Attempts
  | [], attempts => (none, attempts)
  | (i, _) :: rest, attempts =>
    if tryClaim attempts i then
      ((layout.pieceSize i).toOption.map (fun plen => (i, plen)), attempts ++ [(i, true)])
    else tryFrom layout tryClaim rest (attempts ++ [(i, false)])

/-- Random pieces come first while few are had and many are missing. -/
def randomFirst (pc : Nat) (snap : Snapshot) (caller : Caller) : Bool :=
  !caller.endgame && decide (snap.haveN < INITIAL_RANDOM_PIECES) &&
    decide (INITIAL_RANDOM_MIN_PC ≤ pc) && decide (PICK_CANDIDATE_CAP < snap.missingN)

/-- Pick and claim a piece; the answer is the piece with its length, and the claims attempted. -/
def pickRarestPiece (t : HotTorrent) (caller : Caller) (rng : Rng) (tryClaim : Claims) :
    Option (Nat × Nat) × Attempts :=
  let pc := t.pieceCount
  if pc = 0 then (none, [])
  else
    let snap := snapshot t
    let pick := eligible pc snap caller
    let key := rarity snap
    let (sampled, rng) := gather pc pick key rng
    let exact := sampled.isEmpty || decide (snap.missingN ≤ PICK_CANDIDATE_CAP)
    let (candidates, rng) := if exact then exactPass pc pick key rng else (sampled, rng)
    let ranked :=
      if caller.endgame then candidates.mergeSort (byRace snap.inflight)
      else if !randomFirst pc snap caller then candidates.mergeSort byRarity
      else candidates
    match tryFrom t.layout tryClaim ranked [] with
    | (some hit, attempts) => (some hit, attempts)
    | (none, attempts) =>
      if exact then (none, attempts)
      else
        let candidates := (exactPass pc pick key rng).1
        let ranked :=
          if !randomFirst pc snap caller then candidates.mergeSort byRarity else candidates
        tryFrom t.layout tryClaim ranked attempts

/-- A piece that the torrent wants and has not got. -/
def Open (t : HotTorrent) (i : Nat) : Prop := t.wantsPiece i = true ∧ t.hasPiece i = false

/-- A piece that may be picked. -/
structure Eligible (t : HotTorrent) (caller : Caller) (i : Nat) : Prop where
  isOpen : Open t i
  offered : bitfieldGet caller.peerBf i = true
  unstaged : caller.inStaging i = false
  unhashed : caller.isHashing i = false
  allowed : caller.pieceOk i = true
  unclaimed : caller.endgame = true ∨ i ∉ t.inFlight

/-- Few pieces are had of a large torrent with much left by its counter. -/
def Bootstrap (t : HotTorrent) : Prop :=
  t.pieces.haveCount < INITIAL_RANDOM_PIECES ∧ INITIAL_RANDOM_MIN_PC ≤ t.pieceCount ∧
    PICK_CANDIDATE_CAP < t.downloadMissing

/-- The number of wanted pieces that are missing. -/
def missingCount (t : HotTorrent) : Nat :=
  tally (fun i => t.wantsPiece i && !t.hasPiece i) t.pieceCount

theorem eligible_iff (t : HotTorrent) (caller : Caller) (i : Nat) :
    eligible t.pieceCount (snapshot t) caller i = true ↔ Eligible t caller i := by
  have wants : t.wantsPiece i = true ↔ i < t.pieceCount ∧ bitfieldGet t.wantedBf i = true := by
    rw [wantsPiece]
    split_ifs with past
    · exact ⟨(fun clash => by cases clash), fun both => absurd both.1 (by omega)⟩
    · exact ⟨fun set => ⟨by omega, set⟩, And.right⟩
  have has : i < t.pieceCount → (t.hasPiece i = false ↔
      t.pieces.complete = false ∧ bitfieldGet t.pieces.bitfield i = false) := by
    intro inside
    rw [hasPiece, if_neg (by omega)]
    cases t.pieces.complete with
    | true => exact ⟨(fun clash => by cases clash), fun both => absurd both.1 (by decide)⟩
    | false => exact ⟨fun clear => ⟨rfl, clear⟩, And.right⟩
  constructor
  · intro picked
    rw [eligible] at picked
    split_ifs at picked with barred complete had unwanted claimed
    simp only [Bool.or_eq_true, decide_eq_true_eq, not_or, Bool.not_eq_true, Bool.not_eq_true'] at barred
    obtain ⟨⟨⟨inside, unhashed⟩, unstaged⟩, allowed⟩ := barred
    rw [Bool.not_eq_true] at complete
    have clear : bitfieldGet t.pieces.bitfield i = false := by
      have open' : t.pieces.complete = false := complete
      simp only [snapshot, open', Bool.false_eq_true, if_false, Option.any_some, Bool.not_eq_true] at had
      exact had
    refine ⟨⟨wants.2 ⟨by omega, ?_⟩, (has (by omega)).2 ⟨complete, clear⟩⟩, picked, unstaged, unhashed,
      ?_, ?_⟩
    · simpa [snapshot] using unwanted
    · simpa using allowed
    · by_cases free : caller.endgame = true
      · exact Or.inl free
      · refine Or.inr ?_
        simp only [Bool.and_eq_true, Bool.not_eq_true', decide_eq_true_eq, not_and] at claimed
        exact claimed (Bool.not_eq_true _ ▸ free)
  · rintro ⟨⟨wanted, missing⟩, offered, unstaged, unhashed, allowed, unclaimed⟩
    obtain ⟨inside, bit⟩ := wants.1 wanted
    obtain ⟨complete, clear⟩ := (has inside).1 missing
    have free : (!caller.endgame && decide (i ∈ t.inFlight)) = false := by
      rcases unclaimed with endgame | absent
      · rw [endgame]
        rfl
      · rw [decide_eq_false absent, Bool.and_false]
    simp only [eligible, snapshot, complete, clear, bit, free, unstaged, unhashed, allowed, offered,
      show ¬ t.pieceCount ≤ i by omega, decide_false, Bool.or_false, Bool.not_true,
      Bool.false_eq_true, if_false, Option.any_some]

section Lists
variable (pc : Nat) (pick : Nat → Bool) (key : Nat → Nat)

/-- The pieces that a walk visits, in order. -/
def visited (pc start : Nat) (offs : List Nat) : List Nat := offs.map (walkIndex pc start)

theorem walkLoop_eq (start : Nat) (offs : List Nat) (candidates : List Candidate) :
    walkLoop pc start pick key offs candidates =
      candidates ++ (((visited pc start offs).filter pick).map (fun i => (i, key i))).take
        (PICK_CANDIDATE_CAP - candidates.length) := by
  induction offs generalizing candidates with
  | nil =>
    rw [walkLoop, visited, List.map_nil, List.filter_nil, List.map_nil, List.take_nil, List.append_nil]
  | cons off rest ih =>
    rw [walkLoop, visited, List.map_cons, ← visited]
    by_cases full : PICK_CANDIDATE_CAP ≤ candidates.length
    · rw [if_pos full, Nat.sub_eq_zero_of_le full, List.take_zero, List.append_nil]
    · rw [if_neg full]
      dsimp only
      rw [ih]
      by_cases picked : pick (walkIndex pc start off) = true
      · obtain ⟨room, size⟩ := Nat.exists_eq_add_of_lt (Nat.not_le.1 full)
        rw [if_pos picked, List.filter_cons_of_pos picked, List.map_cons, List.length_append,
          List.length_singleton, show PICK_CANDIDATE_CAP - candidates.length = room + 1 by omega,
          show PICK_CANDIDATE_CAP - (candidates.length + 1) = room by omega, List.take_succ_cons,
          List.append_assoc, List.singleton_append]
      · rw [if_neg picked, List.filter_cons_of_neg picked]

/-- Every candidate passed the test and carries its rarity. -/
def Genuine (candidates : List Candidate) : Prop :=
  ∀ c ∈ candidates, pick c.1 = true ∧ c.2 = key c.1

theorem genuine_sampleLoop (left : Nat) (rng : Rng) (candidates : List Candidate)
    (genuine : Genuine pick key candidates) :
    Genuine pick key (sampleLoop pc pick key left rng candidates).1 := by
  induction left generalizing rng candidates with
  | zero => exact genuine
  | succ left ih =>
    rw [sampleLoop]
    split_ifs with full
    · exact genuine
    · refine ih _ _ ?_
      split_ifs with fresh
      · intro c member
        rcases List.mem_append.1 member with old | new
        · exact genuine c old
        · rw [List.mem_singleton.1 new]
          rw [Bool.and_eq_true] at fresh
          exact ⟨fresh.1, rfl⟩
      · exact genuine

theorem exactPass_eq (rng : Rng) :
    ∃ start, (0 < pc → start < pc) ∧ (exactPass pc pick key rng).1 =
      (((visited pc start (List.range pc)).filter pick).map (fun i => (i, key i))).take
        PICK_CANDIDATE_CAP := by
  refine ⟨(randomStart rng pc).1, ?_, ?_⟩
  · intro positive
    rw [randomStart]
    split_ifs
    · exact Nat.mod_lt _ positive
    · exact positive
  · rw [exactPass]
    exact walkLoop_eq pc pick key _ _ []

theorem genuine_exactPass (rng : Rng) : Genuine pick key (exactPass pc pick key rng).1 := by
  obtain ⟨start, _, same⟩ := exactPass_eq pc pick key rng
  rw [same]
  intro c member
  obtain ⟨i, inside, rfl⟩ := List.mem_map.1 (List.mem_of_mem_take member)
  exact ⟨(List.mem_filter.1 inside).2, rfl⟩

theorem genuine_perm (few many : List Candidate) (same : few.Perm many)
    (genuine : Genuine pick key many) : Genuine pick key few :=
  fun c member => genuine c (same.mem_iff.1 member)

end Lists

section Claiming
variable (layout : StorageLayout) (tryClaim : Claims)

/-- A claim that was refused. -/
def refused (c : Candidate) : Nat × Bool := (c.1, false)

/-- The candidates before the one returned were refused; where none is returned, all were. -/
theorem tryFrom_cases (candidates : List Candidate) (attempts : Attempts)
    (sized : ∀ c ∈ candidates, ∃ plen, layout.pieceSize c.1 = .ok plen) :
    (∃ front c back plen, candidates = front ++ c :: back ∧ layout.pieceSize c.1 = .ok plen ∧
      tryFrom layout tryClaim candidates attempts =
        (some (c.1, plen), attempts ++ front.map refused ++ [(c.1, true)])) ∨
    tryFrom layout tryClaim candidates attempts = (none, attempts ++ candidates.map refused) := by
  induction candidates generalizing attempts with
  | nil => exact Or.inr (by rw [List.map_nil, List.append_nil]; rfl)
  | cons c rest ih =>
    obtain ⟨plen, size⟩ := sized c List.mem_cons_self
    rw [tryFrom]
    by_cases claimed : tryClaim attempts c.1 = true
    · refine Or.inl ⟨[], c, rest, plen, rfl, size, ?_⟩
      rw [if_pos claimed, size, List.map_nil, List.append_nil]
      rfl
    · rw [if_neg claimed]
      rcases ih (attempts ++ [(c.1, false)])
        (fun other member => sized other (List.mem_cons_of_mem _ member)) with
        ⟨front, hit, back, length, same, found, result⟩ | result
      · refine Or.inl ⟨c :: front, hit, back, length, by rw [same, List.cons_append], found, ?_⟩
        rw [result, List.append_assoc attempts, List.singleton_append, List.map_cons]
        rfl
      · refine Or.inr ?_
        rw [result, List.append_assoc, List.singleton_append, List.map_cons]
        rfl

end Claiming

theorem pairwise_byRarity (candidates : List Candidate) :
    (candidates.mergeSort byRarity).Pairwise (fun a b => a.2 ≤ b.2) := by
  have sorted := @List.pairwise_mergeSort _ byRarity
    (by
      intro a b c first second
      simp only [byRarity, decide_eq_true_eq] at first second ⊢
      exact first.trans second)
    (by
      intro a b
      simp only [byRarity, Bool.or_eq_true, decide_eq_true_eq]
      exact Nat.le_total a.2 b.2) candidates
  exact sorted.imp (fun below => by simpa [byRarity] using below)

section Walk

/-- Below the limit of `u32` the walk does not repeat itself. -/
theorem visited_nodup (pc start n : Nat) (few : n ≤ pc) (small : start + n ≤ 2 ^ 32) :
    (visited pc start (List.range n)).Nodup := by
  refine List.Nodup.map_on ?_ List.nodup_range
  intro a a_listed b b_listed same
  rw [List.mem_range] at a_listed b_listed
  rw [walkIndex, walkIndex, asU32_of_lt _ (by omega), asU32_of_lt _ (by omega)] at same
  have offsets : a ≡ b [MOD pc] := Nat.ModEq.add_left_cancel (Nat.ModEq.refl start) same
  exact Nat.ModEq.eq_of_lt_of_lt offsets (by omega) (by omega)

/-- The walk comes to a piece before its sum wraps. -/
theorem mem_visited (pc start w : Nat) (inside : w < pc) (started : start < pc) (narrow : pc < 2 ^ 32)
    (reached : w + pc < 2 ^ 32 ∨ w + 1 = pc) :
    w ∈ visited pc start (List.range (min pc (2 ^ 32 - start))) := by
  rw [visited, List.mem_map]
  by_cases ahead : start ≤ w
  · refine ⟨w - start, List.mem_range.2 (by omega), ?_⟩
    rw [walkIndex, asU32_of_lt _ (by omega), Nat.mod_eq_of_lt (by omega)]
    omega
  · refine ⟨w + pc - start, List.mem_range.2 (by omega), ?_⟩
    rw [walkIndex, asU32_of_lt _ (by omega), show start + (w + pc - start) = w + pc by omega,
      Nat.add_mod_right, Nat.mod_eq_of_lt inside]

/-- A piece just before the start is passed over once the sum has wrapped. -/
theorem not_mem_visited (pc w : Nat) (narrow : pc < 2 ^ 32) (next : w + 1 < pc)
    (wraps : 2 ^ 32 ≤ w + pc) : w ∉ visited pc (w + 1) (List.range pc) := by
  rw [visited, List.mem_map]
  rintro ⟨off, listed, same⟩
  rw [List.mem_range] at listed
  rw [walkIndex] at same
  by_cases below : w + 1 + off < 2 ^ 32
  · rw [asU32_of_lt _ below] at same
    by_cases first : w + 1 + off < pc
    · rw [Nat.mod_eq_of_lt first] at same
      omega
    · rw [Nat.mod_eq_sub_mod (by omega), Nat.mod_eq_of_lt (by omega)] at same
      omega
  · have wrapped : (w + 1 + off) % 2 ^ 32 = w + 1 + off - 2 ^ 32 := by omega
    rw [asU32, wrapped, Nat.mod_eq_of_lt (by omega)] at same
    omega

theorem length_le_tally (marked : Nat → Bool) (bound : Nat) (list : List Nat) (distinct : list.Nodup)
    (counted : ∀ i ∈ list, i < bound ∧ marked i = true) : list.length ≤ tally marked bound := by
  rw [tally_eq_card, ← List.toFinset_card_of_nodup distinct]
  apply Finset.card_le_card
  intro i member
  rw [Finset.mem_filter, Finset.mem_range]
  exact counted i (List.mem_toFinset.1 member)

end Walk

/-- The candidates of a walk from `start`. -/
def passFrom (t : HotTorrent) (caller : Caller) (start : Nat) : List Candidate :=
  (((visited t.pieceCount start (List.range t.pieceCount)).filter
    (eligible t.pieceCount (snapshot t) caller)).map
    (fun i => (i, rarity (snapshot t) i))).take PICK_CANDIDATE_CAP

/-- What the candidate lists of a call are, `again` being those of the fallback. -/
structure Plan (t : HotTorrent) (caller : Caller) (ranked again : List Candidate) (exact : Bool) :
    Prop where
  genuine : Genuine (eligible t.pieceCount (snapshot t) caller) (rarity (snapshot t)) ranked
  genuineAgain : Genuine (eligible t.pieceCount (snapshot t) caller) (rarity (snapshot t)) again
  passed : exact = true ∨ t.pieceCount ≤ PICK_SAMPLE_ATTEMPTS →
    ∃ start, start < t.pieceCount ∧ ranked.Perm (passFrom t caller start)
  sampled : exact = false → ranked ≠ [] ∧ PICK_CANDIDATE_CAP < (snapshot t).missingN
  sorted : caller.endgame = false → randomFirst t.pieceCount (snapshot t) caller = false →
    ranked.Pairwise (fun a b => a.2 ≤ b.2)

/-- Claim along the first list, then along the fallback unless the first was exact. -/
def claimAlong (layout : StorageLayout) (tryClaim : Claims) (ranked again : List Candidate)
    (exact : Bool) : Option (Nat × Nat) × Attempts :=
  match tryFrom layout tryClaim ranked [] with
  | (some hit, attempts) => (some hit, attempts)
  | (none, attempts) =>
    if exact then (none, attempts) else tryFrom layout tryClaim again attempts

theorem rank_perm (t : HotTorrent) (caller : Caller) (candidates : List Candidate) :
    List.Perm (if caller.endgame then candidates.mergeSort (byRace (snapshot t).inflight)
      else if !randomFirst t.pieceCount (snapshot t) caller then candidates.mergeSort byRarity
      else candidates) candidates := by
  split_ifs
  · exact List.mergeSort_perm candidates _
  · exact List.mergeSort_perm candidates _
  · exact List.Perm.refl candidates

theorem pick_planned (t : HotTorrent) (caller : Caller) (rng : Rng) (tryClaim : Claims)
    (positive : 0 < t.pieceCount) :
    ∃ ranked again exact, Plan t caller ranked again exact ∧
      pickRarestPiece t caller rng tryClaim = claimAlong t.layout tryClaim ranked again exact := by
  have pass : ∀ rng, ∃ start, start < t.pieceCount ∧
      (exactPass t.pieceCount (eligible t.pieceCount (snapshot t) caller) (rarity (snapshot t)) rng).1 =
        passFrom t caller start := by
    intro rng
    obtain ⟨start, below, same⟩ := exactPass_eq t.pieceCount
      (eligible t.pieceCount (snapshot t) caller) (rarity (snapshot t)) rng
    exact ⟨start, below positive, same⟩
  have pass_genuine := genuine_exactPass t.pieceCount (eligible t.pieceCount (snapshot t) caller)
    (rarity (snapshot t))
  have sorted : ∀ candidates : List Candidate, caller.endgame = false →
      randomFirst t.pieceCount (snapshot t) caller = false →
      (if caller.endgame then candidates.mergeSort (byRace (snapshot t).inflight)
        else if !randomFirst t.pieceCount (snapshot t) caller then candidates.mergeSort byRarity
        else candidates).Pairwise (fun a b => a.2 ≤ b.2) := by
    intro candidates steady usual
    rw [if_neg (by rw [steady]; decide), if_pos (by rw [usual]; rfl)]
    exact pairwise_byRarity candidates
  have again_genuine : ∀ rng, Genuine (eligible t.pieceCount (snapshot t) caller) (rarity (snapshot t))
      (if !randomFirst t.pieceCount (snapshot t) caller then
        (exactPass t.pieceCount (eligible t.pieceCount (snapshot t) caller) (rarity (snapshot t))
          rng).1.mergeSort byRarity
      else (exactPass t.pieceCount (eligible t.pieceCount (snapshot t) caller) (rarity (snapshot t))
        rng).1) := by
    intro rng
    split_ifs
    · exact genuine_perm _ _ _ _ (List.mergeSort_perm _ _) (pass_genuine rng)
    · exact pass_genuine rng
  -- The first list is a pass or a sample, and replaced by a pass where it must be exact.
  rcases first : gather t.pieceCount (eligible t.pieceCount (snapshot t) caller) (rarity (snapshot t))
    rng with ⟨sampled, rng₁⟩
  have sample_genuine : Genuine (eligible t.pieceCount (snapshot t) caller) (rarity (snapshot t))
      sampled := by
    have genuine : Genuine (eligible t.pieceCount (snapshot t) caller) (rarity (snapshot t))
        (gather t.pieceCount (eligible t.pieceCount (snapshot t) caller) (rarity (snapshot t)) rng).1 := by
      rw [gather]
      split_ifs
      · exact pass_genuine rng
      · exact genuine_sampleLoop _ _ _ _ _ _ (by intro c member; cases member)
    rw [first] at genuine
    exact genuine
  have sample_passed : t.pieceCount ≤ PICK_SAMPLE_ATTEMPTS →
      ∃ start, start < t.pieceCount ∧ sampled = passFrom t caller start := by
    intro small
    obtain ⟨start, below, same⟩ := pass rng
    rw [gather, if_pos small] at first
    rw [first] at same
    exact ⟨start, below, same⟩
  rw [pickRarestPiece, if_neg (by omega)]
  dsimp only
  rw [first]
  dsimp only
  cases exact : sampled.isEmpty || decide ((snapshot t).missingN ≤ PICK_CANDIDATE_CAP) with
  | true =>
    rw [if_pos rfl]
    refine ⟨_, _, true, ⟨genuine_perm _ _ _ _ (rank_perm t caller _) (pass_genuine rng₁),
      again_genuine rng₁, ?_, nofun, sorted _⟩, rfl⟩
    intro _
    obtain ⟨start, below, same⟩ := pass rng₁
    exact ⟨start, below, same ▸ rank_perm t caller _⟩
  | false =>
    rw [Bool.or_eq_false_iff, decide_eq_false_iff_not, Nat.not_le] at exact
    refine ⟨_, _, false, ⟨genuine_perm _ _ _ _ (rank_perm t caller sampled) sample_genuine,
      again_genuine rng₁, ?_, ?_, sorted sampled⟩, rfl⟩
    · rintro (wrong | small)
      · cases wrong
      · obtain ⟨start, below, same⟩ := sample_passed small
        exact ⟨start, below, same ▸ rank_perm t caller sampled⟩
    · intro _
      refine ⟨?_, exact.2⟩
      intro empty
      have none := (rank_perm t caller sampled).symm
      rw [empty] at none
      rw [List.Perm.eq_nil none] at exact
      exact absurd exact.1 (by decide)

/-- The piece returned may be picked, and it alone is claimed, once. -/
def Sound (t : HotTorrent) (caller : Caller) (run : Option (Nat × Nat) × Attempts) : Prop :=
  ∀ i plen, run.1 = some (i, plen) →
    Eligible t caller i ∧ t.layout.pieceSize i = .ok plen ∧
      ∃ before, run.2 = before ++ [(i, true)] ∧ ∀ attempt ∈ before, attempt.2 = false

/-- Nothing is returned only where a claim was refused or no piece may be picked. -/
def Complete (t : HotTorrent) (caller : Caller) (run : Option (Nat × Nat) × Attempts) : Prop :=
  run.1 = none →
    (∀ attempt ∈ run.2, Eligible t caller attempt.1 → attempt.2 = true) → ∀ i, ¬ Eligible t caller i

/-- With few pieces missing, every rarer piece that may be picked was claimed in vain. -/
def Rarest (t : HotTorrent) (caller : Caller) (run : Option (Nat × Nat) × Attempts) : Prop :=
  ∀ i plen, run.1 = some (i, plen) → caller.endgame = false → ¬ Bootstrap t →
    missingCount t ≤ PICK_CANDIDATE_CAP → ∀ j, Eligible t caller j →
      t.availability.getD j 0 < t.availability.getD i 0 → (j, false) ∈ run.2

/-- The laws of the choice, for every caller, every generator and every outcome of the claims. -/
def Laws (t : HotTorrent) : Prop :=
  ∀ caller rng tryClaim,
    Sound t caller (pickRarestPiece t caller rng tryClaim) ∧
      Complete t caller (pickRarestPiece t caller rng tryClaim) ∧
      Rarest t caller (pickRarestPiece t caller rng tryClaim)

/-- The state in which the choice keeps its laws: every open piece has a size and is reached by a walk
before its sum wraps, and a large torrent short of work has a counter that says so, or nothing to
choose by. -/
structure Choosable (t : HotTorrent) : Prop where
  sized : ∀ i, Open t i → i < t.layout.pieceCount
  reached : ∀ i, Open t i → i + t.pieceCount < 2 ^ 32 ∨ i + 1 = t.pieceCount
  counted : ¬ Bootstrap t → missingCount t ≤ PICK_CANDIDATE_CAP →
    PICK_SAMPLE_ATTEMPTS < t.pieceCount → PICK_CANDIDATE_CAP < t.downloadMissing →
    ∀ i j, Open t i → Open t j → i ∉ t.inFlight → j ∉ t.inFlight →
      t.availability.getD i 0 = t.availability.getD j 0

theorem open_below (t : HotTorrent) (i : Nat) (isOpen : Open t i) : i < t.pieceCount := by
  have wanted := isOpen.1
  rw [wantsPiece] at wanted
  split_ifs at wanted with past
  omega

theorem pieceSize_below (layout : StorageLayout) (i : Nat) (below : i < layout.pieceCount) :
    ∃ plen, layout.pieceSize i = .ok plen := by
  rw [StorageLayout.pieceSize, if_neg (by omega)]
  split_ifs
  · exact ⟨_, rfl⟩
  · exact ⟨_, rfl⟩

theorem pieceSize_past (layout : StorageLayout) (i : Nat) (past : layout.pieceCount ≤ i) :
    (layout.pieceSize i).toOption = none := by
  rw [StorageLayout.pieceSize, if_pos past]
  rfl

theorem rarity_eq (t : HotTorrent) (i : Nat) :
    rarity (snapshot t) i = t.availability.getD i 0 := rfl

section Sufficient
variable (t : HotTorrent) (narrow : t.pieceCount < 2 ^ 32) (choosable : Choosable t)
variable (caller : Caller)
include narrow choosable

/-- The pieces before the wrap come first, each of them once. -/
theorem passFrom_split (start : Nat) :
    ∃ front back : List Nat,
      passFrom t caller start = ((front ++ back).map (fun i => (i, rarity (snapshot t) i))).take
        PICK_CANDIDATE_CAP ∧
      front.length ≤ missingCount t ∧
      (start < t.pieceCount → ∀ w, Eligible t caller w → w ∈ front) := by
  have split : visited t.pieceCount start (List.range t.pieceCount) =
      visited t.pieceCount start (List.range (min t.pieceCount (2 ^ 32 - start))) ++
        visited t.pieceCount start
          ((List.range t.pieceCount).drop (min t.pieceCount (2 ^ 32 - start))) := by
    rw [visited, visited, visited, ← List.map_append]
    conv_lhs => rw [← List.take_append_drop (min t.pieceCount (2 ^ 32 - start)) (List.range t.pieceCount)]
    rw [List.take_range, min_eq_left (Nat.min_le_left _ _)]
  refine ⟨(visited t.pieceCount start (List.range (min t.pieceCount (2 ^ 32 - start)))).filter
    (eligible t.pieceCount (snapshot t) caller), (visited t.pieceCount start
      ((List.range t.pieceCount).drop (min t.pieceCount (2 ^ 32 - start)))).filter
    (eligible t.pieceCount (snapshot t) caller), ?_, ?_, ?_⟩
  · rw [passFrom, split, List.filter_append]
  · refine length_le_tally _ _ _ ?_ ?_
    · by_cases started : start ≤ 2 ^ 32
      · exact (visited_nodup _ _ _ (Nat.min_le_left _ _) (by omega)).filter _
      · rw [show min t.pieceCount (2 ^ 32 - start) = 0 by omega]
        exact List.nodup_nil
    · intro i member
      have picked := (eligible_iff t caller i).1 (List.mem_filter.1 member).2
      refine ⟨open_below t i picked.isOpen, ?_⟩
      rw [picked.isOpen.1, picked.isOpen.2]
      rfl
  · intro started w picked
    refine List.mem_filter.2 ⟨?_, (eligible_iff t caller w).2 picked⟩
    exact mem_visited t.pieceCount start w (open_below t w picked.isOpen) started narrow
      (choosable.reached w picked.isOpen)

theorem mem_passFrom (start w : Nat) (started : start < t.pieceCount)
    (few : missingCount t ≤ PICK_CANDIDATE_CAP) (picked : Eligible t caller w) :
    (w, rarity (snapshot t) w) ∈ passFrom t caller start := by
  obtain ⟨front, back, same, short, listed⟩ := passFrom_split t narrow choosable caller start
  rw [same, List.map_append, List.take_append, List.take_of_length_le (by rw [List.length_map]; omega)]
  exact List.mem_append_left _ (List.mem_map.2 ⟨w, listed started w picked, rfl⟩)

theorem passFrom_ne_nil (start w : Nat) (started : start < t.pieceCount) (picked : Eligible t caller w) :
    passFrom t caller start ≠ [] := by
  obtain ⟨front, back, same, short, listed⟩ := passFrom_split t narrow choosable caller start
  rw [same]
  cases front with
  | nil => exact absurd (listed started w picked) (by simp)
  | cons first rest => nofun

omit narrow in
theorem genuine_sized (candidates : List Candidate)
    (genuine : Genuine (eligible t.pieceCount (snapshot t) caller) (rarity (snapshot t)) candidates) :
    ∀ c ∈ candidates, ∃ plen, t.layout.pieceSize c.1 = .ok plen := by
  intro c member
  have picked := (eligible_iff t caller c.1).1 (genuine c member).1
  exact pieceSize_below t.layout c.1 (choosable.sized c.1 picked.isOpen)

omit narrow in
/-- What a call returns along its plan, and what it has claimed by then. -/
theorem claimAlong_cases (tryClaim : Claims) (ranked again : List Candidate) (exact : Bool)
    (plan : Plan t caller ranked again exact) :
    (∃ list before front c back plen,
      (list = ranked ∧ before = [] ∨ exact = false ∧ list = again ∧ before = ranked.map refused) ∧
      list = front ++ c :: back ∧ t.layout.pieceSize c.1 = .ok plen ∧
      claimAlong t.layout tryClaim ranked again exact =
        (some (c.1, plen), before ++ front.map refused ++ [(c.1, true)])) ∨
    ∃ rest, claimAlong t.layout tryClaim ranked again exact =
      (none, ranked.map refused ++ rest) := by
  rw [claimAlong]
  rcases tryFrom_cases t.layout tryClaim ranked []
    (genuine_sized t choosable caller ranked plan.genuine) with
    ⟨front, c, back, plen, same, size, result⟩ | result
  · rw [result]
    exact Or.inl ⟨ranked, [], front, c, back, plen, Or.inl ⟨rfl, rfl⟩, same, size, rfl⟩
  · rw [result]
    cases exact with
    | true => exact Or.inr ⟨[], by rw [List.append_nil]; rfl⟩
    | false =>
      dsimp only
      rw [if_neg (by decide), List.nil_append]
      rcases tryFrom_cases t.layout tryClaim again (ranked.map refused)
        (genuine_sized t choosable caller again plan.genuineAgain) with
        ⟨front, c, back, plen, same, size, found⟩ | found
      · exact Or.inl ⟨again, ranked.map refused, front, c, back, plen, Or.inr ⟨rfl, rfl, rfl⟩, same,
          size, found⟩
      · exact Or.inr ⟨again.map refused, found⟩

omit narrow in
theorem sound_of_choosable (tryClaim : Claims) (ranked again : List Candidate) (exact : Bool)
    (plan : Plan t caller ranked again exact) :
    Sound t caller (claimAlong t.layout tryClaim ranked again exact) := by
  intro i plen hit
  rcases claimAlong_cases t choosable caller tryClaim ranked again exact plan with
    ⟨list, before, front, c, back, length, origin, same, size, result⟩ | ⟨rest, result⟩
  · rw [result] at hit ⊢
    simp only [Option.some.injEq, Prod.mk.injEq] at hit
    obtain ⟨rfl, rfl⟩ := hit
    have genuine : Genuine (eligible t.pieceCount (snapshot t) caller) (rarity (snapshot t)) list := by
      rcases origin with ⟨ranked_same, _⟩ | ⟨_, again_same, _⟩
      · rw [ranked_same]
        exact plan.genuine
      · rw [again_same]
        exact plan.genuineAgain
    have picked := genuine c (by rw [same]; simp)
    refine ⟨(eligible_iff t caller c.1).1 picked.1, size, before ++ front.map refused, rfl, ?_⟩
    have all_refused : ∀ (some : List Candidate), ∀ attempt ∈ some.map refused, attempt.2 = false := by
      intro some attempt member
      obtain ⟨other, _, rfl⟩ := List.mem_map.1 member
      rfl
    intro attempt member
    rcases List.mem_append.1 member with earlier | later
    · rcases origin with ⟨_, none⟩ | ⟨_, _, all⟩
      · rw [none] at earlier
        cases earlier
      · rw [all] at earlier
        exact all_refused ranked attempt earlier
    · exact all_refused front attempt later
  · rw [result] at hit
    cases hit

theorem complete_of_choosable (tryClaim : Claims) (ranked again : List Candidate) (exact : Bool)
    (plan : Plan t caller ranked again exact) :
    Complete t caller (claimAlong t.layout tryClaim ranked again exact) := by
  intro none granted w picked
  rcases claimAlong_cases t choosable caller tryClaim ranked again exact plan with
    ⟨list, before, front, c, back, length, origin, same, size, result⟩ | ⟨rest, result⟩
  · rw [result] at none
    cases none
  · rw [result] at granted
    have something : ranked ≠ [] := by
      cases exact with
      | false => exact (plan.sampled rfl).1
      | true =>
        obtain ⟨start, started, perm⟩ := plan.passed (Or.inl rfl)
        intro empty
        rw [empty] at perm
        exact passFrom_ne_nil t narrow choosable caller start w started picked (List.Perm.nil_eq perm).symm
    obtain ⟨c, others, shape⟩ := List.exists_cons_of_ne_nil something
    have genuine := plan.genuine c (by rw [shape]; exact List.mem_cons_self)
    have refusal := granted (refused c) (by rw [shape]; exact List.mem_cons_self)
      ((eligible_iff t caller c.1).1 genuine.1)
    cases refusal

theorem rarest_of_choosable (tryClaim : Claims) (ranked again : List Candidate) (exact : Bool)
    (plan : Plan t caller ranked again exact) :
    Rarest t caller (claimAlong t.layout tryClaim ranked again exact) := by
  intro i plen hit steady usual few j picked rarer
  have sound := sound_of_choosable t choosable caller tryClaim ranked again exact plan i plen hit
  have open_i := sound.1.isOpen
  have pending : t.pieces.complete = false := by
    have missing := open_i.2
    rw [hasPiece, if_neg (by have := open_below t i open_i; omega)] at missing
    split_ifs at missing with complete
    exact Bool.not_eq_true _ ▸ complete
  have counter : (snapshot t).missingN = t.downloadMissing := by
    simp only [snapshot, pending, Bool.false_eq_true, if_false]
  have ranked_by_rarity : randomFirst t.pieceCount (snapshot t) caller = false := by
    rw [← Bool.not_eq_true]
    intro random
    simp only [randomFirst, Bool.and_eq_true, decide_eq_true_eq] at random
    rw [counter] at random
    exact usual ⟨random.1.1.2, random.1.2, random.2⟩
  by_cases listed : exact = true ∨ t.pieceCount ≤ PICK_SAMPLE_ATTEMPTS
  · -- Every piece that may be picked is ranked: a rarer one comes before the one returned.
    obtain ⟨start, started, perm⟩ := plan.passed listed
    have member := perm.mem_iff.2 (mem_passFrom t narrow choosable caller start j started few picked)
    have sorted := plan.sorted steady ranked_by_rarity
    rcases claimAlong_cases t choosable caller tryClaim ranked again exact plan with
      ⟨list, before, front, c, back, length, origin, same, size, result⟩ | ⟨rest, result⟩
    · rw [result] at hit ⊢
      simp only [Option.some.injEq, Prod.mk.injEq] at hit
      rcases origin with ⟨list_same, _⟩ | ⟨_, _, all⟩
      · rw [list_same] at same
        rw [same] at member sorted
        have key : c.2 = rarity (snapshot t) c.1 := (plan.genuine c (by rw [same]; simp)).2
        have ahead : (j, rarity (snapshot t) j) ∈ front := by
          rcases List.mem_append.1 member with before_hit | behind
          · exact before_hit
          · rcases List.mem_cons.1 behind with here | later
            · rw [← here] at hit
              have same_piece : j = i := hit.1
              rw [same_piece] at rarer
              exact absurd rarer (Nat.lt_irrefl _)
            · have order := (List.pairwise_cons.1 (List.pairwise_append.1 sorted).2.1).1 _ later
              rw [key, hit.1, rarity_eq t, rarity_eq t] at order
              omega
        exact List.mem_append_left _ (List.mem_append_right _ (List.mem_map.2 ⟨_, ahead, rfl⟩))
      · rw [all]
        exact List.mem_append_left _ (List.mem_append_left _ (List.mem_map.2 ⟨_, member, rfl⟩))
    · rw [result] at hit
      cases hit
  · rw [not_or, Bool.not_eq_true, Nat.not_le] at listed
    have many := (plan.sampled listed.1).2
    rw [counter] at many
    have free : ∀ k, Eligible t caller k → k ∉ t.inFlight := by
      intro k one
      exact one.unclaimed.resolve_left (by rw [steady]; decide)
    have level := choosable.counted usual few listed.2 many i j open_i picked.isOpen (free i sound.1)
      (free j picked)
    omega

end Sufficient

section Necessary
variable (t : HotTorrent)

/-- A seed, to a session that has nothing staged and may ask for some pieces. -/
def seedCaller (pieceOk : Nat → Bool) (endgame : Bool) : Caller where
  peerBf := allSetBitfield t.pieceCount
  inStaging := fun _ => false
  isHashing := fun _ => false
  pieceOk := pieceOk
  endgame := endgame

theorem eligible_seed (pieceOk : Nat → Bool) (endgame : Bool) (i : Nat) (isOpen : Open t i)
    (allowed : pieceOk i = true) (unclaimed : endgame = true ∨ i ∉ t.inFlight) :
    Eligible t (seedCaller t pieceOk endgame) i :=
  ⟨isOpen, bitfieldGet_allSetBitfield t.pieceCount i (open_below t i isOpen), rfl, rfl, allowed,
    unclaimed⟩

/-- A piece without a size is claimed and not returned. -/
theorem tryFrom_unsized (layout : StorageLayout) (candidates : List Candidate) (attempts : Attempts)
    (unsized : ∀ c ∈ candidates, layout.pieceCount ≤ c.1)
    (granted : ∀ attempt ∈ attempts, attempt.2 = true) :
    (tryFrom layout (fun _ _ => true) candidates attempts).1 = none ∧
      ∀ attempt ∈ (tryFrom layout (fun _ _ => true) candidates attempts).2, attempt.2 = true := by
  cases candidates with
  | nil => exact ⟨rfl, granted⟩
  | cons c rest =>
    rw [tryFrom, if_pos rfl, pieceSize_past layout c.1 (unsized c List.mem_cons_self)]
    refine ⟨rfl, ?_⟩
    intro attempt member
    rcases List.mem_append.1 member with old | new
    · exact granted attempt old
    · rw [List.mem_singleton.1 new]

theorem sized_of_laws (laws : Laws t) (i : Nat) (isOpen : Open t i) : i < t.layout.pieceCount := by
  by_contra past
  rw [Nat.not_lt] at past
  have positive : 0 < t.pieceCount := Nat.lt_of_le_of_lt (Nat.zero_le i) (open_below t i isOpen)
  have picked := eligible_seed t (fun j => decide (j = i)) true i isOpen (decide_eq_true rfl) (Or.inl rfl)
  have complete := (laws (seedCaller t (fun j => decide (j = i)) true) (fun _ => 0) (fun _ _ => true)).2.1
  obtain ⟨ranked, again, exact, plan, same⟩ :=
    pick_planned t (seedCaller t (fun j => decide (j = i)) true) (fun _ => 0) (fun _ _ => true) positive
  rw [same] at complete
  have unsized : ∀ candidates, Genuine
      (eligible t.pieceCount (snapshot t) (seedCaller t (fun j => decide (j = i)) true))
      (rarity (snapshot t)) candidates → ∀ c ∈ candidates, t.layout.pieceCount ≤ c.1 := by
    intro candidates genuine c member
    have one := ((eligible_iff _ _ _).1 (genuine c member).1).allowed
    rw [of_decide_eq_true one]
    exact past
  have first := tryFrom_unsized t.layout ranked [] (unsized ranked plan.genuine) nofun
  have run : (claimAlong t.layout (fun _ _ => true) ranked again exact).1 = none ∧
      ∀ attempt ∈ (claimAlong t.layout (fun _ _ => true) ranked again exact).2, attempt.2 = true := by
    rw [claimAlong]
    rcases tried : tryFrom t.layout (fun _ _ => true) ranked [] with ⟨hit, attempts⟩
    rw [tried] at first
    obtain ⟨none, granted⟩ := first
    dsimp only at none granted
    rw [none]
    dsimp only
    split_ifs
    · exact ⟨rfl, granted⟩
    · exact tryFrom_unsized t.layout again attempts (unsized again plan.genuineAgain) granted
  exact complete run.1 (fun attempt member _ => run.2 attempt member) i picked

/-- A generator that gives one value. -/
def constant (value : Nat) : Rng := fun _ => value

theorem randomBelow_constant (value pc : Nat) (below : value < pc) :
    randomBelow (constant value) pc = (value, constant value) := by
  rw [randomBelow, constant, Nat.mod_eq_of_lt below]
  rfl

theorem sampleLoop_barren (pc value left : Nat) (pick : Nat → Bool) (key : Nat → Nat)
    (below : value < pc) (barren : pick value = false) :
    sampleLoop pc pick key left (constant value) [] = ([], constant value) := by
  induction left with
  | zero => rfl
  | succ left ih =>
    rw [sampleLoop, if_neg (by decide), randomBelow_constant value pc below]
    dsimp only
    rw [barren, Bool.false_and, if_neg (by decide), ih]

theorem sampleLoop_repeats (pc value left : Nat) (pick : Nat → Bool) (key : Nat → Nat)
    (below : value < pc) :
    sampleLoop pc pick key left (constant value) [(value, key value)] =
      ([(value, key value)], constant value) := by
  induction left with
  | zero => rfl
  | succ left ih =>
    rw [sampleLoop, if_neg (by simp [PICK_CANDIDATE_CAP]), randomBelow_constant value pc below]
    dsimp only
    rw [if_neg (by simp), ih]

theorem exactPass_barren (pc value : Nat) (pick : Nat → Bool) (key : Nat → Nat) (many : 1 < pc)
    (below : value < pc)
    (barren : ∀ i ∈ visited pc value (List.range pc), pick i = false) :
    exactPass pc pick key (constant value) = ([], constant value) := by
  rw [exactPass, randomStart, if_pos many, randomBelow_constant value pc below]
  dsimp only
  rw [walkLoop_eq, List.filter_eq_nil_iff.2 (by
    intro i member
    rw [barren i member]
    decide)]
  rfl

theorem reached_of_laws (narrow : t.pieceCount < 2 ^ 32) (laws : Laws t) (w : Nat)
    (isOpen : Open t w) : w + t.pieceCount < 2 ^ 32 ∨ w + 1 = t.pieceCount := by
  by_contra missed
  rw [not_or] at missed
  have inside := open_below t w isOpen
  have picked := eligible_seed t (fun j => decide (j = w)) true w isOpen (decide_eq_true rfl) (Or.inl rfl)
  have complete := (laws (seedCaller t (fun j => decide (j = w)) true) (constant (w + 1))
    (fun _ _ => true)).2.1
  have other : ∀ i, i ≠ w →
      eligible t.pieceCount (snapshot t) (seedCaller t (fun j => decide (j = w)) true) i = false := by
    intro i differs
    rw [← Bool.not_eq_true, eligible_iff]
    intro one
    exact differs (of_decide_eq_true one.allowed)
  have barren : exactPass t.pieceCount
      (eligible t.pieceCount (snapshot t) (seedCaller t (fun j => decide (j = w)) true))
      (rarity (snapshot t)) (constant (w + 1)) = ([], constant (w + 1)) := by
    refine exactPass_barren _ _ _ _ (by omega) (by omega) ?_
    intro i member
    refine other i ?_
    rintro rfl
    exact not_mem_visited t.pieceCount i narrow (by omega) (by omega) member
  have large : PICK_SAMPLE_ATTEMPTS = 256 := rfl
  have sample : gather t.pieceCount
      (eligible t.pieceCount (snapshot t) (seedCaller t (fun j => decide (j = w)) true))
      (rarity (snapshot t)) (constant (w + 1)) = ([], constant (w + 1)) := by
    rw [gather, if_neg (by omega)]
    exact sampleLoop_barren _ _ _ _ _ (by omega) (other (w + 1) (by omega))
  have nothing : pickRarestPiece t (seedCaller t (fun j => decide (j = w)) true) (constant (w + 1))
      (fun _ _ => true) = (none, []) := by
    rw [pickRarestPiece, if_neg (by omega)]
    dsimp only
    rw [sample]
    dsimp only
    rw [List.isEmpty_nil, Bool.true_or, if_pos rfl, barren]
    dsimp only
    rw [List.mergeSort_nil, List.mergeSort_nil, ite_self, ite_self]
    rfl
  rw [nothing] at complete
  exact complete rfl nofun w picked

theorem counted_of_laws (laws : Laws t) (usual : ¬ Bootstrap t)
    (few : missingCount t ≤ PICK_CANDIDATE_CAP) (large : PICK_SAMPLE_ATTEMPTS < t.pieceCount)
    (many : PICK_CANDIDATE_CAP < t.downloadMissing) (i j : Nat) (open_i : Open t i)
    (open_j : Open t j) (free_i : i ∉ t.inFlight) (free_j : j ∉ t.inFlight) :
    t.availability.getD j 0 ≤ t.availability.getD i 0 := by
  by_contra rarer
  rw [Nat.not_le] at rarer
  have inside := open_below t j open_j
  have picked_i := eligible_seed t (fun _ => true) false i open_i rfl (Or.inr free_i)
  have picked_j := eligible_seed t (fun _ => true) false j open_j rfl (Or.inr free_j)
  have rarest := (laws (seedCaller t (fun _ => true) false) (constant j) (fun _ _ => true)).2.2
  obtain ⟨plen, size⟩ := pieceSize_below t.layout j (sized_of_laws t laws j open_j)
  have pending : t.pieces.complete = false := by
    have missing := open_j.2
    rw [hasPiece, if_neg (by omega)] at missing
    split_ifs at missing with complete
    exact Bool.not_eq_true _ ▸ complete
  have counter : (snapshot t).missingN = t.downloadMissing := by
    simp only [snapshot, pending, Bool.false_eq_true, if_false]
  have sample : gather t.pieceCount
      (eligible t.pieceCount (snapshot t) (seedCaller t (fun _ => true) false)) (rarity (snapshot t))
      (constant j) = ([(j, rarity (snapshot t) j)], constant j) := by
    rw [gather, if_neg (by omega), PICK_SAMPLE_ATTEMPTS, sampleLoop, if_neg (by decide),
      randomBelow_constant j _ inside]
    dsimp only
    rw [(eligible_iff t _ j).2 picked_j, if_pos (by rfl), List.nil_append,
      sampleLoop_repeats _ _ _ _ _ inside]
  have run : pickRarestPiece t (seedCaller t (fun _ => true) false) (constant j) (fun _ _ => true) =
      (some (j, plen), [(j, true)]) := by
    rw [pickRarestPiece, if_neg (by omega)]
    dsimp only
    rw [sample]
    dsimp only
    have steady : (seedCaller t (fun _ => true) false).endgame = false := rfl
    rw [counter, List.isEmpty_cons, Bool.false_or, decide_eq_false (by omega)]
    simp only [steady, Bool.false_eq_true, if_false, List.mergeSort_singleton, ite_self]
    rw [tryFrom, if_pos rfl, size]
    rfl
  rw [run] at rarest
  have tried := rarest j plen rfl rfl usual few i picked_i rarer
  rw [List.mem_singleton] at tried
  cases tried

end Necessary

/-- The choice is sound and complete, and takes a rarest piece once few are missing, exactly in the
states where open pieces are sized, reached and counted. -/
theorem pick_laws_iff (t : HotTorrent) (narrow : t.pieceCount < 2 ^ 32) : Laws t ↔ Choosable t := by
  constructor
  · intro laws
    refine ⟨sized_of_laws t laws, reached_of_laws t narrow laws, ?_⟩
    intro usual few large many i j open_i open_j free_i free_j
    have below := counted_of_laws t laws usual few large many i j open_i open_j free_i free_j
    have above := counted_of_laws t laws usual few large many j i open_j open_i free_j free_i
    exact Nat.le_antisymm above below
  · intro choosable caller rng tryClaim
    by_cases empty : t.pieceCount = 0
    · have nothing : pickRarestPiece t caller rng tryClaim = (none, []) := by
        rw [pickRarestPiece, if_pos empty]
      rw [nothing]
      refine ⟨nofun, ?_, nofun⟩
      intro _ _ i picked
      have below := open_below t i picked.isOpen
      omega
    · obtain ⟨ranked, again, exact, plan, same⟩ :=
        pick_planned t caller rng tryClaim (Nat.pos_of_ne_zero empty)
      rw [same]
      exact ⟨sound_of_choosable t choosable caller tryClaim ranked again exact plan,
        complete_of_choosable t narrow choosable caller tryClaim ranked again exact plan,
        rarest_of_choosable t narrow choosable caller tryClaim ranked again exact plan⟩

/-- With an exact counter and no index near the limit of `u32` every state is such a state. -/
theorem choosable_of_balanced (t : HotTorrent) (balanced : Balanced t)
    (small : t.pieceCount ≤ 2 ^ 31) : Choosable t := by
  constructor
  · intro i isOpen
    rw [balanced.sameCount]
    exact open_below t i isOpen
  · intro i isOpen
    have below := open_below t i isOpen
    omega
  · intro _ few _ many
    rw [balanced.missing] at many
    exact absurd many (Nat.not_lt.2 few)

/-- A torrent of 257 one-byte pieces, the first 33 of them wanted. -/
def wideLayout : StorageLayout where
  dataRoot := []
  pieceLength := 1
  pieceCount := 257
  totalSize := 257
  files := [⟨["a"], 33, 0, 1⟩, ⟨["b"], 224, 33, 0⟩]

/-- Four pieces that are not wanted are had, and one peer has announced piece 2. -/
def wideTorrent : HotTorrent :=
  { run (newEmpty 1 [] wideLayout []) [.markHave 40, .markHave 41, .markHave 42, .markHave 43] with
    availability := (List.replicate 257 0).set 2 1 }

theorem pick_laws_iff_wideTorrent : Laws wideTorrent ↔ Choosable wideTorrent :=
  pick_laws_iff wideTorrent (by decide +kernel)

/-- A rebuild has counted 33 missing pieces, a whole `mark_have` of piece 0 runs, and the rebuild
stores its count. -/
def staleCountTrace : List Interleaving.Event :=
  [Interleaving.Event.call .rebuildWantedAndMissing] ++
    List.replicate 2 (Interleaving.Event.advance 0) ++
    [Interleaving.Event.call (.markHave 0)] ++ List.replicate 10 (Interleaving.Event.advance 1) ++
    List.replicate 2 (Interleaving.Event.advance 0)

/-- With a counter above the cap the sample alone decides. -/
theorem stale_counter_misses_rarest :
    ¬ ∀ (events : List Interleaving.Event) (s : Interleaving.State),
      exec Interleaving.step (Interleaving.start wideTorrent) events = some s → Laws s.torrent := by
  intro always
  have reached : ((exec Interleaving.step (Interleaving.start wideTorrent) staleCountTrace).any
      (fun s => decide (s.torrent.pieceCount = 257 ∧ s.torrent.pieces.haveCount = 5 ∧
        missingCount s.torrent = 32 ∧ s.torrent.downloadMissing = 33 ∧
        s.torrent.wantsPiece 1 = true ∧ s.torrent.hasPiece 1 = false ∧
        s.torrent.wantsPiece 2 = true ∧ s.torrent.hasPiece 2 = false ∧ s.torrent.inFlight = ∅ ∧
        s.torrent.availability.getD 1 0 = 0 ∧ s.torrent.availability.getD 2 0 = 1))) = true := by
    decide +kernel
  obtain ⟨s, ran, facts⟩ := (Option.any_eq_true _ _).1 reached
  obtain ⟨pc, had, missing, counter, wants_one, has_one, wants_two, has_two, free, common, rare⟩ :=
    of_decide_eq_true facts
  have usual : ¬ Bootstrap s.torrent := by
    rintro ⟨few, _⟩
    rw [had] at few
    exact absurd few (by decide)
  have below := counted_of_laws s.torrent (always staleCountTrace s ran) usual
    (by rw [missing]; decide) (by rw [pc]; decide) (by rw [counter]; decide) 1 2
    ⟨wants_one, has_one⟩ ⟨wants_two, has_two⟩ (by rw [free]; exact Finset.notMem_empty 1)
    (by rw [free]; exact Finset.notMem_empty 2)
  rw [common, rare] at below
  exact absurd below (by decide)

end Seedchamp.Hot.Picker
