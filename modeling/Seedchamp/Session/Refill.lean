import Mathlib.Data.List.Perm.Basic
import Seedchamp.Foundation.FirstSeen
import Seedchamp.Foundation.Machine
import Seedchamp.Session.Slots

/-!
Which addresses a torrent dials when it has too few useful peers: the manual ones, then the peer cache
and the last tracker list, each in a random order, up to the free slots.
-/

namespace Seedchamp.Session.Refill
open Foundation.FirstSeen Foundation.Machine
open Session.Slots (SocketAddr)

/-! ### Cooldown -/

/-- `next_ok` and the failures in a row; times are in seconds. -/
structure DialData where
  nextOk : Nat
  fails : Nat
  deriving DecidableEq, Repr

abbrev Key := Nat × SocketAddr

/-- `dial_cooldown`. -/
abbrev Cooldown := Key → Option DialData

def backoffDelay (fails : Nat) : Nat := max (min (30 * 2 ^ min (fails - 1) 6) (30 * 60)) 30

def IDLE_REDIAL : Nat := 300

def recordDialFail (cool : Cooldown) (key : Key) (now : Nat) : Cooldown :=
  let e := (cool key).getD ⟨now, 0⟩
  let fails := min (e.fails + 1) u32Max
  Function.update cool key (some ⟨now + backoffDelay fails, fails⟩)

def clearDialFail (cool : Cooldown) (key : Key) : Cooldown := Function.update cool key none

def holdUntil (cool : Cooldown) (key : Key) (now hold : Nat) : Cooldown :=
  let e := (cool key).getD ⟨now, 0⟩
  Function.update cool key (some (if e.nextOk < now + hold then { e with nextOk := now + hold } else e))

def lightDisconnectCooldown (cool : Cooldown) (key : Key) (now : Nat) : Cooldown :=
  holdUntil cool key now 30

def recordIdleClose (cool : Cooldown) (key : Key) (now : Nat) : Cooldown :=
  holdUntil cool key now IDLE_REDIAL

def isCooledDown (cool : Cooldown) (key : Key) (now : Nat) : Bool :=
  ((cool key).map (fun d => decide (now < d.nextOk))).getD false

/-! ### The dial list -/

/-- Takes new addresses until there are `max`; tells whether there are. -/
def collect (max : Nat) (out : List SocketAddr) : List SocketAddr → List SocketAddr × Bool
  | [] => (out, false)
  | a :: rest =>
    if a ∈ out then collect max out rest
    else if max ≤ (out ++ [a]).length then (out ++ [a], true)
    else collect max (out ++ [a]) rest

section
variable (shuffleCache shuffleTrack : List SocketAddr → List SocketAddr)

/-- `merge_outbound_peers`, with the two shuffles as parameters. -/
def mergeOutboundPeers (manual tracker cached : List SocketAddr) (max : Nat) : List SocketAddr :=
  let max := Nat.max max 1
  let first := collect max [] manual
  if first.2 then first.1
  else
    let cache := shuffleCache (cached.filter (fun a => a ∉ first.1))
    let track := shuffleTrack (tracker.filter (fun a => a ∉ first.1))
    (collect max first.1 (cache ++ track)).1

/-- What the refill reads of a live peer. -/
structure LivePeer where
  torrentId : Nat
  addr : SocketAddr
  listenPort : Option Nat
  peerHave : Nat
  pieceCount : Nat
  peerChoking : Bool
  peerInterested : Bool

/-- What the refill reads of the session; `registry` says of a hot torrent whether it is complete. -/
structure SessionRuntime where
  registry : Nat → Option Bool
  peers : List LivePeer
  connectedOut : List Key
  cool : Cooldown
  lastTrackerPeers : Nat → List SocketAddr
  manualPeers : List SocketAddr
  seedDialPeers : Bool
  maxPeers : Nat
  minPeers : Nat

namespace SessionRuntime

def peerCountForTorrent (s : SessionRuntime) (id : Nat) : Nat := s.peers.countP (fun p => p.torrentId = id)

def peerSlotsRemaining (s : SessionRuntime) (id : Nat) : Nat := max s.maxPeers 1 - s.peerCountForTorrent id

/-- A peer that can upload to us, or that we can upload to. -/
def useful (weNeedDownload : Bool) (p : LivePeer) : Bool :=
  if p.pieceCount = 0 ∨ p.peerHave = 0 then false
  else if weNeedDownload then !p.peerChoking
  else decide (p.peerHave < p.pieceCount) && p.peerInterested

def usefulPeerCount (s : SessionRuntime) (id : Nat) (weNeedDownload : Bool) : Nat :=
  (s.peers.filter (fun p => p.torrentId = id)).countP (useful weNeedDownload)

def mayDialOut (s : SessionRuntime) (weNeedDownload : Bool) : Bool := weNeedDownload || s.seedDialPeers

def listens (id : Nat) (addr : SocketAddr) (p : LivePeer) : Bool :=
  decide (p.torrentId = id) && (decide (p.addr = addr) ||
    (decide (p.addr.ip = addr.ip) && decide (p.listenPort = some addr.port)))

def alreadyHavePeer (s : SessionRuntime) (id : Nat) (addr : SocketAddr) : Bool :=
  decide ((id, addr) ∈ s.connectedOut) || s.peers.any (listens id addr)

/-- `peer_refill_plan`: the free slots where more peers are wanted. -/
def peerRefillPlan (s : SessionRuntime) (id : Nat) : Option Nat :=
  match s.registry id with
  | none => none
  | some complete =>
    if !s.mayDialOut (!complete) then none
    else if s.peerSlotsRemaining id = 0 then none
    else if max (min s.minPeers (max s.maxPeers 1)) 1 ≤ s.usefulPeerCount id (!complete) then none
    else some (s.peerSlotsRemaining id)

/-- An address that neither is connected nor rests. -/
def free (s : SessionRuntime) (id now : Nat) (addr : SocketAddr) : Bool :=
  !s.alreadyHavePeer id addr && !isCooledDown s.cool (id, addr) now

/-- `refill_peers_with_cache`: the addresses handed to `spawn_outbound`. -/
def refillPeersWithCache (s : SessionRuntime) (id now : Nat) (cached : List SocketAddr) : List SocketAddr :=
  match s.peerRefillPlan id with
  | none => []
  | some slots =>
    let tracker := s.lastTrackerPeers id
    if s.manualPeers.isEmpty && cached.isEmpty && tracker.isEmpty then []
    else
      (mergeOutboundPeers shuffleCache shuffleTrack s.manualPeers tracker cached slots).filter
        (s.free id now)

end SessionRuntime

end

/-! ### Collecting -/

/-- The distinct values of a list after those of `before`. -/
def distinct (before list : List SocketAddr) : List SocketAddr := list.foldl see before

theorem distinct_cons (before rest : List SocketAddr) (a : SocketAddr) :
    distinct before (a :: rest) = distinct (see before a) rest := rfl

theorem mem_distinct (before list : List SocketAddr) (a : SocketAddr) :
    a ∈ distinct before list ↔ a ∈ before ∨ a ∈ list := by
  induction list generalizing before with
  | nil => simp [distinct]
  | cons b rest ih => rw [distinct_cons, ih, mem_see, List.mem_cons, or_assoc]

theorem nodup_distinct (before list : List SocketAddr) (start : before.Nodup) :
    (distinct before list).Nodup := by
  induction list generalizing before with
  | nil => exact start
  | cons b rest ih => exact ih (see before b) (nodup_see before b start)

/-- What is collected later comes after, and was not there before. -/
theorem distinct_extends (before list : List SocketAddr) (start : before.Nodup) :
    ∃ later, distinct before list = before ++ later ∧ ∀ a ∈ later, a ∈ list ∧ a ∉ before := by
  induction list generalizing before with
  | nil => exact ⟨[], by simp [distinct], by simp⟩
  | cons b rest ih =>
    obtain ⟨later, same, new⟩ := ih (see before b) (nodup_see before b start)
    rw [distinct_cons, same]
    by_cases old : b ∈ before
    · have seen : see before b = before := if_pos old
      rw [seen] at new ⊢
      exact ⟨later, rfl, fun a member => ⟨List.mem_cons_of_mem _ (new a member).1, (new a member).2⟩⟩
    · have seen : see before b = before ++ [b] := if_neg old
      rw [seen] at new ⊢
      refine ⟨b :: later, by simp, ?_⟩
      intro a member
      rcases List.mem_cons.1 member with rfl | among
      · exact ⟨List.mem_cons_self, old⟩
      · have fresh := new a among
        exact ⟨List.mem_cons_of_mem _ fresh.1, fun clash => fresh.2 (List.mem_append_left _ clash)⟩

/-- The loop stops early only where the rest could add nothing any more. -/
theorem collect_eq (max : Nat) (out list : List SocketAddr) (start : out.Nodup)
    (room : out.length < max) :
    (collect max out list).1 = (distinct out list).take max ∧
      ((collect max out list).2 = true ↔ max ≤ (distinct out list).length) := by
  induction list generalizing out with
  | nil =>
    have whole : (distinct out []).take max = out := List.take_of_length_le (Nat.le_of_lt room)
    constructor
    · exact whole.symm
    · simp only [collect, distinct, List.foldl_nil, Bool.false_eq_true, false_iff]
      omega
  | cons a rest ih =>
    rw [collect, distinct_cons]
    by_cases old : a ∈ out
    · rw [if_pos old, show see out a = out from if_pos old]
      exact ih out start room
    · have seen : see out a = out ++ [a] := if_neg old
      have larger : (out ++ [a]).Nodup := seen ▸ nodup_see out a start
      rw [if_neg old, seen]
      by_cases full : max ≤ (out ++ [a]).length
      · obtain ⟨later, same, -⟩ := distinct_extends (out ++ [a]) rest larger
        rw [if_pos full, same]
        have exactly : max = (out ++ [a]).length := by
          rw [List.length_append, List.length_singleton] at full ⊢
          omega
        constructor
        · rw [exactly, List.take_left]
        · simp [exactly]
      · rw [if_neg full]
        exact ih (out ++ [a]) larger (Nat.lt_of_not_le full)

section
variable (shuffleCache shuffleTrack : List SocketAddr → List SocketAddr)
variable (cacheShuffled : ∀ list, (shuffleCache list).Perm list)
variable (trackShuffled : ∀ list, (shuffleTrack list).Perm list)

include cacheShuffled trackShuffled in
/-- The manual addresses, then the others in some order, cut at the limit. -/
theorem mergeOutboundPeers_spec (manual tracker cached : List SocketAddr) (max : Nat) :
    ∃ later, mergeOutboundPeers shuffleCache shuffleTrack manual tracker cached max =
        (distinct [] manual ++ later).take (Nat.max max 1) ∧
      (distinct [] manual ++ later).Nodup ∧
      ∀ a, a ∈ later ↔ a ∉ manual ∧ (a ∈ cached ∨ a ∈ tracker) := by
  have empty : ([] : List SocketAddr).Nodup := List.nodup_nil
  have unique := nodup_distinct [] manual empty
  have manuals : ∀ a, a ∈ distinct [] manual ↔ a ∈ manual := by
    intro a
    simp [mem_distinct]
  -- any order of the others will do: what is asked of it are its members
  have others : ∀ list, (∀ a, a ∉ manual → (a ∈ list ↔ a ∈ cached ∨ a ∈ tracker)) →
      ∃ later, distinct (distinct [] manual) list = distinct [] manual ++ later ∧
        (distinct [] manual ++ later).Nodup ∧
        ∀ a, a ∈ later ↔ a ∉ manual ∧ (a ∈ cached ∨ a ∈ tracker) := by
    intro list members
    obtain ⟨later, same, new⟩ := distinct_extends (distinct [] manual) list unique
    refine ⟨later, same, same ▸ nodup_distinct _ list unique, ?_⟩
    intro a
    constructor
    · intro member
      have fresh := new a member
      rw [manuals] at fresh
      exact ⟨fresh.2, (members a fresh.2).1 fresh.1⟩
    · rintro ⟨other, candidate⟩
      have there : a ∈ distinct [] manual ++ later :=
        same ▸ (mem_distinct _ list a).2 (Or.inr ((members a other).2 candidate))
      exact (List.mem_append.1 there).resolve_left (fun clash => other ((manuals a).1 clash))
  have positive : ([] : List SocketAddr).length < Nat.max max 1 :=
    Nat.lt_of_lt_of_le Nat.zero_lt_one (Nat.le_max_right max 1)
  obtain ⟨taken, stopped⟩ := collect_eq (Nat.max max 1) [] manual empty positive
  rw [mergeOutboundPeers]
  by_cases full : (collect (Nat.max max 1) [] manual).2 = true
  · obtain ⟨later, -, whole, members⟩ := others (cached ++ tracker) (fun a _ => List.mem_append)
    refine ⟨later, ?_, whole, members⟩
    rw [if_pos full, taken, List.take_append_of_le_length (stopped.1 full)]
  · have short : (distinct [] manual).length < Nat.max max 1 :=
      Nat.lt_of_not_le (fun reached => full (stopped.2 reached))
    rw [List.take_of_length_le (Nat.le_of_lt short)] at taken
    dsimp only
    rw [if_neg full, taken, (collect_eq _ _ _ unique short).1]
    obtain ⟨later, same, whole, members⟩ := others
      (shuffleCache (cached.filter (fun a => a ∉ distinct [] manual)) ++
        shuffleTrack (tracker.filter (fun a => a ∉ distinct [] manual))) (by
      intro a other
      rw [List.mem_append, (cacheShuffled _).mem_iff, (trackShuffled _).mem_iff, List.mem_filter,
        List.mem_filter, decide_eq_true_eq, manuals]
      simp only [other, not_false_eq_true, and_true])
    exact ⟨later, by rw [same], whole, members⟩

include cacheShuffled trackShuffled in
/-- A refill dials distinct free addresses and no more than there are slots, the manual ones first. Where
the candidates fit into the slots every free one is dialled; but manual addresses that fill the slots
and are not free leave nothing to dial. -/
theorem refillPeersWithCache_dials (s : SessionRuntime) (id now slots : Nat) (cached : List SocketAddr)
    (planned : s.peerRefillPlan id = some slots) :
    let dial := s.refillPeersWithCache shuffleCache shuffleTrack id now cached
    let candidates := s.manualPeers ++ cached ++ s.lastTrackerPeers id
    dial.Nodup ∧ (∀ a ∈ dial, a ∈ candidates ∧ s.free id now a = true) ∧
    s.peerCountForTorrent id + dial.length ≤ max s.maxPeers 1 ∧
    (∃ front back, dial = front ++ back ∧ (∀ a ∈ front, a ∈ s.manualPeers) ∧
      ∀ a ∈ back, a ∉ s.manualPeers) ∧
    ((distinct [] candidates).length ≤ slots →
      ∀ a ∈ candidates, s.free id now a = true → a ∈ dial) ∧
    (slots ≤ (distinct [] s.manualPeers).length → (∀ a ∈ s.manualPeers, s.free id now a = false) →
      dial = []) := by
  intro dial candidates
  have room : slots = s.peerSlotsRemaining id ∧ slots ≠ 0 := by
    rw [SessionRuntime.peerRefillPlan] at planned
    cases known : s.registry id with
    | none =>
      rw [known] at planned
      cases planned
    | some complete =>
      rw [known] at planned
      dsimp only at planned
      split_ifs at planned with closed none enough
      cases planned
      exact ⟨rfl, none⟩
  have manuals : ∀ a, a ∈ distinct [] s.manualPeers ↔ a ∈ s.manualPeers := by
    intro a
    simp [mem_distinct]
  obtain ⟨later, merged, unique, members⟩ := mergeOutboundPeers_spec shuffleCache shuffleTrack
    cacheShuffled trackShuffled s.manualPeers (s.lastTrackerPeers id) cached slots
  rw [show Nat.max slots 1 = slots from Nat.max_eq_left (Nat.pos_of_ne_zero room.2)] at merged
  have shape : dial = ((distinct [] s.manualPeers ++ later).take slots).filter (s.free id now) := by
    change s.refillPeersWithCache shuffleCache shuffleTrack id now cached = _
    rw [SessionRuntime.refillPeersWithCache, planned, ← merged]
    dsimp only
    split_ifs with none
    · simp only [Bool.and_eq_true, List.isEmpty_iff] at none
      have all : distinct [] s.manualPeers ++ later = [] := by
        apply List.eq_nil_iff_forall_not_mem.2
        intro a member
        rcases List.mem_append.1 member with manual | other
        · rw [manuals, none.1.1] at manual
          cases manual
        · rcases ((members a).1 other).2 with known | known
          · rw [none.1.2] at known
            cases known
          · rw [none.2] at known
            cases known
      rw [merged, all]
      simp
    · rfl
  have inside : ∀ a ∈ dial, a ∈ distinct [] s.manualPeers ++ later ∧ s.free id now a = true := by
    intro a member
    rw [shape] at member
    obtain ⟨taken, open_⟩ := List.mem_filter.1 member
    exact ⟨List.mem_of_mem_take taken, open_⟩
  have candidate : ∀ a, a ∈ distinct [] s.manualPeers ++ later ↔ a ∈ candidates := by
    intro a
    change _ ↔ a ∈ s.manualPeers ++ cached ++ s.lastTrackerPeers id
    rw [List.mem_append, List.mem_append, List.mem_append, manuals, members]
    tauto
  refine ⟨?_, ?_, ?_, ?_, ?_, ?_⟩
  · rw [shape]
    exact (unique.sublist (List.take_sublist _ _)).filter _
  · exact fun a member => ⟨(candidate a).1 (inside a member).1, (inside a member).2⟩
  · have few : dial.length ≤ slots := by
      rw [shape]
      exact (List.length_filter_le _ _).trans (List.length_take_le _ _)
    rw [SessionRuntime.peerSlotsRemaining] at room
    omega
  · refine ⟨((distinct [] s.manualPeers).take slots).filter (s.free id now),
      (later.take (slots - (distinct [] s.manualPeers).length)).filter (s.free id now), ?_, ?_, ?_⟩
    · rw [shape, List.take_append, List.filter_append]
    · exact fun a member => (manuals a).1 (List.mem_of_mem_take (List.mem_filter.1 member).1)
    · exact fun a member => ((members a).1 (List.mem_of_mem_take (List.mem_filter.1 member).1)).1
  · intro fits a known open_
    have same : (distinct [] s.manualPeers ++ later).length = (distinct [] candidates).length := by
      apply List.Perm.length_eq
      apply (List.perm_ext_iff_of_nodup unique (nodup_distinct [] candidates List.nodup_nil)).2
      intro b
      rw [candidate b, mem_distinct]
      simp
    rw [shape, List.take_of_length_le (same ▸ fits)]
    exact List.mem_filter.2 ⟨(candidate a).2 known, open_⟩
  · intro fill busy
    rw [shape, List.take_append_of_le_length fill, List.filter_eq_nil_iff]
    intro a member
    rw [busy a ((manuals a).1 (List.mem_of_mem_take member))]
    exact Bool.false_ne_true

end

/-- One manual address rests after a failure; the tracker knows one more than the cache. -/
def leeching : SessionRuntime where
  registry := fun _ => some false
  peers := []
  connectedOut := [(1, ⟨3, 6881⟩)]
  cool := recordDialFail (fun _ => none) (1, ⟨1, 6881⟩) 100
  lastTrackerPeers := fun _ => [⟨3, 6881⟩, ⟨4, 6881⟩]
  manualPeers := [⟨1, 6881⟩, ⟨2, 6881⟩]
  seedDialPeers := false
  maxPeers := 5
  minPeers := 3

theorem leeching_dials : leeching.refillPeersWithCache id List.reverse 1 110 [⟨2, 6881⟩] =
      [⟨2, 6881⟩, ⟨4, 6881⟩] ∧
    ((⟨4, 6881⟩ : SocketAddr) ∈ leeching.refillPeersWithCache id List.reverse 1 110 [⟨2, 6881⟩]) := by
  refine ⟨by decide, ?_⟩
  have dials := refillPeersWithCache_dials id List.reverse (fun list => List.Perm.refl list)
    List.reverse_perm leeching 1 110 5 [⟨2, 6881⟩] (by decide)
  exact dials.2.2.2.2.1 (by decide) _ (by decide) (by decide)

end Seedchamp.Session.Refill
