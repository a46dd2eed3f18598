import Seedchamp.Net.RateLimit
import Seedchamp.Peer.SendQueue
import Seedchamp.Staging.Planning

/-!
What the wire rate limits do to a connection. `issue_requests` draws tokens for whole blocks before it
plans its requests and gives back what the plan does not need; `send_quantum` draws the tokens of a
block before the first byte of its PIECE.
-/

namespace Seedchamp.Peer.RateBudget
open Foundation.TokenBucket Net.RateLimit Staging.Pool Staging.Planning Upload.InFlight
open Peer.SendQueue

/-- The bytes that `issue_requests` asks the limiter for. -/
def requestWant (pipeline : Nat) : Nat := pipeline * BLOCK_SIZE % 2 ^ 64

/-- The blocks that the limiter lets a call request; `none` where the call returns at once. -/
def reserveBlocks (limiter : Option WireRateLimiter) (pipeline : Nat) (now : Rat) :
    Option Nat × Option WireRateLimiter :=
  match limiter with
  | none => (some pipeline, none)
  | some lim =>
    if lim.downloadUnlimited then (some pipeline, some lim)
    else
      let pre := lim.tryConsumeDownload (requestWant pipeline) now
      if pre.1 < BLOCK_SIZE then
        (none, some (if 0 < pre.1 then pre.2.refundDownload pre.1 else pre.2))
      else (some (pre.1 / BLOCK_SIZE), some pre.2)

def requestBytes (requests : List Request) : Nat := (requests.map fun request => request.2.2).sum

/-- Give back what was drawn for blocks that the plan does not need. -/
def giveBackUnused (limiter : Option WireRateLimiter) (maxBlocks : Nat) (requests : List Request) :
    Option WireRateLimiter :=
  limiter.map fun lim =>
    if lim.downloadUnlimited then lim
    else if requests.isEmpty then lim.refundDownload (maxBlocks * BLOCK_SIZE)
    else if requestBytes requests < maxBlocks * BLOCK_SIZE then
      lim.refundDownload (maxBlocks * BLOCK_SIZE - requestBytes requests)
    else lim

/-- What a call leaves behind, and the requests that it hands to the outbound queue. -/
structure Issued where
  limiter : Option WireRateLimiter
  staging : StagingPool
  requests : List Request

/-- Pick and enqueue requests; `none` where the plan cannot be allocated. -/
def issueRequests (limiter : Option WireRateLimiter) (around : Surroundings) (staging : StagingPool)
    (pipeline : Nat) (endgame : Bool) (now : Rat) : Option Issued :=
  let reserved := reserveBlocks limiter pipeline now
  match reserved.1 with
  | none => some ⟨reserved.2, staging, []⟩
  | some maxBlocks =>
    (takeRequests around staging maxBlocks endgame).map fun plan =>
      ⟨giveBackUnused reserved.2 maxBlocks plan.out, plan.staging, plan.out⟩

/-- The reservation of `send_quantum` for a block; a partial grant is given back. -/
def reserveUpload (lim : WireRateLimiter) (need : Nat) (now : Rat) : Bool × WireRateLimiter :=
  let got := lim.tryConsumeUpload need now
  if got.1 < need then (false, if 0 < got.1 then got.2.refundUpload got.1 else got.2) else (true, got.2)

/-! ### The plan of a call -/

theorem requestBytes_le (requests : List Request) (size : Nat)
    (fits : ∀ request ∈ requests, request.2.2 ≤ size) : requestBytes requests ≤ requests.length * size := by
  induction requests with
  | nil => exact Nat.zero_le _
  | cons request rest ih =>
    rw [List.forall_mem_cons] at fits
    have tail := ih fits.2
    rw [requestBytes, List.map_cons, List.sum_cons, List.length_cons, Nat.add_one_mul]
    unfold requestBytes at tail
    omega

/-- A plan for so many blocks asks for at most their bytes. -/
theorem planned_bytes (around : Surroundings) (honest : Honest around) (staging : StagingPool)
    (reachable : Reachable staging) (blocks : Nat) (some_ : 1 ≤ blocks) (endgame : Bool) (plan : Plan)
    (planned : takeRequests around staging blocks endgame = some plan) :
    requestBytes plan.out ≤ blocks * BLOCK_SIZE := by
  have formed := reachable_formed staging reachable
  have after := formed_takeRequests staging formed around blocks endgame plan planned
  unfold takeRequests at planned
  rw [Nat.max_eq_left some_] at planned
  dsimp only at planned
  split_ifs at planned
  · cases planned
    exact Nat.zero_le _
  · cases planned
    have lawful := planLoop_lawful around honest blocks
      (maxAssemblingPieces blocks staging.pieceLength around.capacity)
      (blocks * 4 + staging.slots.length + 8) 0 staging formed (by omega)
    have total := plans_total _ _ _ _ lawful.plans
    have bounded := lawful.bounded
    refine (requestBytes_le _ BLOCK_SIZE ?_).trans (Nat.mul_le_mul_right BLOCK_SIZE ?_)
    · intro request member
      obtain ⟨piece, buf, i, -, -, rfl⟩ := blockOfPiece_outstanding _ after request
        (lawful.plans.outstanding.mem_iff.2 (List.mem_append_right _ member))
      exact Nat.min_le_right _ _
    · omega

/-! ### The books of a call -/

/-- The level of the download bucket at a time. -/
def levelAt (lim : WireRateLimiter) (now : Rat) : Rat := (lim.down.refill now).tokens

/-- The whole tokens that are there for a call. -/
def onHand (lim : WireRateLimiter) (pipeline : Nat) (now : Rat) : Nat :=
  min (requestWant pipeline) ⌊levelAt lim now⌋₊

/-- The level once `drawn` tokens were taken and `unused` were given back. -/
def settledLevel (level capacity : Rat) (drawn unused : Nat) : Rat :=
  if unused = 0 then level - drawn else min (level - drawn + unused) (max capacity unused)

theorem levelAt_settled (lim : WireRateLimiter) (want unused : Nat) (now : Rat) (capped : 0 < lim.downCap)
    (within : unused ≤ want) :
    levelAt ((lim.tryConsumeDownload want now).2.refundDownload unused) now =
      settledLevel (levelAt lim now) lim.down.capacity (lim.tryConsumeDownload want now).1 unused := by
  unfold levelAt WireRateLimiter.refundDownload WireRateLimiter.tryConsumeDownload
  dsimp only
  rw [tryConsume_capped lim.downCap lim.down want now capped, settledLevel]
  by_cases asked : want = 0
  · have nothing : unused = 0 := by omega
    rw [nothing, refund, if_pos (Or.inl rfl), if_pos rfl, Bucket.tryConsume, if_pos asked, Nat.cast_zero,
      sub_zero]
  · have bucket := lim.down.tryConsume_bucket want now asked
    have capacity := lim.down.refill_capacity now
    split_ifs with nothing
    · rw [nothing, refund, if_pos (Or.inl rfl), bucket, Bucket.refill_again]
    · rw [refund_capped lim.downCap _ unused capped (Nat.pos_of_ne_zero nothing), Bucket.refund, bucket]
      dsimp only
      rw [Bucket.refill_again, capacity]

theorem drawn_onHand (lim : WireRateLimiter) (pipeline : Nat) (now : Rat) (capped : 0 < lim.downCap) :
    (lim.tryConsumeDownload (requestWant pipeline) now).1 = onHand lim pipeline now := by
  rw [WireRateLimiter.tryConsumeDownload, tryConsume_capped lim.downCap lim.down _ now capped]
  exact lim.down.tryConsume_grant _ now

theorem refundDownload_zero (lim : WireRateLimiter) : lim.refundDownload 0 = lim := by
  rw [WireRateLimiter.refundDownload, refund, if_pos (Or.inl rfl)]

theorem giveBackUnused_eq (lim : WireRateLimiter) (limited : lim.downloadUnlimited = false)
    (maxBlocks : Nat) (requests : List Request) :
    giveBackUnused (some lim) maxBlocks requests =
      some (lim.refundDownload (maxBlocks * BLOCK_SIZE - requestBytes requests)) := by
  rw [giveBackUnused, Option.map_some, limited, if_neg Bool.false_ne_true]
  cases requests with
  | nil => rfl
  | cons request rest =>
    rw [List.isEmpty_cons, if_neg Bool.false_ne_true]
    split_ifs with short
    · rfl
    · rw [Nat.sub_eq_zero_of_le (Nat.not_lt.1 short), refundDownload_zero]

/-- What a call that is limited draws, what it gives back, and what it plans. -/
theorem issue_cases (lim : WireRateLimiter) (capped : 0 < lim.downCap) (around : Surroundings)
    (honest : Honest around) (staging : StagingPool) (reachable : Reachable staging) (pipeline : Nat)
    (endgame : Bool) (now : Rat) (issued : Issued)
    (call : issueRequests (some lim) around staging pipeline endgame now = some issued) :
    ∃ after unused, issued.limiter = some after ∧
      levelAt after now =
        settledLevel (levelAt lim now) lim.down.capacity (onHand lim pipeline now) unused ∧
      (onHand lim pipeline now < BLOCK_SIZE ∧ issued.requests = [] ∧ unused = onHand lim pipeline now ∨
        BLOCK_SIZE ≤ onHand lim pipeline now ∧
          requestBytes issued.requests + unused = onHand lim pipeline now / BLOCK_SIZE * BLOCK_SIZE) := by
  have limited : lim.downloadUnlimited = false := beq_eq_false_iff_ne.2 (by omega)
  have drawn := drawn_onHand lim pipeline now capped
  have part : onHand lim pipeline now ≤ requestWant pipeline := Nat.min_le_left _ _
  have settled := fun unused => levelAt_settled lim (requestWant pipeline) unused now capped
  rw [drawn] at settled
  rw [issueRequests, reserveBlocks] at call
  dsimp only at call
  rw [limited, if_neg Bool.false_ne_true, drawn] at call
  by_cases few : onHand lim pipeline now < BLOCK_SIZE
  · rw [if_pos few] at call
    cases call
    refine ⟨_, onHand lim pipeline now, rfl, ?_, Or.inl ⟨few, rfl, rfl⟩⟩
    rw [← settled _ part]
    split_ifs with drew
    · rfl
    · have nothing : onHand lim pipeline now = 0 := by omega
      rw [nothing, refundDownload_zero]
  · rw [if_neg few] at call
    obtain ⟨plan, planned, rfl⟩ := Option.map_eq_some_iff.1 call
    have some_ : 1 ≤ onHand lim pipeline now / BLOCK_SIZE :=
      (Nat.one_le_div_iff (by decide)).2 (Nat.not_lt.1 few)
    have asked := planned_bytes around honest staging reachable _ some_ endgame plan planned
    have whole := Nat.div_mul_le_self (onHand lim pipeline now) BLOCK_SIZE
    refine ⟨_, onHand lim pipeline now / BLOCK_SIZE * BLOCK_SIZE - requestBytes plan.out, ?_,
      settled _ (by omega), Or.inr ⟨Nat.not_lt.1 few, by dsimp only; omega⟩⟩
    exact giveBackUnused_eq (lim.tryConsumeDownload (requestWant pipeline) now).2 limited _ plan.out

/-- A call that is limited returns: its plan is small enough. -/
theorem limited_returns (lim : WireRateLimiter) (capped : 0 < lim.downCap) (around : Surroundings)
    (staging : StagingPool) (inMemory : staging.slots.length ≤ isizeMax) (pipeline : Nat)
    (endgame : Bool) (now : Rat) :
    ∃ issued, issueRequests (some lim) around staging pipeline endgame now = some issued := by
  have limited : lim.downloadUnlimited = false := beq_eq_false_iff_ne.2 (by omega)
  have part : onHand lim pipeline now ≤ requestWant pipeline := Nat.min_le_left _ _
  have word : requestWant pipeline < 2 ^ 64 := Nat.mod_lt _ (by decide)
  have depth : max (onHand lim pipeline now / BLOCK_SIZE) 1 ≤ 2 ^ 50 :=
    Nat.max_le.2 ⟨by unfold BLOCK_SIZE; omega, by decide⟩
  unfold isizeMax at inMemory
  rw [issueRequests, reserveBlocks]
  dsimp only
  rw [limited, if_neg Bool.false_ne_true, drawn_onHand lim pipeline now capped]
  by_cases few : onHand lim pipeline now < BLOCK_SIZE
  · rw [if_pos few]
    exact ⟨_, rfl⟩
  · rw [if_neg few]
    dsimp only
    unfold takeRequests
    dsimp only
    split_ifs with cut large deep
    · exact ⟨_, rfl⟩
    · unfold isizeMax requestSize at large
      omega
    · omega
    · exact ⟨_, rfl⟩

/-- The net draw is so many bytes just when nothing else was drawn and nothing given back spilled. -/
theorem settledLevel_net (level capacity : Rat) (drawn unused bytes : Nat) (within : bytes + unused ≤ drawn) :
    level - settledLevel level capacity drawn unused = bytes ↔
      bytes + unused = drawn ∧ (unused = 0 ∨ level - bytes ≤ max capacity unused) := by
  have parts : (bytes : Rat) + unused ≤ drawn := by exact_mod_cast within
  have exact : bytes + unused = drawn ↔ (bytes : Rat) + unused = drawn := by norm_cast
  rw [settledLevel, exact]
  by_cases nothing : unused = 0
  · rw [if_pos nothing, nothing, sub_sub_cancel, Nat.cast_zero, add_zero]
    exact ⟨fun same => ⟨same.symm, Or.inl rfl⟩, fun both => both.1.symm⟩
  · rw [if_neg nothing]
    constructor
    · intro net
      have low := min_le_left (level - drawn + unused) (max capacity (unused : Rat))
      have cap := min_le_right (level - drawn + unused) (max capacity (unused : Rat))
      exact ⟨by linarith, Or.inr (by linarith)⟩
    · rintro ⟨all, clash | room⟩
      · exact absurd clash nothing
      · rw [min_eq_left (by linarith)]
        linarith

/-- The tokens that every call for this pipeline takes at this time, less what it gives back, are the bytes that
it requests. -/
def AccountsExactly (lim : WireRateLimiter) (pipeline : Nat) (now : Rat) : Prop :=
  ∀ (around : Surroundings) (staging : StagingPool) (endgame : Bool) (issued : Issued),
    Honest around → Reachable staging →
    issueRequests (some lim) around staging pipeline endgame now = some issued →
    ∃ after, issued.limiter = some after ∧
      levelAt lim now - levelAt after now = requestBytes issued.requests

/-- Nothing is staged, and nothing can be. -/
def nothingEligible : Surroundings := ⟨0, fun _ => none, fun _ => none, fun _ _ => none, fun _ => false⟩

theorem nothingEligible_honest : Honest nothingEligible :=
  fun _ _ _ _ started => by cases started

theorem nothingEligible_plan (blocks : Nat) (plan : Plan)
    (planned : takeRequests nothingEligible (StagingPool.empty BLOCK_SIZE) blocks false = some plan) :
    plan.out = [] := by
  have idle : (StagingPool.empty BLOCK_SIZE).totalOutstanding = 0 := rfl
  have positive : ¬max blocks 1 ≤ 0 := by omega
  unfold takeRequests at planned
  dsimp only at planned
  split_ifs at planned
  · cases planned
    rfl
  · cases planned
    have filled : (StagingPool.empty BLOCK_SIZE).fillExisting (max blocks 1)
        nothingEligible.mayRequestPiece (StagingPool.empty BLOCK_SIZE).indices =
        ([], StagingPool.empty BLOCK_SIZE) := rfl
    have unbuffered : freeSlots (nothingEligible.atCheck 0) = 0 := rfl
    rw [planLoop, planTurn, idle, if_neg positive, claimPiece, filled]
    dsimp only
    rw [idle, if_neg positive, if_pos (Or.inl unbuffered)]

/-- Where nothing is eligible a call requests nothing. -/
theorem nothingEligible_call (lim : WireRateLimiter) (capped : 0 < lim.downCap) (pipeline : Nat) (now : Rat)
    (issued : Issued)
    (call : issueRequests (some lim) nothingEligible (StagingPool.empty BLOCK_SIZE) pipeline false now =
      some issued) : issued.requests = [] := by
  have limited : lim.downloadUnlimited = false := beq_eq_false_iff_ne.2 (by omega)
  rw [issueRequests, reserveBlocks] at call
  dsimp only at call
  rw [limited, if_neg Bool.false_ne_true, drawn_onHand lim pipeline now capped] at call
  by_cases few : onHand lim pipeline now < BLOCK_SIZE
  · rw [if_pos few] at call
    cases call
    rfl
  · rw [if_neg few] at call
    obtain ⟨plan, planned, rfl⟩ := Option.map_eq_some_iff.1 call
    exact nothingEligible_plan _ plan planned

/-- What exact accounting asks of the state before the call: the tokens on hand, cut at the pipeline, are
less than a block or whole blocks, and giving them back does not spill. -/
def Countable (lim : WireRateLimiter) (pipeline : Nat) (now : Rat) : Prop :=
  (onHand lim pipeline now < BLOCK_SIZE ∨ BLOCK_SIZE ∣ onHand lim pipeline now) ∧
  (onHand lim pipeline now = 0 ∨ levelAt lim now ≤ max lim.down.capacity (onHand lim pipeline now))

instance (lim : WireRateLimiter) (pipeline : Nat) (now : Rat) : Decidable (Countable lim pipeline now) :=
  inferInstanceAs (Decidable (_ ∧ _))

theorem countable_of_exact (lim : WireRateLimiter) (capped : 0 < lim.downCap) (pipeline : Nat) (now : Rat)
    (exact' : AccountsExactly lim pipeline now) : Countable lim pipeline now := by
  have whole := Nat.div_mul_le_self (onHand lim pipeline now) BLOCK_SIZE
  obtain ⟨issued, call⟩ := limited_returns lim capped nothingEligible (StagingPool.empty BLOCK_SIZE)
    (Nat.zero_le _) pipeline false now
  have nothing := nothingEligible_call lim capped pipeline now issued call
  obtain ⟨after, limiter, net⟩ := exact' nothingEligible _ false issued nothingEligible_honest
    (Reachable.empty BLOCK_SIZE) call
  obtain ⟨after', unused, limiter', level, drawn⟩ := issue_cases lim capped nothingEligible
    nothingEligible_honest _ (Reachable.empty BLOCK_SIZE) pipeline false now issued call
  rw [limiter'] at limiter
  cases limiter
  have bytes : requestBytes issued.requests = 0 := by
    rw [nothing]
    rfl
  rw [bytes] at net drawn
  have within : 0 + unused ≤ onHand lim pipeline now := by omega
  rw [level, settledLevel_net _ _ _ _ 0 within, Nat.zero_add, Nat.cast_zero, sub_zero] at net
  obtain ⟨all, room⟩ := net
  rw [all] at room drawn
  refine ⟨?_, room⟩
  rcases drawn with few | ⟨-, blocks⟩
  · exact Or.inl few.1
  · exact Or.inr (Dvd.intro_left _ (blocks.symm.trans (Nat.zero_add _)))

theorem exact_of_countable (lim : WireRateLimiter) (capped : 0 < lim.downCap) (pipeline : Nat) (now : Rat)
    (countable : Countable lim pipeline now) : AccountsExactly lim pipeline now := by
  obtain ⟨blocks, room⟩ := countable
  intro around staging endgame issued honest reachable call
  obtain ⟨after, unused, limiter, level, drawn⟩ :=
    issue_cases lim capped around honest staging reachable pipeline endgame now issued call
  refine ⟨after, limiter, ?_⟩
  rw [level]
  rcases drawn with ⟨few, nothing, rfl⟩ | ⟨many, planned⟩
  · have bytes : requestBytes issued.requests = 0 := by
      rw [nothing]
      rfl
    rw [bytes, settledLevel_net _ _ _ _ 0 (by omega), Nat.zero_add, Nat.cast_zero, sub_zero]
    exact ⟨rfl, room⟩
  · have exact' : BLOCK_SIZE ∣ onHand lim pipeline now := blocks.resolve_left (Nat.not_lt.2 many)
    rw [Nat.div_mul_cancel exact'] at planned
    rw [settledLevel_net _ _ _ _ _ planned.le]
    refine ⟨planned, Or.inr ?_⟩
    have parts : (requestBytes issued.requests : Rat) + unused = onHand lim pipeline now := by
      exact_mod_cast planned
    have asked : (0 : Rat) ≤ requestBytes issued.requests := Nat.cast_nonneg _
    have positive : 0 < BLOCK_SIZE := by decide
    rcases room with clash | below
    · omega
    · rcases le_max_iff.1 below with capacity | held
      · exact le_max_of_le_left (by linarith)
      · exact le_max_of_le_right (by linarith)

/-- The download limit counts exactly just where the state before the call allows it. -/
theorem request_accounting_iff (lim : WireRateLimiter) (capped : 0 < lim.downCap) (pipeline : Nat)
    (now : Rat) : AccountsExactly lim pipeline now ↔ Countable lim pipeline now :=
  ⟨countable_of_exact lim capped pipeline now, exact_of_countable lim capped pipeline now⟩

/-- A burst of three blocks. -/
theorem request_accounting_threeBlocks :
    0 < (WireRateLimiter.new 0 32768 0).downCap ∧
      AccountsExactly (WireRateLimiter.new 0 32768 0) 16 0 := by
  have iff := request_accounting_iff (WireRateLimiter.new 0 32768 0) (by decide) 16 0
  exact ⟨by decide, iff.2 (by decide +kernel)⟩

/-- A burst of 30000 bytes: of the tokens drawn, 13616 are neither requested nor given back. -/
theorem request_accounting_remainder :
    ¬AccountsExactly (WireRateLimiter.new 0 20000 0) 16 0 := by
  intro exact'
  have countable := countable_of_exact (WireRateLimiter.new 0 20000 0) (by decide) 16 0 exact'
  exact absurd countable (by decide +kernel)

end Seedchamp.Peer.RateBudget
