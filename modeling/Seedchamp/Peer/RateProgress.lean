import Seedchamp.Peer.RateBudget

/-!
Progress under a rate cap. A bucket in use grants a whole block after a wait that depends only on its
rate, provided that a whole block fits in its burst.
-/

namespace Seedchamp.Peer.RateProgress
open Foundation.TokenBucket Foundation.TransitionSystem Net.RateLimit Staging.Pool Upload.InFlight
open Peer.RateBudget

/-- The sender asks for a block at these times, one after another, until it is granted. -/
def uploadPolls (need : Nat) : WireRateLimiter → List Rat → Bool
  | _, [] => false
  | lim, now :: later =>
    match reserveUpload lim need now with
    | (true, _) => true
    | (false, after) => uploadPolls need after later

/-- The planner asks at these times, one after another, until it may request a block. -/
def requestPolls (pipeline : Nat) : Option WireRateLimiter → List Rat → Bool
  | _, [] => false
  | limiter, now :: later =>
    match reserveBlocks limiter pipeline now with
    | (some _, _) => true
    | (none, after) => requestPolls pipeline after later

/-! ### Asking is drawing from the bucket -/

theorem reserveUpload_bucket (lim : WireRateLimiter) (capped : 0 < lim.upCap) (need : Nat) (now : Rat) :
    reserveUpload lim need now =
      ((lim.up.reserve need need now).1.isSome, { lim with up := (lim.up.reserve need need now).2 }) := by
  unfold reserveUpload WireRateLimiter.tryConsumeUpload WireRateLimiter.refundUpload Bucket.reserve
  dsimp only
  rw [tryConsume_capped lim.upCap lim.up need now capped]
  by_cases short : (lim.up.tryConsume need now).1 < need
  · rw [if_pos short, if_pos short]
    by_cases drew : 0 < (lim.up.tryConsume need now).1
    · rw [if_pos drew, if_pos drew, refund_capped lim.upCap _ _ capped drew]
      rfl
    · rw [if_neg drew, if_neg drew]
      rfl
  · rw [if_neg short, if_neg short]
    rfl

theorem reserveBlocks_bucket (lim : WireRateLimiter) (capped : 0 < lim.downCap) (pipeline : Nat) (now : Rat) :
    reserveBlocks (some lim) pipeline now =
      ((lim.down.reserve (requestWant pipeline) BLOCK_SIZE now).1.map (· / BLOCK_SIZE),
        some { lim with down := (lim.down.reserve (requestWant pipeline) BLOCK_SIZE now).2 }) := by
  have limited : lim.downloadUnlimited = false := beq_eq_false_iff_ne.2 (by omega)
  rw [reserveBlocks]
  dsimp only
  rw [limited, if_neg Bool.false_ne_true]
  unfold WireRateLimiter.tryConsumeDownload WireRateLimiter.refundDownload Bucket.reserve
  dsimp only
  rw [tryConsume_capped lim.downCap lim.down _ now capped]
  by_cases short : (lim.down.tryConsume (requestWant pipeline) now).1 < BLOCK_SIZE
  · rw [if_pos short, if_pos short]
    by_cases drew : 0 < (lim.down.tryConsume (requestWant pipeline) now).1
    · rw [if_pos drew, if_pos drew, refund_capped lim.downCap _ _ capped drew]
      rfl
    · rw [if_neg drew, if_neg drew]
      rfl
  · rw [if_neg short, if_neg short]
    rfl

theorem uploadPolls_eq (need : Nat) (times : List Rat) (lim : WireRateLimiter) (capped : 0 < lim.upCap) :
    uploadPolls need lim times = lim.up.attempts need need times := by
  induction times generalizing lim with
  | nil => rfl
  | cons now rest ih =>
    rw [uploadPolls, reserveUpload_bucket lim capped, Bucket.attempts]
    cases answer : lim.up.reserve need need now with
    | mk granted after =>
      cases granted with
      | some got => rfl
      | none => exact ih { lim with up := after } capped

theorem requestPolls_eq (pipeline : Nat) (times : List Rat) (lim : WireRateLimiter) (capped : 0 < lim.downCap) :
    requestPolls pipeline (some lim) times =
      lim.down.attempts (requestWant pipeline) BLOCK_SIZE times := by
  induction times generalizing lim with
  | nil => rfl
  | cons now rest ih =>
    rw [requestPolls, reserveBlocks_bucket lim capped, Bucket.attempts]
    cases answer : lim.down.reserve (requestWant pipeline) BLOCK_SIZE now with
    | mk granted after =>
      cases granted with
      | some got => rfl
      | none => exact ih { lim with down := after } capped

/-- Whoever asks at all asks for a block. -/
theorem requestWant_block (pipeline : Nat) (asks : requestWant pipeline ≠ 0) :
    BLOCK_SIZE ≤ requestWant pipeline := by
  have whole : BLOCK_SIZE ∣ requestWant pipeline := by
    unfold requestWant BLOCK_SIZE
    omega
  exact Nat.le_of_dvd (Nat.pos_of_ne_zero asks) whole

/-! ### Progress and the bound -/

/-- Times in order, of which one is at least `wait` after `since`. -/
structure Waited (since wait : Rat) (times : List Rat) : Prop where
  ordered : times.Pairwise (· ≤ ·)
  later : ∀ now ∈ times, since ≤ now
  passed : ∃ now ∈ times, since + wait ≤ now

/-- From every state of a bucket in use there is a time after which a block is granted to whoever asks,
however often it asked before, when no one else draws. -/
structure Progresses (cap : Nat) : Prop where
  upload : ∀ (lim : WireRateLimiter) (s : Account Rat), lim.upCap = cap → lim.up = s.bucket → InUse cap s →
    ∃ wait, ∀ times, Waited lim.up.last wait times → uploadPolls UPLOAD_BLOCK_LEN lim times = true
  download : ∀ (lim : WireRateLimiter) (s : Account Rat) (pipeline : Nat), lim.downCap = cap →
    lim.down = s.bucket → InUse cap s → requestWant pipeline ≠ 0 →
    ∃ wait, ∀ times, Waited lim.down.last wait times → requestPolls pipeline (some lim) times = true

/-- Over every interval of every run, what is granted and not given back is at most a burst and what
flows in. -/
def Bounded (cap : Nat) : Prop :=
  ∀ (s s' : Account Rat) (start stop : Rat) (events : List (Event Rat)), InUse cap s →
    s.bucket.last ≤ start → start ≤ stop → (∀ event ∈ events, Within start stop event) →
    exec step s events = some s' →
    ((s'.kept.sum : Nat) : Rat) ≤ (s.kept.sum : Nat) + cap * BURST_SECS + cap * (stop - start)

/-- A bucket whose burst holds a block grants one after a time. -/
theorem attempts_of_fits (bucket : TokenBucket) (want : Nat) (asked : BLOCK_SIZE ≤ want)
    (flowing : 0 < bucket.rate) (level : bucket.Level) (fits : (BLOCK_SIZE : Rat) ≤ bucket.capacity)
    (times : List Rat) (waited : Waited bucket.last (BLOCK_SIZE / bucket.rate) times) :
    bucket.attempts want BLOCK_SIZE times = true := by
  have some_ : 0 < want := lt_of_lt_of_le (by decide) asked
  obtain ⟨now, member, passed⟩ := waited.passed
  rw [Bucket.attempts_iff want BLOCK_SIZE some_ asked times bucket flowing level waited.later waited.ordered]
  exact ⟨now, member, bucket.refill_enough BLOCK_SIZE now flowing level fits passed⟩

/-- A bucket whose burst holds no block never grants one. -/
theorem attempts_of_short (bucket : TokenBucket) (want : Nat) (asked : BLOCK_SIZE ≤ want)
    (flowing : 0 < bucket.rate) (level : bucket.Level) (short : bucket.capacity < BLOCK_SIZE)
    (times : List Rat) (ordered : times.Pairwise (· ≤ ·)) (later : ∀ now ∈ times, bucket.last ≤ now) :
    bucket.attempts want BLOCK_SIZE times = false := by
  have some_ : 0 < want := lt_of_lt_of_le (by decide) asked
  rw [Bool.eq_false_iff, ne_eq,
    Bucket.attempts_iff want BLOCK_SIZE some_ asked times bucket flowing level later ordered]
  rintro ⟨now, -, enough⟩
  have capped := (bucket.refill_level now level).capped
  rw [Bucket.refill_capacity] at capped
  exact absurd (enough.trans capped) (not_le.2 short)

theorem fits_iff (cap : Nat) : (BLOCK_SIZE : Rat) ≤ cap * BURST_SECS ↔ 2 * BLOCK_SIZE ≤ 3 * cap := by
  have exact' : 2 * BLOCK_SIZE ≤ 3 * cap ↔ (2 : Rat) * BLOCK_SIZE ≤ 3 * cap := by norm_cast
  rw [exact', BURST_SECS]
  constructor
  · intro fits
    linarith
  · intro fits
    linarith

theorem progresses_of_fits (cap : Nat) (positive : 0 < cap) (fits : 2 * BLOCK_SIZE ≤ 3 * cap) :
    Progresses cap := by
  have grants : ∀ (s : Account Rat) (want : Nat), InUse cap s → BLOCK_SIZE ≤ want →
      ∃ wait, ∀ times, Waited s.bucket.last wait times →
        s.bucket.attempts want BLOCK_SIZE times = true := by
    intro s want inUse asked
    have sound := inUse_sound cap s positive inUse
    have holds : (BLOCK_SIZE : Rat) ≤ s.bucket.capacity := by
      rw [(inUse_constant cap s positive inUse).2]
      exact (fits_iff cap).2 fits
    exact ⟨BLOCK_SIZE / s.bucket.rate, fun times waited =>
      attempts_of_fits s.bucket want asked sound.flowing sound.level holds times waited⟩
  constructor
  · intro lim s atCap bucket inUse
    obtain ⟨wait, granted⟩ := grants s UPLOAD_BLOCK_LEN inUse (le_refl _)
    refine ⟨wait, fun times waited => ?_⟩
    rw [bucket] at waited
    rw [uploadPolls_eq UPLOAD_BLOCK_LEN times lim (by omega), bucket]
    exact granted times waited
  · intro lim s pipeline atCap bucket inUse asks
    obtain ⟨wait, granted⟩ := grants s (requestWant pipeline) inUse (requestWant_block pipeline asks)
    refine ⟨wait, fun times waited => ?_⟩
    rw [bucket] at waited
    rw [requestPolls_eq pipeline times lim (by omega), bucket]
    exact granted times waited

theorem fits_of_progresses (cap : Nat) (positive : 0 < cap) (progresses : Progresses cap) :
    2 * BLOCK_SIZE ≤ 3 * cap := by
  by_contra small
  have inUse : InUse cap ⟨(WireRateLimiter.new cap 0 0).up, []⟩ := ⟨.unlimited 0, 0, [], rfl⟩
  have sound := inUse_sound cap _ positive inUse
  have short : (WireRateLimiter.new cap 0 0).up.capacity < BLOCK_SIZE := by
    rw [(inUse_constant cap _ positive inUse).2]
    exact not_le.1 (fun fits => small ((fits_iff cap).1 fits))
  obtain ⟨wait, granted⟩ := progresses.upload (WireRateLimiter.new cap 0 0) _ rfl rfl inUse
  have later : (WireRateLimiter.new cap 0 0).up.last ≤ (WireRateLimiter.new cap 0 0).up.last + max wait 0 :=
    le_add_of_nonneg_right (le_max_right _ _)
  have waited : Waited (WireRateLimiter.new cap 0 0).up.last wait
      [(WireRateLimiter.new cap 0 0).up.last + max wait 0] := by
    refine ⟨List.pairwise_singleton _ _, ?_, _, List.mem_singleton_self _, ?_⟩
    · intro now member
      rw [List.mem_singleton.1 member]
      exact later
    · exact add_le_add_right (le_max_left _ _) _
  have polled := granted _ waited
  have refused := attempts_of_short _ UPLOAD_BLOCK_LEN (le_refl _) sound.flowing sound.level short _
    waited.ordered waited.later
  rw [uploadPolls_eq UPLOAD_BLOCK_LEN _ (WireRateLimiter.new cap 0 0) positive] at polled
  exact absurd polled (Bool.eq_false_iff.1 refused)

theorem bounded_of_positive (cap : Nat) (positive : 0 < cap) : Bounded cap :=
  fun s s' start stop events inUse early ordered inside ran =>
    inUse_bounded cap s s' start stop events positive inUse early ordered inside ran

/-- A cap makes progress, and is kept, just when one and a half seconds of it hold a block; it is kept in
any case. -/
theorem cap_progress_iff (cap : Nat) (positive : 0 < cap) :
    (Progresses cap ∧ Bounded cap ↔ 2 * BLOCK_SIZE ≤ 3 * cap) ∧ Bounded cap := by
  have bounded := bounded_of_positive cap positive
  refine ⟨⟨?_, ?_⟩, bounded⟩
  · intro both
    exact fits_of_progresses cap positive both.1
  · intro fits
    exact ⟨progresses_of_fits cap positive fits, bounded⟩

/-- The least cap whose burst holds a block. -/
theorem cap_progress_oneBlock :
    0 < 10923 ∧ Progresses 10923 ∧ Bounded 10923 := by
  have progress := (cap_progress_iff 10923 (by decide)).1.2 (by decide)
  exact ⟨by decide, progress⟩

/-- At 10000 bytes a second no block is ever sent. -/
theorem cap_progress_stalls : 0 < 10000 ∧ ¬(Progresses 10000 ∧ Bounded 10000) := by
  refine ⟨by decide, ?_⟩
  intro both
  have fits := fits_of_progresses 10000 (by decide) both.1
  exact absurd fits (by decide)

end Seedchamp.Peer.RateProgress
