import Mathlib.Algebra.Order.Field.Rat
import Mathlib.Data.Rat.Floor
import Seedchamp.Foundation.TokenBucket

/-!
The global wire rate limits: one token bucket for uploads and one for downloads. A cap of 0 is no limit,
and then the bucket is never touched.
-/

namespace Seedchamp.Net.RateLimit
open Foundation.TokenBucket Foundation.TransitionSystem

/-- Tokens are bytes and times are seconds, as exact numbers. -/
abbrev TokenBucket := Bucket Rat

/-- Burst capacity as a multiple of the sustained rate. -/
def BURST_SECS : Rat := 3 / 2

def TokenBucket.unlimited (now : Rat) : TokenBucket := ⟨0, 0, 0, now⟩

/-- A new rate starts with a full burst. -/
def TokenBucket.reconfigure (bucket : TokenBucket) (rateBps : Nat) (now : Rat) : TokenBucket :=
  if rateBps = 0 then { bucket with rate := 0, capacity := 0, tokens := 0 }
  else ⟨rateBps * BURST_SECS, rateBps * BURST_SECS, rateBps, now⟩

structure WireRateLimiter where
  upCap : Nat
  downCap : Nat
  up : TokenBucket
  down : TokenBucket
  deriving DecidableEq, Repr

/-- Draw from the bucket of one direction. -/
def tryConsume (cap : Nat) (bucket : TokenBucket) (want : Nat) (now : Rat) : Nat × TokenBucket :=
  if want = 0 ∨ cap = 0 then (want, bucket) else bucket.tryConsume want now

def refund (cap : Nat) (bucket : TokenBucket) (n : Nat) : TokenBucket :=
  if n = 0 ∨ cap = 0 then bucket else bucket.refund n

namespace WireRateLimiter

def setCaps (lim : WireRateLimiter) (upBps downBps : Nat) (now : Rat) : WireRateLimiter where
  upCap := upBps
  downCap := downBps
  up := lim.up.reconfigure upBps now
  down := lim.down.reconfigure downBps now

def new (upBps downBps : Nat) (now : Rat) : WireRateLimiter :=
  (WireRateLimiter.mk 0 0 (.unlimited now) (.unlimited now)).setCaps upBps downBps now

def downloadUnlimited (lim : WireRateLimiter) : Bool := lim.downCap == 0

def tryConsumeUpload (lim : WireRateLimiter) (want : Nat) (now : Rat) : Nat × WireRateLimiter :=
  let drawn := tryConsume lim.upCap lim.up want now
  (drawn.1, { lim with up := drawn.2 })

def refundUpload (lim : WireRateLimiter) (n : Nat) : WireRateLimiter :=
  { lim with up := refund lim.upCap lim.up n }

def tryConsumeDownload (lim : WireRateLimiter) (want : Nat) (now : Rat) : Nat × WireRateLimiter :=
  let drawn := tryConsume lim.downCap lim.down want now
  (drawn.1, { lim with down := drawn.2 })

def refundDownload (lim : WireRateLimiter) (n : Nat) : WireRateLimiter :=
  { lim with down := refund lim.downCap lim.down n }

end WireRateLimiter

/-! ### A bucket in use -/

theorem tryConsume_capped (cap : Nat) (bucket : TokenBucket) (want : Nat) (now : Rat) (capped : 0 < cap) :
    tryConsume cap bucket want now = bucket.tryConsume want now := by
  unfold tryConsume
  by_cases nothing : want = 0
  · rw [if_pos (Or.inl nothing), Bucket.tryConsume, if_pos nothing, nothing]
  · rw [if_neg (by omega)]

theorem refund_capped (cap : Nat) (bucket : TokenBucket) (n : Nat) (capped : 0 < cap) (some_ : 0 < n) :
    refund cap bucket n = bucket.refund n := by
  rw [refund, if_neg (by omega)]

/-- The bucket of one direction, in use since a cap was set. -/
def InUse (cap : Nat) (s : Account Rat) : Prop :=
  ∃ (bucket : TokenBucket) (since : Rat) (events : List (Event Rat)),
    exec step ⟨bucket.reconfigure cap since, []⟩ events = some s

theorem reconfigure_sound (cap : Nat) (bucket : TokenBucket) (since : Rat) (capped : 0 < cap) :
    Sound ⟨bucket.reconfigure cap since, []⟩ := by
  have rate : (0 : Rat) < cap := Nat.cast_pos.2 capped
  have burst : (0 : Rat) ≤ cap * BURST_SECS := mul_nonneg rate.le (by decide +kernel)
  rw [TokenBucket.reconfigure, if_neg (by omega)]
  exact ⟨rate, ⟨burst, le_refl _⟩, fun n none' => absurd none' List.not_mem_nil⟩

theorem inUse_sound (cap : Nat) (s : Account Rat) (capped : 0 < cap) (inUse : InUse cap s) : Sound s := by
  obtain ⟨bucket, since, events, ran⟩ := inUse
  exact sound_exec events _ s (reconfigure_sound cap bucket since capped) ran

/-- The rate of a bucket in use is its cap, and its capacity is one burst. -/
theorem inUse_constant (cap : Nat) (s : Account Rat) (capped : 0 < cap) (inUse : InUse cap s) :
    s.bucket.rate = cap ∧ s.bucket.capacity = cap * BURST_SECS := by
  obtain ⟨bucket, since, events, ran⟩ := inUse
  have constant := constant_exec events _ s ran
  rw [TokenBucket.reconfigure, if_neg (by omega)] at constant
  exact constant

/-- What a bucket in use grants over an interval, less what is given back. -/
theorem inUse_bounded (cap : Nat) (s s' : Account Rat) (start stop : Rat) (events : List (Event Rat))
    (capped : 0 < cap) (inUse : InUse cap s) (early : s.bucket.last ≤ start) (ordered : start ≤ stop)
    (inside : ∀ event ∈ events, Within start stop event) (ran : exec step s events = some s') :
    ((s'.kept.sum : Nat) : Rat) ≤ (s.kept.sum : Nat) + cap * BURST_SECS + cap * (stop - start) := by
  have bound := kept_bounded start stop events s s' (inUse_sound cap s capped inUse) early ordered inside ran
  obtain ⟨rate, capacity⟩ := inUse_constant cap s capped inUse
  rwa [rate, capacity] at bound

end Seedchamp.Net.RateLimit
