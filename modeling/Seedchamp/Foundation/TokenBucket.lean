import Mathlib.Algebra.Order.Field.Basic
import Mathlib.Algebra.Order.Floor.Semiring
import Mathlib.Tactic.Linarith
import Mathlib.Tactic.Ring
import Mathlib.Tactic.SplitIfs
import Seedchamp.Foundation.Custody
import Seedchamp.Foundation.TransitionSystem

/-!
Token buckets over an ordered field. A bucket fills at a constant rate up to its capacity; whole tokens
are drawn from it and may be given back. What the draws keep over an interval is at most the capacity
and what flows in.
-/

namespace Seedchamp.Foundation.TokenBucket
open Foundation.Custody Foundation.TransitionSystem

/-- The level as of the time `last`. -/
structure Bucket (K : Type) where
  tokens : K
  capacity : K
  rate : K
  last : K
  deriving DecidableEq, Repr

variable {K : Type} [Field K] [LinearOrder K] [IsStrictOrderedRing K] [FloorSemiring K]

namespace Bucket

/-- What flowed in since `last`; a time before `last` changes nothing. -/
def refill (b : Bucket K) (now : K) : Bucket K :=
  if b.rate ≤ 0 then b
  else if 0 < now - b.last then
    { b with tokens := min (b.tokens + b.rate * (now - b.last)) b.capacity, last := now }
  else b

/-- Draw up to `want` tokens. -/
def tryConsume (b : Bucket K) (want : Nat) (now : K) : Nat × Bucket K :=
  if want = 0 then (0, b)
  else
    let grant := ⌊max (min (want : K) (b.refill now).tokens) 0⌋₊
    (grant, { b.refill now with tokens := (b.refill now).tokens - grant })

/-- Give tokens back. -/
def refund (b : Bucket K) (n : Nat) : Bucket K :=
  { b with tokens := min (b.tokens + n) (max b.capacity n) }

/-- Draw up to `want` tokens; fewer than `need` are given back. -/
def reserve (b : Bucket K) (want need : Nat) (now : K) : Option Nat × Bucket K :=
  let drawn := b.tryConsume want now
  if drawn.1 < need then (none, if 0 < drawn.1 then drawn.2.refund drawn.1 else drawn.2)
  else (some drawn.1, drawn.2)

/-- Ask at these times, one after another, until a draw is granted. -/
def attempts (want need : Nat) : Bucket K → List K → Bool
  | _, [] => false
  | b, now :: later =>
    match b.reserve want need now with
    | (some _, _) => true
    | (none, b) => attempts want need b later

/-- A level between empty and full. -/
structure Level (b : Bucket K) : Prop where
  nonneg : 0 ≤ b.tokens
  capped : b.tokens ≤ b.capacity

/-! ### One operation -/

omit [FloorSemiring K] [IsStrictOrderedRing K] in
@[simp] theorem refill_capacity (b : Bucket K) (now : K) : (b.refill now).capacity = b.capacity := by
  unfold refill
  split_ifs <;> rfl

omit [FloorSemiring K] [IsStrictOrderedRing K] in
@[simp] theorem refill_rate (b : Bucket K) (now : K) : (b.refill now).rate = b.rate := by
  unfold refill
  split_ifs <;> rfl

omit [FloorSemiring K] in
/-- The level that a bucket which is not above its capacity has at a time. -/
theorem refill_tokens (b : Bucket K) (now : K) (flowing : 0 < b.rate) (later : b.last ≤ now)
    (capped : b.tokens ≤ b.capacity) :
    (b.refill now).tokens = min (b.tokens + b.rate * (now - b.last)) b.capacity := by
  rw [refill, if_neg (not_le.2 flowing)]
  split_ifs with passed
  · rfl
  · have same : now - b.last = 0 := le_antisymm (not_lt.1 passed) (sub_nonneg.2 later)
    rw [same, mul_zero, add_zero, min_eq_left capped]

omit [FloorSemiring K] in
theorem refill_last (b : Bucket K) (now : K) (flowing : 0 < b.rate) (later : b.last ≤ now) :
    (b.refill now).last = now := by
  rw [refill, if_neg (not_le.2 flowing)]
  split_ifs with passed
  · rfl
  · exact le_antisymm later (sub_nonpos.1 (not_lt.1 passed))

omit [FloorSemiring K] in
theorem refill_still (b : Bucket K) (now : K) (early : now ≤ b.last) : b.refill now = b := by
  rw [refill, if_neg (not_lt.2 (sub_nonpos.2 early)), ite_self]

omit [FloorSemiring K] in
theorem refill_level (b : Bucket K) (now : K) (level : Level b) : Level (b.refill now) := by
  unfold refill
  split_ifs with still passed
  · exact level
  · have flowed : 0 ≤ b.rate * (now - b.last) := mul_nonneg (le_of_not_ge still) passed.le
    exact ⟨le_min (add_nonneg level.nonneg flowed) (level.nonneg.trans level.capped),
      min_le_right _ _⟩
  · exact level

omit [FloorSemiring K] in
/-- Looking at a bucket twice is looking at it once. -/
theorem refill_refill (b : Bucket K) (now later : K) (flowing : 0 < b.rate)
    (capped : b.tokens ≤ b.capacity) (first : b.last ≤ now) (second : now ≤ later) :
    ((b.refill now).refill later).tokens = (b.refill later).tokens := by
  have held : (b.refill now).tokens ≤ (b.refill now).capacity := by
    rw [refill_tokens b now flowing first capped, refill_capacity]
    exact min_le_right _ _
  have inflow : 0 ≤ b.rate * (later - now) := mul_nonneg flowing.le (sub_nonneg.2 second)
  rw [refill_tokens (b.refill now) later (by rwa [refill_rate])
      (by rwa [refill_last b now flowing first]) held,
    refill_tokens b now flowing first capped, refill_tokens b later flowing (first.trans second) capped,
    refill_capacity, refill_rate, refill_last b now flowing first]
  have whole : b.tokens + b.rate * (now - b.last) + b.rate * (later - now) =
      b.tokens + b.rate * (later - b.last) := by ring
  rw [← min_add_add_right, whole, min_assoc, min_eq_right (by linarith : b.capacity ≤ _)]

omit [FloorSemiring K] in
/-- At one time a second look finds nothing more. -/
theorem refill_again (b : Bucket K) (now tokens : K) :
    ({ b.refill now with tokens := tokens } : Bucket K).refill now =
      { b.refill now with tokens := tokens } := by
  by_cases still : b.rate ≤ 0
  · rw [refill, refill_rate, if_pos still]
  · refine refill_still _ now ?_
    dsimp only
    rw [refill, if_neg still]
    split_ifs with passed
    · exact le_refl now
    · exact sub_nonpos.1 (not_lt.1 passed)

/-- The whole tokens that a draw is granted. -/
theorem tryConsume_grant (b : Bucket K) (want : Nat) (now : K) :
    (b.tryConsume want now).1 = min want ⌊(b.refill now).tokens⌋₊ := by
  rw [tryConsume]
  split_ifs with nothing
  · rw [nothing, Nat.zero_min]
  · dsimp only
    rcases le_total 0 (b.refill now).tokens with nonneg | empty
    · rw [max_eq_left (le_min (Nat.cast_nonneg want) nonneg)]
      rcases le_total (want : K) (b.refill now).tokens with enough | short
      · rw [min_eq_left enough, Nat.floor_natCast, min_eq_left (Nat.le_floor enough)]
      · rw [min_eq_right short, min_eq_right]
        exact (Nat.floor_le_floor short).trans (Nat.floor_natCast want).le
    · rw [max_eq_right ((min_le_right _ _).trans empty), Nat.floor_zero, Nat.floor_of_nonpos empty,
        Nat.min_zero]

theorem tryConsume_grant_le (b : Bucket K) (want : Nat) (now : K) (level : Level b) :
    ((b.tryConsume want now).1 : K) ≤ (b.refill now).tokens := by
  rw [tryConsume_grant b want now]
  exact (Nat.cast_le.2 (min_le_right _ _)).trans (Nat.floor_le (refill_level b now level).nonneg)

omit [IsStrictOrderedRing K] in
@[simp] theorem tryConsume_capacity (b : Bucket K) (want : Nat) (now : K) :
    (b.tryConsume want now).2.capacity = b.capacity := by
  unfold tryConsume
  split_ifs
  · rfl
  · exact refill_capacity b now

omit [IsStrictOrderedRing K] in
@[simp] theorem tryConsume_rate (b : Bucket K) (want : Nat) (now : K) :
    (b.tryConsume want now).2.rate = b.rate := by
  unfold tryConsume
  split_ifs
  · rfl
  · exact refill_rate b now

omit [IsStrictOrderedRing K] in
theorem tryConsume_bucket (b : Bucket K) (want : Nat) (now : K) (some_ : want ≠ 0) :
    (b.tryConsume want now).2 =
      { b.refill now with tokens := (b.refill now).tokens - (b.tryConsume want now).1 } := by
  rw [tryConsume, if_neg some_]

theorem tryConsume_level (b : Bucket K) (want : Nat) (now : K) (level : Level b) :
    Level (b.tryConsume want now).2 := by
  have granted := tryConsume_grant_le b want now level
  have filled := refill_level b now level
  unfold tryConsume at granted ⊢
  split_ifs at granted ⊢ with nothing
  · exact level
  · dsimp only at granted ⊢
    exact ⟨sub_nonneg.2 granted, (sub_le_self _ (Nat.cast_nonneg _)).trans filled.capped⟩

omit [FloorSemiring K] in
theorem refund_level (b : Bucket K) (n : Nat) (level : Level b) (fits : (n : K) ≤ b.capacity) :
    Level (b.refund n) := by
  rw [refund, max_eq_left fits]
  exact ⟨le_min (add_nonneg level.nonneg (Nat.cast_nonneg n)) (level.nonneg.trans level.capped),
    min_le_right _ _⟩

/-! ### Waiting -/

theorem reserve_isSome (b : Bucket K) (want need : Nat) (now : K) (level : Level b)
    (asked : need ≤ want) :
    (b.reserve want need now).1.isSome = true ↔ (need : K) ≤ (b.refill now).tokens := by
  have nonneg := (refill_level b now level).nonneg
  unfold reserve
  dsimp only
  rw [tryConsume_grant b want now]
  by_cases enough : (need : K) ≤ (b.refill now).tokens
  · have reached : need ≤ ⌊(b.refill now).tokens⌋₊ := Nat.le_floor enough
    rw [if_neg (Nat.not_lt.2 (le_min asked reached))]
    exact ⟨fun _ => enough, fun _ => rfl⟩
  · have below : ⌊(b.refill now).tokens⌋₊ < need :=
      (Nat.floor_lt nonneg).2 (not_le.1 enough)
    rw [if_pos (lt_of_le_of_lt (min_le_right _ _) below)]
    exact ⟨(fun granted => by cases granted), fun clash => absurd clash enough⟩

/-- A refused draw leaves the bucket as a look at it does. -/
theorem reserve_refused (b : Bucket K) (want need : Nat) (now : K) (level : Level b)
    (some_ : 0 < want) (refused : (b.reserve want need now).1 = none) :
    (b.reserve want need now).2 = b.refill now := by
  have capped := (refill_level b now level).capped
  have granted := tryConsume_grant_le b want now level
  unfold reserve at refused ⊢
  dsimp only at refused ⊢
  split_ifs at refused ⊢ with short drawn
  · unfold tryConsume at granted ⊢
    rw [if_neg (Nat.ne_of_gt some_)] at granted ⊢
    dsimp only at granted ⊢
    rw [refund]
    dsimp only
    rw [sub_add_cancel, min_eq_left (capped.trans (le_max_left _ _))]
  · have none' : (b.tryConsume want now).1 = 0 := Nat.eq_zero_of_not_pos drawn
    unfold tryConsume at none' ⊢
    rw [if_neg (Nat.ne_of_gt some_)] at none' ⊢
    dsimp only at none' ⊢
    rw [none', Nat.cast_zero, sub_zero]

/-- Asking again and again succeeds just when asking at one of the times alone would. -/
theorem attempts_iff (want need : Nat) (some_ : 0 < want) (asked : need ≤ want) (times : List K)
    (b : Bucket K) (flowing : 0 < b.rate) (level : Level b) (later : ∀ now ∈ times, b.last ≤ now)
    (ordered : times.Pairwise (· ≤ ·)) :
    attempts want need b times = true ↔ ∃ now ∈ times, (need : K) ≤ (b.refill now).tokens := by
  induction times generalizing b with
  | nil =>
    constructor
    · intro clash
      cases clash
    · rintro ⟨now, member, -⟩
      cases member
  | cons now rest ih =>
    rw [List.forall_mem_cons] at later
    rw [List.pairwise_cons] at ordered
    have here := reserve_isSome b want need now level asked
    have split : (∃ time ∈ now :: rest, (need : K) ≤ (b.refill time).tokens) ↔
        (b.reserve want need now).1.isSome = true ∨
          ∃ time ∈ rest, (need : K) ≤ (b.refill time).tokens := by
      rw [here]
      exact List.exists_mem_cons_iff (fun time => (need : K) ≤ (b.refill time).tokens) now rest
    rw [attempts, split]
    cases answer : b.reserve want need now with
    | mk granted after =>
      cases granted with
      | some got => exact ⟨fun _ => Or.inl rfl, fun _ => rfl⟩
      | none =>
        have left := reserve_refused b want need now level some_ (congrArg Prod.fst answer)
        rw [answer] at left
        dsimp only at left ⊢
        have moved := refill_last b now flowing later.1
        rw [left, ih (b.refill now) (by rwa [refill_rate]) (refill_level b now level)
          (fun time member => moved.le.trans (ordered.1 time member)) ordered.2]
        have same : ∀ time ∈ rest, ((b.refill now).refill time).tokens = (b.refill time).tokens :=
          fun time member => refill_refill b now time flowing level.capped later.1
            (ordered.1 time member)
        constructor
        · rintro ⟨time, member, enough⟩
          rw [same time member] at enough
          exact Or.inr ⟨time, member, enough⟩
        · rintro (clash | ⟨time, member, enough⟩)
          · cases clash
          · rw [← same time member] at enough
            exact ⟨time, member, enough⟩

omit [FloorSemiring K] in
/-- A need within the capacity is there after the time in which it flows in. -/
theorem refill_enough (b : Bucket K) (need : Nat) (now : K) (flowing : 0 < b.rate) (level : Level b)
    (fits : (need : K) ≤ b.capacity) (waited : b.last + need / b.rate ≤ now) :
    (need : K) ≤ (b.refill now).tokens := by
  have time : (need : K) / b.rate ≤ now - b.last := by linarith
  have inflow : (need : K) ≤ b.rate * (now - b.last) := by
    rwa [div_le_iff₀ flowing, mul_comm] at time
  have later : b.last ≤ now := by
    have wait : 0 ≤ (need : K) / b.rate := div_nonneg (Nat.cast_nonneg need) flowing.le
    linarith
  rw [refill_tokens b now flowing later level.capped]
  exact le_min (by linarith [level.nonneg]) fits

end Bucket

/-! ### Runs -/

/-- A bucket, and of each draw what was kept of it. -/
structure Account (K : Type) where
  bucket : Bucket K
  kept : List Nat

inductive Event (K : Type) where
  | draw (want : Nat) (now : K)
  | giveBack (draw n : Nat)
  | look (now : K)

/-- Times never go back, and a draw gives back at most what it kept. -/
def step (s : Account K) : Event K → Option (Account K)
  | .draw want now =>
    if s.bucket.last ≤ now then
      some ⟨(s.bucket.tryConsume want now).2, s.kept ++ [(s.bucket.tryConsume want now).1]⟩
    else none
  | .giveBack draw n =>
    match s.kept[draw]? with
    | some left =>
      if n ≤ left then some ⟨s.bucket.refund n, s.kept.set draw (left - n)⟩ else none
    | none => none
  | .look now => if s.bucket.last ≤ now then some { s with bucket := s.bucket.refill now } else none

structure Sound (s : Account K) : Prop where
  flowing : 0 < s.bucket.rate
  level : s.bucket.Level
  each : ∀ n ∈ s.kept, (n : K) ≤ s.bucket.capacity

omit [IsStrictOrderedRing K] in
/-- All that one event does. -/
theorem step_cases (s : Account K) (event : Event K) (s' : Account K) (taken : step s event = some s') :
    (∃ want now, event = .draw want now ∧ s.bucket.last ≤ now ∧
      s' = ⟨(s.bucket.tryConsume want now).2, s.kept ++ [(s.bucket.tryConsume want now).1]⟩) ∨
    (∃ draw n left, event = .giveBack draw n ∧ s.kept[draw]? = some left ∧ n ≤ left ∧
      s' = ⟨s.bucket.refund n, s.kept.set draw (left - n)⟩) ∨
    ∃ now, event = .look now ∧ s.bucket.last ≤ now ∧ s' = ⟨s.bucket.refill now, s.kept⟩ := by
  cases event with
  | draw want now =>
    rw [step] at taken
    split_ifs at taken with later
    cases taken
    exact Or.inl ⟨want, now, rfl, later, rfl⟩
  | giveBack draw n =>
    rw [step] at taken
    cases found : s.kept[draw]? with
    | none => simp only [found, reduceCtorEq] at taken
    | some left =>
      simp only [found] at taken
      split_ifs at taken with part
      cases taken
      exact Or.inr (Or.inl ⟨draw, n, left, rfl, found, part, rfl⟩)
  | look now =>
    rw [step] at taken
    split_ifs at taken with later
    cases taken
    exact Or.inr (Or.inr ⟨now, rfl, later, rfl⟩)

omit [IsStrictOrderedRing K] in
/-- The rate and the capacity of a bucket stay. -/
theorem constant_step (s : Account K) (event : Event K) (s' : Account K)
    (taken : step s event = some s') :
    s'.bucket.rate = s.bucket.rate ∧ s'.bucket.capacity = s.bucket.capacity := by
  obtain ⟨want, now, -, -, rfl⟩ | ⟨draw, n, left, -, -, -, rfl⟩ | ⟨now, -, -, rfl⟩ :=
    step_cases s event s' taken
  · exact ⟨s.bucket.tryConsume_rate want now, s.bucket.tryConsume_capacity want now⟩
  · exact ⟨rfl, rfl⟩
  · exact ⟨s.bucket.refill_rate now, s.bucket.refill_capacity now⟩

theorem sound_step (s : Account K) (event : Event K) (s' : Account K) (sound : Sound s)
    (taken : step s event = some s') : Sound s' := by
  have constant := constant_step s event s' taken
  have flowing : 0 < s'.bucket.rate := constant.1 ▸ sound.flowing
  obtain ⟨want, now, -, -, rfl⟩ | ⟨draw, n, left, -, found, part, rfl⟩ | ⟨now, -, -, rfl⟩ :=
    step_cases s event s' taken
  · refine ⟨flowing, s.bucket.tryConsume_level want now sound.level, ?_⟩
    intro n member
    rw [constant.2]
    rw [List.mem_append, List.mem_singleton] at member
    rcases member with before | granted
    · exact sound.each n before
    · rw [granted]
      exact (s.bucket.tryConsume_grant_le want now sound.level).trans
        ((s.bucket.refill_level now sound.level).capped.trans (s.bucket.refill_capacity now).le)
  · have whole := sound.each left (List.mem_of_getElem? found)
    refine ⟨flowing, s.bucket.refund_level n sound.level ((Nat.cast_le.2 part).trans whole), ?_⟩
    intro other member
    rcases List.mem_or_eq_of_mem_set member with before | same
    · exact sound.each other before
    · rw [same]
      exact (Nat.cast_le.2 (Nat.sub_le left n)).trans whole
  · refine ⟨flowing, s.bucket.refill_level now sound.level, ?_⟩
    dsimp only
    rw [Bucket.refill_capacity]
    exact sound.each

/-- The events of an interval. -/
def Within (start stop : K) : Event K → Prop
  | .draw _ now | .look now => start ≤ now ∧ now ≤ stop
  | .giveBack _ _ => True

/-- What was kept and what is there at a time. -/
def holdings (s : Account K) (now : K) : K := (s.kept.sum : Nat) + (s.bucket.refill now).tokens

omit [FloorSemiring K] in
/-- As time goes by the holdings grow at most at the rate. -/
theorem holdings_later (s : Account K) (now later : K) (sound : Sound s)
    (first : s.bucket.last ≤ now) (second : now ≤ later) :
    holdings s later ≤ holdings s now + s.bucket.rate * (later - now) := by
  have capped := sound.level.capped
  have flowed := (mul_nonneg sound.flowing.le (sub_nonneg.2 second))
  have whole : s.bucket.tokens + s.bucket.rate * (later - s.bucket.last) =
      s.bucket.tokens + s.bucket.rate * (now - s.bucket.last) + s.bucket.rate * (later - now) := by ring
  rw [holdings, holdings, Bucket.refill_tokens s.bucket later sound.flowing (first.trans second) capped,
    Bucket.refill_tokens s.bucket now sound.flowing first capped, add_assoc, add_le_add_iff_left, whole,
    ← min_add_add_right]
  exact min_le_min_left _ (le_add_of_nonneg_right flowed)

/-- A draw moves tokens from the bucket to what was kept. -/
theorem holdings_draw (s : Account K) (want : Nat) (now : K) (sound : Sound s) (some_ : want ≠ 0)
    (later : s.bucket.last ≤ now) :
    holdings ⟨(s.bucket.tryConsume want now).2, s.kept ++ [(s.bucket.tryConsume want now).1]⟩ now =
      holdings s now := by
  have moved := s.bucket.refill_last now sound.flowing later
  have drawn := s.bucket.tryConsume_bucket want now some_
  have still := (s.bucket.tryConsume want now).2.refill_still now (by rw [drawn]; exact moved.ge)
  rw [holdings, holdings, List.sum_append, List.sum_singleton, Nat.cast_add]
  dsimp only
  rw [still, drawn]
  ring

omit [FloorSemiring K] in
theorem holdings_giveBack (s : Account K) (draw n left : Nat) (now : K) (sound : Sound s)
    (found : s.kept[draw]? = some left) (part : n ≤ left) (later : s.bucket.last ≤ now) :
    holdings ⟨s.bucket.refund n, s.kept.set draw (left - n)⟩ now ≤ holdings s now := by
  have fits : (n : K) ≤ s.bucket.capacity :=
    (Nat.cast_le.2 part).trans (sound.each left (List.mem_of_getElem? found))
  have level := s.bucket.refund_level n sound.level fits
  have count := sum_map_set s.kept id draw left (left - n) found
  rw [List.map_id, List.map_id, id, id] at count
  have given : ((s.kept.set draw (left - n)).sum : K) + n = (s.kept.sum : Nat) := by
    rw [← Nat.cast_add]
    congr 1
    omega
  have filled : ((s.bucket.refund n).refill now).tokens ≤ (s.bucket.refill now).tokens + n := by
    rw [Bucket.refill_tokens (s.bucket.refund n) now sound.flowing later level.capped,
      Bucket.refill_tokens _ now sound.flowing later sound.level.capped, ← min_add_add_right]
    refine min_le_min ?_ (le_add_of_nonneg_right (Nat.cast_nonneg n))
    have gained : (s.bucket.refund n).tokens ≤ s.bucket.tokens + n := min_le_left _ _
    have same : (s.bucket.refund n).rate * (now - (s.bucket.refund n).last) =
        s.bucket.rate * (now - s.bucket.last) := rfl
    linarith
  unfold holdings
  dsimp only
  linarith

/-- What was kept since the start of an interval, with what is there now. -/
def Limited (start : K) (before : Nat) (s : Account K) : Prop :=
  holdings s (max s.bucket.last start) ≤
    before + s.bucket.capacity + s.bucket.rate * (max s.bucket.last start - start)

omit [FloorSemiring K] in
theorem limited_start (s : Account K) (start : K) (sound : Sound s) (early : s.bucket.last ≤ start) :
    Limited start s.kept.sum s := by
  rw [Limited, max_eq_right early, sub_self, mul_zero, add_zero, holdings, add_le_add_iff_left]
  exact (s.bucket.refill_level start sound.level).capped.trans (s.bucket.refill_capacity start).le

omit [FloorSemiring K] in
/-- Where a draw or a look finds the bucket. -/
theorem limited_arrive (start : K) (before : Nat) (s : Account K) (now : K) (sound : Sound s)
    (limited : Limited start before s) (begun : start ≤ now) (later : s.bucket.last ≤ now) :
    holdings s now ≤ before + s.bucket.capacity + s.bucket.rate * (now - start) := by
  have grown := holdings_later s (max s.bucket.last start) now sound (le_max_left _ _)
    (max_le later begun)
  have whole : s.bucket.rate * (max s.bucket.last start - start) +
      s.bucket.rate * (now - max s.bucket.last start) = s.bucket.rate * (now - start) := by ring
  unfold Limited at limited
  linarith

theorem limited_step (start stop : K) (before : Nat) (s : Account K) (event : Event K) (s' : Account K)
    (sound : Sound s) (limited : Limited start before s) (inside : Within start stop event)
    (taken : step s event = some s') : Limited start before s' := by
  have constant := constant_step s event s' taken
  rw [Limited, constant.1, constant.2]
  obtain ⟨want, now, rfl, later, rfl⟩ | ⟨draw, n, left, rfl, found, part, rfl⟩ | ⟨now, rfl, later, rfl⟩ :=
    step_cases s event s' taken
  · by_cases nothing : want = 0
    · have same : holdings ⟨s.bucket, s.kept ++ [0]⟩ (max s.bucket.last start) =
          holdings s (max s.bucket.last start) := by
        rw [holdings, holdings, List.sum_append, List.sum_singleton, Nat.add_zero]
      rw [Bucket.tryConsume, if_pos nothing]
      exact same.le.trans limited
    · have moved : (s.bucket.tryConsume want now).2.last = now := by
        rw [s.bucket.tryConsume_bucket want now nothing]
        exact s.bucket.refill_last now sound.flowing later
      dsimp only
      rw [moved, max_eq_left inside.1, holdings_draw s want now sound nothing later]
      exact limited_arrive start before s now sound limited inside.1 later
  · exact (holdings_giveBack s draw n left _ sound found part (le_max_left _ _)).trans limited
  · have moved := s.bucket.refill_last now sound.flowing later
    have still := (s.bucket.refill now).refill_still now moved.ge
    dsimp only
    rw [moved, max_eq_left inside.1, holdings]
    dsimp only
    rw [still]
    exact limited_arrive start before s now sound limited inside.1 later

theorem last_step (start stop : K) (s : Account K) (event : Event K) (s' : Account K) (sound : Sound s)
    (before : s.bucket.last ≤ stop) (inside : Within start stop event)
    (taken : step s event = some s') : s'.bucket.last ≤ stop := by
  obtain ⟨want, now, rfl, later, rfl⟩ | ⟨draw, n, left, rfl, -, -, rfl⟩ | ⟨now, rfl, later, rfl⟩ :=
    step_cases s event s' taken
  · by_cases nothing : want = 0
    · rw [Bucket.tryConsume, if_pos nothing]
      exact before
    · rw [s.bucket.tryConsume_bucket want now nothing]
      exact (s.bucket.refill_last now sound.flowing later).trans_le inside.2
  · exact before
  · exact (s.bucket.refill_last now sound.flowing later).trans_le inside.2

theorem sound_exec (events : List (Event K)) (s s' : Account K) (sound : Sound s)
    (ran : exec step s events = some s') : Sound s' :=
  exec_invariant_free step Sound sound_step s s' events sound ran

omit [IsStrictOrderedRing K] in
theorem constant_exec (events : List (Event K)) (s s' : Account K) (ran : exec step s events = some s') :
    s'.bucket.rate = s.bucket.rate ∧ s'.bucket.capacity = s.bucket.capacity := by
  refine exec_invariant_free step
    (fun now => now.bucket.rate = s.bucket.rate ∧ now.bucket.capacity = s.bucket.capacity)
    ?_ s s' events ⟨rfl, rfl⟩ ran
  intro now event next same taken
  have constant := constant_step now event next taken
  exact ⟨constant.1.trans same.1, constant.2.trans same.2⟩

theorem limited_exec (start stop : K) (before : Nat) (events : List (Event K)) (s s' : Account K)
    (sound : Sound s) (limited : Limited start before s) (last : s.bucket.last ≤ stop)
    (inside : ∀ event ∈ events, Within start stop event) (ran : exec step s events = some s') :
    Limited start before s' ∧ s'.bucket.last ≤ stop := by
  induction events generalizing s with
  | nil =>
    cases ran
    exact ⟨limited, last⟩
  | cons event rest ih =>
    rw [List.forall_mem_cons] at inside
    obtain ⟨next, taken, later⟩ := (exec_cons step s s' event rest).1 ran
    exact ih next (sound_step s event next sound taken)
      (limited_step start stop before s event next sound limited inside.1 taken)
      (last_step start stop s event next sound last inside.1 taken) inside.2 later

/-- Over an interval at most the capacity is kept, and what flows in. -/
theorem kept_bounded (start stop : K) (events : List (Event K)) (s s' : Account K) (sound : Sound s)
    (early : s.bucket.last ≤ start) (ordered : start ≤ stop)
    (inside : ∀ event ∈ events, Within start stop event) (ran : exec step s events = some s') :
    ((s'.kept.sum : Nat) : K) ≤
      (s.kept.sum : Nat) + s.bucket.capacity + s.bucket.rate * (stop - start) := by
  have sound' := sound_exec events s s' sound ran
  have constant := constant_exec events s s' ran
  obtain ⟨limited, last⟩ := limited_exec start stop s.kept.sum events s s' sound
    (limited_start s start sound early) (early.trans ordered) inside ran
  have nonneg := (s'.bucket.refill_level (max s'.bucket.last start) sound'.level).nonneg
  have elapsed : max s'.bucket.last start - start ≤ stop - start :=
    sub_le_sub_right (max_le last ordered) start
  have inflow := mul_le_mul_of_nonneg_left elapsed sound.flowing.le
  rw [Limited, constant.1, constant.2, holdings] at limited
  linarith

end Seedchamp.Foundation.TokenBucket
