import DocInsight.Gateway.RateLimit
import Mathlib.Algebra.Order.Floor.Ring

/-! What a denied caller is told to wait: whole seconds after which the bucket has a token,
and one second less is too early, also where the key expires in the meantime. -/
namespace DocInsight.Gateway

namespace RedisRateLimiter
variable (limiter : RedisRateLimiter) {state : Option Bucket} {now : ℚ}

theorem bucket_allowed : (limiter.bucket state now).1.allowed = true ↔
    1 ≤ limiter.refilled state now := by
  by_cases hTokens : 1 ≤ limiter.refilled state now
  · simp [bucket, hTokens]
  · simp [bucket, hTokens]

theorem bucket_denied : (limiter.bucket state now).1.allowed = false ↔
    limiter.refilled state now < 1 := by
  rw [← not_le, ← bucket_allowed, Bool.not_eq_true]

/-- The time that a denied caller still has to wait for a token, in exact seconds. -/
def wait (state : Option Bucket) (now : ℚ) : ℚ := (1 - limiter.refilled state now) / limiter.rps

theorem bucket_retryAfter (h : (limiter.bucket state now).1.allowed = false) :
    (limiter.bucket state now).1.retryAfter = ⌈limiter.wait state now⌉ := by
  have hTokens : ¬1 ≤ limiter.refilled state now := not_le.mpr (limiter.bucket_denied.mp h)
  simp [bucket, hTokens, wait]

theorem wait_pos (h : (limiter.bucket state now).1.allowed = false) : 0 < limiter.wait state now :=
  div_pos (sub_pos.mpr (limiter.bucket_denied.mp h)) limiter.rps_gt

/-- What is refilled after a denial is a token exactly from the end of the wait on. -/
theorem allowed_after_denial (h : (limiter.bucket state now).1.allowed = false) {later : ℚ}
    (hUpdated : (limiter.bucket state now).2.updated = now) (hLater : now ≤ later) :
    (limiter.bucket (some (limiter.bucket state now).2) later).1.allowed = true ↔
      now + limiter.wait state now ≤ later := by
  have hTokens := limiter.bucket_tokens state now
  rw [h] at hTokens
  simp only [Bool.false_eq_true, if_false, add_zero] at hTokens
  have hWait : now + limiter.wait state now ≤ later ↔
      1 - limiter.refilled state now ≤ (later - now) * limiter.rps := by
    rw [← div_le_iff₀ limiter.rps_gt, wait]
    constructor
    · intro hLe
      linarith
    · intro hLe
      linarith
  rw [bucket_allowed, limiter.refilled_some (hUpdated.trans_le hLater), hTokens, hUpdated, hWait,
    le_min_iff, mul_comm]
  constructor
  · rintro ⟨-, hRefill⟩
    linarith
  · intro hRefill
    exact ⟨limiter.burst_ge, by linarith⟩

/-- A full bucket is as far away as a token, or further. -/
theorem wait_le_fill (hTokens : 0 ≤ limiter.refilled state now) :
    limiter.wait state now ≤ limiter.burst / limiter.rps := by
  apply div_le_div_of_nonneg_right _ limiter.rps_gt.le
  have := limiter.burst_ge
  linarith

end RedisRateLimiter

namespace RateSession
variable {sha256 : String → String} {limiter : RedisRateLimiter}

/-- No call among actions meets the bucket of an identity. -/
def Undisturbed (sha256 : String → String) (identity : Identity) (actions : List RateAction) :
    Prop :=
  ∀ other now, RateAction.consume other now ∈ actions →
    RedisRateLimiter.bucketKey sha256 other ≠ RedisRateLimiter.bucketKey sha256 identity

/-- A bucket is as it was left, or its key has expired when it was due. -/
def LeftAlone (key : String) (left : Bucket) (session : RateSession) : Prop :=
  session.buckets key = some left ∨
    session.buckets key = none ∧ left.deadline ≤ session.clock

theorem step_clock_le {session next : RateSession} {action : RateAction}
    (h : step sha256 limiter session action = some next) : session.clock ≤ next.clock := by
  cases action with
  | consume identity now =>
      simp only [step] at h
      split_ifs at h with hClock
      cases h
      exact hClock
  | expire key now =>
      simp only [step] at h
      cases hStored : session.buckets key with
      | none => simp [hStored] at h
      | some bucket =>
          simp only [hStored] at h
          split_ifs at h with hDue
          cases h
          exact hDue.1

/-- A step that does not meet a bucket leaves it alone, except that its key may expire. -/
theorem LeftAlone.step {key : String} {left : Bucket} {session next : RateSession}
    {action : RateAction} (alone : LeftAlone key left session)
    (hOther : ∀ other now, action = .consume other now →
      RedisRateLimiter.bucketKey sha256 other ≠ key)
    (h : RateSession.step sha256 limiter session action = some next) :
    LeftAlone key left next := by
  have hClock := step_clock_le h
  cases action with
  | consume other now =>
      have hKey := hOther other now rfl
      simp only [RateSession.step] at h
      split_ifs at h
      cases h
      simp only [LeftAlone, Function.update_of_ne hKey.symm]
      rcases alone with hStored | ⟨hGone, hDue⟩
      · exact Or.inl hStored
      · exact Or.inr ⟨hGone, hDue.trans hClock⟩
  | expire expired now =>
      simp only [RateSession.step] at h
      cases hStored : session.buckets expired with
      | none => simp [hStored] at h
      | some bucket =>
          simp only [hStored] at h
          split_ifs at h with hDue
          cases h
          by_cases hKey : key = expired
          · subst hKey
            rcases alone with hLeft | ⟨hGone, -⟩
            · rw [hStored] at hLeft
              cases hLeft
              exact Or.inr ⟨Function.update_self _ _ _, hDue.2⟩
            · rw [hStored] at hGone
              cases hGone
          · simp only [LeftAlone, Function.update_of_ne hKey]
            rcases alone with hLeft | ⟨hGone, hPassed⟩
            · exact Or.inl hLeft
            · exact Or.inr ⟨hGone, hPassed.trans hClock⟩

theorem LeftAlone.run {key : String} {left : Bucket} {actions : List RateAction}
    {session final : RateSession} (alone : LeftAlone key left session)
    (hOther : ∀ other now, RateAction.consume other now ∈ actions →
      RedisRateLimiter.bucketKey sha256 other ≠ key)
    (h : Transition.run (RateSession.step sha256 limiter) actions session = some final) :
    LeftAlone key left final ∧ session.clock ≤ final.clock := by
  induction actions generalizing session with
  | nil =>
      cases h
      exact ⟨alone, le_rfl⟩
  | cons action rest ih =>
      obtain ⟨next, hStep, hRest⟩ := (Transition.run_cons_eq_some _).mp h
      have hNext := alone.step
        (fun other now hAction => hOther other now (hAction ▸ List.mem_cons_self ..)) hStep
      obtain ⟨hFinal, hClock⟩ := ih hNext
        (fun other now hMem => hOther other now (List.mem_cons_of_mem _ hMem)) hRest
      exact ⟨hFinal, (step_clock_le hStep).trans hClock⟩

/-- At every rate and burst, a denied caller is told to wait at least a second. Where no
other call meets its bucket, it is let in from the end of that wait on, and it is denied
as long as a second is left of it, whether or not the key has expired. -/
theorem retryAfter_tight (sha256 : String → String) (limiter : RedisRateLimiter) (clock : ℚ)
    (actions : List RateAction) (session : RateSession)
    (hRun : Transition.run (step sha256 limiter) actions { clock } = some session)
    (identity : Identity) (start : ℚ) (hStart : session.clock ≤ start)
    (hDenied : (limiter.bucket (session.buckets
      (RedisRateLimiter.bucketKey sha256 identity)) start).1.allowed = false) :
    let key := RedisRateLimiter.bucketKey sha256 identity
    let retry := (limiter.bucket (session.buckets key) start).1.retryAfter
    1 ≤ retry ∧
    ∀ (denied : RateSession) (between : List RateAction) (final : RateSession) (now : ℚ),
      step sha256 limiter session (.consume identity start) = some denied →
      Transition.run (step sha256 limiter) between denied = some final →
      Undisturbed sha256 identity between → final.clock ≤ now →
      (start + retry ≤ now → (limiter.bucket (final.buckets key) now).1.allowed = true) ∧
      (now ≤ start + retry - 1 → (limiter.bucket (final.buckets key) now).1.allowed = false) := by
  intro key retry
  have inv : Invariant sha256 limiter session :=
    Transition.run_invariant (step sha256 limiter) (fun _ _ _ inv hStep => step_invariant inv hStep)
      (start_invariant sha256 limiter clock) hRun
  have hRetry : retry = ⌈limiter.wait (session.buckets key) start⌉ :=
    limiter.bucket_retryAfter hDenied
  have hWaited : limiter.wait (session.buckets key) start ≤ retry := hRetry ▸ Int.le_ceil _
  have hEarly : (retry : ℚ) - 1 < limiter.wait (session.buckets key) start := by
    have := Int.ceil_lt_add_one (limiter.wait (session.buckets key) start)
    rw [← hRetry] at this
    linarith
  refine ⟨?_, ?_⟩
  · rw [hRetry]
    exact Int.one_le_ceil_iff.mpr (limiter.wait_pos hDenied)
  · intro denied between final now hStep hBetween undisturbed hNow
    simp only [step, if_pos hStart, Option.some.injEq] at hStep
    have hAlone : LeftAlone key (limiter.bucket (session.buckets key) start).2 denied := by
      rw [← hStep]
      exact Or.inl (Function.update_self _ _ _)
    obtain ⟨hFinal, hClock⟩ := hAlone.run undisturbed hBetween
    have hLater : start ≤ now := by
      rw [← hStep] at hClock
      exact hClock.trans hNow
    have hAllowed : (limiter.bucket (final.buckets key) now).1.allowed = true ↔
        start + limiter.wait (session.buckets key) start ≤ now := by
      rcases hFinal with hStored | ⟨hGone, hDue⟩
      · rw [hStored]
        apply limiter.allowed_after_denial hDenied _ hLater
        rw [limiter.bucket_updated]
        cases hBefore : session.buckets key with
        | none => exact max_self start
        | some before => exact max_eq_right ((inv.updated_le hBefore).trans hStart)
      · -- the key lives as long as an empty bucket takes to fill, so the wait is over
        rw [hGone, RedisRateLimiter.bucket_allowed, RedisRateLimiter.refilled_none]
        have hFill := limiter.wait_le_fill (inv.refilled_nonneg key hStart)
        have hLife := limiter.bucket_deadline (session.buckets key) start
        have hOver : start + limiter.wait (session.buckets key) start ≤ now := by linarith
        exact iff_of_true limiter.burst_ge hOver
    constructor
    · intro hWait
      exact hAllowed.mpr (by linarith)
    · intro hTooEarly
      rw [← Bool.not_eq_true, hAllowed]
      linarith

/-- A bucket of two, emptied at the start, denies for a second at a rate of two; its key
expires in the meantime. -/
theorem retryAfter_tight_emptied :
    let limiter : RedisRateLimiter := ⟨2, 2, by decide, by decide⟩
    let key := RedisRateLimiter.bucketKey id alice
    ∃ session denied final,
      Transition.run (step id limiter) [.consume alice 0, .consume alice 0] { clock := 0 } =
        some session ∧
      step id limiter session (.consume alice (1 / 4)) = some denied ∧
      Transition.run (step id limiter) [.expire key (5 / 4)] denied = some final ∧
      (limiter.bucket (session.buckets key) (1 / 4)).1.retryAfter = 1 ∧
      (limiter.bucket (final.buckets key) (5 / 4)).1.allowed = true := by
  intro limiter key
  have hSteps : ((Transition.run (step id limiter) [.consume alice 0, .consume alice 0]
      { clock := 0 }).bind fun session =>
        (step id limiter session (.consume alice (1 / 4))).bind fun denied =>
          (Transition.run (step id limiter) [.expire key (5 / 4)] denied).map fun final =>
            ((limiter.bucket (session.buckets key) (1 / 4)).1, session.clock, final.clock)) =
      some (⟨false, 0, 1⟩, 0, 5 / 4) := by
    decide +kernel
  obtain ⟨session, hSession, hRest⟩ := Option.bind_eq_some_iff.mp hSteps
  obtain ⟨denied, hConsumed, hLater⟩ := Option.bind_eq_some_iff.mp hRest
  obtain ⟨final, hFinal, hSame⟩ := Option.map_eq_some_iff.mp hLater
  simp only [Prod.mk.injEq] at hSame
  obtain ⟨hDecision, hStart, hEnd⟩ := hSame
  have hWait : (limiter.bucket (session.buckets key) (1 / 4)).1.retryAfter = 1 := by
    rw [hDecision]
  have hTight := (retryAfter_tight id limiter 0 _ session hSession alice (1 / 4)
    (by rw [hStart]; norm_num) (by rw [hDecision])).2 denied _ final (5 / 4) hConsumed hFinal
    (fun other now hMem => by simp at hMem) hEnd.le
  refine ⟨session, denied, final, hSession, hConsumed, hFinal, hWait, hTight.1 ?_⟩
  rw [hWait]
  norm_num

end RateSession

end DocInsight.Gateway
