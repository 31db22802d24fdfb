import DocInsight.Contracts.Streams
import DocInsight.Library.Admission
import DocInsight.Library.Transition
import Mathlib.Data.Rat.Floor

/-! The token bucket that gateway processes share in Redis: what the script decides and
stores, and how much it admits over any window. Numbers are exact. -/
namespace DocInsight.Gateway

open DocInsight.Contracts Admission

/-- `[\x21-\x7e]{1,256}` -/
def validUser (value : String) : Bool :=
  0 < value.length && value.length ≤ 256 &&
    value.toList.all fun character => 0x21 ≤ character.toNat && character.toNat ≤ 0x7e

/-- An authenticated caller. -/
@[ext]
structure Identity where
  tenant : String
  user : String
  valid_tenant : validTenant tenant = true
  valid_user : validUser user = true

instance : DecidableEq Identity :=
  fun _ _ => decidable_of_iff _ Identity.ext_iff.symm

structure RateDecision where
  allowed : Bool
  remaining : Int
  retryAfter : Int
  deriving DecidableEq, Repr

/-- A limiter's two numbers, as the gateway settings validate them. -/
structure RedisRateLimiter where
  rps : ℚ
  burst : ℚ
  rps_gt : 0 < rps
  burst_ge : 1 ≤ burst

/-- The hash that the script keeps under one key, and when the key expires. -/
structure Bucket where
  tokens : ℚ
  updated : ℚ
  deadline : ℚ
  deriving DecidableEq, Repr

namespace RedisRateLimiter

/-- The tokens at a time, from what is stored under the key. -/
def refilled (limiter : RedisRateLimiter) (state : Option Bucket) (now : ℚ) : ℚ :=
  let tokens := (state.map (·.tokens)).getD limiter.burst
  let updated := (state.map (·.updated)).getD now
  min limiter.burst (tokens + max 0 (now - updated) * limiter.rps)

/-- `BUCKET`, which Redis runs atomically on one key at its own time. -/
def bucket (limiter : RedisRateLimiter) (state : Option Bucket) (now : ℚ) :
    RateDecision × Bucket :=
  let tokens := limiter.refilled state now
  let updated := (state.map (·.updated)).getD now
  let deadline := now + (max 1 ⌈limiter.burst / limiter.rps * 1000⌉ : ℤ) / 1000
  if 1 ≤ tokens then
    (⟨true, ⌊tokens - 1⌋, 0⟩, ⟨tokens - 1, max updated now, deadline⟩)
  else
    (⟨false, ⌊tokens⌋, ⌈(1 - tokens) / limiter.rps⌉⟩, ⟨tokens, max updated now, deadline⟩)

/-- `sha256(….encode()).hexdigest()` is a function of the text. -/
def bucketKey (sha256 : String → String) (identity : Identity) : String :=
  "di:rate:" ++ sha256 (identity.tenant ++ "\x00" ++ identity.user)

variable (limiter : RedisRateLimiter)

/-- An admitted call takes one token, and any other call none. -/
theorem bucket_tokens (state : Option Bucket) (now : ℚ) :
    (limiter.bucket state now).2.tokens +
        (if (limiter.bucket state now).1.allowed then 1 else 0) = limiter.refilled state now := by
  by_cases hTokens : 1 ≤ limiter.refilled state now <;> simp [bucket, hTokens]

theorem bucket_tokens_nonneg {state : Option Bucket} {now : ℚ}
    (h : 0 ≤ limiter.refilled state now) : 0 ≤ (limiter.bucket state now).2.tokens := by
  by_cases hTokens : 1 ≤ limiter.refilled state now <;> simp [bucket, hTokens, h]

theorem bucket_updated (state : Option Bucket) (now : ℚ) :
    (limiter.bucket state now).2.updated = max ((state.map (·.updated)).getD now) now := by
  by_cases hTokens : 1 ≤ limiter.refilled state now <;> simp [bucket, hTokens]

/-- A key lives long enough for an empty bucket to fill up: its milliseconds are rounded up. -/
theorem bucket_deadline (state : Option Bucket) (now : ℚ) :
    now + limiter.burst / limiter.rps ≤ (limiter.bucket state now).2.deadline := by
  have hCeil : limiter.burst / limiter.rps * 1000 ≤
      ((max 1 ⌈limiter.burst / limiter.rps * 1000⌉ : ℤ) : ℚ) :=
    (Int.le_ceil _).trans (by exact_mod_cast le_max_right _ _)
  have hDeadline : (limiter.bucket state now).2.deadline =
      now + (max 1 ⌈limiter.burst / limiter.rps * 1000⌉ : ℤ) / 1000 := by
    by_cases hTokens : 1 ≤ limiter.refilled state now <;> simp [bucket, hTokens]
  rw [hDeadline]
  have hSeconds := (le_div_iff₀ (by norm_num : (0 : ℚ) < 1000)).mpr hCeil
  linarith

theorem refilled_le (state : Option Bucket) (now : ℚ) :
    limiter.refilled state now ≤ limiter.burst := min_le_left _ _

@[simp] theorem refilled_none (now : ℚ) : limiter.refilled none now = limiter.burst := by
  simp [refilled]

theorem refilled_some {stored : Bucket} {now : ℚ} (hUpdated : stored.updated ≤ now) :
    limiter.refilled (some stored) now =
      min limiter.burst (stored.tokens + limiter.rps * (now - stored.updated)) := by
  simp [refilled, max_eq_right (sub_nonneg.mpr hUpdated), mul_comm]

/-- As long as an empty bucket takes to fill up, the refill gives a full burst. -/
theorem burst_le_refill {updated now : ℚ} (h : updated + limiter.burst / limiter.rps ≤ now) :
    limiter.burst ≤ limiter.rps * (now - updated) := by
  have hIdle : limiter.burst / limiter.rps ≤ now - updated := by linarith
  rw [mul_comm]
  exact (div_le_iff₀ limiter.rps_gt).mp hIdle

/-- A bucket whose key is due decides and stores what a new one does. -/
theorem bucket_due {stored : Bucket} {now : ℚ} (hTokens : 0 ≤ stored.tokens)
    (hUpdated : stored.updated ≤ now)
    (hDue : stored.updated + limiter.burst / limiter.rps ≤ now) :
    limiter.bucket (some stored) now = limiter.bucket none now := by
  have hFull : limiter.refilled (some stored) now = limiter.refilled none now := by
    rw [limiter.refilled_some hUpdated, refilled_none]
    exact min_eq_left (by linarith [limiter.burst_le_refill hDue])
  simp [bucket, hFull, hUpdated]

end RedisRateLimiter

/-- One finished call: who consumed when, and what the script left under the key. -/
structure Consumed where
  identity : Identity
  now : ℚ
  decision : RateDecision
  left : Bucket

/-- Redis: the buckets by key, the latest server time, and the finished calls, the most
recent first. -/
structure RateSession where
  buckets : String → Option Bucket := fun _ => none
  clock : ℚ
  log : List Consumed := []

/-- A call, or the expiry of a key, at a server time. -/
inductive RateAction where
  | consume (identity : Identity) (now : ℚ)
  | expire (key : String) (now : ℚ)

namespace RateSession

variable {sha256 : String → String} {limiter : RedisRateLimiter}

/-- Server times do not go back, and a key expires only from its deadline on. -/
def step (sha256 : String → String) (limiter : RedisRateLimiter) (session : RateSession) :
    RateAction → Option RateSession
  | .consume identity now =>
      if session.clock ≤ now then
        let key := RedisRateLimiter.bucketKey sha256 identity
        let result := limiter.bucket (session.buckets key) now
        some
          { buckets := Function.update session.buckets key (some result.2)
            clock := now
            log := ⟨identity, now, result.1, result.2⟩ :: session.log }
      else none
  | .expire key now =>
      match session.buckets key with
      | some bucket =>
          if session.clock ≤ now ∧ bucket.deadline ≤ now then
            some { session with buckets := Function.update session.buckets key none, clock := now }
          else none
      | none => none

/-- A finished call as an attempt on its bucket. -/
def attempt (consumed : Consumed) : Attempt :=
  ⟨consumed.now, consumed.decision.allowed, consumed.left.tokens⟩

/-- The calls that met one key. -/
def attempts (sha256 : String → String) (key : String) (log : List Consumed) : List Attempt :=
  (log.filter fun consumed =>
    RedisRateLimiter.bucketKey sha256 consumed.identity = key).map attempt

/-- The decisions that let an identity pass in a window. -/
def allowed (identity : Identity) (start stop : ℚ) (log : List Consumed) : List Consumed :=
  log.filter fun consumed => consumed.identity = identity && consumed.decision.allowed &&
    decide (start ≤ consumed.now) && decide (consumed.now ≤ stop)

/-- Every key's calls are metered. What is stored is what the latest of them left, and
where nothing is stored the bucket would have refilled in the meantime. -/
structure Invariant (sha256 : String → String) (limiter : RedisRateLimiter)
    (session : RateSession) : Prop where
  metered : ∀ key, Metered limiter.rps limiter.burst (attempts sha256 key session.log)
  stored : ∀ key bucket, session.buckets key = some bucket →
    ∃ last ∈ (attempts sha256 key session.log).head?,
      bucket.tokens = last.left ∧ bucket.updated = last.time ∧
        last.time + limiter.burst / limiter.rps ≤ bucket.deadline
  absent : ∀ key, session.buckets key = none →
    ∀ last ∈ (attempts sha256 key session.log).head?,
      last.time + limiter.burst / limiter.rps ≤ session.clock
  clock : ∀ key, ∀ last ∈ (attempts sha256 key session.log).head?, last.time ≤ session.clock

theorem attempts_cons (sha256 : String → String) (key : String) (consumed : Consumed)
    (log : List Consumed) : attempts sha256 key (consumed :: log) =
      if RedisRateLimiter.bucketKey sha256 consumed.identity = key then
        attempt consumed :: attempts sha256 key log
      else attempts sha256 key log := by
  by_cases hKey : RedisRateLimiter.bucketKey sha256 consumed.identity = key <;>
    simp [attempts, hKey]

/-- What is stored was left by a metered attempt. -/
theorem Invariant.tokens {session : RateSession} (inv : Invariant sha256 limiter session)
    {key : String} {bucket : Bucket} (h : session.buckets key = some bucket) :
    0 ≤ bucket.tokens ∧ bucket.tokens ≤ limiter.burst := by
  obtain ⟨last, hLast, hTokens, _⟩ := inv.stored key bucket h
  have hMem := List.mem_of_mem_head? hLast
  have hLevel := (inv.metered key).level_le last hMem
  have hCost : 0 ≤ last.cost := by
    unfold Attempt.cost
    split_ifs <;> norm_num
  rw [hTokens]
  refine ⟨(inv.metered key).left_nonneg last hMem, ?_⟩
  unfold Attempt.level at hLevel
  linarith

theorem Invariant.updated_le {session : RateSession} (inv : Invariant sha256 limiter session)
    {key : String} {bucket : Bucket} (h : session.buckets key = some bucket) :
    bucket.updated ≤ session.clock := by
  obtain ⟨last, hLast, _, hUpdated, _⟩ := inv.stored key bucket h
  exact hUpdated ▸ inv.clock key last hLast

/-- Whether or not its key expired, a bucket meets no more than continuous refill gives. -/
theorem Invariant.refills {session : RateSession} (inv : Invariant sha256 limiter session)
    {identity : Identity} {now : ℚ} (hClock : session.clock ≤ now) :
    let key := RedisRateLimiter.bucketKey sha256 identity
    let result := limiter.bucket (session.buckets key) now
    ∀ last ∈ (attempts sha256 key session.log).head?,
      Refills limiter.rps (attempt ⟨identity, now, result.1, result.2⟩) last := by
  intro key result last hLast
  refine ⟨(inv.clock key last hLast).trans hClock, ?_⟩
  have hLevel : (attempt ⟨identity, now, result.1, result.2⟩).level =
      limiter.refilled (session.buckets key) now := limiter.bucket_tokens _ now
  rw [hLevel]
  cases hStored : session.buckets key with
  | none =>
      have hIdle := (inv.absent key hStored last hLast).trans hClock
      have hFull := limiter.burst_le_refill hIdle
      have hLeft := (inv.metered key).left_nonneg last (List.mem_of_mem_head? hLast)
      rw [RedisRateLimiter.refilled_none]
      show limiter.burst ≤ last.left + limiter.rps * (now - last.time)
      linarith
  | some bucket =>
      obtain ⟨other, hOther, hTokens, hUpdated, _⟩ := inv.stored key bucket hStored
      cases Option.mem_unique hLast hOther
      have hBefore := (inv.updated_le hStored).trans hClock
      rw [limiter.refilled_some hBefore, hTokens, hUpdated]
      exact min_le_right _ _

theorem Invariant.refilled_nonneg {session : RateSession}
    (inv : Invariant sha256 limiter session) (key : String) {now : ℚ}
    (hClock : session.clock ≤ now) : 0 ≤ limiter.refilled (session.buckets key) now := by
  have hBurst : 0 ≤ limiter.burst := zero_le_one.trans limiter.burst_ge
  cases hStored : session.buckets key with
  | none => simpa using hBurst
  | some bucket =>
      have hBefore := (inv.updated_le hStored).trans hClock
      rw [limiter.refilled_some hBefore]
      exact le_min hBurst (add_nonneg (inv.tokens hStored).1
        (mul_nonneg limiter.rps_gt.le (sub_nonneg.mpr hBefore)))

theorem consume_invariant {session : RateSession} (inv : Invariant sha256 limiter session)
    {identity : Identity} {now : ℚ} (hClock : session.clock ≤ now) :
    let key := RedisRateLimiter.bucketKey sha256 identity
    let result := limiter.bucket (session.buckets key) now
    Invariant sha256 limiter
      { buckets := Function.update session.buckets key (some result.2)
        clock := now
        log := ⟨identity, now, result.1, result.2⟩ :: session.log } := by
  intro key result
  have hOwn (log : List Consumed) (consumed : Consumed) (h : consumed.identity = identity) :
      attempts sha256 key (consumed :: log) = attempt consumed :: attempts sha256 key log := by
    rw [attempts_cons, h, if_pos rfl]
  have hOther (log : List Consumed) (consumed : Consumed) (h : consumed.identity = identity)
      {other : String} (hKey : other ≠ key) :
      attempts sha256 other (consumed :: log) = attempts sha256 other log := by
    rw [attempts_cons, h, if_neg (Ne.symm hKey)]
  constructor
  · intro other
    by_cases hKey : other = key
    · subst hKey
      rw [hOwn _ _ rfl]
      refine (inv.metered _).cons (inv.refills hClock) ?_ ?_
      · show result.2.tokens + (if result.1.allowed then 1 else 0) ≤ limiter.burst
        rw [limiter.bucket_tokens]
        exact limiter.refilled_le _ now
      · exact limiter.bucket_tokens_nonneg (inv.refilled_nonneg _ hClock)
    · rw [hOther _ _ rfl hKey]
      exact inv.metered other
  · intro other bucket hStored
    by_cases hKey : other = key
    · subst hKey
      simp only [Function.update_self, Option.some.injEq] at hStored
      rw [hOwn _ _ rfl]
      refine ⟨_, rfl, hStored ▸ rfl, ?_, ?_⟩
      · rw [← hStored, limiter.bucket_updated]
        cases hBefore : session.buckets key with
        | none => exact max_self now
        | some before => exact max_eq_right ((inv.updated_le hBefore).trans hClock)
      · rw [← hStored]
        exact limiter.bucket_deadline _ now
    · rw [hOther _ _ rfl hKey]
      exact inv.stored other bucket (by simpa [hKey] using hStored)
  · intro other hAbsent last hLast
    by_cases hKey : other = key
    · simp [hKey] at hAbsent
    · rw [hOther _ _ rfl hKey] at hLast
      exact (inv.absent other (by simpa [hKey] using hAbsent) last hLast).trans hClock
  · intro other last hLast
    by_cases hKey : other = key
    · subst hKey
      rw [hOwn _ _ rfl] at hLast
      cases hLast
      exact le_refl now
    · rw [hOther _ _ rfl hKey] at hLast
      exact (inv.clock other last hLast).trans hClock

theorem expire_invariant {session : RateSession} (inv : Invariant sha256 limiter session)
    {key : String} {bucket : Bucket} {now : ℚ} (hStored : session.buckets key = some bucket)
    (hClock : session.clock ≤ now) (hDue : bucket.deadline ≤ now) :
    Invariant sha256 limiter
      { session with buckets := Function.update session.buckets key none, clock := now } := by
  constructor
  · exact inv.metered
  · intro other found hFound
    by_cases hKey : other = key
    · simp [hKey] at hFound
    · exact inv.stored other found (by simpa [hKey] using hFound)
  · intro other hAbsent last hLast
    by_cases hKey : other = key
    · subst hKey
      obtain ⟨found, hFound, _, _, hLife⟩ := inv.stored other bucket hStored
      cases Option.mem_unique hLast hFound
      exact hLife.trans hDue
    · exact (inv.absent other (by simpa [hKey] using hAbsent) last hLast).trans hClock
  · intro other last hLast
    exact (inv.clock other last hLast).trans hClock

theorem step_invariant {session next : RateSession} {action : RateAction}
    (inv : Invariant sha256 limiter session)
    (h : step sha256 limiter session action = some next) : Invariant sha256 limiter next := by
  cases action with
  | consume identity now =>
      simp only [step] at h
      split_ifs at h with hClock
      cases h
      exact consume_invariant inv hClock
  | expire key now =>
      simp only [step] at h
      cases hStored : session.buckets key with
      | none => simp [hStored] at h
      | some bucket =>
          simp only [hStored] at h
          split_ifs at h with hDue
          cases h
          exact expire_invariant inv hStored hDue.1 hDue.2

theorem start_invariant (sha256 : String → String) (limiter : RedisRateLimiter) (clock : ℚ) :
    Invariant sha256 limiter { clock := clock } where
  metered _ := Metered.nil _ _
  stored _ _ h := by cases h
  absent _ _ := by simp [attempts]
  clock _ := by simp [attempts]

/-- An identity's admissions are admissions of its bucket. -/
theorem allowed_length_le (sha256 : String → String) (identity : Identity) (start stop : ℚ)
    (log : List Consumed) :
    (allowed identity start stop log).length ≤
      (admittedWithin start stop
        (attempts sha256 (RedisRateLimiter.bucketKey sha256 identity) log)).length := by
  rw [admittedWithin, admittedSince, attempts, List.filter_map, List.filter_map,
    List.length_map, List.filter_filter, List.filter_filter]
  refine (List.monotone_filter_right log ?_).length_le
  intro consumed hAllowed
  simp only [Bool.and_eq_true, decide_eq_true_eq] at hAllowed
  obtain ⟨⟨⟨hIdentity, hDecision⟩, hStart⟩, hStop⟩ := hAllowed
  simp [attempt, hIdentity, hDecision, hStart, hStop]

/-- At every rate and burst, for calls of any identities at times that do not go back and
with keys that may expire once due: stored tokens stay within the burst, an identity's
admissions over a window stay within one burst and the window's refill, and a bucket
whose key is due decides and stores what a new one does. -/
theorem admission_bound (sha256 : String → String) (limiter : RedisRateLimiter) (clock : ℚ)
    (actions : List RateAction) (session : RateSession)
    (h : Transition.run (step sha256 limiter) actions { clock := clock } = some session) :
    (∀ key bucket, session.buckets key = some bucket →
      0 ≤ bucket.tokens ∧ bucket.tokens ≤ limiter.burst) ∧
    (∀ identity start stop, start ≤ stop →
      ((allowed identity start stop session.log).length : ℚ) ≤
        limiter.burst + limiter.rps * (stop - start)) ∧
    (∀ key bucket now, session.buckets key = some bucket → session.clock ≤ now →
      bucket.deadline ≤ now → limiter.bucket (some bucket) now = limiter.bucket none now) := by
  have inv : Invariant sha256 limiter session :=
    Transition.run_invariant (step sha256 limiter) (fun _ _ _ inv hStep => step_invariant inv hStep)
      (start_invariant sha256 limiter clock) h
  refine ⟨fun key bucket hStored => inv.tokens hStored, ?_, ?_⟩
  · intro identity start stop hWindow
    have hBurst : 0 ≤ limiter.burst := zero_le_one.trans limiter.burst_ge
    calc
      ((allowed identity start stop session.log).length : ℚ) ≤
          (admittedWithin start stop (attempts sha256
            (RedisRateLimiter.bucketKey sha256 identity) session.log)).length := by
        exact_mod_cast allowed_length_le sha256 identity start stop session.log
      _ ≤ limiter.burst + limiter.rps * (stop - start) :=
        (inv.metered _).within_le limiter.rps_gt.le hBurst hWindow
  · intro key bucket now hStored hClock hDue
    obtain ⟨last, _, _, hUpdated, hLife⟩ := inv.stored key bucket hStored
    refine limiter.bucket_due (inv.tokens hStored).1 ((inv.updated_le hStored).trans hClock) ?_
    rw [hUpdated]
    exact hLife.trans hDue

def alice : Identity := ⟨"demo", "alice", by decide, by decide⟩

/-- Two calls empty a bucket of two, a third is denied, and the key expires and is recreated. -/
def emptied : List RateAction :=
  [.consume alice 0, .consume alice 0, .consume alice (1 / 4),
   .expire (RedisRateLimiter.bucketKey id alice) (5 / 4), .consume alice (5 / 4)]

theorem admission_bound_emptied :
    ∃ session, Transition.run (step id ⟨2, 2, by decide, by decide⟩) emptied { clock := 0 } =
        some session ∧
      (allowed alice 0 (5 / 4) session.log).length = 3 ∧
      ((allowed alice 0 (5 / 4) session.log).length : ℚ) ≤ 2 + 2 * (5 / 4 - 0) := by
  have hAllowed : (Transition.run (step id ⟨2, 2, by decide, by decide⟩) emptied
      { clock := 0 }).map (fun session => (allowed alice 0 (5 / 4) session.log).length) =
        some 3 := by
    decide +kernel
  obtain ⟨session, hRun, hCount⟩ := Option.map_eq_some_iff.mp hAllowed
  exact ⟨session, hRun, hCount,
    (admission_bound id ⟨2, 2, by decide, by decide⟩ 0 emptied session hRun).2.1 alice 0 (5 / 4)
      (by norm_num)⟩

end RateSession

end DocInsight.Gateway
