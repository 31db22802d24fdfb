import DocInsight.Gateway.RateLimit
import DocInsight.Library.Simulation

/-! The rate limiter that offline tests use in place of the one in Redis. It keeps every
bucket for ever, where Redis forgets a bucket that has had time to fill up. -/
namespace DocInsight.Testing

open DocInsight.Contracts DocInsight.Gateway Simulation

inductive BackendUnavailable where
  | backendUnavailable
  deriving DecidableEq, Repr

/-- The buckets by identity: tokens, and when they were counted. -/
structure FakeRateLimiter where
  rps : ℚ := 5
  burst : ℚ := 10
  buckets : Identity → Option (ℚ × ℚ) := fun _ => none
  available : Bool := true

namespace FakeRateLimiter

def consume (limiter : FakeRateLimiter) (identity : Identity) (now : ℚ) :
    Except BackendUnavailable RateDecision × FakeRateLimiter :=
  if !limiter.available then (.error .backendUnavailable, limiter)
  else
    let (tokens, updated) := (limiter.buckets identity).getD (limiter.burst, now)
    let tokens := min limiter.burst (tokens + max 0 (now - updated) * limiter.rps)
    let allowed := decide (1 ≤ tokens)
    let tokens := tokens - if allowed then 1 else 0
    (.ok ⟨allowed, ⌊tokens⌋, if allowed then 0 else ⌈(1 - tokens) / limiter.rps⌉⟩,
      { limiter with
        buckets := Function.update limiter.buckets identity (some (tokens, max updated now)) })

/-- The limiter as a component; a call is an identity and the time of the clock. -/
def component : Component FakeRateLimiter (Identity × ℚ)
    fun _ => Except BackendUnavailable RateDecision :=
  fun limiter (identity, now) => limiter.consume identity now

end FakeRateLimiter

/-- The calls among the actions on Redis. -/
def calls (actions : List RateAction) : List (Identity × ℚ) :=
  actions.filterMap fun
    | .consume identity now => some (identity, now)
    | .expire _ _ => none

/-- A finished call as an answer. -/
def answered (consumed : Consumed) :
    Σ _ : Identity × ℚ, Except BackendUnavailable RateDecision :=
  ⟨(consumed.identity, consumed.now), .ok consumed.decision⟩

section Stands
variable {limiter : RedisRateLimiter} {stored : Option Bucket} {known : Option (ℚ × ℚ)}
  {clock now : ℚ}

/-- What Redis has under a key stands for what is known of an identity: the same numbers, or
nothing where they would have filled up by now. -/
def Stands (limiter : RedisRateLimiter) (clock : ℚ) : Option Bucket → Option (ℚ × ℚ) → Prop
  | some bucket, some (tokens, updated) =>
      bucket.tokens = tokens ∧ bucket.updated = updated ∧ 0 ≤ tokens ∧ updated ≤ clock ∧
        updated + limiter.burst / limiter.rps ≤ bucket.deadline
  | some _, none => False
  | none, some (tokens, updated) =>
      0 ≤ tokens ∧ updated ≤ clock ∧ updated + limiter.burst / limiter.rps ≤ clock
  | none, none => True

/-- What is known of an identity, as a bucket that has no deadline of its own. -/
def asBucket (known : ℚ × ℚ) : Bucket := ⟨known.1, known.2, 0⟩

/-- The script looks at the refilled tokens and at the time of the last call only. -/
theorem bucket_congr {other : Option Bucket}
    (hTokens : limiter.refilled stored now = limiter.refilled other now)
    (hUpdated : (stored.map (·.updated)).getD now = (other.map (·.updated)).getD now) :
    limiter.bucket stored now = limiter.bucket other now := by
  simp only [RedisRateLimiter.bucket, hTokens, hUpdated]

/-- The script decides the same for what stands for one another. -/
theorem Stands.bucket_eq (stands : Stands limiter clock stored known) (hNow : clock ≤ now) :
    limiter.bucket stored now = limiter.bucket (known.map asBucket) now := by
  cases stored with
  | none =>
      cases known with
      | none => rfl
      | some known =>
          obtain ⟨hTokens, hUpdated, hFull⟩ := stands
          exact (limiter.bucket_due hTokens (hUpdated.trans hNow) (hFull.trans hNow)).symm
  | some bucket =>
      cases known with
      | none => exact stands.elim
      | some known =>
          obtain ⟨hTokens, hUpdated, -, -, -⟩ := stands
          apply bucket_congr
          · simp only [RedisRateLimiter.refilled, Option.map_some, asBucket, hTokens, hUpdated]
          · simp only [Option.map_some, asBucket, hUpdated]

theorem Stands.refilled_nonneg (stands : Stands limiter clock stored known) (hNow : clock ≤ now) :
    0 ≤ limiter.refilled stored now := by
  have hBurst : 0 ≤ limiter.burst := zero_le_one.trans limiter.burst_ge
  cases stored with
  | none =>
      rw [RedisRateLimiter.refilled_none]
      exact hBurst
  | some bucket =>
      cases known with
      | none => exact stands.elim
      | some known =>
          obtain ⟨hTokens, hUpdated, hNonneg, hBefore, -⟩ := stands
          rw [limiter.refilled_some (hUpdated.trans_le (hBefore.trans hNow))]
          apply le_min hBurst
          apply add_nonneg (hTokens ▸ hNonneg)
          apply mul_nonneg limiter.rps_gt.le
          exact sub_nonneg.mpr (hUpdated.trans_le (hBefore.trans hNow))

/-- What the script leaves stands for its own numbers. -/
theorem Stands.left (stands : Stands limiter clock stored known) (hNow : clock ≤ now) :
    Stands limiter now (some (limiter.bucket stored now).2)
      (some ((limiter.bucket stored now).2.tokens, (limiter.bucket stored now).2.updated)) := by
  have hUpdated : (limiter.bucket stored now).2.updated = now := by
    rw [limiter.bucket_updated]
    cases stored with
    | none => exact max_self now
    | some bucket =>
        cases known with
        | none => exact stands.elim
        | some known =>
            obtain ⟨-, hSame, -, hBefore, -⟩ := stands
            exact max_eq_right (hSame.trans_le (hBefore.trans hNow))
  refine ⟨rfl, rfl, ?_, hUpdated.le, ?_⟩
  · exact limiter.bucket_tokens_nonneg (stands.refilled_nonneg hNow)
  · rw [hUpdated]
    exact limiter.bucket_deadline stored now

theorem Stands.later (stands : Stands limiter clock stored known) (hNow : clock ≤ now) :
    Stands limiter now stored known := by
  cases stored with
  | none =>
      cases known with
      | none => trivial
      | some known =>
          obtain ⟨hTokens, hUpdated, hFull⟩ := stands
          exact ⟨hTokens, hUpdated.trans hNow, hFull.trans hNow⟩
  | some bucket =>
      cases known with
      | none => exact stands.elim
      | some known =>
          obtain ⟨hTokens, hUpdated, hNonneg, hBefore, hLife⟩ := stands
          exact ⟨hTokens, hUpdated, hNonneg, hBefore.trans hNow, hLife⟩

/-- A key that expires when it is due stands for the same numbers. -/
theorem Stands.expired {bucket : Bucket} (stands : Stands limiter clock (some bucket) known)
    (hNow : clock ≤ now) (hDue : bucket.deadline ≤ now) : Stands limiter now none known := by
  cases known with
  | none => exact stands.elim
  | some known =>
      obtain ⟨-, -, hNonneg, hBefore, hLife⟩ := stands
      exact ⟨hNonneg, hBefore.trans hNow, hLife.trans hDue⟩

end Stands

section Matches
variable {sha256 : String → String} {limiter : RedisRateLimiter} {met : Set Identity}
  {session next final : RateSession} {fake : FakeRateLimiter}

/-- The fake limiter has the numbers of the one in Redis, and for every identity that is
met Redis has what stands for what the fake one knows. -/
structure Matches (sha256 : String → String) (limiter : RedisRateLimiter) (met : Set Identity)
    (session : RateSession) (fake : FakeRateLimiter) : Prop where
  rps : fake.rps = limiter.rps
  burst : fake.burst = limiter.burst
  available : fake.available = true
  buckets : ∀ identity ∈ met, Stands limiter session.clock
    (session.buckets (RedisRateLimiter.bucketKey sha256 identity)) (fake.buckets identity)

/-- The fake limiter decides and keeps what the script does with the numbers it knows. -/
theorem consume_eq_bucket (hAvailable : fake.available = true) (hRps : fake.rps = limiter.rps)
    (hBurst : fake.burst = limiter.burst) (identity : Identity) (now : ℚ) :
    let result := limiter.bucket ((fake.buckets identity).map asBucket) now
    fake.consume identity now = (.ok result.1, { fake with
      buckets := Function.update fake.buckets identity
        (some (result.2.tokens, result.2.updated)) }) := by
  intro result
  have hKnown : min limiter.burst (((fake.buckets identity).getD (limiter.burst, now)).1 +
      max 0 (now - ((fake.buckets identity).getD (limiter.burst, now)).2) * limiter.rps) =
        limiter.refilled ((fake.buckets identity).map asBucket) now ∧
      ((fake.buckets identity).getD (limiter.burst, now)).2 =
        (((fake.buckets identity).map asBucket).map (·.updated)).getD now := by
    cases fake.buckets identity with
    | none => exact ⟨rfl, rfl⟩
    | some known => exact ⟨rfl, rfl⟩
  obtain ⟨hTokens, hUpdated⟩ := hKnown
  simp only [FakeRateLimiter.consume, hAvailable, hRps, hBurst, Bool.not_true, Bool.false_eq_true,
    if_false, result]
  rw [hTokens, hUpdated]
  by_cases hAllowed : 1 ≤ limiter.refilled ((fake.buckets identity).map asBucket) now
  · simp [RedisRateLimiter.bucket, hAllowed]
  · simp [RedisRateLimiter.bucket, hAllowed]

/-- A call on matching limiters is answered alike, and they match afterwards. -/
theorem Matches.consume {identity : Identity} {now : ℚ}
    (matched : Matches sha256 limiter met session fake)
    (hKeys : Set.InjOn (RedisRateLimiter.bucketKey sha256) met) (hMet : identity ∈ met)
    (h : session.step sha256 limiter (.consume identity now) = some next) :
    ∃ consumed, next.log = consumed :: session.log ∧
      ⟨(identity, now), (fake.consume identity now).1⟩ = answered consumed ∧
      Matches sha256 limiter met next (fake.consume identity now).2 := by
  simp only [RateSession.step] at h
  split_ifs at h with hClock
  cases h
  have stands := matched.buckets identity hMet
  rw [consume_eq_bucket matched.available matched.rps matched.burst identity now,
    ← stands.bucket_eq hClock]
  refine ⟨_, rfl, rfl, ⟨matched.rps, matched.burst, matched.available, ?_⟩⟩
  intro other hOther
  by_cases hSame : other = identity
  · subst hSame
    simp only [Function.update_self]
    exact stands.left hClock
  · have hKey : RedisRateLimiter.bucketKey sha256 other ≠
        RedisRateLimiter.bucketKey sha256 identity :=
      fun hKey => hSame (hKeys hOther hMet hKey)
    simp only [Function.update_of_ne hKey, Function.update_of_ne hSame]
    exact (matched.buckets other hOther).later hClock

/-- Where a key expires, the limiters still match. -/
theorem Matches.expire {key : String} {now : ℚ}
    (matched : Matches sha256 limiter met session fake)
    (h : session.step sha256 limiter (.expire key now) = some next) :
    next.log = session.log ∧ Matches sha256 limiter met next fake := by
  simp only [RateSession.step] at h
  cases hStored : session.buckets key with
  | none => simp [hStored] at h
  | some bucket =>
      simp only [hStored] at h
      split_ifs at h with hDue
      cases h
      refine ⟨rfl, matched.rps, matched.burst, matched.available, ?_⟩
      intro identity hMet
      have stands := matched.buckets identity hMet
      by_cases hKey : RedisRateLimiter.bucketKey sha256 identity = key
      · subst hKey
        rw [hStored] at stands
        simp only [Function.update_self]
        exact stands.expired hDue.1 hDue.2
      · simp only [Function.update_of_ne hKey]
        exact stands.later hDue.1

/-- Over any run the fake limiter answers the calls as Redis does. -/
theorem Matches.run {actions : List RateAction} (matched : Matches sha256 limiter met session fake)
    (hKeys : Set.InjOn (RedisRateLimiter.bucketKey sha256) met)
    (hMet : ∀ identity now, RateAction.consume identity now ∈ actions → identity ∈ met)
    (h : Transition.run (RateSession.step sha256 limiter) actions session = some final) :
    final.log.reverse.map answered = session.log.reverse.map answered ++
      answers FakeRateLimiter.component (calls actions) fake := by
  induction actions generalizing session fake with
  | nil =>
      cases h
      exact (List.append_nil _).symm
  | cons action rest ih =>
      obtain ⟨next, hStep, hRest⟩ := (Transition.run_cons_eq_some _).mp h
      have hOthers : ∀ identity now, RateAction.consume identity now ∈ rest → identity ∈ met :=
        fun identity now hMem => hMet identity now (List.mem_cons_of_mem _ hMem)
      cases action with
      | consume identity now =>
          obtain ⟨consumed, hLog, hAnswer, hNext⟩ :=
            matched.consume hKeys (hMet identity now (List.mem_cons_self ..)) hStep
          rw [ih hNext hOthers hRest, hLog, List.reverse_cons, List.map_append, List.append_assoc]
          congr 1
          exact congrArg (· :: _) hAnswer.symm
      | expire key now =>
          obtain ⟨hLog, hNext⟩ := matched.expire hStep
          rw [ih hNext hOthers hRest, hLog]
          rfl

end Matches

/-- At every rate and burst, for calls of any identities at times that do not go back and
with keys that may expire once due, the fake limiter decides as the one in Redis does,
where the identities that call have keys of their own. -/
theorem fakeRateLimiter_faithful (sha256 : String → String) (limiter : RedisRateLimiter)
    (clock : ℚ) (actions : List RateAction) (session : RateSession)
    (hKeys : Set.InjOn (RedisRateLimiter.bucketKey sha256)
      {identity | ∃ now, RateAction.consume identity now ∈ actions})
    (h : Transition.run (RateSession.step sha256 limiter) actions { clock } = some session) :
    answers FakeRateLimiter.component (calls actions)
        { rps := limiter.rps, burst := limiter.burst } = session.log.reverse.map answered := by
  have matched : Matches sha256 limiter {identity | ∃ now, RateAction.consume identity now ∈ actions}
      { clock } { rps := limiter.rps, burst := limiter.burst } :=
    ⟨rfl, rfl, rfl, fun identity _ => trivial⟩
  have hRun := matched.run hKeys (fun identity now hMem => ⟨now, hMem⟩) h
  rw [hRun]
  rfl

/-- A bucket that is emptied, expires and is recreated. -/
theorem fakeRateLimiter_faithful_emptied :
    ∃ session, Transition.run (RateSession.step id ⟨2, 2, by decide, by decide⟩)
        RateSession.emptied { clock := 0 } = some session ∧
      answers FakeRateLimiter.component (calls RateSession.emptied) { rps := 2, burst := 2 } =
        session.log.reverse.map answered := by
  have hReaches : (Transition.run (RateSession.step id ⟨2, 2, by decide, by decide⟩)
      RateSession.emptied { clock := 0 }).isSome = true := by
    decide +kernel
  obtain ⟨session, hRun⟩ := Option.isSome_iff_exists.mp hReaches
  refine ⟨session, hRun, fakeRateLimiter_faithful id ⟨2, 2, by decide, by decide⟩ 0
    RateSession.emptied session ?_ hRun⟩
  rintro first ⟨now, hFirst⟩ second ⟨later, hSecond⟩ _
  simp only [RateSession.emptied, List.mem_cons, RateAction.consume.injEq, List.not_mem_nil,
    or_false, reduceCtorEq, false_or] at hFirst hSecond
  rcases hFirst with ⟨rfl, -⟩ | ⟨rfl, -⟩ | ⟨rfl, -⟩ | ⟨rfl, -⟩
  all_goals rcases hSecond with ⟨rfl, -⟩ | ⟨rfl, -⟩ | ⟨rfl, -⟩ | ⟨rfl, -⟩
  all_goals rfl

end DocInsight.Testing
