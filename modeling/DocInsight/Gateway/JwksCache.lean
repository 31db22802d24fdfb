import DocInsight.Gateway.Auth
import DocInsight.Library.Transition
import Mathlib.Data.List.Chain

/-! What the signing key cache promises over any sequence of calls: how often the
issuer is asked, how fresh a returned key is, and that a healthy issuer's keys are
found. -/
namespace DocInsight.Gateway

open DocInsight.Python

variable {Key : Type} {library : KeyLibrary Key} {settings : JwksSettings}

namespace Authenticator

/-- Everything a call can do: answer from the cache, back off after a failed fetch, or
store a fetched key set. -/
theorem key_cases (library : KeyLibrary Key) (settings : JwksSettings)
    (authenticator : Authenticator Key) (call : KeyCall) :
    (authenticator.refreshes call.kid call.now = false ∧
      key library settings authenticator call =
        ⟨.skipped, authenticator.answer call.kid call.checked, authenticator⟩) ∨
    (authenticator.refreshes call.kid call.now = true ∧ ∃ failure,
      fetched library call.document = .error failure ∧
      key library settings authenticator call = ⟨.failed, .error failure,
        { authenticator with nextRefresh := call.now + settings.jwksRefreshSeconds }⟩) ∨
    (authenticator.refreshes call.kid call.now = true ∧ ∃ keys refreshed,
      fetched library call.document = .ok keys ∧
      refreshed = Authenticator.mk keys (call.stored + settings.jwksCacheSeconds)
        (call.now + settings.jwksRefreshSeconds) ∧
      key library settings authenticator call =
        ⟨.succeeded keys, refreshed.answer call.kid call.checked, refreshed⟩) := by
  cases hRefreshes : authenticator.refreshes call.kid call.now with
  | false => exact Or.inl ⟨rfl, by simp [key, hRefreshes]⟩
  | true =>
      cases hFetched : fetched library call.document with
      | error failure =>
          exact Or.inr (Or.inl ⟨rfl, failure, rfl, by simp [key, hRefreshes, hFetched]⟩)
      | ok keys =>
          exact Or.inr (Or.inr ⟨rfl, keys, _, rfl, rfl, by simp [key, hRefreshes, hFetched]⟩)

theorem answer_eq_ok {authenticator : Authenticator Key} {kid : Text} {checked : ℚ} {key : Key} :
    authenticator.answer kid checked = .ok key ↔
      (checked : WithBot ℚ) < authenticator.expires ∧
        authenticator.keys.lookup kid = some key := by
  by_cases hExpired : authenticator.expires ≤ checked
  · simp [answer, hExpired]
  · cases hLookup : authenticator.keys.lookup kid with
    | none => simp [answer, hExpired, hLookup]
    | some found => simp [answer, hExpired, hLookup, not_le.mp hExpired]

/-- A call asks the issuer only once the backoff is over. -/
theorem nextRefresh_le_of_refreshes {authenticator : Authenticator Key} {kid : Text} {now : ℚ}
    (h : authenticator.refreshes kid now = true) : authenticator.nextRefresh ≤ now := by
  simp only [refreshes, Bool.and_eq_true, decide_eq_true_eq] at h
  exact h.2

end Authenticator

/-- One finished call, with the cache before it. -/
structure KeyEntry (Key : Type) where
  call : KeyCall
  before : Authenticator Key
  outcome : KeyOutcome Key

/-- When this call started a fetch. -/
def KeyEntry.fetchStart (entry : KeyEntry Key) : Option ℚ :=
  match entry.outcome.fetch with
  | .skipped => none
  | .failed | .succeeded _ => some entry.call.now

/-- The key set this call stored, and when. -/
def KeyEntry.storing (entry : KeyEntry Key) : Option (KeySet Key × ℚ) :=
  match entry.outcome.fetch with
  | .succeeded keys => some (keys, entry.call.stored)
  | .skipped | .failed => none

/-- When the fetches of a log started, the most recent first; the log is newest first. -/
def fetchStarts (log : List (KeyEntry Key)) : List ℚ := log.filterMap KeyEntry.fetchStart

/-- The key set of the most recent successful fetch, and when it was stored. -/
def lastStored (log : List (KeyEntry Key)) : Option (KeySet Key × ℚ) :=
  log.findSome? KeyEntry.storing

/-- The cache after some calls, the last clock reading, and the finished calls. -/
structure KeySession (Key : Type) where
  authenticator : Authenticator Key := {}
  clock : ℚ
  log : List (KeyEntry Key) := []

namespace KeySession

/-- The lock serialises the calls, so each one meets the cache that the last one left.
No reading of the clock is before an earlier one. -/
def step (library : KeyLibrary Key) (settings : JwksSettings) (session : KeySession Key)
    (call : KeyCall) : Option (KeySession Key) :=
  if session.clock ≤ call.now ∧ call.now ≤ call.stored ∧ call.stored ≤ call.checked then
    let outcome := session.authenticator.key library settings call
    some
      { authenticator := outcome.authenticator
        clock := call.checked
        log := ⟨call, session.authenticator, outcome⟩ :: session.log }
  else none

theorem step_eq_some {session next : KeySession Key} {call : KeyCall}
    (h : step library settings session call = some next) :
    (session.clock ≤ call.now ∧ call.now ≤ call.stored ∧ call.stored ≤ call.checked) ∧
      next = { authenticator := (session.authenticator.key library settings call).authenticator
               clock := call.checked
               log := ⟨call, session.authenticator,
                 session.authenticator.key library settings call⟩ :: session.log } := by
  simp only [step] at h
  split_ifs at h with hClock
  exact ⟨hClock, (Option.some.inj h).symm⟩

/-- A deadline some seconds after a reading; before the first one it has long passed. -/
def deadline (reading : Option ℚ) (seconds : ℚ) : WithBot ℚ :=
  match reading with
  | none => ⊥
  | some reading => (reading + seconds : ℚ)

/-- The backoff counts from the latest fetch, and the cache is the latest stored key set. -/
structure Invariant (settings : JwksSettings) (session : KeySession Key) : Prop where
  nextRefresh : session.authenticator.nextRefresh =
    deadline (fetchStarts session.log).head? settings.jwksRefreshSeconds
  keys : session.authenticator.keys = ((lastStored session.log).map Prod.fst).getD []
  expires : session.authenticator.expires =
    deadline ((lastStored session.log).map Prod.snd) settings.jwksCacheSeconds

theorem start_invariant (settings : JwksSettings) (clock : ℚ) :
    Invariant settings ({ clock := clock } : KeySession Key) where
  nextRefresh := rfl
  keys := rfl
  expires := rfl

theorem step_invariant {session next : KeySession Key} {call : KeyCall}
    (inv : Invariant settings session) (h : step library settings session call = some next) :
    Invariant settings next := by
  obtain ⟨_, rfl⟩ := step_eq_some h
  rcases session.authenticator.key_cases library settings call with
    ⟨_, hKey⟩ | ⟨_, failure, _, hKey⟩ | ⟨_, keys, refreshed, _, rfl, hKey⟩
  · rw [hKey]
    exact ⟨inv.nextRefresh, inv.keys, inv.expires⟩
  · rw [hKey]
    exact ⟨rfl, inv.keys, inv.expires⟩
  · rw [hKey]
    exact ⟨rfl, rfl, rfl⟩

/-- What a finished call may have done, given the calls before it. -/
structure Safe (settings : JwksSettings) (entry : KeyEntry Key) (earlier : List (KeyEntry Key)) :
    Prop where
  fresh : ∀ key, entry.outcome.answer = .ok key → ∃ keys stored,
    lastStored (entry :: earlier) = some (keys, stored) ∧
      keys.lookup entry.call.kid = some key ∧
      entry.call.checked < stored + settings.jwksCacheSeconds
  failed : entry.outcome.fetch = .failed →
    entry.outcome.authenticator.keys = entry.before.keys ∧
      entry.outcome.authenticator.expires = entry.before.expires

/-- A key from a cache that a stored key set describes is a fresh key of that set. -/
theorem fresh_of_answer {authenticator : Authenticator Key} {last : Option (KeySet Key × ℚ)}
    {kid : Text} {checked : ℚ} {key : Key}
    (hKeys : authenticator.keys = (last.map Prod.fst).getD [])
    (hExpires : authenticator.expires = deadline (last.map Prod.snd) settings.jwksCacheSeconds)
    (hAnswer : authenticator.answer kid checked = .ok key) :
    ∃ keys stored, last = some (keys, stored) ∧ keys.lookup kid = some key ∧
      checked < stored + settings.jwksCacheSeconds := by
  obtain ⟨hFresh, hLookup⟩ := Authenticator.answer_eq_ok.mp hAnswer
  cases last with
  | none => simp [hExpires, deadline] at hFresh
  | some last =>
      rw [hExpires] at hFresh
      rw [hKeys] at hLookup
      exact ⟨last.1, last.2, rfl, hLookup, WithBot.coe_lt_coe.mp hFresh⟩

theorem step_safe {session : KeySession Key} (inv : Invariant settings session)
    (call : KeyCall) :
    Safe settings ⟨call, session.authenticator,
      session.authenticator.key library settings call⟩ session.log := by
  rcases session.authenticator.key_cases library settings call with
    ⟨_, hKey⟩ | ⟨_, failure, _, hKey⟩ | ⟨_, keys, refreshed, _, rfl, hKey⟩
  · rw [hKey]
    refine ⟨fun key hAnswer => fresh_of_answer inv.keys inv.expires hAnswer, ?_⟩
    intro hFailed
    cases hFailed
  · rw [hKey]
    refine ⟨?_, fun _ => ⟨rfl, rfl⟩⟩
    intro key hAnswer
    cases hAnswer
  · rw [hKey]
    refine ⟨fun key hAnswer => fresh_of_answer rfl rfl hAnswer, ?_⟩
    intro hFailed
    cases hFailed

/-- A fetch that starts now starts a full backoff after the one before it. -/
theorem step_fetchStarts {session : KeySession Key} (inv : Invariant settings session)
    (call : KeyCall)
    (hChain : (fetchStarts session.log).IsChain
      (fun later earlier => earlier + settings.jwksRefreshSeconds ≤ later)) :
    (fetchStarts (⟨call, session.authenticator,
        session.authenticator.key library settings call⟩ :: session.log)).IsChain
      (fun later earlier => earlier + settings.jwksRefreshSeconds ≤ later) := by
  have hNow (hRefreshes : session.authenticator.refreshes call.kid call.now = true) :
      (call.now :: fetchStarts session.log).IsChain
        (fun later earlier => earlier + settings.jwksRefreshSeconds ≤ later) := by
    have hBackoff := Authenticator.nextRefresh_le_of_refreshes hRefreshes
    rw [inv.nextRefresh] at hBackoff
    refine List.isChain_cons.mpr ⟨?_, hChain⟩
    intro last hLast
    rw [Option.mem_def.mp hLast] at hBackoff
    exact WithBot.coe_le_coe.mp hBackoff
  rcases session.authenticator.key_cases library settings call with
    ⟨_, hKey⟩ | ⟨hRefreshes, failure, _, hKey⟩ | ⟨hRefreshes, keys, refreshed, _, rfl, hKey⟩
  · rw [hKey]
    exact hChain
  · rw [hKey]
    exact hNow hRefreshes
  · rw [hKey]
    exact hNow hRefreshes

/-- Whatever identifiers are asked for and whatever the fetches come to: two consecutive
fetches start a backoff apart, a returned key is a key of the latest stored set within
its lifetime, and a failed fetch leaves the cache as it was. -/
theorem jwksCache_safety (library : KeyLibrary Key) (settings : JwksSettings) (clock : ℚ)
    (calls : List KeyCall) (session : KeySession Key)
    (h : Transition.run (step library settings) calls { clock := clock } = some session) :
    (fetchStarts session.log).IsChain
      (fun later earlier => earlier + settings.jwksRefreshSeconds ≤ later) ∧
    ∀ later entry earlier, session.log = later ++ entry :: earlier →
      Safe settings entry earlier := by
  refine (@Transition.run_invariant _ _ (step library settings)
    (fun session => Invariant settings session ∧
      (fetchStarts session.log).IsChain
        (fun later earlier => earlier + settings.jwksRefreshSeconds ≤ later) ∧
      ∀ later entry earlier, session.log = later ++ entry :: earlier →
        Safe settings entry earlier) ?_ _ _ _ ?_ h).2
  · rintro session call next ⟨inv, hChain, hSafe⟩ hStep
    refine ⟨step_invariant inv hStep, ?_⟩
    obtain ⟨_, rfl⟩ := step_eq_some hStep
    refine ⟨step_fetchStarts inv call hChain, ?_⟩
    intro later entry earlier hLog
    cases later with
    | nil =>
        cases hLog
        exact step_safe inv call
    | cons last later =>
        simp only [List.cons_append, List.cons.injEq] at hLog
        exact hSafe later entry earlier hLog.2
  · refine ⟨start_invariant settings clock, List.IsChain.nil, ?_⟩
    intro later entry earlier hLog
    simp at hLog

/-- A key library that keeps an item's modulus and counts the bits it encodes. -/
def modulusLibrary : KeyLibrary Text where
  load item := do
    match ← item.item "n" with
    | .str modulus => return modulus
    | _ => throw .type
  publicBits modulus := some (modulus.length * 6 / 8 * 8)

/-- A key set of 2048-bit keys with these identifiers. -/
def sampleDocument (kids : List String) : Json :=
  .dict [(text "keys", .list (kids.map fun kid => .dict
    [(text "kty", .str (text "RSA")), (text "kid", .str (text kid)),
     (text "n", .str (List.replicate 342 (codePoint 'w'))), (text "e", .str (text "AQAB"))]))]

/-- The default lifetimes: five minutes in the cache, five seconds between fetches. -/
def defaultSettings : JwksSettings := ⟨300, 5, by decide, by decide, by decide⟩

/-- A key is rotated in at second one. The next two calls for it come inside the backoff
and after it, and the last call for the old key meets an expired cache. -/
def rotation : List KeyCall :=
  [⟨text "old", 0, some (sampleDocument ["old"]), 1 / 2, 1 / 2⟩,
   ⟨text "new", 2, none, 2, 2⟩,
   ⟨text "new", 6, some (sampleDocument ["old", "new"]), 8, 8⟩,
   ⟨text "unknown", 9, none, 9, 9⟩,
   ⟨text "old", 308, some (sampleDocument ["new"]), 309, 309⟩]

theorem jwksCache_safety_rotation :
    ∃ session, Transition.run (step modulusLibrary defaultSettings) rotation { clock := 0 } =
        some session ∧
      fetchStarts session.log = [308, 6, 0] ∧
      (fetchStarts session.log).IsChain (fun later earlier => earlier + 5 ≤ later) := by
  have hStarts : (Transition.run (step modulusLibrary defaultSettings) rotation
      { clock := 0 }).map (fun session => fetchStarts session.log) = some [308, 6, 0] := by
    decide +kernel
  obtain ⟨session, hRun, hFetches⟩ := Option.map_eq_some_iff.mp hStarts
  exact ⟨session, hRun, hFetches,
    (jwksCache_safety modulusLibrary defaultSettings 0 rotation session hRun).1⟩

/-- Every reading of the clock in a call is the same, but for the time that its fetch
takes. Every fetch succeeds, and from some time on its document lists the identifier. -/
def Healthy (library : KeyLibrary Key) (kid : Text) (since : ℚ) (session : KeySession Key)
    (call : KeyCall) : Prop :=
  if session.authenticator.refreshes call.kid call.now then
    call.checked = call.stored ∧
      ∃ keys ∈ (Authenticator.fetched library call.document).toOption,
        since ≤ call.now → (keys.lookup kid).isSome
  else call.checked = call.now

instance (library : KeyLibrary Key) (kid : Text) (since : ℚ) (session : KeySession Key)
    (call : KeyCall) : Decidable (Healthy library kid since session call) :=
  inferInstanceAs (Decidable (if session.authenticator.refreshes call.kid call.now then
    call.checked = call.stored ∧
      ∃ keys ∈ (Authenticator.fetched library call.document).toOption,
        since ≤ call.now → (keys.lookup kid).isSome
  else call.checked = call.now))

/-- The cache outlives the backoff, and a backoff that a recent enough fetch set found
the identifier. -/
structure Covered (settings : JwksSettings) (kid : Text) (since : ℚ)
    (authenticator : Authenticator Key) : Prop where
  nextRefresh_le : authenticator.nextRefresh ≤ authenticator.expires
  known : ((since + settings.jwksRefreshSeconds : ℚ) : WithBot ℚ) < authenticator.nextRefresh →
    (authenticator.keys.lookup kid).isSome

theorem step_covered {kid : Text} {since : ℚ} {session next : KeySession Key} {call : KeyCall}
    (hCovered : Covered settings kid since session.authenticator)
    (hHealthy : Healthy library kid since session call)
    (h : step library settings session call = some next) :
    Covered settings kid since next.authenticator := by
  obtain ⟨⟨_, hStored, _⟩, rfl⟩ := step_eq_some h
  rcases session.authenticator.key_cases library settings call with
    ⟨_, hKey⟩ | ⟨hRefreshes, failure, hFetched, _⟩ | ⟨hRefreshes, keys, refreshed, hFetched, rfl, hKey⟩
  · rw [hKey]
    exact hCovered
  · simp [Healthy, hRefreshes, hFetched, Except.toOption] at hHealthy
  · rw [hKey]
    simp only [Healthy, hRefreshes, ↓reduceIte, hFetched, Except.toOption, Option.mem_some,
      exists_eq_left'] at hHealthy
    have hCover := settings.cacheCoversRefreshCooldown
    constructor
    · show ((call.now + settings.jwksRefreshSeconds : ℚ) : WithBot ℚ) ≤
        ((call.stored + settings.jwksCacheSeconds : ℚ) : WithBot ℚ)
      exact WithBot.coe_le_coe.mpr (by linarith)
    · intro hRecent
      have hSince : since + settings.jwksRefreshSeconds < call.now + settings.jwksRefreshSeconds :=
        WithBot.coe_lt_coe.mp hRecent
      exact hHealthy.2 (by linarith)

/-- A call for the identifier, one backoff after the document first listed it, finds a
key: in the cache, in the set that the last fetch stored, or in the set it fetches. -/
theorem Covered.answers {kid : Text} {since : ℚ} {session : KeySession Key} {call : KeyCall}
    (hCovered : Covered settings kid since session.authenticator)
    (hHealthy : Healthy library kid since session call) (hKid : call.kid = kid)
    (hNow : since + settings.jwksRefreshSeconds ≤ call.now) :
    ∃ key, (session.authenticator.key library settings call).answer = .ok key := by
  have hRefresh := settings.refresh_gt
  have hCache := settings.cache_gt
  rcases session.authenticator.key_cases library settings call with
    ⟨hKeeps, hKey⟩ | ⟨hRefreshes, failure, hFetched, _⟩ |
    ⟨hRefreshes, keys, refreshed, hFetched, rfl, hKey⟩
  · simp only [Healthy, hKeeps, Bool.false_eq_true, ↓reduceIte] at hHealthy
    simp only [Authenticator.refreshes, Bool.and_eq_false_iff, Bool.or_eq_false_iff,
      decide_eq_false_iff_not, not_le] at hKeeps
    have hFound : (call.now : WithBot ℚ) < session.authenticator.expires ∧
        (session.authenticator.keys.lookup kid).isSome := by
      rcases hKeeps with ⟨hKnown, hLive⟩ | hBackoff
      · rw [hKid] at hKnown
        exact ⟨hLive, by simpa [Option.isSome_iff_ne_none] using hKnown⟩
      · -- Inside the backoff of a fetch that began after the document listed the identifier.
        exact ⟨hBackoff.trans_le hCovered.nextRefresh_le,
          hCovered.known ((WithBot.coe_le_coe.mpr hNow).trans_lt hBackoff)⟩
    obtain ⟨key, hLookup⟩ := Option.isSome_iff_exists.mp hFound.2
    rw [hKey]
    exact ⟨key, Authenticator.answer_eq_ok.mpr ⟨hHealthy ▸ hFound.1, hKid ▸ hLookup⟩⟩
  · simp [Healthy, hRefreshes, hFetched, Except.toOption] at hHealthy
  · simp only [Healthy, hRefreshes, ↓reduceIte, hFetched, Except.toOption, Option.mem_some,
      exists_eq_left'] at hHealthy
    obtain ⟨key, hLookup⟩ := Option.isSome_iff_exists.mp (hHealthy.2 (by linarith))
    rw [hKey]
    refine ⟨key, Authenticator.answer_eq_ok.mpr ⟨?_, hKid ▸ hLookup⟩⟩
    show (call.checked : WithBot ℚ) < ((call.stored + settings.jwksCacheSeconds : ℚ) : WithBot ℚ)
    exact WithBot.coe_lt_coe.mpr (by linarith [hHealthy.1])

/-- With an issuer whose fetches succeed, a cache never expires inside a backoff, and an
identifier that every document lists from some time on is found in every call from one
refresh interval later, whatever else is asked for. -/
theorem jwksCache_healthyIssuer (library : KeyLibrary Key) (settings : JwksSettings) (clock : ℚ)
    (kid : Text) (since : ℚ) (calls : List KeyCall) (session : KeySession Key)
    (h : Transition.run (step library settings) calls { clock := clock } = some session)
    (hHealthy : Transition.Every (step library settings)
      (fun session call _ => Healthy library kid since session call) calls { clock := clock }) :
    session.authenticator.nextRefresh ≤ session.authenticator.expires ∧
    ∀ entry ∈ session.log, entry.call.kid = kid →
      since + settings.jwksRefreshSeconds ≤ entry.call.now →
      ∃ key, entry.outcome.answer = .ok key := by
  have hEnd := @Transition.run_invariant_of_every _ _ (step library settings)
    (fun session call _ => Healthy library kid since session call)
    (fun session => Covered settings kid since session.authenticator ∧
      ∀ entry ∈ session.log, entry.call.kid = kid →
        since + settings.jwksRefreshSeconds ≤ entry.call.now →
        ∃ key, entry.outcome.answer = .ok key) ?_ _ _ _ ?_ hHealthy h
  · exact ⟨hEnd.1.nextRefresh_le, hEnd.2⟩
  · rintro session call next ⟨hCovered, hLog⟩ hCall hStep
    refine ⟨step_covered hCovered hCall hStep, ?_⟩
    obtain ⟨_, rfl⟩ := step_eq_some hStep
    intro entry hEntry hKid hNow
    rcases List.mem_cons.mp hEntry with rfl | hEntry
    · exact hCovered.answers hCall hKid hNow
    · exact hLog entry hEntry hKid hNow
  · refine ⟨⟨le_refl _, fun hRecent => ?_⟩, fun entry hEntry => ?_⟩
    · exact absurd hRecent not_lt_bot
    · cases hEntry

/-- The rotated key is refused inside the backoff and found after it. -/
theorem jwksCache_healthyIssuer_rotation :
    ∃ session, Transition.run (step modulusLibrary defaultSettings) rotation { clock := 0 } =
        some session ∧
      ∀ entry ∈ session.log, entry.call.kid = text "new" → 1 + 5 ≤ entry.call.now →
        ∃ key, entry.outcome.answer = .ok key := by
  have hRuns : (Transition.run (step modulusLibrary defaultSettings) rotation
      { clock := 0 }).isSome := by decide +kernel
  obtain ⟨session, hRun⟩ := Option.isSome_iff_exists.mp hRuns
  exact ⟨session, hRun, (jwksCache_healthyIssuer modulusLibrary defaultSettings 0 (text "new") 1
    rotation session hRun (by decide +kernel)).2⟩

end KeySession

end DocInsight.Gateway
