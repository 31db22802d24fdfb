import DocInsight.Gateway.Fleet

/-! What holds of every run of a fleet: who is behind a request that an upstream receives, how
many of them there are, and what clients are told. -/
namespace DocInsight.Gateway

open DocInsight.Python Interaction

/-- The gateway's own answer: a public error. -/
def Own (response : Response) : Prop := PublicError response ∧ 400 ≤ response.status

theorem own_error {status : Nat} (hStatus : 400 ≤ status) {code message : String}
    (hCode : validCode (text code) = true) (hMessage : (text message).length ≤ 1024) :
    Own (error status code message) :=
  ⟨publicError_error status hCode hMessage, hStatus⟩

theorem own_forwardFailure {failure : GatewayError} {response : Response}
    (h : forwardFailure failure = .ok response) : Own response := by
  refine ⟨?_, status_forwardFailure h⟩
  cases failure with
  | raised raised =>
      cases raised with
      | value message =>
          cases h
          exact publicError_error 400 (by decide) (by decide)
      | _ => cases h
  | uploadTooLarge =>
      cases h
      exact publicError_error 413 (by decide) (by decide)
  | clientDisconnect =>
      cases h
      exact publicError_error 400 (by decide) (by decide)
  | httpTimeout | timeout =>
      cases h
      exact publicError_error 504 (by decide) (by decide)
  | http =>
      cases h
      exact publicError_error 502 (by decide) (by decide)
  | invalidToken | jwt | backendUnavailable | overflow => cases h

/-- What a client is told at the end of a history: a public error, or the success of the
upstream that was asked last, with its bytes. -/
def Told {Key : Type} (library : JsonLibrary) (history : History Key)
    (outcome : Except GatewayError Response) : Prop :=
  (∀ bytes payload, library.loads bytes = .ok payload → DistinctKeys payload) →
    ∀ response, outcome = .ok response → Own response ∨
      ∃ sent reply, history.getLast? = some ⟨.exchange sent, .ok reply⟩ ∧ 200 ≤ reply.status ∧
        reply.status < 300 ∧ response.status = reply.status ∧ response.body = reply.body

theorem told_own {Key : Type} {library : JsonLibrary} {history : History Key}
    {response : Response} (own : Own response) : Told library history (.ok response) := by
  intro _ other hOther
  cases hOther
  exact Or.inl own

theorem told_error {Key : Type} {library : JsonLibrary} {history : History Key}
    (failure : GatewayError) : Told library history (.error failure) := by
  intro _ response hResponse
  cases hResponse

theorem told_failure {Key : Type} {library : JsonLibrary} {history : History Key}
    (failure : GatewayError) : Told library history (forwardFailure failure) := by
  intro _ response hResponse
  exact Or.inl (own_forwardFailure hResponse)

/-- What an upstream's answer tells the client. -/
theorem told_answered {Key : Type} {library : JsonLibrary} (history : History Key)
    (sent : UpstreamRequest) (answer : Except GatewayError UpstreamReply) :
    Told library (history ++ [⟨.exchange sent, answer⟩]) (answered library answer) := by
  intro hDistinct response hResponse
  rcases answered_cases hResponse with ⟨reply, rfl, hReply⟩ | ⟨failure, hFailure⟩
  · rcases upstreamResponse_public (hDistinct reply.body) hReply with
      ⟨hLow, hHigh, rfl⟩ | ⟨hPublic, hStatus⟩
    · exact Or.inr ⟨sent, reply, by simp, hLow, hHigh, rfl, rfl⟩
    · exact Or.inl ⟨hPublic, by omega⟩
  · exact Or.inl (own_forwardFailure hFailure)

/-- Another header changes neither the status nor the body. -/
theorem Told.withHeader {Key : Type} {library : JsonLibrary} {history : History Key}
    {response : Response} (told : Told library history (.ok response)) (name : String)
    (value : Text) : Told library history (.ok (response.withHeader name value)) := by
  intro hDistinct other hOther
  cases hOther
  exact told hDistinct response rfl

namespace Fleet
variable {Key : Type} (fleet : Fleet Key) (begin : ℚ)

/-- Requests leave each other's histories alone, and each meets the gate of its next call. -/
def discipline : Discipline (fleet.environment.observed FleetAccount.see) where
  Inv := FleetInvariant fleet begin
  Guard agent now call := Gated fleet agent (now.2.histories agent) call
  Rely agent now later := later.2.histories agent = now.2.histories agent
  rely_refl _ _ := rfl
  rely_trans _ _ _ _ h h' := h'.trans h
  call_inv agent now call choice answer next invariant gated h := by
    obtain ⟨hPerform, hAccount⟩ := Environment.observed_cases h
    have hNext := invariant.call gated hPerform
    rwa [← hAccount] at hNext
  call_rely agent other now call choice answer next hOther _ _ h := by
    obtain ⟨-, hAccount⟩ := Environment.observed_cases h
    rw [hAccount]
    exact Function.update_of_ne hOther _ _
  event_inv now event next invariant h := by
    obtain ⟨later, hEvent, rfl⟩ := Option.map_eq_some_iff.mp h
    obtain ⟨session, hStep, rfl⟩ := Option.map_eq_some_iff.mp hEvent
    exact invariant.expire hStep
  event_rely agent now event next _ h := by
    obtain ⟨later, -, rfl⟩ := Option.map_eq_some_iff.mp h
    rfl
  crash_inv _ _ invariant := invariant
  crash_rely _ _ _ _ _ := rfl

variable {fleet begin} {agent : Nat} {now : FleetState Key × FleetAccount Key}
  {Result : Type}

/-- One call of a request whose history is known. -/
theorem safe_call {call : GatewayCall}
    {next : Except GatewayError (call.Response Key) → Handling Key Result}
    {post : Except GatewayError Result → FleetState Key × FleetAccount Key → Prop}
    {history : History Key} (hHistory : now.2.histories agent = history)
    (gated : Gated fleet agent history call)
    (hNext : ∀ answer after, after.2.histories agent = history ++ [⟨call, answer⟩] →
      (fleet.discipline begin).Safe agent (next answer) post after) :
    (fleet.discipline begin).Safe agent (.call call next) post now := by
  intro later hRely _
  have hLater : later.2.histories agent = history := hRely.trans hHistory
  have gate : Gated fleet agent (later.2.histories agent) call := by
    rw [hLater]
    exact gated
  refine ⟨gate, fun choice answer after h _ => hNext answer after ?_⟩
  obtain ⟨-, hAccount⟩ := Environment.observed_cases h
  rw [hAccount]
  show Function.update _ _ _ _ = _
  rw [Function.update_self, hLater]

/-- What a request's outcome tells, by its history. -/
def Tells (fleet : Fleet Key) (agent : Nat) (outcome : Except GatewayError Response)
    (now : FleetState Key × FleetAccount Key) : Prop :=
  Told fleet.json (now.2.histories agent) outcome

theorem safe_forward {history : History Key} {identity : Identity}
    (hHistory : now.2.histories agent = history)
    (gated : Gated fleet agent history (.exchange (upstreamRequest fleet.settings
      (fleet.routed agent).request (fleet.routed agent).path (fleet.routed agent).ingest identity))) :
    (fleet.discipline begin).Safe agent (forward fleet.json fleet.settings
      (fleet.routed agent).request (fleet.routed agent).path (fleet.routed agent).ingest identity)
      (fleet.Tells agent) now := by
  rw [forward_eq]
  cases checkLength (fleet.routed agent).request fleet.settings.maxUploadBytes with
  | error failure => exact told_failure failure
  | ok _ =>
      apply safe_call hHistory gated
      intro answer after hAfter
      show Told _ (after.2.histories agent) _
      rw [hAfter]
      exact told_answered history _ answer

/-- A caller who is known and whom the limiter's answer lets pass is forwarded. -/
theorem safe_spend {token kid : Text} {key : Key} {time : ℚ} {identity : Identity}
    {verdict : Except GatewayError RateDecision} (known : Known fleet agent token kid key time identity)
    (hHistory : now.2.histories agent =
      [⟨.key kid, .ok key⟩, ⟨.time, .ok time⟩, ⟨.consume identity, verdict⟩]) :
    (fleet.discipline begin).Safe agent ((Quota.of fleet.settings verdict).bind
      (spend fleet.json fleet.settings (fleet.routed agent).request (fleet.routed agent).path
        (fleet.routed agent).ingest identity)) (fleet.Tells agent) now := by
  have hForward (admits : fleet.settings.Admits verdict) :
      (fleet.discipline begin).Safe agent (forward fleet.json fleet.settings
        (fleet.routed agent).request (fleet.routed agent).path (fleet.routed agent).ingest identity)
        (fleet.Tells agent) now :=
    safe_forward hHistory ⟨token, kid, key, time, identity, verdict, known, admits, rfl, rfl⟩
  cases verdict with
  | ok decision =>
      by_cases hAllowed : decision.allowed = true
      · rw [show Quota.of fleet.settings (.ok decision) =
          (pure (.remaining decision.remaining) : Handling Key Quota) from if_pos hAllowed]
        show (fleet.discipline begin).Safe agent
          ((forward fleet.json fleet.settings _ _ _ identity).bind fun response =>
            pure (response.withHeader "x-ratelimit-remaining" (text (toString decision.remaining))))
          _ now
        apply Discipline.Safe.bind
        apply (hForward hAllowed).mono
        intro outcome later hTold
        cases outcome with
        | ok response => exact Told.withHeader hTold _ _
        | error failure => exact told_error failure
      · rw [show Quota.of fleet.settings (.ok decision) =
          (pure (.refused (refusal decision)) : Handling Key Quota) from if_neg hAllowed]
        have hStatus : 400 ≤ (refusal decision).status := (by decide : 400 ≤ 429)
        exact told_own ⟨publicError_error 429 (by decide) (by decide), hStatus⟩
  | error failure =>
      cases failure with
      | backendUnavailable =>
          by_cases hOpen : fleet.settings.rateLimitFailOpen = true
          · rw [show Quota.of fleet.settings (.error .backendUnavailable) =
              (pure .failingOpen : Handling Key Quota) from if_pos hOpen]
            exact hForward ⟨rfl, hOpen⟩
          · rw [show Quota.of fleet.settings (.error .backendUnavailable) =
              (pure (.refused (error 503 "rate_limit_unavailable" "rate limiter unavailable")) :
                Handling Key Quota) from if_neg hOpen]
            exact told_own (own_error (by decide) (by decide) (by decide))
      | _ => exact told_error _

theorem safe_proceed {token kid : Text} {key : Key} {time : ℚ} {identity : Identity}
    (hPresents : Presents fleet.tokens (fleet.routed agent).request token kid)
    (hVerified : verified fleet.tokens fleet.settings token key time = .ok identity)
    (hHistory : now.2.histories agent = [⟨.key kid, .ok key⟩, ⟨.time, .ok time⟩]) :
    (fleet.discipline begin).Safe agent (proceed fleet.json fleet.settings
      (fleet.routed agent).request (fleet.routed agent).path (fleet.routed agent).ingest
      (.ok identity)) (fleet.Tells agent) now := by
  cases hProvisioned : fleet.settings.provisions identity with
  | false =>
      simp only [proceed, hProvisioned, Bool.not_false, if_true]
      exact told_own (own_error (by decide) (by decide) (by decide))
  | true =>
      have known : Known fleet agent token kid key time identity :=
        ⟨hPresents, hVerified, hProvisioned⟩
      have gated : Gated fleet agent [⟨.key kid, .ok key⟩, ⟨.time, .ok time⟩]
          (.consume identity) := ⟨token, kid, key, time, known, rfl⟩
      simp only [proceed, hProvisioned, Bool.not_true, Bool.false_eq_true, if_false]
      apply safe_call hHistory gated
      intro verdict after hAfter
      exact safe_spend known hAfter

/-- A caller who is not known is turned away. -/
theorem safe_failed (failure : GatewayError) :
    (fleet.discipline begin).Safe agent (proceed fleet.json fleet.settings
      (fleet.routed agent).request (fleet.routed agent).path (fleet.routed agent).ingest
      (.error failure) : Handling Key Response) (fleet.Tells agent) now := by
  cases failure with
  | invalidToken => exact told_own ⟨publicError_error 401 (by decide) (by decide), by decide⟩
  | _ => exact told_error _

/-- Whatever a request is answered on its way, it meets the gate of each of its calls. -/
theorem safe_proxy (hHistory : now.2.histories agent = []) :
    (fleet.discipline begin).Safe agent (proxy fleet.tokens fleet.json fleet.settings
      (fleet.routed agent).request (fleet.routed agent).path (fleet.routed agent).ingest)
      (fleet.Tells agent) now := by
  unfold proxy authenticated
  split
  · rename_i authorization hAuthorization
    rw [authenticate_eq]
    cases hNames : presented fleet.tokens authorization with
    | error failure => exact safe_failed _
    | ok names =>
        obtain ⟨token, kid⟩ := names
        have hPresents : Presents fleet.tokens (fleet.routed agent).request token kid :=
          ⟨authorization, hAuthorization, hNames⟩
        have gated : Gated fleet agent [] (.key kid) := ⟨rfl, token, hPresents⟩
        apply safe_call hHistory gated
        intro answer first hFirst
        cases answer with
        | error failure => exact safe_failed _
        | ok key =>
            have later : Gated fleet agent [⟨.key kid, .ok key⟩] .time := ⟨kid, key, rfl⟩
            apply safe_call hFirst later
            intro answer second hSecond
            cases answer with
            | error failure => exact safe_failed _
            | ok time =>
                show (fleet.discipline begin).Safe agent (proceed _ _ _ _ _ _) _ second
                cases hVerified : verified fleet.tokens fleet.settings token key time with
                | error failure => exact safe_failed _
                | ok identity => exact safe_proceed hPresents hVerified hSecond
  · exact safe_failed _

theorem start_safe (fleet : Fleet Key) (clock : ℚ) :
    (fleet.discipline clock).PoolSafe (fun agent => fleet.Tells agent) (fleet.start clock) := by
  constructor
  · refine ⟨RateSession.start_invariant _ _ clock, le_refl clock, ?_, List.Sublist.refl [],
      List.nodup_nil, ?_, ?_, List.nodup_nil, ?_⟩
    · intro consumed h
      cases h
    · intro agent consumed h
      cases h
    · intro agent identity decision h
      cases h
    · intro agent sent h
      cases h
  · intro agent program hProgram
    cases hProgram
    exact safe_proxy rfl

/-- Every pool that a fleet reaches is safe. -/
theorem run_safe {clock : ℚ} {actions : List (Action Nat FleetChoice (String × ℚ))}
    {finish : Pool Nat (FleetState Key × FleetAccount Key) GatewayCall
      (GatewayCall.Response Key) GatewayError Response}
    (hRun : Transition.run (Pool.step (fleet.environment.observed FleetAccount.see)) actions
      (fleet.start clock) = some finish) :
    (fleet.discipline clock).PoolSafe (fun agent => fleet.Tells agent) finish := by
  apply (start_safe fleet clock).run _ hRun
  intro agent outcome state now hRely hTells
  show Told _ (now.2.histories agent) _
  rw [hRely]
  exact hTells

end Fleet

theorem name_of_mem_allowedHeaders {request : Request} {header : String × Text}
    (h : header ∈ allowedHeaders request) : header.1 = "content-type" ∨ header.1 = "accept" := by
  obtain ⟨name, hName, h⟩ := List.mem_filterMap.mp h
  obtain ⟨value, -, rfl⟩ := Option.map_eq_some_iff.mp h
  simpa using hName

/-- Only these headers cross the boundary. -/
theorem name_of_mem_forwardedHeaders {request : Request} {identity : Identity}
    {header : String × Text} (h : header ∈ forwardedHeaders request identity) :
    header.1 ∈ ["content-type", "accept", "x-tenant-id", "x-user-id", "x-request-id",
      "accept-encoding", "traceparent"] := by
  rcases List.mem_append.mp h with hKept | hParent
  · rcases List.mem_append.mp (List.mem_filter.mp hKept).1 with hAllowed | hOwn
    · rcases name_of_mem_allowedHeaders hAllowed with hName | hName <;> simp [hName]
    · simp only [List.mem_cons, List.not_mem_nil, or_false] at hOwn
      rcases hOwn with rfl | rfl | rfl | rfl <;> simp
  · obtain ⟨value, -, rfl⟩ := List.mem_map.mp hParent
    simp

/-- A name that the caller's headers do not pass under stands once, with the gateway's value. -/
theorem getlist_forwardedHeaders (request : Request) (identity : Identity) :
    (forwardedHeaders request identity).getlist "x-tenant-id" = [text identity.tenant] ∧
      (forwardedHeaders request identity).getlist "x-user-id" = [text identity.user] := by
  have hCaller (name : String) (hContent : "content-type" ≠ name) (hAccept : "accept" ≠ name) :
      ((allowedHeaders request).filter fun header =>
        !(["traceparent", "tracestate", "baggage"].contains header.1)).filter (·.1 = name) = [] := by
    apply List.filter_eq_nil_iff.mpr
    intro header hHeader hSame
    rcases name_of_mem_allowedHeaders (List.mem_filter.mp hHeader).1 with hName | hName
    · exact hContent (hName.symm.trans (of_decide_eq_true hSame))
    · exact hAccept (hName.symm.trans (of_decide_eq_true hSame))
  have hParent (name : String) (hName : "traceparent" ≠ name) :
      (request.traceparent.toList.map fun value => ("traceparent", value)).filter
        (·.1 = name) = [] := by
    apply List.filter_eq_nil_iff.mpr
    intro header hHeader hSame
    obtain ⟨value, -, rfl⟩ := List.mem_map.mp hHeader
    exact hName (of_decide_eq_true hSame)
  constructor
  · rw [Headers.getlist, forwardedHeaders, inject, List.filter_append, List.filter_append,
      List.filter_append, hCaller "x-tenant-id" (by decide) (by decide),
      hParent "x-tenant-id" (by decide)]
    rfl
  · rw [Headers.getlist, forwardedHeaders, inject, List.filter_append, List.filter_append,
      List.filter_append, hCaller "x-user-id" (by decide) (by decide),
      hParent "x-user-id" (by decide)]
    rfl

/-- Identity headers are the verified claims, whatever the caller sent under their names. -/
theorem carries_upstreamRequest (settings : Settings) (request : Request) (path : String)
    (ingest : Bool) (identity : Identity) :
    (upstreamRequest settings request path ingest identity).Carries identity :=
  getlist_forwardedHeaders request identity

/-- A request is in the name of one identity at most. -/
theorem UpstreamRequest.Carries.unique {sent : UpstreamRequest} {one other : Identity}
    (hOne : sent.Carries one) (hOther : sent.Carries other) : one = other := by
  have hTenant := List.singleton_inj.mp (hOne.1.symm.trans hOther.1)
  have hUser := List.singleton_inj.mp (hOne.2.symm.trans hOther.2)
  exact Identity.ext (text_inj.mp hTenant) (text_inj.mp hUser)

/-- The decisions that let an identity pass in a window stay within one burst and its refill. -/
theorem RateSession.Invariant.allowed_le {sha256 : String → String} {limiter : RedisRateLimiter}
    {session : RateSession} (invariant : RateSession.Invariant sha256 limiter session)
    (identity : Identity) {start stop : ℚ} (hWindow : start ≤ stop) :
    ((RateSession.allowed identity start stop session.log).length : ℚ) ≤
      limiter.burst + limiter.rps * (stop - start) := by
  have hBucket : ((RateSession.allowed identity start stop session.log).length : ℚ) ≤
      (Admission.admittedWithin start stop (RateSession.attempts sha256
        (RedisRateLimiter.bucketKey sha256 identity) session.log)).length := by
    exact_mod_cast RateSession.allowed_length_le sha256 identity start stop session.log
  exact hBucket.trans ((invariant.metered _).within_le limiter.rps_gt.le
    (zero_le_one.trans limiter.burst_ge) hWindow)

/-- The requests sent in an identity's name whose decision fell into a window. -/
def FleetAccount.within {Key : Type} (account : FleetAccount Key) (identity : Identity)
    (start stop : ℚ) : List (Nat × UpstreamRequest) :=
  account.forwarded.filter fun (agent, sent) => decide (sent.Carries identity) &&
    account.admissions.any fun (other, consumed) =>
      other = agent && decide (start ≤ consumed.now) && decide (consumed.now ≤ stop)

section Bound
variable {Key : Type} {fleet : Fleet Key} {begin : ℚ} {now : FleetState Key × FleetAccount Key}
  {agent : Nat} {sent : UpstreamRequest} {identity : Identity}

/-- A forwarded request's identity is the one that its request was known as. -/
theorem FleetInvariant.forwarded_known (invariant : FleetInvariant fleet begin now)
    (h : (agent, sent) ∈ now.2.forwarded) (hCarries : sent.Carries identity) :
    ∃ token kid key time verdict reply, Known fleet agent token kid key time identity ∧
      fleet.settings.Admits verdict ∧
      now.2.histories agent = [⟨.key kid, .ok key⟩, ⟨.time, .ok time⟩,
        ⟨.consume identity, verdict⟩, ⟨.exchange sent, reply⟩] := by
  obtain ⟨history, reply, ⟨token, kid, key, time, known, verdict, hKnown, hAdmits, rfl, rfl⟩,
    hHistory⟩ := invariant.forwarded agent sent h
  obtain rfl := hCarries.unique (carries_upstreamRequest _ _ _ _ known)
  exact ⟨token, kid, key, time, verdict, reply, hKnown, hAdmits, hHistory⟩

/-- A decision of a forwarded request let it pass, and was for its own identity. -/
theorem FleetInvariant.allowed_of_forwarded (invariant : FleetInvariant fleet begin now)
    (h : (agent, sent) ∈ now.2.forwarded) (hCarries : sent.Carries identity)
    {consumed : Consumed} (hAdmitted : (agent, consumed) ∈ now.2.admissions) :
    consumed.identity = identity ∧ consumed.decision.allowed = true := by
  obtain ⟨_, _, _, _, verdict, _, -, hAdmits, hHistory⟩ := invariant.forwarded_known h hCarries
  have hAnswered := invariant.admitted agent consumed hAdmitted
  rw [hHistory] at hAnswered
  simp only [List.mem_cons, List.not_mem_nil, or_false] at hAnswered
  rcases hAnswered with hSame | hSame | hSame | hSame
  · cases hSame
  · cases hSame
  · cases hSame
    exact ⟨rfl, hAdmits⟩
  · cases hSame

/-- Each forwarded request in a window has a decision of its own there. -/
theorem FleetInvariant.within_le (invariant : FleetInvariant fleet begin now)
    (identity : Identity) (start stop : ℚ) :
    (now.2.within identity start stop).length ≤
      (RateSession.allowed identity start stop now.1.session.log).length := by
  have hDecided : ((now.2.within identity start stop).map Prod.fst).Subperm
      ((now.2.admissions.filter fun admission => admission.2.identity = identity &&
        admission.2.decision.allowed && decide (start ≤ admission.2.now) &&
        decide (admission.2.now ≤ stop)).map Prod.fst) := by
    apply List.subperm_of_subset
    · exact invariant.forwarded_once.sublist (List.filter_sublist.map Prod.fst)
    · intro agent hAgent
      obtain ⟨⟨agent, sent⟩, hForwarded, rfl⟩ := List.mem_map.mp hAgent
      obtain ⟨hForwarded, hWithin⟩ := List.mem_filter.mp hForwarded
      simp only [Bool.and_eq_true, List.any_eq_true, decide_eq_true_eq] at hWithin
      obtain ⟨hCarries, ⟨other, consumed⟩, hAdmitted, ⟨rfl, hStart⟩, hStop⟩ := hWithin
      obtain ⟨hIdentity, hAllowed⟩ :=
        invariant.allowed_of_forwarded hForwarded hCarries hAdmitted
      refine List.mem_map.mpr ⟨(other, consumed), List.mem_filter.mpr ⟨hAdmitted, ?_⟩, rfl⟩
      simp [hIdentity, hAllowed, hStart, hStop]
  have hLogged : ((now.2.admissions.map Prod.snd).filter fun consumed =>
      consumed.identity = identity && consumed.decision.allowed &&
        decide (start ≤ consumed.now) && decide (consumed.now ≤ stop)).Sublist
      (RateSession.allowed identity start stop now.1.session.log) :=
    invariant.logged.filter _
  have hLength := hLogged.length_le
  rw [List.filter_map, List.length_map] at hLength
  have hAgents := hDecided.length_le
  rw [List.length_map, List.length_map] at hAgents
  exact hAgents.trans hLength

/-- Where a limiter that is out of reach stops requests, each of them had its decision. -/
theorem FleetInvariant.within_all (invariant : FleetInvariant fleet begin now)
    (hClosed : fleet.settings.rateLimitFailOpen = false) (identity : Identity) :
    now.2.within identity begin now.1.session.clock =
      now.2.forwarded.filter fun (_, sent) => sent.Carries identity := by
  apply List.filter_congr
  rintro ⟨agent, sent⟩ hForwarded
  by_cases hCarries : sent.Carries identity
  · obtain ⟨_, _, _, _, verdict, _, -, hAdmits, hHistory⟩ :=
      invariant.forwarded_known hForwarded hCarries
    cases verdict with
    | error failure => exact absurd hAdmits.2 (by simp [hClosed])
    | ok decision =>
        have hAnswered : (⟨.consume identity, .ok decision⟩ : Exchange GatewayCall
            (GatewayCall.Response Key) GatewayError) ∈ now.2.histories agent := by
          simp [hHistory]
        obtain ⟨consumed, hAdmitted, -⟩ := invariant.decided agent identity decision hAnswered
        obtain ⟨hLow, hHigh⟩ := invariant.timed consumed
          (invariant.logged.subset (List.mem_map_of_mem hAdmitted))
        have hFound : (now.2.admissions.any fun (other, consumed) => other = agent &&
            decide (begin ≤ consumed.now) && decide (consumed.now ≤ now.1.session.clock)) =
              true := by
          refine List.any_eq_true.mpr ⟨(agent, consumed), hAdmitted, ?_⟩
          simp [hLow, hHigh]
        simp [hCarries, hFound]
  · simp [hCarries]

end Bound

/-- One process, and a limiter of one token and one more each second. -/
def soleFleet : Fleet Unit where
  keys := ⟨fun _ => .ok (), fun _ => some 2048⟩
  tokens :=
    { getUnverifiedHeader := fun _ =>
        .ok (.dict [(text "alg", .str (text "RS256")), (text "kid", .str (text "k"))])
      decode := fun _ _ _ _ _ _ =>
        .ok (.dict [(text "tenant", .str (text "demo")), (text "sub", .str (text "alice")),
          (text "exp", .int 9), (text "iat", .int 0)]) }
  json := ⟨fun _ => .error (.value "Expecting value"), fun _ => []⟩
  settings :=
    { jwks := ⟨300, 5, by norm_num, by norm_num, by norm_num⟩
      jwtIssuer := text "i"
      jwtAudience := text "a"
      tenants := text "demo,other" }
  limiter := ⟨1, 1, by norm_num, le_refl 1⟩
  sha256 := id
  process _ := 0
  routed _ :=
    { request :=
        { method := "GET"
          headers := [("authorization", text "Bearer t"), ("x-tenant-id", text "other")]
          requestId := text "r"
          stream := ⟨[], none⟩ }
      path := "/usage"
      ingest := false }

def soleDocument : Json :=
  .dict [(text "keys", .list [.dict [(text "kty", .str (text "RSA")), (text "kid", .str (text "k"))]])]

/-- Two requests of one caller at one time: the first is forwarded, the second refused. -/
def soleActions : List (Action Nat FleetChoice (String × ℚ)) :=
  [.advance 0 (.key ⟨text "k", 0, some soleDocument, 0, 0⟩ .http),
   .advance 1 (.key ⟨text "k", 0, none, 0, 0⟩ .http),
   .advance 0 (.time 1), .advance 1 (.time 1),
   .advance 1 (.consumed 0), .advance 0 (.consumed 0),
   .advance 1 (.reply (.ok ⟨200, [], text "application/json"⟩))]

section Run
variable {Key : Type} (fleet : Fleet Key) (clock : ℚ)
  (actions : List (Action Nat FleetChoice (String × ℚ)))
  (finish : Pool Nat (FleetState Key × FleetAccount Key) GatewayCall
    (GatewayCall.Response Key) GatewayError Response)

/-- Whatever keys, times, limiter and upstreams answer, and in whatever order requests take
their steps: an upstream is contacted at most once for a request, and only after the one
token that it presents verified under the key that the token names, for a provisioned tenant,
and after the limiter let that identity pass or was out of reach with failing open. What is
sent is in the name of that identity, and of the caller's headers two kinds cross. -/
theorem forwarded_gated
    (hRun : Transition.run (Pool.step (fleet.environment.observed FleetAccount.see)) actions
      (fleet.start clock) = some finish) :
    (finish.state.2.forwarded.map Prod.fst).Nodup ∧
    ∀ agent sent, (agent, sent) ∈ finish.state.2.forwarded →
      ∃ token kid key time identity verdict reply, Known fleet agent token kid key time identity ∧
        fleet.settings.Admits verdict ∧ sent.Carries identity ∧
        (∀ header ∈ sent.headers, header.1 ∈ ["content-type", "accept", "x-tenant-id",
          "x-user-id", "x-request-id", "accept-encoding", "traceparent"]) ∧
        finish.state.2.histories agent = [⟨.key kid, .ok key⟩, ⟨.time, .ok time⟩,
          ⟨.consume identity, verdict⟩, ⟨.exchange sent, reply⟩] := by
  have invariant := (Fleet.run_safe hRun).1
  refine ⟨invariant.forwarded_once, ?_⟩
  intro agent sent hForwarded
  obtain ⟨history, reply, ⟨token, kid, key, time, identity, verdict, hKnown, hAdmits, rfl, rfl⟩,
    hHistory⟩ := invariant.forwarded agent sent hForwarded
  exact ⟨token, kid, key, time, identity, verdict, reply, hKnown, hAdmits,
    carries_upstreamRequest _ _ _ _ identity, fun _ => name_of_mem_forwardedHeaders, hHistory⟩

/-- However many processes share the limiter and however their requests interleave, with keys
that expire and answers of the limiter that are lost: the upstreams are sent no more in an
identity's name than one burst and the refill of the window that the decisions fell into,
and unless the limiter fails open, nothing is sent without a decision. -/
theorem forwarded_admission
    (hRun : Transition.run (Pool.step (fleet.environment.observed FleetAccount.see)) actions
      (fleet.start clock) = some finish) (identity : Identity) :
    (∀ start stop, start ≤ stop →
      ((finish.state.2.within identity start stop).length : ℚ) ≤
        fleet.limiter.burst + fleet.limiter.rps * (stop - start)) ∧
    (fleet.settings.rateLimitFailOpen = false →
      ((finish.state.2.forwarded.filter fun (_, sent) => sent.Carries identity).length : ℚ) ≤
        fleet.limiter.burst + fleet.limiter.rps * (finish.state.1.session.clock - clock)) := by
  have invariant := (Fleet.run_safe hRun).1
  have hWindow (start stop : ℚ) (h : start ≤ stop) :
      ((finish.state.2.within identity start stop).length : ℚ) ≤
        fleet.limiter.burst + fleet.limiter.rps * (stop - start) := by
    have hWithin : ((finish.state.2.within identity start stop).length : ℚ) ≤
        (RateSession.allowed identity start stop finish.state.1.session.log).length := by
      exact_mod_cast invariant.within_le identity start stop
    exact hWithin.trans (invariant.session.allowed_le identity h)
  refine ⟨hWindow, fun hClosed => ?_⟩
  rw [← invariant.within_all hClosed identity]
  exact hWindow clock _ invariant.begun

/-- A client is told a public error, a code and a short message in the gateway's form, or the
success of the upstream that its request was sent to, with its bytes. -/
theorem answered_public
    (hDistinct : ∀ bytes payload, fleet.json.loads bytes = .ok payload → DistinctKeys payload)
    (hRun : Transition.run (Pool.step (fleet.environment.observed FleetAccount.see)) actions
      (fleet.start clock) = some finish) (agent : Nat) (response : Response)
    (hDone : finish.programs agent = some (.done (.ok response))) :
    (PublicError response ∧ 400 ≤ response.status) ∨
    ∃ sent reply, (finish.state.2.histories agent).getLast? = some ⟨.exchange sent, .ok reply⟩ ∧
      200 ≤ reply.status ∧ reply.status < 300 ∧ response.status = reply.status ∧
      response.body = reply.body :=
  (Fleet.run_safe hRun).2 agent _ hDone hDistinct response rfl

end Run

theorem forwarded_gated_sole : ∃ finish,
    Transition.run (Pool.step (soleFleet.environment.observed FleetAccount.see)) soleActions
      (soleFleet.start 0) = some finish ∧
    finish.state.2.forwarded.map Prod.fst = [1] ∧ (finish.state.2.forwarded.map Prod.fst).Nodup := by
  have hEnd : (Transition.run (Pool.step (soleFleet.environment.observed FleetAccount.see))
      soleActions (soleFleet.start 0)).map (fun finish => finish.state.2.forwarded.map Prod.fst) =
        some [1] := by
    decide +kernel
  obtain ⟨finish, hRun, hForwarded⟩ := Option.map_eq_some_iff.mp hEnd
  exact ⟨finish, hRun, hForwarded, (forwarded_gated soleFleet 0 soleActions finish hRun).1⟩

theorem forwarded_admission_sole : ∃ finish,
    Transition.run (Pool.step (soleFleet.environment.observed FleetAccount.see)) soleActions
      (soleFleet.start 0) = some finish ∧
    (finish.state.2.within RateSession.alice 0 0).length = 1 ∧
    ((finish.state.2.within RateSession.alice 0 0).length : ℚ) ≤ 1 + 1 * (0 - 0) := by
  have hEnd : (Transition.run (Pool.step (soleFleet.environment.observed FleetAccount.see))
      soleActions (soleFleet.start 0)).map (fun finish =>
        (finish.state.2.within RateSession.alice 0 0).length) = some 1 := by
    decide +kernel
  obtain ⟨finish, hRun, hWithin⟩ := Option.map_eq_some_iff.mp hEnd
  exact ⟨finish, hRun, hWithin,
    (forwarded_admission soleFleet 0 soleActions finish hRun RateSession.alice).1 0 0 (le_refl 0)⟩

/-- The status that a request was answered with, once it is. -/
def answeredStatus {Key : Type} :
    Program GatewayCall (GatewayCall.Response Key) GatewayError Response → Option Nat
  | .done (.ok response) => some response.status
  | _ => none

theorem answeredStatus_eq {Key : Type} {status : Nat}
    {program : Option (Program GatewayCall (GatewayCall.Response Key) GatewayError Response)}
    (h : program.bind answeredStatus = some status) :
    ∃ response, program = some (.done (.ok response)) ∧ response.status = status := by
  obtain ⟨found, rfl, hStatus⟩ := Option.bind_eq_some_iff.mp h
  unfold answeredStatus at hStatus
  split at hStatus
  · rename_i response
    exact ⟨response, rfl, Option.some_inj.mp hStatus⟩
  · cases hStatus

/-- An upstream tells of a document that is not there. -/
def tellingFleet : Fleet Unit :=
  { soleFleet with
    json := ⟨fun _ => .ok (errorContent (text "not_found") (text "Document not found")),
      fun _ => []⟩ }

def tellingActions : List (Action Nat FleetChoice (String × ℚ)) :=
  soleActions.dropLast ++ [.advance 1 (.reply (.ok
    ⟨404, (error 404 "not_found" "Document not found").body, text "application/json"⟩))]

theorem answered_public_sole : ∃ finish refused passed,
    Transition.run (Pool.step (tellingFleet.environment.observed FleetAccount.see)) tellingActions
      (tellingFleet.start 0) = some finish ∧
    finish.programs 0 = some (.done (.ok refused)) ∧ refused.status = 429 ∧ PublicError refused ∧
    finish.programs 1 = some (.done (.ok passed)) ∧ passed.status = 404 ∧ PublicError passed := by
  have hEnd : (Transition.run (Pool.step (tellingFleet.environment.observed FleetAccount.see))
      tellingActions (tellingFleet.start 0)).map (fun finish =>
        ((finish.programs 0).bind answeredStatus, (finish.programs 1).bind answeredStatus)) =
          some (some 429, some 404) := by
    decide +kernel
  obtain ⟨finish, hRun, hAnswered⟩ := Option.map_eq_some_iff.mp hEnd
  obtain ⟨hFirst, hSecond⟩ := Prod.mk.inj hAnswered
  obtain ⟨refused, hRefused, hLimited⟩ := answeredStatus_eq hFirst
  obtain ⟨passed, hPassed, hMissing⟩ := answeredStatus_eq hSecond
  have hDistinct (bytes : Bytes) (payload : Json)
      (h : tellingFleet.json.loads bytes = .ok payload) : DistinctKeys payload := by
    cases h
    simp [errorContent, DistinctKeys, DistinctFields]
  have hPublic (agent : Nat) (response : Response)
      (hDone : finish.programs agent = some (.done (.ok response))) (h : 400 ≤ response.status) :
      PublicError response := by
    rcases answered_public tellingFleet 0 tellingActions finish hDistinct hRun agent response hDone
      with ⟨hPublic, -⟩ | ⟨_, reply, -, -, hHigh, hSame, -⟩
    · exact hPublic
    · omega
  exact ⟨finish, refused, passed, hRun, hRefused, hLimited, hPublic 0 refused hRefused (by omega),
    hPassed, hMissing, hPublic 1 passed hPassed (by omega)⟩

end DocInsight.Gateway
