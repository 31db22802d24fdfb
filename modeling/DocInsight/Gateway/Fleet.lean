import DocInsight.Gateway.Proxy
import DocInsight.Library.Alone

/-! Gateway processes that share one limiter, with their requests interleaved one call at a
time: what has to have happened before an upstream is contacted, and how often it is. -/
namespace DocInsight.Gateway

open DocInsight.Python Interaction

/-- A request with the route it came to. -/
structure Routed where
  request : Request
  path : String
  ingest : Bool

/-- The processes and their clients: which process a request comes to, and what it is. -/
structure Fleet (Key : Type) where
  keys : KeyLibrary Key
  tokens : TokenLibrary Key
  json : JsonLibrary
  settings : Settings
  limiter : RedisRateLimiter
  sha256 : String → String
  process : Nat → Nat
  routed : Nat → Routed

structure FleetState (Key : Type) where
  authenticators : Nat → Authenticator Key := fun _ => {}
  session : RateSession

/-- What a call meets: the issuer and the clock, the limiter at its server time, an answer of
the limiter's that is lost, an upstream's answer, or an error without any effect. -/
inductive FleetChoice where
  | key (call : KeyCall) (failure : GatewayError)
  | time (now : ℚ)
  | consumed (now : ℚ)
  | lost (now : ℚ)
  | reply (answer : Except GatewayError UpstreamReply)
  | failed (failure : GatewayError)

/-- A call with the answer it was given. -/
abbrev History (Key : Type) : Type :=
  List (Exchange GatewayCall (GatewayCall.Response Key) GatewayError)

/-- What each request was answered, the decisions that reached one, and the requests that
were sent to an upstream, the most recent first. -/
structure FleetAccount (Key : Type) where
  histories : Nat → History Key := fun _ => []
  admissions : List (Nat × Consumed) := []
  forwarded : List (Nat × UpstreamRequest) := []

namespace Fleet
variable {Key : Type} (fleet : Fleet Key)

def perform (agent : Nat) (state : FleetState Key) :
    (call : GatewayCall) → FleetChoice →
      Option (Except GatewayError (call.Response Key) × FleetState Key)
  | .key kid, .key call failure =>
      if call.kid = kid then
        let process := fleet.process agent
        let outcome := (state.authenticators process).key fleet.keys fleet.settings.jwks call
        let answer := outcome.answer.mapError fun
          | .invalidToken => GatewayError.invalidToken
          | _ => failure
        some (answer, { state with
          authenticators := Function.update state.authenticators process outcome.authenticator })
      else none
  | .time, .time now => some (.ok now, state)
  | .consume identity, .consumed now =>
      (state.session.step fleet.sha256 fleet.limiter (.consume identity now)).bind fun session =>
        session.log.head?.map fun consumed => (.ok consumed.decision, { state with session })
  | .consume identity, .lost now =>
      (state.session.step fleet.sha256 fleet.limiter (.consume identity now)).map fun session =>
        (.error .backendUnavailable, { state with session })
  | .consume _, .failed failure => some (.error failure, state)
  | .exchange _, .reply answer => some (answer, state)
  | _, _ => none

/-- Requests interleave; between their calls a bucket's key may expire. -/
def environment : Environment Nat (FleetState Key) GatewayCall (GatewayCall.Response Key)
    GatewayError where
  Choice := FleetChoice
  Event := String × ℚ
  perform := fleet.perform
  event state expiry :=
    (state.session.step fleet.sha256 fleet.limiter (.expire expiry.1 expiry.2)).map fun session =>
      { state with session }
  crash _ state := state

/-- The requests of a fleet that has just started. -/
def start (clock : ℚ) : Pool Nat (FleetState Key × FleetAccount Key) GatewayCall
    (GatewayCall.Response Key) GatewayError Response where
  state := ({ session := { clock } }, {})
  programs agent :=
    let routed := fleet.routed agent
    some (proxy fleet.tokens fleet.json fleet.settings routed.request routed.path routed.ingest)

end Fleet

/-- A decision that comes to its request is the latest of the limiter's. -/
def FleetAccount.see {Key : Type} :
    Observer Nat (FleetState Key) GatewayCall (GatewayCall.Response Key) GatewayError
      (FleetAccount Key) :=
  fun agent after call answer account =>
    { histories := Function.update account.histories agent
        (account.histories agent ++ [⟨call, answer⟩])
      admissions :=
        match call, answer with
        | .consume _, .ok _ =>
            (after.session.log.head?.toList.map fun consumed => (agent, consumed)) ++
              account.admissions
        | _, _ => account.admissions
      forwarded :=
        match call with
        | .exchange sent => (agent, sent) :: account.forwarded
        | _ => account.forwarded }

/-- An upstream request in the name of an identity: each of its headers stands once. -/
def UpstreamRequest.Carries (sent : UpstreamRequest) (identity : Identity) : Prop :=
  sent.headers.getlist "x-tenant-id" = [text identity.tenant] ∧
    sent.headers.getlist "x-user-id" = [text identity.user]

instance (sent : UpstreamRequest) (identity : Identity) : Decidable (sent.Carries identity) :=
  inferInstanceAs (Decidable (_ ∧ _))

/-- What the limiter said lets a request pass. -/
def Settings.Admits (settings : Settings) : Except GatewayError RateDecision → Prop
  | .ok decision => decision.allowed = true
  | .error failure => failure = .backendUnavailable ∧ settings.rateLimitFailOpen = true

/-- A request that presents one bearer token, which names a key. -/
def Presents {Key : Type} (tokens : TokenLibrary Key) (request : Request) (token kid : Text) :
    Prop :=
  ∃ authorization, request.headers.getlist "authorization" = [authorization] ∧
    presented tokens authorization = .ok (token, kid)

/-- A caller who is known: the token verified under the key that it names, for a tenant that
is provisioned. -/
structure Known {Key : Type} (fleet : Fleet Key) (agent : Nat) (token kid : Text) (key : Key)
    (now : ℚ) (identity : Identity) : Prop where
  presents : Presents fleet.tokens (fleet.routed agent).request token kid
  verified : verified fleet.tokens fleet.settings token key now = .ok identity
  provisioned : fleet.settings.provisions identity = true

/-- What a request has been answered before it makes a call. -/
def Gated {Key : Type} (fleet : Fleet Key) (agent : Nat) (history : History Key) :
    GatewayCall → Prop
  | .key kid => history = [] ∧ ∃ token, Presents fleet.tokens (fleet.routed agent).request token kid
  | .time => ∃ kid key, history = [⟨.key kid, .ok key⟩]
  | .consume identity => ∃ token kid key now, Known fleet agent token kid key now identity ∧
      history = [⟨.key kid, .ok key⟩, ⟨.time, .ok now⟩]
  | .exchange sent => ∃ token kid key now identity verdict,
      Known fleet agent token kid key now identity ∧ fleet.settings.Admits verdict ∧
      history = [⟨.key kid, .ok key⟩, ⟨.time, .ok now⟩, ⟨.consume identity, verdict⟩] ∧
      sent = upstreamRequest fleet.settings (fleet.routed agent).request (fleet.routed agent).path
        (fleet.routed agent).ingest identity

/-- The account is in step with the limiter's log and with what requests were answered. -/
structure FleetInvariant {Key : Type} (fleet : Fleet Key) (begin : ℚ)
    (now : FleetState Key × FleetAccount Key) : Prop where
  session : RateSession.Invariant fleet.sha256 fleet.limiter now.1.session
  begun : begin ≤ now.1.session.clock
  timed : ∀ consumed ∈ now.1.session.log, begin ≤ consumed.now ∧ consumed.now ≤ now.1.session.clock
  logged : (now.2.admissions.map Prod.snd).Sublist now.1.session.log
  admitted_once : (now.2.admissions.map Prod.fst).Nodup
  admitted : ∀ agent consumed, (agent, consumed) ∈ now.2.admissions →
    ⟨.consume consumed.identity, .ok consumed.decision⟩ ∈ now.2.histories agent
  decided : ∀ agent identity decision,
    ⟨.consume identity, .ok decision⟩ ∈ now.2.histories agent →
      ∃ consumed, (agent, consumed) ∈ now.2.admissions ∧ consumed.identity = identity ∧
        consumed.decision = decision
  forwarded_once : (now.2.forwarded.map Prod.fst).Nodup
  forwarded : ∀ agent sent, (agent, sent) ∈ now.2.forwarded → ∃ history reply,
    Gated fleet agent history (.exchange sent) ∧
      now.2.histories agent = history ++ [⟨.exchange sent, reply⟩]

section Session
variable {sha256 : String → String} {limiter : RedisRateLimiter} {session next : RateSession}

/-- A call that the limiter decides is the latest of its log. -/
theorem consume_cases {identity : Identity} {now : ℚ}
    (h : session.step sha256 limiter (.consume identity now) = some next) :
    session.clock ≤ now ∧ next.clock = now ∧ ∃ consumed, consumed.identity = identity ∧
      consumed.now = now ∧ next.log = consumed :: session.log := by
  simp only [RateSession.step] at h
  split_ifs at h with hClock
  cases h
  exact ⟨hClock, rfl, _, rfl, rfl, rfl⟩

theorem expire_cases {key : String} {now : ℚ}
    (h : session.step sha256 limiter (.expire key now) = some next) :
    session.clock ≤ next.clock ∧ next.log = session.log := by
  simp only [RateSession.step] at h
  cases hStored : session.buckets key with
  | none =>
      rw [hStored] at h
      cases h
  | some bucket =>
      rw [hStored] at h
      simp only at h
      split_ifs at h with hDue
      cases h
      exact ⟨hDue.1, rfl⟩

end Session

namespace Fleet
variable {Key : Type} {fleet : Fleet Key} {agent : Nat} {state after : FleetState Key}
  {choice : FleetChoice}

/-- Only a call to the limiter has an effect on it, also where its answer is lost. -/
theorem perform_consume {identity : Identity} {answer : Except GatewayError RateDecision}
    (h : fleet.perform agent state (.consume identity) choice = some (answer, after)) :
    (after.session = state.session ∧ ∃ failure, answer = .error failure) ∨
    ∃ now consumed, state.session.step fleet.sha256 fleet.limiter (.consume identity now) =
        some after.session ∧ after.session.log = consumed :: state.session.log ∧
      consumed.identity = identity ∧
      (answer = .ok consumed.decision ∨ ∃ failure, answer = .error failure) := by
  cases choice with
  | consumed now =>
      simp only [perform] at h
      obtain ⟨session, hStep, h⟩ := Option.bind_eq_some_iff.mp h
      obtain ⟨-, -, consumed, hIdentity, -, hLog⟩ := consume_cases hStep
      rw [hLog] at h
      cases h
      exact Or.inr ⟨now, consumed, hStep, hLog, hIdentity, Or.inl rfl⟩
  | lost now =>
      simp only [perform] at h
      obtain ⟨session, hStep, h⟩ := Option.map_eq_some_iff.mp h
      cases h
      obtain ⟨-, -, consumed, hIdentity, -, hLog⟩ := consume_cases hStep
      exact Or.inr ⟨now, consumed, hStep, hLog, hIdentity, Or.inr ⟨_, rfl⟩⟩
  | failed failure =>
      cases h
      exact Or.inl ⟨rfl, failure, rfl⟩
  | _ => cases h

theorem perform_key {kid : Text} {answer : Except GatewayError Key}
    (h : fleet.perform agent state (.key kid) choice = some (answer, after)) :
    after.session = state.session := by
  cases choice with
  | key call failure =>
      simp only [perform] at h
      split_ifs at h
      cases h
      rfl
  | _ => cases h

theorem perform_time {answer : Except GatewayError ℚ}
    (h : fleet.perform agent state .time choice = some (answer, after)) :
    after.session = state.session := by
  cases choice with
  | time now =>
      cases h
      rfl
  | _ => cases h

theorem perform_exchange {sent : UpstreamRequest} {answer : Except GatewayError UpstreamReply}
    (h : fleet.perform agent state (.exchange sent) choice = some (answer, after)) :
    after.session = state.session := by
  cases choice with
  | reply answer =>
      cases h
      rfl
  | _ => cases h

end Fleet

section Account
variable {Key : Type} {fleet : Fleet Key} {begin : ℚ} {agent : Nat}
  {now : FleetState Key × FleetAccount Key}

theorem mem_extended {histories : Nat → History Key} {call : GatewayCall}
    {answer : Except GatewayError (call.Response Key)} {other : Nat}
    {made : Exchange GatewayCall (GatewayCall.Response Key) GatewayError} :
    made ∈ Function.update histories agent (histories agent ++ [⟨call, answer⟩]) other ↔
      made ∈ histories other ∨ other = agent ∧ made = ⟨call, answer⟩ := by
  by_cases hOther : other = agent
  · subst hOther
    simp
  · simp [hOther]

/-- A request that is about to make a call has not been forwarded. -/
theorem FleetInvariant.not_forwarded (invariant : FleetInvariant fleet begin now)
    {call : GatewayCall} (gated : Gated fleet agent (now.2.histories agent) call) :
    ∀ sent, (agent, sent) ∉ now.2.forwarded := by
  intro sent hForwarded
  obtain ⟨history, reply, ⟨_, _, _, _, _, _, -, -, rfl, -⟩, hHistory⟩ :=
    invariant.forwarded agent sent hForwarded
  cases call with
  | key kid => simp [Gated, hHistory] at gated
  | time => simp [Gated, hHistory] at gated
  | consume identity => simp [Gated, hHistory] at gated
  | exchange other => simp [Gated, hHistory] at gated

/-- What was forwarded stays so when another request, or one that was not, gets an answer. -/
theorem FleetInvariant.forwarded_extended (invariant : FleetInvariant fleet begin now)
    {call : GatewayCall} (answer : Except GatewayError (call.Response Key))
    (gated : Gated fleet agent (now.2.histories agent) call) {other : Nat}
    {sent : UpstreamRequest} (h : (other, sent) ∈ now.2.forwarded) :
    ∃ history reply, Gated fleet other history (.exchange sent) ∧
      Function.update now.2.histories agent (now.2.histories agent ++ [⟨call, answer⟩]) other =
        history ++ [⟨.exchange sent, reply⟩] := by
  have hOther : other ≠ agent := by
    rintro rfl
    exact invariant.not_forwarded gated sent h
  obtain ⟨history, reply, hGated, hHistory⟩ := invariant.forwarded other sent h
  exact ⟨history, reply, hGated, by rw [Function.update_of_ne hOther, hHistory]⟩

/-- An answer that decides nothing and forwards nothing. -/
theorem FleetInvariant.answer (invariant : FleetInvariant fleet begin now) {call : GatewayCall}
    {answer : Except GatewayError (call.Response Key)} {after : FleetState Key}
    (gated : Gated fleet agent (now.2.histories agent) call)
    (hSession : RateSession.Invariant fleet.sha256 fleet.limiter after.session)
    (hBegun : begin ≤ after.session.clock)
    (hTimed : ∀ consumed ∈ after.session.log,
      begin ≤ consumed.now ∧ consumed.now ≤ after.session.clock)
    (hLog : now.1.session.log.Sublist after.session.log)
    (hDecides : ∀ identity decision,
      (⟨call, answer⟩ : Exchange GatewayCall (GatewayCall.Response Key) GatewayError) ≠
        ⟨.consume identity, .ok decision⟩)
    (hAdmissions : (FleetAccount.see agent after call answer now.2).admissions =
      now.2.admissions)
    (hForwarded : (FleetAccount.see agent after call answer now.2).forwarded =
      now.2.forwarded) :
    FleetInvariant fleet begin (after, FleetAccount.see agent after call answer now.2) where
  session := hSession
  begun := hBegun
  timed := hTimed
  logged := by
    simp only [hAdmissions]
    exact invariant.logged.trans hLog
  admitted_once := by
    simp only [hAdmissions]
    exact invariant.admitted_once
  admitted other consumed h := by
    simp only [FleetAccount.see, mem_extended]
    exact Or.inl (invariant.admitted other consumed (hAdmissions ▸ h))
  decided other identity decision h := by
    simp only [FleetAccount.see, mem_extended] at h
    simp only [hAdmissions]
    rcases h with hOld | ⟨-, hNew⟩
    · exact invariant.decided other identity decision hOld
    · exact absurd hNew.symm (hDecides identity decision)
  forwarded_once := by
    simp only [hForwarded]
    exact invariant.forwarded_once
  forwarded other sent h :=
    invariant.forwarded_extended answer gated (hForwarded ▸ h)

/-- An answer that also leaves the limiter as it is. -/
theorem FleetInvariant.unmoved (invariant : FleetInvariant fleet begin now) {call : GatewayCall}
    {answer : Except GatewayError (call.Response Key)} {after : FleetState Key}
    (gated : Gated fleet agent (now.2.histories agent) call)
    (hSession : after.session = now.1.session)
    (hDecides : ∀ identity decision,
      (⟨call, answer⟩ : Exchange GatewayCall (GatewayCall.Response Key) GatewayError) ≠
        ⟨.consume identity, .ok decision⟩)
    (hAdmissions : (FleetAccount.see agent after call answer now.2).admissions =
      now.2.admissions)
    (hForwarded : (FleetAccount.see agent after call answer now.2).forwarded =
      now.2.forwarded) :
    FleetInvariant fleet begin (after, FleetAccount.see agent after call answer now.2) := by
  apply invariant.answer gated _ _ _ _ hDecides hAdmissions hForwarded
  · rw [hSession]
    exact invariant.session
  · rw [hSession]
    exact invariant.begun
  · rw [hSession]
    exact invariant.timed
  · rw [hSession]

/-- What a decision at the limiter leaves of its log and its clock. -/
theorem FleetInvariant.consumed (invariant : FleetInvariant fleet begin now)
    {identity : Identity} {time : ℚ} {next : RateSession}
    (h : now.1.session.step fleet.sha256 fleet.limiter (.consume identity time) = some next) :
    RateSession.Invariant fleet.sha256 fleet.limiter next ∧ begin ≤ next.clock ∧
      ∀ consumed ∈ next.log, begin ≤ consumed.now ∧ consumed.now ≤ next.clock := by
  obtain ⟨hClock, hNext, consumed, -, hTime, hLog⟩ := consume_cases h
  have hBegin := invariant.begun.trans hClock
  refine ⟨RateSession.step_invariant invariant.session h, hNext ▸ hBegin, ?_⟩
  intro other hOther
  rw [hLog] at hOther
  rcases List.mem_cons.mp hOther with rfl | hOld
  · rw [hTime, hNext]
    exact ⟨hBegin, le_refl time⟩
  · obtain ⟨hLow, hHigh⟩ := invariant.timed other hOld
    exact ⟨hLow, hHigh.trans (hNext ▸ hClock)⟩

/-- A decision that comes to its request. -/
theorem FleetInvariant.admit (invariant : FleetInvariant fleet begin now)
    {consumed : Consumed} {after : FleetState Key} {time : ℚ}
    (gated : Gated fleet agent (now.2.histories agent) (.consume consumed.identity))
    (hStep : now.1.session.step fleet.sha256 fleet.limiter (.consume consumed.identity time) =
      some after.session)
    (hLog : after.session.log = consumed :: now.1.session.log) :
    FleetInvariant fleet begin (after, FleetAccount.see agent after (.consume consumed.identity)
      (.ok consumed.decision) now.2) := by
  obtain ⟨hSession, hBegun, hTimed⟩ := invariant.consumed hStep
  have hAdmissions : (FleetAccount.see agent after (.consume consumed.identity)
      (.ok consumed.decision) now.2).admissions = (agent, consumed) :: now.2.admissions := by
    simp [FleetAccount.see, hLog]
  -- Nothing that the request was answered so far is a decision.
  have hNew : agent ∉ now.2.admissions.map Prod.fst := by
    intro hOld
    obtain ⟨⟨other, old⟩, hAdmitted, rfl⟩ := List.mem_map.mp hOld
    have hAnswered := invariant.admitted other old hAdmitted
    obtain ⟨_, _, _, _, -, hHistory⟩ := gated
    simp [hHistory] at hAnswered
  refine ⟨hSession, hBegun, hTimed, ?_, ?_, ?_, ?_, invariant.forwarded_once, ?_⟩
  · simp only [hAdmissions, List.map_cons, hLog]
    exact invariant.logged.cons_cons consumed
  · simp only [hAdmissions, List.map_cons]
    exact List.nodup_cons.mpr ⟨hNew, invariant.admitted_once⟩
  · intro other old hOld
    simp only [FleetAccount.see, mem_extended]
    rw [hAdmissions] at hOld
    rcases List.mem_cons.mp hOld with hSame | hOld
    · cases hSame
      exact Or.inr ⟨rfl, rfl⟩
    · exact Or.inl (invariant.admitted other old hOld)
  · intro other identity decision hDecided
    simp only [FleetAccount.see, mem_extended] at hDecided
    simp only [hAdmissions]
    rcases hDecided with hOld | ⟨rfl, hSame⟩
    · obtain ⟨old, hOld, hRest⟩ := invariant.decided other identity decision hOld
      exact ⟨old, List.mem_cons_of_mem _ hOld, hRest⟩
    · cases hSame
      exact ⟨consumed, List.mem_cons_self, rfl, rfl⟩
  · intro other sent hForwarded
    exact invariant.forwarded_extended _ gated hForwarded

/-- A request that is forwarded. -/
theorem FleetInvariant.forward (invariant : FleetInvariant fleet begin now)
    {sent : UpstreamRequest} {answer : Except GatewayError UpstreamReply} {after : FleetState Key}
    (gated : Gated fleet agent (now.2.histories agent) (.exchange sent))
    (hSession : after.session = now.1.session) :
    FleetInvariant fleet begin
      (after, FleetAccount.see agent after (.exchange sent) answer now.2) := by
  have hNew : agent ∉ now.2.forwarded.map Prod.fst := by
    intro hOld
    obtain ⟨⟨other, old⟩, hForwarded, rfl⟩ := List.mem_map.mp hOld
    exact invariant.not_forwarded gated old hForwarded
  refine ⟨?_, ?_, ?_, ?_, invariant.admitted_once, ?_, ?_, ?_, ?_⟩
  · rw [hSession]
    exact invariant.session
  · rw [hSession]
    exact invariant.begun
  · rw [hSession]
    exact invariant.timed
  · rw [hSession]
    exact invariant.logged
  · intro other old hOld
    simp only [FleetAccount.see, mem_extended]
    exact Or.inl (invariant.admitted other old hOld)
  · intro other identity decision hDecided
    simp only [FleetAccount.see, mem_extended] at hDecided
    rcases hDecided with hOld | ⟨-, hSame⟩
    · exact invariant.decided other identity decision hOld
    · cases hSame
  · exact List.nodup_cons.mpr ⟨hNew, invariant.forwarded_once⟩
  · intro other old hForwarded
    rcases List.mem_cons.mp hForwarded with hSame | hOld
    · cases hSame
      exact ⟨now.2.histories agent, answer, gated, by simp [FleetAccount.see]⟩
    · exact @FleetInvariant.forwarded_extended _ _ _ _ _ invariant (.exchange sent) answer gated
        other old hOld

/-- Every call whose guard holds keeps the account in step. -/
theorem FleetInvariant.call (invariant : FleetInvariant fleet begin now) {call : GatewayCall}
    {choice : FleetChoice} {answer : Except GatewayError (call.Response Key)}
    {after : FleetState Key} (gated : Gated fleet agent (now.2.histories agent) call)
    (h : fleet.perform agent now.1 call choice = some (answer, after)) :
    FleetInvariant fleet begin (after, FleetAccount.see agent after call answer now.2) := by
  cases call with
  | key kid =>
      apply invariant.unmoved gated (Fleet.perform_key h) _ rfl rfl
      intro identity decision hSame
      cases hSame
  | time =>
      apply invariant.unmoved gated (Fleet.perform_time h) _ rfl rfl
      intro identity decision hSame
      cases hSame
  | consume identity =>
      rcases Fleet.perform_consume h with ⟨hSession, failure, rfl⟩ |
        ⟨time, consumed, hStep, hLog, rfl, rfl | ⟨failure, rfl⟩⟩
      · apply invariant.unmoved gated hSession _ rfl rfl
        intro identity decision hSame
        cases hSame
      · exact invariant.admit gated hStep hLog
      · obtain ⟨hSession, hBegun, hTimed⟩ := invariant.consumed hStep
        apply invariant.answer gated hSession hBegun hTimed
          (hLog ▸ List.sublist_cons_self _ _) _ rfl rfl
        intro identity decision hSame
        cases hSame
  | exchange sent => exact invariant.forward gated (Fleet.perform_exchange h)

/-- A key that expires leaves the log as it is. -/
theorem FleetInvariant.expire (invariant : FleetInvariant fleet begin now) {key : String}
    {time : ℚ} {next : RateSession}
    (h : now.1.session.step fleet.sha256 fleet.limiter (.expire key time) = some next) :
    FleetInvariant fleet begin ({ now.1 with session := next }, now.2) := by
  obtain ⟨hClock, hLog⟩ := expire_cases h
  refine ⟨RateSession.step_invariant invariant.session h, invariant.begun.trans hClock, ?_, ?_,
    invariant.admitted_once, invariant.admitted, invariant.decided, invariant.forwarded_once,
    invariant.forwarded⟩
  · simp only [hLog]
    intro consumed hConsumed
    obtain ⟨hLow, hHigh⟩ := invariant.timed consumed hConsumed
    exact ⟨hLow, hHigh.trans hClock⟩
  · simp only [hLog]
    exact invariant.logged

end Account

end DocInsight.Gateway
