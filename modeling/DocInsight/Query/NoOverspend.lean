import DocInsight.Query.AttemptAccounts
import Mathlib.Tactic.NormNum

/-! No overspend end to end. Every path through an attempt settles what its call was
billed, or the whole reservation, whatever fails or crashes in between. -/
namespace DocInsight.Query

open DocInsight.Contracts DocInsight.Python Interaction Table

variable {deployment : Deployment} {state : HostedState} {attempt : Nat}

/-- Every call whose guard holds keeps the invariant and what the others rely on. -/
theorem perform_keeps (invariant : HostedInvariant deployment state) {call : HostedCall}
    (guard : HostedGuard deployment attempt state call) {choice : HostedChoice}
    {answer : Except HostedError call.Response} {next : HostedState}
    (h : deployment.perform attempt state call choice = some (answer, next)) :
    Keeps deployment attempt state next := by
  cases call with
  | reserve tenant tokens model =>
      obtain ⟨today, identifier, ending, hReserve⟩ := Deployment.perform_reserve h
      exact (invariant.reserve guard today identifier ending hReserve).1
  | settle tenant reservation usage outcome =>
      obtain ⟨ending, hSettle⟩ := Deployment.perform_settle h
      exact (invariant.settle guard ending hSettle).1
  | acquireSlot =>
      obtain ⟨slot, -, hSlot⟩ := Deployment.perform_acquireSlot h
      exact (invariant.acquireSlot guard hSlot).1
  | releaseSlot =>
      exact (invariant.releaseSlot guard (Deployment.perform_releaseSlot h)).1
  | acquireTicket =>
      obtain ⟨now, ticket, -, hTicket⟩ := Deployment.perform_acquireTicket h
      exact (invariant.acquireTicket guard hTicket).1
  | finishTicket ticket success =>
      obtain ⟨now, -, rfl⟩ := Deployment.perform_finishTicket h
      exact invariant.finishTicket _ ticket success now
  | send question passages =>
      obtain ⟨hIdle, hRefused, id, hHeld⟩ := guard
      rcases Deployment.perform_send h with ⟨-, rfl⟩ | ⟨error, -, -, rfl⟩
      · exact invariant.send hIdle hRefused hHeld
      · exact Keeps.refl invariant
  | receive =>
      rcases Deployment.perform_receive h with ⟨response, -, hReceive⟩ | ⟨error, -, -, rfl⟩
      · exact (invariant.receive guard hReceive).1
      · exact Keeps.refl invariant

/-- The discipline under which attempts share the ledger and the provider. -/
def Deployment.discipline (deployment : Deployment) : Discipline deployment.environment where
  Inv := HostedInvariant deployment
  Guard := HostedGuard deployment
  Rely := HostedRely deployment
  rely_refl _ _ := ⟨rfl, rfl, Grows.refl _, fun _ h => h⟩
  rely_trans _ _ _ _ h h' := ⟨h'.record.trans h.record, h'.settled.trans h.settled,
    h.call.trans h'.call, fun process hHolds => h'.slot process (h.slot process hHolds)⟩
  call_inv _ _ _ _ _ _ invariant guard h := (perform_keeps invariant guard h).1
  call_rely _ other _ _ _ _ _ hOther invariant guard h :=
    (perform_keeps invariant guard h).2 other hOther
  event_inv _ _ _ invariant h := (invariant.bill h).1
  event_rely other _ _ _ invariant h := (invariant.bill h).2 other
  crash_inv _ _ invariant := invariant
  crash_rely _ _ _ _ _ := ⟨rfl, rfl, Grows.refl _, fun _ h => h⟩

theorem HostedRely.idle {next : HostedState} (rely : HostedRely deployment attempt state next)
    (hIdle : state.Idle attempt) : next.Idle attempt := by
  have hCall := rely.call
  rw [hIdle.2] at hCall
  exact ⟨rely.settled.trans hIdle.1, hCall⟩

theorem HostedRely.finished {next : HostedState} (rely : HostedRely deployment attempt state next)
    (hFinished : state.Finished attempt) : next.Finished attempt := by
  intro id hId
  rw [rely.settled, rely.record]
  exact hFinished id (rely.record ▸ hId)

/-- How an outcome stands to the ledger before it is settled. -/
structure Classified (deployment : Deployment) (state : HostedState) (attempt : Nat) (id : UUID)
    (outcome : Except HostedError Generation) : Prop where
  reservation : (state.records attempt).reservation = some id
  unsettled : settledBy state.ledger state.records attempt = none
  fits : Fits (state.callOf attempt) (deployment.refused state.records attempt)
    (settlementOf outcome).1 (settlementOf outcome).2

theorem HostedRely.classified {next : HostedState} {id : UUID}
    {outcome : Except HostedError Generation}
    (rely : HostedRely deployment attempt state next)
    (h : Classified deployment state attempt id outcome) : Classified deployment next attempt id outcome := by
  refine ⟨rely.record ▸ h.reservation, rely.settled.trans h.unsettled, ?_⟩
  rw [deployment.refused_congr (congrArg _ rely.record)]
  exact h.fits.grows rely.call

/-- A refusal settles at nothing. -/
theorem Fits.of_refusal {outcome : String} (refused : Bool) (h : outcome ∈ refusals) :
    Fits none refused (some {}) outcome where
  reported := by
    rintro rfl
    simp [refusals] at h
  unsent _ report hReport := by
    cases hReport
    rfl
  billed _ hSent := by cases hSent
  refused _ := rfl
  refusal _ := ⟨rfl, rfl⟩

/-- Unknown usage fits any call of an attempt that was not refused. -/
theorem Fits.of_unknown (call : Option ProviderCall) {outcome : String}
    (hOutcome : outcome ∉ refusals) (hReported : outcome ≠ "reserved") :
    Fits call false none outcome where
  reported := hReported
  unsent _ _ hReport := by cases hReport
  billed _ _ _ hReport := by cases hReport
  refused h := by cases h
  refusal h := absurd h hOutcome

/-- An error of sending or receiving settles as unknown. -/
theorem settlementOf_transport {error : HostedError} (h : error.transport = true) :
    settlementOf (.error error) = (none, "unknown") := by
  cases error with
  | budgetExceeded refusal => cases h
  | providerFailure failure => cases h
  | httpStatus code => cases h
  | _ => rfl

/-- What a response is read as releases nothing that it does not settle. -/
theorem settlementOf_read (generator : OpenAIGenerator) (count : Nat) (response : HttpResponse) :
    (settlementOf (generator.read count response)).2 ∉ refusals ∧
      (settlementOf (generator.read count response)).2 ≠ "reserved" ∧
      ∀ report, (settlementOf (generator.read count response)).1 = some report →
        response.settles generator.pydantic = some report.total := by
  unfold OpenAIGenerator.read
  cases hSuccess : response.isSuccess with
  | false =>
      simp only [Bool.not_false, ↓reduceIte, settlementOf, HttpResponse.settles, hSuccess,
        Bool.false_eq_true]
      split_ifs with hCode
      · simp [refusals]
      · exact ⟨by simp [refusals], by simp, fun _ h => by cases h⟩
  | true =>
      have hCode : ¬ (400 ≤ response.status ∧ response.status < 500) := by
        simp only [HttpResponse.isSuccess, Bool.and_eq_true, decide_eq_true_eq] at hSuccess
        omega
      simp only [Bool.not_true, Bool.false_eq_true, ↓reduceIte, HttpResponse.settles, hCode, hSuccess]
      cases response.body with
      | none => simp [settlementOf, refusals]
      | some data =>
          rcases generator.pydantic.parseResponse_cases data count response.requestId with
            ⟨failure, hNone, hReason, hUsage, hParse⟩ | ⟨usage, hUsage, ⟨result, -, hParse⟩ | hParse⟩
          · rcases hReason with hReason | hReason <;>
              simp [hParse, hUsage, Except.mapError, HostedError.ofParsing, settlementOf, refusals,
                hNone, hReason]
          · cases usage <;> simp [hParse, hUsage, Except.mapError, settlementOf, refusals]
          · cases usage <;>
              simp [hParse, hUsage, Except.mapError, HostedError.ofParsing, settlementOf, refusals]

/-- The attempt holds a slot of its process. -/
def Holding (deployment : Deployment) (state : HostedState) (attempt : Nat) : Prop :=
  attempt ∈ (state.processes (deployment.attempts attempt).process).holders

/-- The attempt holds its reservation and nothing else has happened yet. -/
structure Ready (state : HostedState) (attempt : Nat) (id : UUID) : Prop where
  record : state.records attempt = { reservation := some id }
  idle : state.Idle attempt

theorem HostedRely.ready {next : HostedState} {id : UUID}
    (rely : HostedRely deployment attempt state next) (h : Ready state attempt id) :
    Ready next attempt id :=
  ⟨rely.record.trans h.record, rely.idle h.idle⟩

/-- A refused attempt raises its reason with no usage, whatever else it has seen. -/
theorem classified_of_refusal {id : UUID} {reason : String}
    (hHeld : (state.records attempt).reservation = some id) (hIdle : state.Idle attempt)
    (hReason : reason ∈ refusals) :
    Classified deployment state attempt id (.error (.providerFailure ⟨reason, some {}⟩)) := by
  refine ⟨hHeld, hIdle.1, ?_⟩
  rw [hIdle.2]
  exact Fits.of_refusal _ hReason

/-- An attempt with a key that holds its reservation and was not refused. -/
structure Admitted (deployment : Deployment) (state : HostedState) (attempt : Nat) (id : UUID) :
    Prop where
  held : (state.records attempt).reservation = some id
  refused : deployment.refused state.records attempt = false
  unsettled : settledBy state.ledger state.records attempt = none

theorem HostedRely.admitted {next : HostedState} {id : UUID}
    (rely : HostedRely deployment attempt state next) (h : Admitted deployment state attempt id) :
    Admitted deployment next attempt id :=
  ⟨rely.record ▸ h.held, (deployment.refused_congr (congrArg _ rely.record)).trans h.refused,
    rely.settled.trans h.unsettled⟩

theorem Ready.admitted {id : UUID} (ready : Ready state attempt id)
    (hKey : deployment.primary.key.isEmpty = false) : Admitted deployment state attempt id := by
  refine ⟨by rw [ready.record], ?_, ready.idle.1⟩
  rw [Deployment.refused, ready.record, hKey]
  rfl

/-- A sent call leaves unknown usage to settle until a response is read. -/
theorem Admitted.classified_of_unknown {id : UUID} (admitted : Admitted deployment state attempt id)
    {outcome : Except HostedError Generation}
    (hOutcome : settlementOf outcome = (none, "unknown")) :
    Classified deployment state attempt id outcome := by
  refine ⟨admitted.held, admitted.unsettled, ?_⟩
  rw [admitted.refused, hOutcome]
  exact Fits.of_unknown _ (by simp [refusals]) (by simp)

/-- What a received response is read as fits the call it has made final. -/
theorem Admitted.classified_of_response {id : UUID}
    (admitted : Admitted deployment state attempt id) {call : ProviderCall}
    (hCall : state.callOf attempt = some call) {generator : OpenAIGenerator}
    {response : HttpResponse} (hFinal : ∀ billed,
      response.settles generator.pydantic = some billed → call.final = true ∧ call.billed = billed)
    (count : Nat) : Classified deployment state attempt id (generator.read count response) := by
  obtain ⟨hRefusal, hReported, hReport⟩ := settlementOf_read generator count response
  refine ⟨admitted.held, admitted.unsettled,
    ⟨hReported, ?_, ?_, ?_, fun h => absurd h hRefusal⟩⟩
  · intro hNone
    rw [hNone] at hCall
    cases hCall
  · intro sent hSent report hUsage
    obtain rfl : call = sent := Option.some.inj (hCall.symm.trans hSent)
    obtain ⟨hDone, hBilled⟩ := hFinal _ (hReport report hUsage)
    exact ⟨hDone, hBilled.symm⟩
  · intro hRefused
    rw [admitted.refused] at hRefused
    cases hRefused

/-- The one HTTP call of an attempt leaves an outcome that can be settled. -/
theorem safe_call {id : UUID} (question : Text) (passages : List Text)
    (admitted : Admitted deployment state attempt id) (hIdle : state.Idle attempt)
    (holding : Holding deployment state attempt) :
    deployment.discipline.Safe attempt (deployment.primary.call question passages)
      (fun outcome now => Classified deployment now attempt id outcome ∧
        Holding deployment now attempt) state := by
  unfold OpenAIGenerator.call
  split_ifs with hEmpty
  · exact ⟨admitted.classified_of_unknown rfl, holding⟩
  refine Discipline.Safe.bind (Discipline.Safe.perform fun now rely invariant => ?_)
  have hAdmitted := rely.admitted admitted
  have hHolding : Holding deployment now attempt := rely.slot _ holding
  refine ⟨⟨rely.idle hIdle, hAdmitted.refused, id, hAdmitted.held⟩,
    fun choice answer sent hSend _ => ?_⟩
  rcases Deployment.perform_send hSend with ⟨rfl, rfl⟩ | ⟨error, hError, rfl, rfl⟩
  · have hSent : Admitted deployment (now.send attempt) attempt id :=
      ⟨hAdmitted.held, hAdmitted.refused, hAdmitted.unsettled⟩
    refine Discipline.Safe.bind (Discipline.Safe.perform fun later rely invariant => ?_)
    have hLater := rely.admitted hSent
    have hLaterHolds : Holding deployment later attempt := rely.slot _ hHolding
    refine ⟨hLater.unsettled, fun choice answer received hReceive _ => ?_⟩
    rcases Deployment.perform_receive hReceive with
      ⟨response, rfl, hResponse⟩ | ⟨error, hError, rfl, rfl⟩
    · obtain ⟨-, hLedger, hRecords, hProcesses, call, hCall, hFinal⟩ :=
        invariant.receive hLater.unsettled hResponse
      have hReceived : Admitted deployment received attempt id := by
        refine ⟨?_, ?_, ?_⟩
        · rw [hRecords, hLater.held]
        · rw [hRecords, hLater.refused]
        · rw [hLedger, hRecords, hLater.unsettled]
      refine ⟨hReceived.classified_of_response hCall hFinal _, ?_⟩
      rw [Holding, hProcesses]
      exact hLaterHolds
    · exact ⟨hLater.classified_of_unknown (settlementOf_transport hError), hLaterHolds⟩
  · exact ⟨hAdmitted.classified_of_unknown (settlementOf_transport hError), hHolding⟩

/-- Reporting to the breaker disturbs neither an outcome nor a slot. -/
theorem safe_finishTicket {id : UUID} {outcome : Except HostedError Generation} (ticket : Nat)
    (success : Bool) (classified : Classified deployment state attempt id outcome)
    (holding : Holding deployment state attempt) :
    deployment.discipline.Safe attempt (Hosted.finishTicket ticket success)
      (fun answer now => answer = .ok () ∧ Classified deployment now attempt id outcome ∧
        Holding deployment now attempt) state := by
  refine Discipline.Safe.perform fun now rely _ => ⟨trivial, fun choice answer next h _ => ?_⟩
  obtain ⟨clock, rfl, rfl⟩ := Deployment.perform_finishTicket h
  have hHolding : Holding deployment now attempt := rely.slot _ holding
  obtain ⟨hHeld, hUnsettled, hFits⟩ := rely.classified classified
  refine ⟨rfl, ⟨hHeld, hUnsettled, hFits⟩, ?_⟩
  rw [Holding, HostedState.finishTicket, HostedState.onProcess_self]
  exact hHolding

/-- A counted failure reaches the breaker and goes on as it was. -/
theorem safe_report {id : UUID} {error : HostedError} (ticket : Nat)
    (classified : Classified deployment state attempt id (.error error))
    (holding : Holding deployment state attempt) :
    deployment.discipline.Safe attempt (OpenAIGenerator.report ticket error)
      (fun outcome now => outcome = .error error ∧ Classified deployment now attempt id outcome ∧
        Holding deployment now attempt) state := by
  unfold OpenAIGenerator.report
  split_ifs
  · refine Discipline.Safe.bind ((safe_finishTicket ticket false classified holding).mono ?_)
    rintro _ now ⟨rfl, hClassified, hHolding⟩
    exact ⟨rfl, hClassified, hHolding⟩
  · exact ⟨rfl, classified, holding⟩

/-- Behind its slot an attempt either is refused by the breaker or makes its call. -/
theorem safe_admitted {id : UUID} (question : Text) (passages : List Text)
    {ticket : Option Nat} (hHeld : (state.records attempt).reservation = some id)
    (hIdle : state.Idle attempt)
    (hTicket : ticket.isSome = true → Admitted deployment state attempt id)
    (holding : Holding deployment state attempt) :
    deployment.discipline.Safe attempt
      (deployment.primary.admitted question passages ticket)
      (fun outcome now => Classified deployment now attempt id outcome ∧ Holding deployment now attempt)
      state := by
  cases ticket with
  | none => exact ⟨classified_of_refusal hHeld hIdle (by simp [refusals]), holding⟩
  | some ticket =>
      -- the result of the call, or its failure once it has been reported
      have hCall : deployment.discipline.Safe attempt
          ((deployment.primary.call question passages).tryCatch (OpenAIGenerator.report ticket))
          (fun outcome now => Classified deployment now attempt id outcome ∧ Holding deployment now attempt)
          state := by
        refine Discipline.Safe.tryCatch ((safe_call question passages (hTicket rfl) hIdle holding).mono ?_)
        rintro (error | result) now ⟨hClassified, hHolding⟩
        · exact (safe_report ticket hClassified hHolding).mono fun _ _ h => h.2
        · exact ⟨hClassified, hHolding⟩
      refine Discipline.Safe.bind (hCall.mono ?_)
      rintro (error | result) now ⟨hClassified, hHolding⟩
      · exact ⟨hClassified, hHolding⟩
      · refine Discipline.Safe.bind
          ((safe_finishTicket ticket true hClassified hHolding).mono ?_)
        rintro _ later ⟨rfl, hLater⟩
        exact hLater

/-- Every outcome of the hosted generator can be settled. -/
theorem safe_generate {id : UUID} (question : Text) (passages : List Text)
    (ready : Ready state attempt id) :
    deployment.discipline.Safe attempt (deployment.primary.generate question passages)
      (fun outcome now => Classified deployment now attempt id outcome) state := by
  have hHeld : (state.records attempt).reservation = some id := by rw [ready.record]
  unfold OpenAIGenerator.generate
  split_ifs with hKey
  · exact classified_of_refusal hHeld ready.idle (by simp [refusals])
  refine Discipline.Safe.bind (Discipline.Safe.perform fun now rely invariant => ?_)
  have hReady := rely.ready ready
  refine ⟨hReady.idle, fun choice answer next hPerform _ => ?_⟩
  obtain ⟨slot, rfl, hSlot⟩ := Deployment.perform_acquireSlot hPerform
  obtain ⟨-, hIdle, ⟨rfl, hRecords, hHolds⟩ | ⟨rfl, hRecords⟩⟩ :=
    invariant.acquireSlot hReady.idle hSlot
  · have hNext : Ready next attempt id := ⟨by rw [hRecords, hReady.record], hIdle⟩
    refine Discipline.Safe.bind (Discipline.Safe.perform fun later rely invariant => ?_)
    have hLater := rely.ready hNext
    have hLaterHolds : Holding deployment later attempt := rely.slot _ hHolds
    refine ⟨hLater.idle, fun choice answer after hPerform _ => ?_⟩
    obtain ⟨clock, ticket, rfl, hTicket⟩ := Deployment.perform_acquireTicket hPerform
    obtain ⟨-, hAfterIdle, hHolders, hCases⟩ := invariant.acquireTicket hLater.idle hTicket
    have hAfterHeld : (after.records attempt).reservation = some id := by
      rcases hCases with ⟨-, hSame⟩ | ⟨-, hSame⟩ <;> rw [hSame, hLater.record]
    have hAfterTicket : ticket.isSome = true → Admitted deployment after attempt id := by
      intro hIssued
      rcases hCases with ⟨-, hSame⟩ | ⟨rfl, -⟩
      · exact Ready.admitted ⟨by rw [hSame, hLater.record], hAfterIdle⟩ (by simpa using hKey)
      · cases hIssued
    have hAfterHolds : Holding deployment after attempt := by
      rw [Holding, hHolders]
      exact hLaterHolds
    refine Discipline.Safe.tryFinally
      ((safe_admitted question passages hAfterHeld hAfterIdle hAfterTicket hAfterHolds).mono ?_)
    rintro outcome settled ⟨hClassified, hHolding⟩
    refine Discipline.Safe.perform fun ready rely invariant => ?_
    have hReadyHolds : Holding deployment ready attempt := rely.slot _ hHolding
    refine ⟨hReadyHolds, fun choice answer released hPerform _ => ?_⟩
    obtain ⟨-, rfl, hLedger, hRecords, hCalls⟩ :=
      invariant.releaseSlot hReadyHolds (Deployment.perform_releaseSlot hPerform)
    obtain ⟨hReservation, hUnsettled, hFits⟩ := rely.classified hClassified
    refine ⟨by rw [hRecords, hReservation], by rw [hLedger, hRecords, hUnsettled], ?_⟩
    rw [HostedState.callOf, hCalls, hRecords]
    exact hFits
  · refine classified_of_refusal ?_ hIdle (by simp [refusals])
    rw [hRecords, hReady.record]

/-- Nothing has happened to the attempt yet. -/
def Fresh (state : HostedState) (attempt : Nat) : Prop :=
  state.records attempt = {} ∧ state.callOf attempt = none

/-- Settling a classified outcome finishes the attempt, whatever the ledger answers. -/
theorem safe_settle {id : UUID} {outcome : Except HostedError Generation}
    (classified : Classified deployment state attempt id outcome) :
    deployment.discipline.Safe attempt
      (deployment.generator.settle (deployment.attempts attempt).tenant (some id) outcome)
      (fun _ now => now.Finished attempt) state := by
  refine Discipline.Safe.perform fun now rely invariant => ?_
  obtain ⟨hHeld, hUnsettled, hFits⟩ := rely.classified classified
  have guard : HostedGuard deployment attempt now (.settle (deployment.attempts attempt).tenant id
      (settlementOf outcome).1 (settlementOf outcome).2) := ⟨rfl, hHeld, hUnsettled, hFits⟩
  refine ⟨guard, fun choice answer next hPerform _ => ?_⟩
  obtain ⟨ending, hSettle⟩ := Deployment.perform_settle hPerform
  exact (invariant.settle guard ending hSettle).2

/-- A hosted attempt settles every outcome under the reservation it was answered. -/
theorem safe_hosted (question : Text) (passages : List Text) (fresh : Fresh state attempt) :
    deployment.discipline.Safe attempt
      (deployment.generator.hosted (deployment.attempts attempt).tenant question passages)
      (fun _ now => now.Finished attempt) state := by
  have hNothing {now : HostedState} (h : now.records attempt = {}) : now.Finished attempt := by
    intro id hId
    rw [h] at hId
    cases hId
  unfold FallbackGenerator.hosted
  cases deployment.generator.bound question passages with
  | none => exact hNothing fresh.1
  | some bound =>
      refine Discipline.Safe.bind (Discipline.Safe.bind
        (Discipline.Safe.perform fun now rely invariant => ?_))
      have hNoCall := rely.call
      rw [fresh.2] at hNoCall
      have guard : HostedGuard deployment attempt now (.reserve
          (deployment.attempts attempt).tenant bound deployment.generator.model) :=
        ⟨rfl, rely.record.trans fresh.1, hNoCall⟩
      refine ⟨guard, fun choice answer next hPerform _ => ?_⟩
      obtain ⟨today, identifier, ending, hReserve⟩ := Deployment.perform_reserve hPerform
      obtain ⟨-, ⟨id, rfl, hRecord, hIdle⟩ | ⟨error, rfl, hRecord⟩⟩ :=
        invariant.reserve guard today identifier ending hReserve
      · refine Discipline.Safe.andThen ((safe_generate question passages ⟨hRecord, hIdle⟩).mono ?_)
        intro outcome settled hClassified
        refine Discipline.Safe.andThen ((safe_settle hClassified).mono ?_)
        rintro (error | result) done hFinished
        · exact hFinished
        · exact hFinished
      · exact hNothing hRecord

/-- A whole attempt leaves its reservation settled, unless the ledger fails it. -/
theorem safe_attempt (question : Text) (passages : List Text) (fresh : Fresh state attempt) :
    deployment.discipline.Safe attempt
      (deployment.generator.generate (deployment.attempts attempt).tenant question passages)
      (fun _ now => now.Finished attempt) state := by
  unfold FallbackGenerator.generate
  split_ifs
  · refine Discipline.Safe.tryCatch (Discipline.Safe.bind
      ((safe_hosted question passages fresh).mono ?_))
    rintro (error | result) now hFinished
    · cases hFallback : fallbackFor error with
      | none =>
          simp only [hFallback]
          exact hFinished
      | some report =>
          simp only [hFallback]
          exact hFinished
    · exact hFinished
  · intro id hId
    rw [fresh.1] at hId
    cases hId

theorem pool_safe (deployment : Deployment) :
    deployment.discipline.PoolSafe (fun attempt _ state => state.Finished attempt)
      deployment.pool := by
  refine ⟨⟨start_accounts deployment, fun _ => rfl⟩, fun attempt program hProgram => ?_⟩
  cases hProgram
  exact safe_attempt _ _ ⟨rfl, rfl⟩

/-- Whatever the attempts have done, the invariant holds and every attempt that came to
an outcome is finished with its reservation. -/
theorem run_safe {actions : List (Action Nat HostedChoice HostedEvent)}
    {pool : Pool Nat HostedState HostedCall HostedCall.Response HostedError
      (Generation × GenerationInfo)}
    (hRun : Transition.run (Pool.step deployment.environment) actions deployment.pool =
      some pool) :
    deployment.discipline.PoolSafe (fun attempt _ state => state.Finished attempt) pool := by
  have hStable : ∀ attempt (_ : Except HostedError (Generation × GenerationInfo)) state now,
      HostedRely deployment attempt state now → state.Finished attempt → now.Finished attempt :=
    fun _ _ _ _ rely => rely.finished
  exact (pool_safe deployment).run hStable hRun

/-- What a row still holds or has been charged. -/
def held (settled : List Settlement) (row : UsageRow) : Int :=
  if row.outcome = "reserved" then row.reservedTokens else chargedFor settled row

theorem outstanding_add_spent (settled : List Settlement) (key : String × Day)
    (usage : List UsageRow) : outstanding key usage + spent settled key usage =
      sumWhere (fun row => row.budget = key) (held settled) usage := by
  induction usage with
  | nil => rfl
  | cons row usage ih =>
      simp only [outstanding, spent, sumWhere_cons] at ih ⊢
      rw [← ih]
      by_cases hKey : row.budget = key
      · by_cases hOutcome : row.outcome = "reserved"
        · simp only [hKey, hOutcome, held, decide_true, Bool.and_self, ↓reduceIte, ne_eq,
            not_true_eq_false, decide_false, Bool.and_false, Bool.false_eq_true]
          omega
        · simp only [hKey, hOutcome, held, decide_true, Bool.and_self, ↓reduceIte, ne_eq,
            not_false_eq_true, decide_false, Bool.and_false, Bool.false_eq_true]
          omega
      · simp only [hKey, decide_false, Bool.false_and, Bool.false_eq_true, ↓reduceIte]
        omega

/-- A call is billed no more than its reservation still holds or was charged. -/
theorem HostedInvariant.billed_le_held (invariant : HostedInvariant deployment state)
    {call : ProviderCall} (hCall : call ∈ state.calls) {row : UsageRow}
    (hRow : row ∈ state.ledger.tables.llmUsage) (hId : call.reservation = some row.id) :
    (call.billed : Int) ≤ held state.ledger.settled row := by
  have hBound := invariant.accounts.callBound call hCall row hRow hId
  rw [held]
  split_ifs with hOutcome
  · exact hBound
  · obtain ⟨settlement, hSettlement, hSame⟩ :=
      invariant.accounts.counters.rowsSettled row hRow hOutcome
    rw [LedgerSession.chargedFor_of_mem invariant.accounts.counters.settledOnce hSettlement hSame]
    obtain ⟨id, hCallId, hHeld⟩ := invariant.accounts.callHeld call hCall
    obtain rfl : id = row.id := Option.some.inj (hCallId.symm.trans hId)
    have hSettled : settledBy state.ledger state.records call.attempt = some settlement := by
      rw [settledBy, hHeld, Option.bind_some]
      exact invariant.accounts.counters.settledOnce.select_eq_some.mpr ⟨hSettlement, hSame⟩
    have hSelect : select ProviderCall.attempt call.attempt state.calls = some call :=
      invariant.accounts.callsOnce.select_eq_some.mpr ⟨hCall, rfl⟩
    have fits := invariant.accounts.fits _ _ hSettled
    cases hUsage : settlement.usage with
    | none => exact hBound
    | some report =>
        have hTotal := (fits.billed call hSelect report hUsage).2
        simp only [UsageRow.charge, hTotal, le_refl]

/-- No two calls are sent under one reservation. -/
theorem HostedInvariant.reservations_keyed (invariant : HostedInvariant deployment state) :
    Keyed ProviderCall.reservation state.calls := by
  have hNodup : state.calls.Nodup := List.Nodup.of_map _ invariant.accounts.callsOnce
  refine List.Nodup.map_on (fun first hFirst second hSecond hSame => ?_) hNodup
  obtain ⟨id, hId, hHeld⟩ := invariant.accounts.callHeld first hFirst
  obtain ⟨other, hOther, hOtherHeld⟩ := invariant.accounts.callHeld second hSecond
  obtain rfl : id = other := Option.some.inj (hId.symm.trans (hSame.trans hOther))
  exact invariant.accounts.callsOnce.eq_of_key hFirst hSecond
    (invariant.accounts.heldOnce _ _ id hHeld hOtherHeld)

/-- A call's reservation is a committed row of its attempt's tenant. -/
theorem HostedInvariant.call_row (invariant : HostedInvariant deployment state)
    {call : ProviderCall} (hCall : call ∈ state.calls) :
    ∃ row ∈ state.ledger.tables.llmUsage, call.reservation = some row.id ∧
      row.tenantId = (deployment.attempts call.attempt).tenant ∧
      state.reservationOf call = some row := by
  obtain ⟨id, hId, hHeld⟩ := invariant.accounts.callHeld call hCall
  obtain ⟨row, hRow, rfl, hTenant⟩ := invariant.accounts.heldRow call.attempt id hHeld
  refine ⟨row, hRow, hId, hTenant, ?_⟩
  rw [HostedState.reservationOf, hId, Option.bind_some]
  exact invariant.accounts.counters.usage.select_eq_some.mpr ⟨hRow, rfl⟩

/-- What was billed under a day's reservations is covered by its counters. -/
theorem HostedInvariant.billed_le (invariant : HostedInvariant deployment state)
    (key : String × Day) :
    state.billed key ≤ state.ledger.charged key + state.ledger.reserved key := by
  obtain ⟨hReserved, hCharged⟩ := invariant.accounts.counters.counters key
  rw [hReserved, hCharged, add_comm, outstanding_add_spent, HostedState.billed]
  refine sumWhere_le_of_image (fun row : UsageRow => some row.id) invariant.reservations_keyed
    ?_ ?_
  · intro call hCall hKey
    obtain ⟨row, hRow, hId, -, hRowOf⟩ := invariant.call_row hCall
    rw [hRowOf, Option.any_some] at hKey
    exact ⟨row, hRow, hId.symm, hKey, invariant.billed_le_held hCall hRow hId⟩
  · intro row hRow _
    rw [held]
    split_ifs
    · exact (invariant.accounts.counters.positive row hRow).le
    · exact invariant.accounts.counters.chargedFor_nonneg hRow _

/-- Every settlement reports at most what its row reserved: nothing where nothing was
sent, and otherwise what the call was billed. -/
theorem HostedInvariant.reportsWithin (invariant : HostedInvariant deployment state)
    (key : String × Day) : state.ledger.ReportsWithin key := by
  intro settlement hSettlement row hRow hId _
  have hPositive := invariant.accounts.counters.positive row hRow
  obtain ⟨attempt, hHeld⟩ := invariant.accounts.settledHeld settlement hSettlement
  have hSettled : settledBy state.ledger state.records attempt = some settlement := by
    rw [settledBy, hHeld, Option.bind_some]
    exact invariant.accounts.counters.settledOnce.select_eq_some.mpr ⟨hSettlement, rfl⟩
  have fits := invariant.accounts.fits attempt settlement hSettled
  cases hUsage : settlement.usage with
  | none => exact le_refl _
  | some report =>
      show (report.total : Int) ≤ row.reservedTokens
      cases hCall : select ProviderCall.attempt attempt state.calls with
      | none =>
          rw [fits.unsent hCall report hUsage]
          exact hPositive.le
      | some call =>
          obtain ⟨hMem, hAttempt⟩ := select_mem hCall
          obtain ⟨id, hCallId, hCallHeld⟩ := invariant.accounts.callHeld call hMem
          rw [hAttempt, hHeld, Option.some.injEq] at hCallHeld
          rw [(fits.billed call hCall report hUsage).2]
          refine invariant.accounts.callBound call hMem row hRow ?_
          rw [hCallId, ← hCallHeld, hId]

theorem HostedInvariant.within_limit (invariant : HostedInvariant deployment state)
    (key : String × Day) :
    state.ledger.charged key + state.ledger.reserved key ≤ deployment.ledger.limit := by
  rw [LedgerSession.charged, LedgerSession.reserved]
  cases hSelect : select BudgetRow.key key state.ledger.tables.llmBudgets with
  | none => exact Int.natCast_nonneg deployment.settings.llmDailyTokens
  | some budget =>
      obtain ⟨hMem, rfl⟩ := select_mem hSelect
      exact invariant.accounts.counters.limited budget hMem (invariant.reportsWithin budget.key)

/-- For any number of processes and attempts, whatever fails, crashes or is billed late:
the tokens billed under a day's reservations stay within its counters and those within
the limit; every call sent has a committed reservation of its tenant; what is settled
as refused is settled at nothing and was never sent, and so is every attempt without a
key, slot or ticket; and an attempt that ends has settled, unless the ledger failed it. -/
theorem no_overspend (deployment : Deployment)
    (actions : List (Action Nat HostedChoice HostedEvent))
    (pool : Pool Nat HostedState HostedCall HostedCall.Response HostedError
      (Generation × GenerationInfo))
    (hRun : Transition.run (Pool.step deployment.environment) actions deployment.pool =
      some pool) :
    (∀ key, pool.state.billed key ≤
        pool.state.ledger.charged key + pool.state.ledger.reserved key ∧
      pool.state.ledger.charged key + pool.state.ledger.reserved key ≤
        deployment.settings.llmDailyTokens) ∧
    (∀ call ∈ pool.state.calls, ∃ row ∈ pool.state.ledger.tables.llmUsage,
      call.reservation = some row.id ∧
        row.tenantId = (deployment.attempts call.attempt).tenant) ∧
    (∀ settlement ∈ pool.state.ledger.settled, settlement.outcome ∈ refusals →
      settlement.usage = some {} ∧
        ∀ call ∈ pool.state.calls, call.reservation ≠ some settlement.reservation) ∧
    (∀ attempt, deployment.refused pool.state.records attempt = true →
      (∀ call ∈ pool.state.calls, call.attempt ≠ attempt) ∧
        ∀ settlement, settledBy pool.state.ledger pool.state.records attempt = some settlement →
          settlement.usage = some {}) ∧
    (∀ attempt outcome, pool.programs attempt = some (.done outcome) →
      pool.state.Finished attempt) := by
  obtain ⟨invariant, hPrograms⟩ := run_safe hRun
  have invariant : HostedInvariant deployment pool.state := invariant
  refine ⟨fun key => ⟨invariant.billed_le key, invariant.within_limit key⟩, ?_, ?_, ?_, ?_⟩
  · intro call hCall
    obtain ⟨row, hRow, hId, hTenant, -⟩ := invariant.call_row hCall
    exact ⟨row, hRow, hId, hTenant⟩
  · intro settlement hSettlement hRefusal
    obtain ⟨attempt, hHeld⟩ := invariant.accounts.settledHeld settlement hSettlement
    have hSettled : settledBy pool.state.ledger pool.state.records attempt = some settlement := by
      rw [settledBy, hHeld, Option.bind_some]
      exact invariant.accounts.counters.settledOnce.select_eq_some.mpr ⟨hSettlement, rfl⟩
    obtain ⟨hUsage, hNoCall⟩ :=
      (invariant.accounts.fits attempt settlement hSettled).refusal hRefusal
    refine ⟨hUsage, fun call hCall hSame => ?_⟩
    obtain ⟨id, hCallId, hCallHeld⟩ := invariant.accounts.callHeld call hCall
    obtain rfl : id = settlement.reservation := Option.some.inj (hCallId.symm.trans hSame)
    exact select_eq_none.mp hNoCall call hCall
      (invariant.accounts.heldOnce _ _ _ hCallHeld hHeld)
  · intro attempt hRefused
    refine ⟨select_eq_none.mp (invariant.accounts.refusedUnsent attempt hRefused), ?_⟩
    intro settlement hSettled
    exact (invariant.accounts.fits attempt settlement hSettled).refused hRefused
  · intro attempt outcome hDone
    exact hPrograms attempt _ hDone

/-- Two attempts for the same passage, with validation of plain integers and of one
abstention. -/
def abstaining : Deployment where
  settings := { apiKey := "key", openaiModel := "model", llmMaxOutputTokens := 700,
                llmConcurrency := 1, llmDailyTokens := 250000,
                breaker := .default }
  pydantic :=
    { int := fun value => match value with
        | .int number => some number
        | _ => none
      generation := fun body =>
        if body = text "abstain" then some { answer := [], supported := false } else none }
  fallback := fun _ _ => { answer := [], supported := false }
  attempts := fun _ =>
    { process := 0, tenant := "acme", question := text "why?", passages := [text "because"] }

/-- A completed abstention that reports 50 tokens. -/
def abstention : HttpResponse where
  status := 200
  body := some (.dict
    [(text "status", .str (text "completed")),
     (text "usage", .dict [(text "input_tokens", .int 40), (text "output_tokens", .int 10)]),
     (text "output", .list [.dict
       [(text "type", .str (text "message")),
        (text "content", .list [.dict
          [(text "type", .str (text "output_text")), (text "text", .str (text "abstain"))]])]])])

/-- One attempt completes while another is refused for want of a slot. -/
def abstainingRun : List (Action Nat HostedChoice HostedEvent) :=
  [.advance 0 (.reserved 7 ⟨1⟩ .committed), .advance 0 .slot,
   .advance 1 (.reserved 7 ⟨2⟩ .committed), .advance 0 (.clock 0), .advance 0 .sent,
   .advance 1 .slot, .event (.bill 0 50), .advance 1 (.settled .committed),
   .advance 0 (.response abstention), .advance 0 (.clock 1), .advance 0 .slot,
   .advance 0 (.settled .committed)]

theorem no_overspend_abstaining :
    ∃ pool, Transition.run (Pool.step abstaining.environment) abstainingRun abstaining.pool =
        some pool ∧
      pool.state.billed ("acme", 7) = 50 ∧ pool.state.ledger.charged ("acme", 7) = 50 ∧
      pool.state.ledger.reserved ("acme", 7) = 0 ∧
      pool.state.billed ("acme", 7) ≤
        pool.state.ledger.charged ("acme", 7) + pool.state.ledger.reserved ("acme", 7) := by
  refine ⟨_, rfl, by decide, by decide, by decide, ?_⟩
  exact ((no_overspend abstaining abstainingRun _ rfl).1 ("acme", 7)).1

end DocInsight.Query
