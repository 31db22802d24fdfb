import DocInsight.Contracts.Usage
import DocInsight.Library.Interaction
import DocInsight.Python.Json
import DocInsight.Query.Breaker
import DocInsight.Query.Usage

/-! The hosted provider's adapter: billing and answer are read from a response, and
one admitted attempt makes one HTTP call. -/
namespace DocInsight.Query

open DocInsight.Contracts DocInsight.Python Interaction

structure Generation where
  answer : Text
  supported : Bool
  citedPassageIndexes : List Int := []
  usage : Option TokenUsage := none

structure ProviderFailure where
  reason : String
  usage : Option TokenUsage := none
  deriving DecidableEq, Repr

/-- What leaves the parsing of a response as an exception. -/
inductive ParseError where
  | providerFailure (failure : ProviderFailure)
  | raised (raised : Raised)
  deriving DecidableEq, Repr

/-- `except (ValueError, KeyError, TypeError, AttributeError)`: raise the failure instead. -/
def expecting {Result : Type} (failure : ProviderFailure) :
    Except Raised Result → Except ParseError Result
  | .ok result => .ok result
  | .error raised =>
      .error (if raised.expected then .providerFailure failure else .raised raised)

/-- A part that raises nothing else ends in its result or in that failure. -/
theorem expecting_eq {Result : Type} {outcome : Except Raised Result} (h : RaisesExpected outcome)
    (failure : ProviderFailure) :
    expecting failure outcome = outcome.mapError fun _ => .providerFailure failure := by
  cases outcome with
  | ok result => rfl
  | error raised => rw [expecting, if_pos (h raised rfl), Except.mapError]

/-- What pydantic makes of a field or a document; its lax coercions are its own. Whatever
it does not accept raises a validation error, which is a value error. -/
structure Pydantic where
  int : Json → Option Int
  generation : Text → Option Generation

namespace Pydantic

/-- An integer field that must not be negative. -/
def count (pydantic : Pydantic) (value : Json) : Except Raised Nat :=
  match pydantic.int value with
  | some number => if 0 ≤ number then .ok number.toNat else .error (.value "greater_than_equal")
  | none => .error (.value "int_type")

/-- Billing of a usage object, checked as a whole: partial billing is unknown. -/
def usage (pydantic : Pydantic) (raw : Json) (requestId : Option String) :
    Except Raised TokenUsage := do
  let details ← raw.get "input_tokens_details"
  let details := if details.truthy then details else .dict []
  let inputTokens ← pydantic.count (← raw.item "input_tokens")
  let outputTokens ← pydantic.count (← raw.item "output_tokens")
  let cachedInputTokens ← pydantic.count (← details.getOr "cached_tokens" (.int 0))
  if cachedInputTokens > inputTokens then .error (.value "Invalid cache usage")
  else .ok { inputTokens, outputTokens, cachedInputTokens, requestId }

/-- Billing independently of the answer, so that invalid output still gets accounted. -/
def responseUsage (pydantic : Pydantic) (data : Json) (requestId : Option String) :
    Except ParseError (Option TokenUsage) :=
  match data with
  | .dict fields =>
      match (fields.lookup (text "usage")).getD .null with
      | .null => .ok none
      -- Partial billing is unknown, not zero; the ledger charges the reservation.
      | raw => some <$> expecting { reason := "invalid_usage" } (pydantic.usage raw requestId)
  | _ => .error (.providerFailure { reason := "invalid_output" })

theorem expected_count (pydantic : Pydantic) (value : Json) :
    RaisesExpected (pydantic.count value) := by
  unfold count
  cases pydantic.int value with
  | none => simp [Raised.expected]
  | some number => exact .ite (by simp) (by simp [Raised.expected])

theorem expected_usage (pydantic : Pydantic) (raw : Json) (requestId : Option String) :
    RaisesExpected (pydantic.usage raw requestId) := by
  refine (Json.expected_get _ raw).bind fun details _ => ?_
  refine (Json.expected_item _ raw).bind fun input _ => ?_
  refine (pydantic.expected_count input).bind fun inputTokens _ => ?_
  refine (Json.expected_item _ raw).bind fun output _ => ?_
  refine (pydantic.expected_count output).bind fun outputTokens _ => ?_
  refine (Json.expected_getOr _ _ _).bind fun cached _ => ?_
  refine (pydantic.expected_count cached).bind fun cachedInputTokens _ => ?_
  exact .ite (by simp [Raised.expected]) (by simp)

/-- Billing that cannot be read is unknown, never a partial amount. -/
theorem responseUsage_error {pydantic : Pydantic} {data : Json} {requestId : Option String}
    {error : ParseError} (h : pydantic.responseUsage data requestId = .error error) :
    error = .providerFailure { reason := "invalid_usage" } ∨
      error = .providerFailure { reason := "invalid_output" } := by
  unfold responseUsage at h
  split at h
  · rename_i fields
    generalize (fields.lookup (text "usage")).getD .null = raw at h
    split at h
    · cases h
    · rw [expecting_eq (pydantic.expected_usage raw requestId)] at h
      cases hRaw : pydantic.usage raw requestId with
      | ok usage =>
          rw [hRaw] at h
          cases h
      | error raised =>
          rw [hRaw] at h
          cases h
          exact Or.inl rfl
  · cases h
    exact Or.inr rfl

/-- The content parts of every message in the output, in order. -/
def messageParts (data : Json) : Except Raised (List Json) := do
  let items ← (← data.item "output").iterate
  let parts ← items.mapM fun item => do
    if (← item.get "type").isText "message" then (← item.item "content").iterate
    else .ok []
  return parts.flatten

/-- The text of one part; only an output text contributes, and it must be a string. -/
def partText (part : Json) : Except Raised Text := do
  if (← part.get "type").isText "output_text" then
    match ← part.item "text" with
    | .str value => .ok value
    | _ => .error .type
  else .ok []

/-- Completion, refusal, citations and abstention of a response, without its usage. -/
def answer (pydantic : Pydantic) (data : Json) (count : Nat) : Except Raised Generation := do
  if !(← data.get "status").isText "completed" then .error (.value "incomplete")
  else
    let contents ← messageParts data
    let types ← contents.mapM (·.get "type")
    if types.any (·.isText "refusal") then .error (.value "refused")
    else
      let texts ← contents.mapM partText
      match pydantic.generation texts.flatten with
      | none => .error (.value "validation")
      | some result =>
          let indexes := result.citedPassageIndexes.eraseDups
          if result.supported && ((strip result.answer).isEmpty || indexes.isEmpty ||
              indexes.any fun index => index < 0 || index ≥ count) then
            .error (.value "invalid citations")
          else if !result.supported && (!result.answer.isEmpty || !indexes.isEmpty) then
            .error (.value "inconsistent abstention")
          else .ok { result with citedPassageIndexes := indexes }

/-- Validate completion and citations while preserving the reported usage. -/
def parseResponse (pydantic : Pydantic) (data : Json) (count : Nat)
    (requestId : Option String) : Except ParseError Generation := do
  let usage ← pydantic.responseUsage data requestId
  let result ← expecting { reason := "invalid_output", usage } (pydantic.answer data count)
  return { result with usage }

theorem expected_messageParts (data : Json) : RaisesExpected (messageParts data) := by
  refine (Json.expected_item _ data).bind fun output _ => ?_
  refine (Json.expected_iterate output).bind fun items _ => ?_
  refine (Raising.Within.mapM fun item _ => ?_).bind fun parts _ => by simp
  refine (Json.expected_get _ item).bind fun kind _ => ?_
  refine .ite (fun _ => ?_) (by simp)
  exact (Json.expected_item _ item).bind fun content _ => Json.expected_iterate content

theorem expected_partText (part : Json) : RaisesExpected (partText part) := by
  refine (Json.expected_get _ part).bind fun kind _ => ?_
  refine .ite (fun _ => ?_) (by simp)
  refine (Json.expected_item _ part).bind fun value _ => ?_
  cases value <;> simp [Raised.expected]

theorem expected_answer (pydantic : Pydantic) (data : Json) (count : Nat) :
    RaisesExpected (pydantic.answer data count) := by
  refine (Json.expected_get _ data).bind fun status _ => ?_
  refine .ite (by simp [Raised.expected]) fun _ => ?_
  refine (expected_messageParts data).bind fun contents _ => ?_
  refine (Raising.Within.mapM fun part _ => Json.expected_get _ part).bind fun types _ => ?_
  refine .ite (by simp [Raised.expected]) fun _ => ?_
  refine (Raising.Within.mapM fun part _ => expected_partText part).bind fun texts _ => ?_
  cases pydantic.generation texts.flatten with
  | none => simp [Raised.expected]
  | some result =>
      refine .ite (by simp [Raised.expected]) fun _ => ?_
      exact .ite (by simp [Raised.expected]) (by simp)

/-- Billing that cannot be read fails with none; else every outcome carries what was read. -/
theorem parseResponse_cases (pydantic : Pydantic) (data : Json) (count : Nat)
    (requestId : Option String) :
    (∃ failure : ProviderFailure, failure.usage = none ∧
      (failure.reason = "invalid_usage" ∨ failure.reason = "invalid_output") ∧
      pydantic.responseUsage data requestId = .error (.providerFailure failure) ∧
      pydantic.parseResponse data count requestId = .error (.providerFailure failure)) ∨
    ∃ usage, pydantic.responseUsage data requestId = .ok usage ∧
      ((∃ result, pydantic.answer data count = .ok result ∧
          pydantic.parseResponse data count requestId = .ok { result with usage }) ∨
        pydantic.parseResponse data count requestId =
          .error (.providerFailure { reason := "invalid_output", usage })) := by
  unfold parseResponse
  cases hUsage : pydantic.responseUsage data requestId with
  | error error =>
      refine Or.inl ?_
      obtain rfl | rfl := responseUsage_error hUsage
      · exact ⟨_, rfl, Or.inl rfl, rfl, rfl⟩
      · exact ⟨_, rfl, Or.inr rfl, rfl, rfl⟩
  | ok usage =>
      refine Or.inr ⟨usage, rfl, ?_⟩
      cases hAnswer : pydantic.answer data count with
      | ok result => exact Or.inl ⟨result, rfl, rfl⟩
      | error raised =>
          have hExpected := pydantic.expected_answer data count raised hAnswer
          refine Or.inr ?_
          simp only [expecting, hExpected, ↓reduceIte]
          rfl

end Pydantic

/-- What a hosted attempt can raise. A provider failure is a value error too. -/
inductive HostedError where
  | budgetExceeded (refusal : BudgetExceeded)
  | providerFailure (failure : ProviderFailure)
  | httpStatus (code : Nat)
  | http (name : String)
  | value (message : String)
  | key
  | type
  | index
  | database
  | other (name : String)
  deriving DecidableEq, Repr

namespace HostedError

/-- The failures the breaker counts: `httpx.HTTPError, ValueError, KeyError, TypeError`. -/
def counted : HostedError → Bool
  | budgetExceeded _ | providerFailure _ | httpStatus _ | http _ | value _ | key | type => true
  | index | database | other _ => false

/-- An exception of the parsing, outside it. -/
def ofParsing : ParseError → HostedError
  | .providerFailure failure => providerFailure failure
  | .raised (.value message) => value message
  | .raised .key => key
  | .raised .type => type
  | .raised .attribute => other "AttributeError"
  | .raised (.other name) => other name

/-- What sending and receiving can raise by itself, before a response is looked at. -/
def transport : HostedError → Bool
  | budgetExceeded _ | providerFailure _ | httpStatus _ => false
  | _ => true

end HostedError

/-- One HTTP response; a body that is not JSON has no value. -/
structure HttpResponse where
  status : Nat
  body : Option Json
  requestId : Option String := none

def HttpResponse.isSuccess (response : HttpResponse) : Bool :=
  200 ≤ response.status && response.status < 300

/-- Every call a hosted attempt makes on its surroundings. -/
inductive HostedCall where
  | reserve (tenant : String) (tokens : Int) (model : String)
  | settle (tenant : String) (reservation : UUID) (usage : Option TokenUsage) (outcome : String)
  | acquireSlot
  | releaseSlot
  | acquireTicket
  | finishTicket (ticket : Nat) (success : Bool)
  | send (question : Text) (passages : List Text)
  | receive

def HostedCall.Response : HostedCall → Type
  | reserve .. => UUID
  | settle .. => Unit
  | acquireSlot => Bool
  | releaseSlot => Unit
  | acquireTicket => Option Nat
  | finishTicket .. => Unit
  | send .. => Unit
  | receive => HttpResponse

abbrev Hosted (Result : Type) : Type :=
  Program HostedCall HostedCall.Response HostedError Result

namespace Hosted

def reserve (tenant : String) (tokens : Int) (model : String) : Hosted UUID :=
  .call (.reserve tenant tokens model) .done

def settle (tenant : String) (reservation : UUID) (usage : Option TokenUsage)
    (outcome : String) : Hosted Unit :=
  .call (.settle tenant reservation usage outcome) .done

def acquireSlot : Hosted Bool := .call .acquireSlot .done

def releaseSlot : Hosted Unit := .call .releaseSlot .done

def acquireTicket : Hosted (Option Nat) := .call .acquireTicket .done

def finishTicket (ticket : Nat) (success : Bool) : Hosted Unit :=
  .call (.finishTicket ticket success) .done

def send (question : Text) (passages : List Text) : Hosted Unit :=
  .call (.send question passages) .done

def receive : Hosted HttpResponse := .call .receive .done

end Hosted

structure OpenAIGenerator where
  key : String
  concurrency : Nat
  breaker : BreakerSettings
  pydantic : Pydantic

namespace OpenAIGenerator

/-- The answer or the failure that a response stands for; redirects are errors. -/
def read (generator : OpenAIGenerator) (count : Nat) (response : HttpResponse) :
    Except HostedError Generation :=
  if !response.isSuccess then .error (.httpStatus response.status)
  else match response.body with
    | none => .error (.value "json")
    | some data =>
        (generator.pydantic.parseResponse data count response.requestId).mapError
          HostedError.ofParsing

/-- Make one Responses request: it leaves the process, then its response or an error
arrives. The answer schema needs a passage. -/
def call (generator : OpenAIGenerator) (question : Text) (passages : List Text) :
    Hosted Generation :=
  if passages.isEmpty then throw (.value "At least one passage is required")
  else do
    Hosted.send question passages
    let response ← Hosted.receive
    .done (generator.read passages.length response)

/-- A counted failure reaches the breaker before it goes on. -/
def report (ticket : Nat) (error : HostedError) : Hosted Generation :=
  if error.counted then do
    Hosted.finishTicket ticket false
    throw error
  else throw error

/-- The guarded part of an attempt, once a slot is held. -/
def admitted (generator : OpenAIGenerator) (question : Text) (passages : List Text) :
    Option Nat → Hosted Generation
  | none => throw (.providerFailure ⟨"circuit_open", some {}⟩)
  | some ticket => do
      let result ← (generator.call question passages).tryCatch (report ticket)
      Hosted.finishTicket ticket true
      return result

/-- Attempt one admitted call; reject overload immediately so fallback can proceed. -/
def generate (generator : OpenAIGenerator) (question : Text) (passages : List Text) :
    Hosted Generation :=
  if generator.key.isEmpty then throw (.providerFailure ⟨"disabled", some {}⟩)
  else do
    let slot ← Hosted.acquireSlot
    if slot then do
      let ticket ← Hosted.acquireTicket
      (generator.admitted question passages ticket).tryFinally Hosted.releaseSlot
    else throw (.providerFailure ⟨"busy", some {}⟩)

end OpenAIGenerator

end DocInsight.Query
