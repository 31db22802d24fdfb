import DocInsight.Query.OpenaiProvider

/-! A generator per request: hosted output under a token reservation, and local
extraction for expected failures. -/
namespace DocInsight.Query

open DocInsight.Contracts DocInsight.Python Interaction

structure GenerationInfo where
  provider : String
  model : String
  fallbackReason : Option String := none
  usage : Option TokenUsage := none
  deriving DecidableEq, Repr

/-- Usage and outcome as the handlers leave them for settlement. Timeouts can still
be billable, so only a definitive client rejection settles at nothing. -/
def settlementOf : Except HostedError Generation → Option TokenUsage × String
  | .ok result => (result.usage, "completed")
  | .error (.providerFailure failure) => (failure.usage, failure.reason)
  | .error (.httpStatus code) =>
      if 400 ≤ code ∧ code < 500 then (some {}, "rejected") else (none, "unknown")
  | .error _ => (none, "unknown")

/-- The reason and usage to report with a fallback; other errors are not handled. -/
def fallbackFor : HostedError → Option (String × Option TokenUsage)
  | .budgetExceeded _ => some ("daily_budget", none)
  | .providerFailure failure => some (failure.reason, failure.usage)
  | .httpStatus _ | .http _ | .value _ | .key | .index | .type =>
      some ("provider_unavailable", none)
  | .database | .other _ => none

structure FallbackGenerator where
  primary : Option OpenAIGenerator
  model : String
  ledger : Option PostgresUsageLedger
  maxOutput : Nat
  fallback : Text → List Text → Generation

namespace FallbackGenerator

/-- UTF-8 bytes bound text tokenization; the allowance covers instructions and schema. -/
def bound (generator : FallbackGenerator) (question : Text) (passages : List Text) :
    Option Nat :=
  (encodedLength (jsonQuestion question passages)).map (· + 8192 + generator.maxOutput)

def reserve (generator : FallbackGenerator) (tenant : String) (tokens : Nat) :
    Hosted (Option UUID) :=
  match generator.ledger with
  | none => pure none
  | some _ => do
      let reservation ← Hosted.reserve tenant tokens generator.model
      return some reservation

def settle (generator : FallbackGenerator) (tenant : String) (reservation : Option UUID)
    (outcome : Except HostedError Generation) : Hosted Unit :=
  match reservation, generator.ledger with
  | some reservation, some _ =>
      let settlement := settlementOf outcome
      Hosted.settle tenant reservation settlement.1 settlement.2
  | _, _ => pure ()

/-- Reserve the worst-case token budget and settle every provider outcome. -/
def hosted (generator : FallbackGenerator) (tenant : String) (question : Text)
    (passages : List Text) : Hosted Generation :=
  match generator.primary with
  | none => throw (.providerFailure ⟨"disabled", none⟩)
  | some primary =>
      match generator.bound question passages with
      | none => throw (.value "surrogates not allowed")
      | some bound => do
          let reservation ← generator.reserve tenant bound
          -- `finally`: the settlement sees every outcome and may replace it by its own error
          (primary.generate question passages).andThen fun outcome =>
            (generator.settle tenant reservation outcome).andThen fun
              | .ok _ => .done outcome
              | .error error => .done (.error error)

def extract (generator : FallbackGenerator) (question : Text) (passages : List Text)
    (reason : String) (usage : Option TokenUsage) : Generation × GenerationInfo :=
  (generator.fallback question passages,
    { provider := "extractive", model := "sentence-window-v1", fallbackReason := some reason,
      usage })

/-- An answer with request-local provider metadata, including the fallback reason. -/
def generate (generator : FallbackGenerator) (tenant : String) (question : Text)
    (passages : List Text) : Hosted (Generation × GenerationInfo) :=
  if generator.primary.isSome && !passages.isEmpty then
    Program.tryCatch
      (do let result ← generator.hosted tenant question passages
          return (result,
            { provider := "openai", model := generator.model, usage := result.usage }))
      fun error => match fallbackFor error with
        | some (reason, usage) => pure (generator.extract question passages reason usage)
        | none => throw error
  else pure (generator.extract question passages "disabled" none)

end FallbackGenerator

end DocInsight.Query
