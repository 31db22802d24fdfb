import DocInsight.Python.Dict
import DocInsight.Query.OpenaiProvider

/-! A hosted response of any shape: parsing ends in an answer or in a provider failure,
and either carries the billing that the response reports. -/
namespace DocInsight.Query

open DocInsight.Contracts DocInsight.Python

/-- A supported answer says something and cites passages of its request, each once; an
unsupported one is empty and cites none. -/
structure Consistent (count : Nat) (result : Generation) : Prop where
  nodup : result.citedPassageIndexes.Nodup
  supported : result.supported = true → strip result.answer ≠ [] ∧
    result.citedPassageIndexes ≠ [] ∧
    ∀ index ∈ result.citedPassageIndexes, 0 ≤ index ∧ index < count
  unsupported : result.supported = false → result.answer = [] ∧ result.citedPassageIndexes = []

/-- The details of the input tokens; a falsy value stands for none. -/
def inputDetails (fields : List (Text × Json)) : Option (List (Text × Json)) :=
  match (fields.lookup (text "input_tokens_details")).getD .null with
  | .dict details => some details
  | value => if value.truthy then none else some []

/-- A usage object is well formed and reports this usage: every count is accepted and not
negative, and the cached tokens are among the input tokens. -/
structure Reports (pydantic : Pydantic) (fields : List (Text × Json))
    (requestId : Option String) (usage : TokenUsage) : Prop where
  input : ∃ value, fields.lookup (text "input_tokens") = some value ∧
    pydantic.int value = some (usage.inputTokens : Int)
  output : ∃ value, fields.lookup (text "output_tokens") = some value ∧
    pydantic.int value = some (usage.outputTokens : Int)
  cached : ∃ details, inputDetails fields = some details ∧
    pydantic.int ((details.lookup (text "cached_tokens")).getD (.int 0)) =
      some (usage.cachedInputTokens : Int)
  cached_le : usage.cachedInputTokens ≤ usage.inputTokens
  request : usage.requestId = requestId

/-- The billing that an outcome of the parsing carries. -/
def attached : Except ParseError Generation → Option TokenUsage
  | .ok result => result.usage
  | .error (.providerFailure failure) => failure.usage
  | .error (.raised _) => none

/-- What the outcome says about the billing of an object with these fields. -/
structure BillingPreserved (pydantic : Pydantic) (fields : List (Text × Json))
    (requestId : Option String) (outcome : Except ParseError Generation) : Prop where
  reported : ∀ raw usage, fields.lookup (text "usage") = some (.dict raw) →
    Reports pydantic raw requestId usage → attached outcome = some usage
  malformed : ∀ raw, fields.lookup (text "usage") = some raw → raw ≠ .null →
    (∀ reported usage, raw = .dict reported → ¬Reports pydantic reported requestId usage) →
    ∃ failure : ProviderFailure,
      outcome = .error (.providerFailure failure) ∧ failure.usage = none
  absent : (fields.lookup (text "usage") = none ∨ fields.lookup (text "usage") = some .null) →
    attached outcome = none

namespace Pydantic

variable (pydantic : Pydantic)

theorem count_eq_ok {value : Json} {number : Nat} :
    pydantic.count value = .ok number ↔ pydantic.int value = some (number : Int) := by
  unfold count
  cases pydantic.int value with
  | none => simp
  | some found =>
      simp only [Option.some.injEq]
      split_ifs with hFound
      · simp only [Except.ok.injEq]
        omega
      · simp only [false_iff]
        omega

theorem details_getOr {fields : List (Text × Json)} {name : String} {value default : Json} :
    let raw := (fields.lookup (text "input_tokens_details")).getD .null
    (if raw.truthy then raw else .dict []).getOr name default = .ok value ↔
      ∃ details, inputDetails fields = some details ∧
        (details.lookup (text name)).getD default = value := by
  unfold inputDetails
  generalize (fields.lookup (text "input_tokens_details")).getD .null = raw
  cases raw with
  | dict details => cases details <;> simp [Json.truthy, Json.getOr]
  | _ =>
      simp only
      split_ifs <;> simp [Json.getOr]

/-- A usage object is read exactly as what it reports. -/
theorem usage_eq_ok {fields : List (Text × Json)} {requestId : Option String}
    {usage : TokenUsage} :
    pydantic.usage (.dict fields) requestId = .ok usage ↔
      Reports pydantic fields requestId usage := by
  unfold Pydantic.usage
  simp only [Raising.bind_eq_ok, Json.get, Except.ok.injEq, exists_eq_left', Json.item_dict,
    count_eq_ok]
  constructor
  · rintro ⟨input, hInput, inputTokens, hInputTokens, output, hOutput, outputTokens,
      hOutputTokens, cached, hCached, cachedTokens, hCachedTokens, hUsage⟩
    obtain ⟨details, hDetails, rfl⟩ := details_getOr.mp hCached
    split_ifs at hUsage with hExcess
    cases hUsage
    exact ⟨⟨input, hInput, hInputTokens⟩, ⟨output, hOutput, hOutputTokens⟩,
      ⟨details, hDetails, hCachedTokens⟩, Nat.not_lt.mp hExcess, rfl⟩
  · rintro ⟨⟨input, hInput, hInputTokens⟩, ⟨output, hOutput, hOutputTokens⟩,
      ⟨details, hDetails, hCached⟩, hLe, rfl⟩
    refine ⟨input, hInput, _, hInputTokens, output, hOutput, _, hOutputTokens, _,
      details_getOr.mpr ⟨details, hDetails, rfl⟩, _, hCached, ?_⟩
    rw [if_neg (Nat.not_lt.mpr hLe)]

/-- Only an object is read as billing. -/
theorem usage_isDict {raw : Json} {requestId : Option String} {usage : TokenUsage}
    (h : pydantic.usage raw requestId = .ok usage) : ∃ fields, raw = .dict fields := by
  obtain ⟨details, hDetails, -⟩ := Raising.bind_eq_ok.mp h
  cases raw with
  | dict fields => exact ⟨fields, rfl⟩
  | _ => cases hDetails

/-- The adapter checks every answer that it returns. -/
theorem answer_consistent {data : Json} {count : Nat} {result : Generation}
    (h : pydantic.answer data count = .ok result) : Consistent count result := by
  obtain ⟨status, -, h⟩ := Raising.bind_eq_ok.mp h
  split_ifs at h
  obtain ⟨contents, -, h⟩ := Raising.bind_eq_ok.mp h
  obtain ⟨types, -, h⟩ := Raising.bind_eq_ok.mp h
  split_ifs at h
  obtain ⟨texts, -, h⟩ := Raising.bind_eq_ok.mp h
  split at h
  · cases h
  · rename_i read _
    dsimp only at h
    split_ifs at h with hCitations hAbstention
    cases h
    simp only [Bool.and_eq_true, Bool.or_eq_true, not_and, not_or] at hCitations hAbstention
    refine ⟨nodup_fromKeys read.citedPassageIndexes, fun hSupported => ?_, fun hUnsupported => ?_⟩
    · obtain ⟨⟨hAnswer, hIndexes⟩, hBounds⟩ := hCitations hSupported
      refine ⟨fun hNil => hAnswer (List.isEmpty_iff.mpr hNil),
        fun hNil => hIndexes (List.isEmpty_iff.mpr hNil), fun index hIndex => ?_⟩
      simp only [List.any_eq_true, not_exists, not_and, Bool.or_eq_true, not_or,
        decide_eq_true_eq, not_lt, not_le] at hBounds
      exact hBounds index hIndex
    · simp only [Bool.not_eq_true', Bool.not_eq_false, List.isEmpty_iff] at hAbstention
      exact hAbstention hUnsupported

/-- Usage that reports nothing is an error, whatever else it is. -/
theorem responseUsage_malformed {fields : List (Text × Json)} {raw : Json}
    {requestId : Option String} (hRaw : fields.lookup (text "usage") = some raw)
    (hNull : raw ≠ .null)
    (hNone : ∀ reported usage, raw = .dict reported →
      ¬Reports pydantic reported requestId usage) :
    pydantic.responseUsage (.dict fields) requestId =
      .error (.providerFailure { reason := "invalid_usage" }) := by
  have hRead : ∃ raised, pydantic.usage raw requestId = .error raised := by
    cases hRead : pydantic.usage raw requestId with
    | error raised => exact ⟨raised, rfl⟩
    | ok usage =>
        obtain ⟨reported, rfl⟩ := pydantic.usage_isDict hRead
        exact absurd (pydantic.usage_eq_ok.mp hRead) (hNone reported usage rfl)
  obtain ⟨raised, hRaised⟩ := hRead
  have hExpected := pydantic.expected_usage raw requestId raised hRaised
  simp only at hExpected
  simp [responseUsage, hRaw, expecting, hRaised, hExpected]

/-- Billing that is read reaches the outcome. -/
theorem attached_parseResponse {data : Json} {count : Nat} {requestId : Option String}
    {usage : Option TokenUsage} (h : pydantic.responseUsage data requestId = .ok usage) :
    attached (pydantic.parseResponse data count requestId) = usage := by
  obtain ⟨failure, -, -, hUsage, -⟩ | ⟨read, hUsage, ⟨result, -, hParse⟩ | hParse⟩ :=
    pydantic.parseResponse_cases data count requestId
  · rw [hUsage] at h
    cases h
  · rw [hUsage] at h
    cases h
    rw [hParse, attached]
  · rw [hUsage] at h
    cases h
    rw [hParse, attached]

/-- Every response is parsed into a consistent answer or a provider failure, and either
carries the billing that the response reports, whatever the answer itself says. -/
theorem parseResponse_preservesBilling (data : Json) (count : Nat) (requestId : Option String) :
    ((∃ result, pydantic.parseResponse data count requestId = .ok result ∧
        Consistent count result) ∨
      ∃ failure, pydantic.parseResponse data count requestId =
        .error (.providerFailure failure)) ∧
    ∀ fields, data = .dict fields →
      BillingPreserved pydantic fields requestId
        (pydantic.parseResponse data count requestId) := by
  have hCases := pydantic.parseResponse_cases data count requestId
  refine ⟨?_, fun fields hFields => ⟨fun raw usage hRaw hReports => ?_,
    fun raw hRaw hNull hNone => ?_, fun hAbsent => ?_⟩⟩
  · obtain ⟨failure, -, -, -, hParse⟩ | ⟨usage, -, ⟨result, hAnswer, hParse⟩ | hParse⟩ := hCases
    · exact Or.inr ⟨failure, hParse⟩
    · obtain ⟨hNodup, hSupported, hUnsupported⟩ := pydantic.answer_consistent hAnswer
      exact Or.inl ⟨_, hParse, hNodup, hSupported, hUnsupported⟩
    · exact Or.inr ⟨_, hParse⟩
  · have hUsage : pydantic.responseUsage data requestId = .ok (some usage) := by
      have hRead := pydantic.usage_eq_ok.mpr hReports
      simp [hFields, responseUsage, hRaw, hRead, expecting]
    exact pydantic.attached_parseResponse hUsage
  · have hUsage := pydantic.responseUsage_malformed hRaw hNull hNone
    obtain ⟨failure, hUnbilled, -, -, hParse⟩ | ⟨usage, hRead, -⟩ := hCases
    · exact ⟨failure, hParse, hUnbilled⟩
    · rw [hFields, hUsage] at hRead
      cases hRead
  · have hUsage : pydantic.responseUsage data requestId = .ok none := by
      obtain hAbsent | hAbsent := hAbsent <;> simp [hFields, responseUsage, hAbsent]
    exact pydantic.attached_parseResponse hUsage

end Pydantic

end DocInsight.Query
