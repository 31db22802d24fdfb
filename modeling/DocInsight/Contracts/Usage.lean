/-! Accounting contracts: identifiers, reported token usage and the refusal that
precedes a call. They contain metadata only. -/
namespace DocInsight.Contracts

structure UUID where
  bits : BitVec 128
  deriving DecidableEq, Repr

/-- The provider's report for one call; validation admits no negative count. -/
structure TokenUsage where
  inputTokens : Nat := 0
  outputTokens : Nat := 0
  cachedInputTokens : Nat := 0
  requestId : Option String := none
  deriving DecidableEq, Repr

/-- Cached input is counted once: it is a subset of the input tokens. -/
def TokenUsage.total (usage : TokenUsage) : Nat :=
  usage.inputTokens + usage.outputTokens

@[simp] theorem TokenUsage.total_default : ({} : TokenUsage).total = 0 := rfl

/-- Raised by a ledger that has no capacity for a reservation. -/
structure BudgetExceeded where
  message : String
  deriving DecidableEq, Repr

end DocInsight.Contracts
