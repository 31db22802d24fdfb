import DocInsight.Library.Interaction

/-! Programs whose calls stay within bounds, run from two related states. Where the calls
within bounds are answered alike and keep the states related, whole programs do. -/
namespace Interaction.Program

variable {Call : Type} {Response : Call → Type} {Error Result Next : Type}
  {allowed : Call → Prop}
  {expected : (request : Call) → Except Error (Response request) → Prop}

/-- Every call that a program makes is allowed, while the answers it gets are expected. -/
def Confined (allowed : Call → Prop)
    (expected : (request : Call) → Except Error (Response request) → Prop) :
    Program Call Response Error Result → Prop
  | done _ => True
  | call request next =>
      allowed request ∧ ∀ answer, expected request answer → (next answer).Confined allowed expected

theorem Confined.andThen {program : Program Call Response Error Result}
    {rest : Except Error Result → Program Call Response Error Next}
    (confined : program.Confined allowed expected)
    (hRest : ∀ outcome, (rest outcome).Confined allowed expected) :
    (program.andThen rest).Confined allowed expected := by
  induction program with
  | done outcome => exact hRest outcome
  | call request next ih =>
      exact ⟨confined.1, fun answer hAnswer => ih answer (confined.2 answer hAnswer)⟩

theorem Confined.bind {program : Program Call Response Error Result}
    {rest : Result → Program Call Response Error Next}
    (confined : program.Confined allowed expected)
    (hRest : ∀ result, (rest result).Confined allowed expected) :
    (program.bind rest).Confined allowed expected := by
  apply confined.andThen
  intro outcome
  cases outcome with
  | ok result => exact hRest result
  | error error => exact trivial

theorem Confined.perform {request : Call} (hAllowed : allowed request) :
    (Program.perform request : Program Call Response Error _).Confined allowed expected :=
  ⟨hAllowed, fun _ _ => trivial⟩

/-- What follows a call may rely on its answer. -/
theorem Confined.perform_bind {request : Call}
    {rest : Response request → Program Call Response Error Next} (hAllowed : allowed request)
    (hRest : ∀ response, expected request (.ok response) →
      (rest response).Confined allowed expected) :
    ((Program.perform request).bind rest).Confined allowed expected := by
  refine ⟨hAllowed, fun answer hAnswer => ?_⟩
  cases answer with
  | ok response => exact hRest response hAnswer
  | error error => exact trivial

theorem Confined.tryFinally {program : Program Call Response Error Result}
    {cleanup : Program Call Response Error Unit} (confined : program.Confined allowed expected)
    (hCleanup : cleanup.Confined allowed expected) :
    (program.tryFinally cleanup).Confined allowed expected := by
  apply confined.andThen
  intro outcome
  apply hCleanup.andThen
  intro ended
  cases ended with
  | ok _ => exact trivial
  | error error => exact trivial

/-- Programs within bounds come to the same outcome in related states. -/
theorem Confined.lockstep {State : Type}
    {answer : State → (request : Call) → Except Error (Response request) × State}
    {related : State → State → Prop} {program : Program Call Response Error Result}
    (hCall : ∀ request first second, allowed request → related first second →
      (answer first request).1 = (answer second request).1 ∧
        related (answer first request).2 (answer second request).2 ∧
        expected request (answer first request).1)
    (confined : program.Confined allowed expected) {first second : State}
    (hRelated : related first second) :
    (program.interpret answer first).1 = (program.interpret answer second).1 ∧
      related (program.interpret answer first).2 (program.interpret answer second).2 := by
  induction program generalizing first second with
  | done outcome => exact ⟨rfl, hRelated⟩
  | call request next ih =>
      obtain ⟨hSame, hAfter, hExpected⟩ := hCall request first second confined.1 hRelated
      have hRest := ih (answer first request).1 (confined.2 _ hExpected) hAfter
      rw [interpret, interpret, ← hSame]
      exact hRest

end Interaction.Program
