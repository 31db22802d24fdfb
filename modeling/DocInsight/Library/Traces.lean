import DocInsight.Library.Alone

/-! Complete runs of a program, each as its calls with their answers and what they come to.
Programs that pass another's calls on have their runs in terms of its runs. -/
namespace Interaction

variable {Call : Type} {Response : Call → Type} {Error Result Next : Type}

namespace Program

/-- A run of a program to its end. -/
inductive Performs : Program Call Response Error Result →
    List (Exchange Call Response Error) → Except Error Result → Prop where
  | done (outcome : Except Error Result) : Performs (.done outcome) [] outcome
  | call {request : Call} {next : Except Error (Response request) → Program Call Response Error Result}
      {answer : Except Error (Response request)} {made : List (Exchange Call Response Error)}
      {outcome : Except Error Result} (rest : Performs (next answer) made outcome) :
      Performs (.call request next) (⟨request, answer⟩ :: made) outcome

variable {made : List (Exchange Call Response Error)}

theorem performs_done {result outcome : Except Error Result} :
    Performs (.done result : Program Call Response Error Result) made outcome ↔
      made = [] ∧ outcome = result := by
  constructor
  · intro h
    cases h
    exact ⟨rfl, rfl⟩
  · rintro ⟨rfl, rfl⟩
    exact .done _

theorem performs_call {request : Call}
    {next : Except Error (Response request) → Program Call Response Error Result}
    {outcome : Except Error Result} :
    Performs (.call request next) made outcome ↔
      ∃ answer rest, made = ⟨request, answer⟩ :: rest ∧ Performs (next answer) rest outcome := by
  constructor
  · intro h
    cases h with
    | call rest => exact ⟨_, _, rfl, rest⟩
  · rintro ⟨answer, rest, rfl, h⟩
    exact .call h

/-- A run of a program and what follows it is a run of each. -/
theorem performs_andThen {program : Program Call Response Error Result}
    {rest : Except Error Result → Program Call Response Error Next} {outcome : Except Error Next}
    (h : Performs (program.andThen rest) made outcome) : ∃ first middle second,
      Performs program first middle ∧ Performs (rest middle) second outcome ∧
        made = first ++ second := by
  induction program generalizing made with
  | done result => exact ⟨[], result, made, .done result, h, rfl⟩
  | call request next ih =>
      obtain ⟨answer, later, rfl, hLater⟩ := performs_call.mp h
      obtain ⟨first, middle, second, hFirst, hSecond, rfl⟩ := ih answer hLater
      exact ⟨⟨request, answer⟩ :: first, middle, second, .call hFirst, hSecond, rfl⟩

theorem performs_bind {program : Program Call Response Error Result}
    {rest : Result → Program Call Response Error Next} {outcome : Except Error Next}
    (h : Performs (program.bind rest) made outcome) :
    (∃ error, Performs program made (.error error) ∧ outcome = .error error) ∨
      ∃ first result second, Performs program first (.ok result) ∧
        Performs (rest result) second outcome ∧ made = first ++ second := by
  obtain ⟨first, middle, second, hFirst, hSecond, rfl⟩ := performs_andThen h
  cases middle with
  | error error =>
      obtain ⟨rfl, rfl⟩ := performs_done.mp hSecond
      exact Or.inl ⟨error, by simpa using hFirst, rfl⟩
  | ok result => exact Or.inr ⟨first, result, second, hFirst, hSecond, rfl⟩

end Program

/-- A program whose calls are passed on to another channel: each is changed on its way, what
was passed so far is kept in mind, and an error is left to a handler that is told of it. -/
def Program.relay {Request Seen : Type} (see : Seen → Request → Seen) (change : Request → Request)
    (handler : Seen → Error → Program Request (fun _ => Unit) Error Result) :
    Seen → Program Request (fun _ => Unit) Error Result →
      Program Request (fun _ => Unit) Error Result
  | _, .done (.ok result) => .done (.ok result)
  | seen, .done (.error error) => handler seen error
  | seen, .call request next =>
      .call (change request) fun answer => relay see change handler (see seen request) (next answer)

section Relay
variable {Request Seen : Type} {see : Seen → Request → Seen} {change : Request → Request}
  {handler : Seen → Error → Program Request (fun _ => Unit) Error Result} {seen : Seen}
  {program : Program Request (fun _ => Unit) Error Result}
  {made : List (Exchange Request (fun _ => Unit) Error)} {outcome : Except Error Result}

/-- What is passed on of an exchange. -/
def passedOn (change : Request → Request) (made : Exchange Request (fun _ => Unit) Error) :
    Exchange Request (fun _ => Unit) Error :=
  ⟨change made.1, made.2⟩

theorem map_passedOn_fst (made : List (Exchange Request (fun _ => Unit) Error)) :
    (made.map (passedOn change)).map Sigma.fst = (made.map Sigma.fst).map change := by
  simp [passedOn]

/-- A relayed run is a run of the program, passed on, and the handler's where it fails. -/
theorem Program.performs_relay
    (h : Performs (relay see change handler seen program) made outcome) :
    ∃ inner, (∃ result, Performs program inner (.ok result) ∧ outcome = .ok result ∧
        made = inner.map (passedOn change)) ∨
      ∃ error handled, Performs program inner (.error error) ∧
        Performs (handler ((inner.map Sigma.fst).foldl see seen) error) handled outcome ∧
        made = inner.map (passedOn change) ++ handled := by
  induction program generalizing seen made with
  | done result =>
      cases result with
      | ok result =>
          obtain ⟨rfl, rfl⟩ := performs_done.mp h
          exact ⟨[], Or.inl ⟨result, .done _, rfl, rfl⟩⟩
      | error error => exact ⟨[], Or.inr ⟨error, made, .done _, h, rfl⟩⟩
  | call request next ih =>
      obtain ⟨answer, later, rfl, hLater⟩ := performs_call.mp h
      obtain ⟨inner, ⟨result, hInner, hOutcome, rfl⟩ | ⟨error, handled, hInner, hHandled, rfl⟩⟩ :=
        ih answer hLater
      · exact ⟨⟨request, answer⟩ :: inner, Or.inl ⟨result, .call hInner, hOutcome, rfl⟩⟩
      · exact ⟨⟨request, answer⟩ :: inner, Or.inr ⟨error, handled, .call hInner, hHandled, rfl⟩⟩

/-- Where the handler raises the error again, nothing but the calls is changed. -/
theorem Program.performs_passed
    (h : Performs (relay see change (fun _ error => .done (.error error)) seen program)
      made outcome) :
    ∃ inner, Performs program inner outcome ∧ made = inner.map (passedOn change) := by
  obtain ⟨inner, ⟨result, hInner, rfl, rfl⟩ | ⟨error, handled, hInner, hHandled, rfl⟩⟩ :=
    performs_relay h
  · exact ⟨inner, hInner, rfl⟩
  · obtain ⟨rfl, rfl⟩ := performs_done.mp hHandled
    exact ⟨inner, hInner, by simp⟩

end Relay

end Interaction
