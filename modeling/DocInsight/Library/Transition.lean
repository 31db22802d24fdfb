import Mathlib.Data.List.Basic

/-! Executable labelled transition systems. A step function answers `none` when
an action is not enabled; a run performs a list of actions in order. -/
namespace Transition

universe u v
variable {State : Type u} {Action : Type v} (step : State → Action → Option State)

/-- Perform every action in order, or fail at the first one that is not enabled. -/
def run : List Action → State → Option State
  | [], start => some start
  | action :: rest, start => (step start action).bind (run rest)

@[simp] theorem run_nil (start : State) : run step [] start = some start := rfl

theorem run_cons_eq_some {action : Action} {rest : List Action} {start finish : State} :
    run step (action :: rest) start = some finish ↔
      ∃ middle, step start action = some middle ∧ run step rest middle = some finish := by
  simp [run, Option.bind_eq_some_iff]

/-- Splitting a run at any point gives the state reached there. -/
theorem run_append_eq_some {first second : List Action} {start finish : State} :
    run step (first ++ second) start = some finish ↔
      ∃ middle, run step first start = some middle ∧ run step second middle = some finish := by
  induction first generalizing start with
  | nil => simp
  | cons action rest ih =>
      constructor
      · intro h
        obtain ⟨next, hStep, hRest⟩ := (run_cons_eq_some step).mp h
        obtain ⟨middle, hMiddle, hSecond⟩ := ih.mp hRest
        exact ⟨middle, (run_cons_eq_some step).mpr ⟨next, hStep, hMiddle⟩, hSecond⟩
      · rintro ⟨middle, hFirst, hSecond⟩
        obtain ⟨next, hStep, hMiddle⟩ := (run_cons_eq_some step).mp hFirst
        exact (run_cons_eq_some step).mpr ⟨next, hStep, ih.mpr ⟨middle, hMiddle, hSecond⟩⟩

/-- A property of the start that every enabled step keeps holds where the run ends. -/
theorem run_invariant {holds : State → Prop}
    (hStep : ∀ state action next, holds state → step state action = some next → holds next)
    {actions : List Action} {start finish : State} (hStart : holds start)
    (hRun : run step actions start = some finish) : holds finish := by
  induction actions generalizing start with
  | nil =>
      cases hRun
      exact hStart
  | cons action rest ih =>
      obtain ⟨middle, hFirst, hRest⟩ := (run_cons_eq_some step).mp hRun
      exact ih (hStep start action middle hStart hFirst) hRest

/-- Something holds of every step that the actions take from the start. -/
def Every (holds : State → Action → State → Prop) : List Action → State → Prop
  | [], _ => True
  | action :: rest, start =>
      ∀ next, step start action = some next → holds start action next ∧ Every holds rest next

/-- What can be decided of each step can be decided of every one. -/
def decideEvery {holds : State → Action → State → Prop}
    [∀ state action next, Decidable (holds state action next)] :
    ∀ actions start, Decidable (Every step holds actions start)
  | [], _ => isTrue trivial
  | action :: rest, start =>
      let _ (next : State) : Decidable (Every step holds rest next) := decideEvery rest next
      inferInstanceAs (Decidable (∀ next ∈ step start action,
        holds start action next ∧ Every step holds rest next))

instance {holds : State → Action → State → Prop}
    [∀ state action next, Decidable (holds state action next)] (actions : List Action)
    (start : State) : Decidable (Every step holds actions start) :=
  decideEvery step actions start

/-- Of every step means at every point of the actions where it is reached. -/
theorem every_iff {holds : State → Action → State → Prop} {actions : List Action}
    {start : State} : Every step holds actions start ↔
      ∀ first action rest middle next, actions = first ++ action :: rest →
        run step first start = some middle → step middle action = some next →
        holds middle action next := by
  induction actions generalizing start with
  | nil =>
      constructor
      · intro _ first action rest middle next hActions
        cases first <;> cases hActions
      · intro _
        trivial
  | cons head tail ih =>
      constructor
      · intro h first action rest middle next hActions hRun hStep
        cases first with
        | nil =>
            cases hActions
            cases hRun
            exact (h next hStep).1
        | cons other first =>
            cases hActions
            obtain ⟨reached, hFirst, hRest⟩ := (run_cons_eq_some step).mp hRun
            exact ih.mp (h reached hFirst).2 first action rest middle next rfl hRest hStep
      · intro h next hNext
        refine ⟨h [] head tail start next rfl rfl hNext, ih.mpr ?_⟩
        intro first action rest middle later hActions hRun hStep
        exact h (head :: first) action rest middle later (by rw [hActions, List.cons_append])
          ((run_cons_eq_some step).mpr ⟨next, hNext, hRun⟩) hStep

/-- Of a run in two parts, every step is one of the first or one of the second. -/
theorem every_append {holds : State → Action → State → Prop} {first second : List Action}
    {start : State} : Every step holds (first ++ second) start ↔
      Every step holds first start ∧
        ∀ middle, run step first start = some middle → Every step holds second middle := by
  induction first generalizing start with
  | nil => simp [Every]
  | cons action rest ih =>
      constructor
      · intro h
        constructor
        · intro next hStep
          exact ⟨(h next hStep).1, (ih.mp (h next hStep).2).1⟩
        · intro middle hRun
          obtain ⟨next, hStep, hRest⟩ := (run_cons_eq_some step).mp hRun
          exact (ih.mp (h next hStep).2).2 middle hRest
      · rintro ⟨hFirst, hSecond⟩ next hStep
        refine ⟨(hFirst next hStep).1, ih.mpr ⟨(hFirst next hStep).2, fun middle hRest => ?_⟩⟩
        exact hSecond middle ((run_cons_eq_some step).mpr ⟨next, hStep, hRest⟩)

theorem Every.mono {holds holds' : State → Action → State → Prop} {actions : List Action}
    {start : State} (h : Every step holds actions start)
    (hMono : ∀ state action next, step state action = some next → holds state action next →
      holds' state action next) : Every step holds' actions start := by
  induction actions generalizing start with
  | nil => trivial
  | cons action rest ih =>
      intro next hStep
      obtain ⟨hHolds, hRest⟩ := h next hStep
      exact ⟨hMono start action next hStep hHolds, ih hRest⟩

/-- What the steps of a run keep, given what every one of them satisfies. -/
theorem run_invariant_of_every {condition : State → Action → State → Prop}
    {holds : State → Prop}
    (hStep : ∀ state action next, holds state → condition state action next →
      step state action = some next → holds next)
    {actions : List Action} {start finish : State} (hStart : holds start)
    (hEvery : Every step condition actions start)
    (hRun : run step actions start = some finish) : holds finish := by
  induction actions generalizing start with
  | nil =>
      cases hRun
      exact hStart
  | cons action rest ih =>
      obtain ⟨middle, hFirst, hRest⟩ := (run_cons_eq_some step).mp hRun
      obtain ⟨hCondition, hEveryRest⟩ := hEvery middle hFirst
      exact ih (hStep start action middle hStart hCondition hFirst) hEveryRest hRest

end Transition
