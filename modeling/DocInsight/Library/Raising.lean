import Mathlib.Data.List.Basic

/-! Computations that may raise, and the rules that bound what they raise. -/
namespace Raising

variable {Error Other Item Result Next : Type}

theorem bind_eq_ok {outcome : Except Error Result} {rest : Result → Except Error Next}
    {next : Next} :
    (outcome >>= rest) = .ok next ↔ ∃ result, outcome = .ok result ∧ rest result = .ok next := by
  constructor
  · intro h
    cases outcome with
    | ok result => exact ⟨result, rfl, h⟩
    | error error => cases h
  · rintro ⟨result, rfl, h⟩
    exact h

/-- What the computation raises, if anything, is one of these errors. -/
def Within (errors : Error → Prop) (outcome : Except Error Result) : Prop :=
  ∀ error, outcome = .error error → errors error

variable {errors : Error → Prop}

@[simp] theorem within_ok (result : Result) : Within errors (.ok result : Except Error Result) :=
  fun _ h => nomatch h

@[simp] theorem within_pure (result : Result) :
    Within errors (pure result : Except Error Result) :=
  within_ok result

@[simp] theorem within_error {error : Error} :
    Within errors (.error error : Except Error Result) ↔ errors error := by
  simp [Within]

theorem Within.mono {wider : Error → Prop} {outcome : Except Error Result}
    (h : Within errors outcome) (hWider : ∀ error, errors error → wider error) :
    Within wider outcome :=
  fun error hError => hWider error (h error hError)

theorem Within.bind {outcome : Except Error Result} {rest : Result → Except Error Next}
    (h : Within errors outcome) (hRest : ∀ result, outcome = .ok result → Within errors (rest result)) :
    Within errors (outcome >>= rest) := by
  cases outcome with
  | ok result => exact hRest result rfl
  | error error => exact within_error.mpr (within_error.mp h)

theorem Within.ite {condition : Prop} [Decidable condition] {first second : Except Error Result}
    (hFirst : condition → Within errors first) (hSecond : ¬condition → Within errors second) :
    Within errors (if condition then first else second) := by
  split_ifs with h
  · exact hFirst h
  · exact hSecond h

theorem mapError_eq_ok {outcome : Except Error Result} {change : Error → Other} {result : Result} :
    outcome.mapError change = .ok result ↔ outcome = .ok result := by
  cases outcome with
  | ok found => simp [Except.mapError]
  | error error => simp [Except.mapError]

/-- A traversal that raises nothing has the results of its steps. -/
theorem forall₂_of_mapM {step : Item → Except Error Result} {items : List Item}
    {results : List Result} (h : items.mapM step = .ok results) :
    List.Forall₂ (fun item result => step item = .ok result) items results := by
  induction items generalizing results with
  | nil =>
      cases h
      exact List.Forall₂.nil
  | cons item items ih =>
      rw [List.mapM_cons] at h
      obtain ⟨result, hResult, hRest⟩ := bind_eq_ok.mp h
      obtain ⟨others, hOthers, hDone⟩ := bind_eq_ok.mp hRest
      cases hDone
      exact List.Forall₂.cons hResult (ih hOthers)

/-- A traversal raises what one of its steps raises. -/
theorem Within.mapM {step : Item → Except Error Result} {items : List Item}
    (h : ∀ item ∈ items, Within errors (step item)) : Within errors (items.mapM step) := by
  induction items with
  | nil => exact within_ok []
  | cons item items ih =>
      rw [List.mapM_cons]
      refine (h item List.mem_cons_self).bind fun result _ => ?_
      refine (ih fun other hOther => h other (List.mem_cons_of_mem item hOther)).bind ?_
      exact fun results _ => within_pure (result :: results)

end Raising
