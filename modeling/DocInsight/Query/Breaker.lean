import DocInsight.Library.Transition
import Mathlib.Data.Rat.Defs
import Mathlib.Algebra.Order.Ring.Rat
import Mathlib.Tactic.Linarith

/-! The hosted provider's circuit breaker. Epoch tickets decide which late results
still count; the clock is read exactly. -/
namespace DocInsight.Query

/-- The two configured values, as the query settings validate them. -/
structure BreakerSettings where
  failures : Nat
  seconds : ℚ
  failures_ge : 1 ≤ failures
  seconds_gt : 0 < seconds

/-- `llm_breaker_failures` and `llm_breaker_seconds` when they are not configured. -/
def BreakerSettings.default : BreakerSettings := ⟨3, 30, by decide, by norm_num⟩

/-- The settings that open the breaker at the failure after so many. -/
def BreakerSettings.tolerating (settings : BreakerSettings) (tolerated : Nat) : BreakerSettings :=
  { settings with failures := tolerated + 1, failures_ge := Nat.le_add_left 1 tolerated }

structure CircuitBreaker where
  limit : Nat
  seconds : ℚ
  failures : Nat := 0
  epoch : Nat := 0
  opened : Option ℚ := none
  probing : Bool := false
  deriving DecidableEq, Repr

namespace CircuitBreaker

def new (settings : BreakerSettings) : CircuitBreaker :=
  { limit := settings.failures, seconds := settings.seconds }

/-- Answer an epoch ticket or reject; admit only one probe after the cooldown. -/
def acquire (breaker : CircuitBreaker) (clock : ℚ) : Option Nat × CircuitBreaker :=
  match breaker.opened with
  | some opened =>
      if clock - opened < breaker.seconds ∨ breaker.probing then (none, breaker)
      else (some breaker.epoch, { breaker with probing := true })
  | none => (some breaker.epoch, breaker)

/-- Apply a result only when its ticket still belongs to the current epoch. -/
def finish (breaker : CircuitBreaker) (clock : ℚ) (ticket : Nat) (success : Bool) :
    CircuitBreaker :=
  if ticket ≠ breaker.epoch then breaker
  else if success then
    let breaker := { breaker with failures := 0 }
    if breaker.probing then
      { breaker with opened := none, probing := false, epoch := breaker.epoch + 1 }
    else breaker
  else
    let breaker := { breaker with failures := breaker.failures + 1 }
    if breaker.probing ∨ breaker.limit ≤ breaker.failures then
      { breaker with opened := some clock, probing := false, epoch := breaker.epoch + 1 }
    else breaker

/-- The breaker goes from closed, or from a running probe, to waiting in the open state. -/
def opens (before after : CircuitBreaker) : Bool :=
  after.opened.isSome && !after.probing && (before.opened.isNone || before.probing)

def closes (before after : CircuitBreaker) : Bool :=
  before.opened.isSome && after.opened.isNone

/-- Everything an acquire can do: reject, admit while closed, or admit the probe. -/
theorem acquire_cases (breaker : CircuitBreaker) (clock : ℚ) :
    (∃ opened, breaker.opened = some opened ∧
      (clock - opened < breaker.seconds ∨ breaker.probing = true) ∧
      breaker.acquire clock = (none, breaker)) ∨
    (breaker.opened = none ∧ breaker.acquire clock = (some breaker.epoch, breaker)) ∨
    (∃ opened, breaker.opened = some opened ∧ breaker.seconds ≤ clock - opened ∧
      breaker.probing = false ∧
      breaker.acquire clock = (some breaker.epoch, { breaker with probing := true })) := by
  cases hOpened : breaker.opened with
  | none => exact Or.inr (Or.inl ⟨rfl, by simp [acquire, hOpened]⟩)
  | some opened =>
      by_cases hReject : clock - opened < breaker.seconds ∨ breaker.probing = true
      · exact Or.inl ⟨opened, rfl, hReject, by simp [acquire, hOpened, hReject]⟩
      · refine Or.inr (Or.inr ⟨opened, rfl, ?_, ?_, by simp [acquire, hOpened, hReject]⟩)
        · exact not_lt.mp (fun h => hReject (Or.inl h))
        · simpa using fun h => hReject (Or.inr h)

theorem finish_stale {breaker : CircuitBreaker} {ticket : Nat} (clock : ℚ) (success : Bool)
    (hTicket : ticket ≠ breaker.epoch) : breaker.finish clock ticket success = breaker := by
  simp [finish, hTicket]

/-- Everything a current ticket can do: settle a probe either way, reset the
failure counter, open the breaker at the limit, or count one more failure. -/
theorem finish_current (breaker : CircuitBreaker) (clock : ℚ) (success : Bool) :
    (success = true ∧ breaker.probing = true ∧ breaker.finish clock breaker.epoch success =
      { breaker with failures := 0, opened := none, probing := false, epoch := breaker.epoch + 1 }) ∨
    (success = true ∧ breaker.probing = false ∧
      breaker.finish clock breaker.epoch success = { breaker with failures := 0 }) ∨
    (success = false ∧ (breaker.probing = true ∨ breaker.limit ≤ breaker.failures + 1) ∧
      breaker.finish clock breaker.epoch success =
        { breaker with failures := breaker.failures + 1, opened := some clock, probing := false,
                       epoch := breaker.epoch + 1 }) ∨
    (success = false ∧ breaker.probing = false ∧ breaker.failures + 1 < breaker.limit ∧
      breaker.finish clock breaker.epoch success =
        { breaker with failures := breaker.failures + 1 }) := by
  cases success with
  | true =>
      cases hProbing : breaker.probing with
      | true => exact Or.inl ⟨rfl, rfl, by simp [finish, hProbing]⟩
      | false => exact Or.inr (Or.inl ⟨rfl, rfl, by simp [finish, hProbing]⟩)
  | false =>
      by_cases hOpen : breaker.probing = true ∨ breaker.limit ≤ breaker.failures + 1
      · exact Or.inr (Or.inr (Or.inl ⟨rfl, hOpen, by simp [finish, hOpen]⟩))
      · have hProbing : breaker.probing = false := by
          simpa using fun h => hOpen (Or.inl h)
        have hLimit : breaker.failures + 1 < breaker.limit :=
          not_le.mp (fun h => hOpen (Or.inr h))
        exact Or.inr (Or.inr (Or.inr ⟨rfl, hProbing, hLimit, by simp [finish, hOpen]⟩))

end CircuitBreaker

/-- One admitted call: its ticket, and how many steps had been taken when it was issued. -/
structure Issue where
  ticket : Nat
  stamp : Nat
  deriving DecidableEq, Repr

inductive BreakerEvent where
  | acquired (answer : Option Issue)
  | finished (issue : Issue) (success : Bool)
  deriving DecidableEq, Repr

/-- One logged step, with the breaker before and after it. -/
structure BreakerEntry where
  clock : ℚ
  event : BreakerEvent
  before : CircuitBreaker
  after : CircuitBreaker

def BreakerEntry.opens (entry : BreakerEntry) : Bool :=
  CircuitBreaker.opens entry.before entry.after

/-- An opening or a closing of the breaker. -/
def BreakerEntry.changes (entry : BreakerEntry) : Bool :=
  entry.opens || CircuitBreaker.closes entry.before entry.after

/-- The number of steps up to the most recent opening or closing; the log is newest first. -/
def lastChange : List BreakerEntry → Nat
  | [] => 0
  | entry :: earlier => if entry.changes then earlier.length + 1 else lastChange earlier

/-- Failures finished with a ticket of the epoch they met, counted back to the most
recent success of that kind. -/
def failuresSinceSuccess : List BreakerEntry → Nat
  | [] => 0
  | entry :: earlier =>
      match entry.event with
      | .acquired _ => failuresSinceSuccess earlier
      | .finished issue success =>
          if issue.ticket ≠ entry.before.epoch then failuresSinceSuccess earlier
          else if success then 0
          else failuresSinceSuccess earlier + 1

/-- A breaker shared by any number of callers, with the tickets not yet finished
and the log of every step. -/
structure BreakerSession where
  breaker : CircuitBreaker
  now : ℚ
  outstanding : List Issue
  log : List BreakerEntry

inductive BreakerCall where
  | acquire
  | finish (stamp : Nat) (success : Bool)
  deriving DecidableEq, Repr

namespace BreakerSession

def start (settings : BreakerSettings) (now : ℚ) : BreakerSession :=
  { breaker := .new settings, now := now, outstanding := [], log := [] }

/-- The tickets that still belong to the breaker's epoch. -/
def current (session : BreakerSession) : List Issue :=
  session.outstanding.filter (·.ticket = session.breaker.epoch)

/-- An acquire by some caller, logged with the issue it was answered with. -/
def request (session : BreakerSession) (clock : ℚ) : BreakerSession :=
  let answer := session.breaker.acquire clock
  let issue := answer.1.map fun ticket => { ticket, stamp := session.log.length }
  { breaker := answer.2
    now := clock
    outstanding := issue.toList ++ session.outstanding
    log := ⟨clock, .acquired issue, session.breaker, answer.2⟩ :: session.log }

/-- The holder of an outstanding issue reports its result; the issue is then gone. -/
def report (session : BreakerSession) (clock : ℚ) (issue : Issue) (success : Bool) :
    BreakerSession :=
  let after := session.breaker.finish clock issue.ticket success
  { breaker := after
    now := clock
    outstanding := session.outstanding.erase issue
    log := ⟨clock, .finished issue success, session.breaker, after⟩ :: session.log }

/-- One call at a clock reading that does not go back. A ticket is finished at
most once, because settling its issue removes it from the outstanding ones. -/
def step (session : BreakerSession) (action : ℚ × BreakerCall) : Option BreakerSession :=
  if action.1 < session.now then none
  else match action.2 with
    | .acquire => some (session.request action.1)
    | .finish stamp success =>
        (session.outstanding.find? (·.stamp = stamp)).map
          fun issue => session.report action.1 issue success

theorem step_cases {session next : BreakerSession} {action : ℚ × BreakerCall}
    (h : session.step action = some next) :
    session.now ≤ action.1 ∧
      (next = session.request action.1 ∨
        ∃ issue ∈ session.outstanding, ∃ success,
          next = session.report action.1 issue success) := by
  unfold step at h
  split_ifs at h with hClock
  refine ⟨not_lt.mp hClock, ?_⟩
  cases hCall : action.2 with
  | acquire =>
      simp only [hCall, Option.some.injEq] at h
      exact Or.inl h.symm
  | finish stamp success =>
      simp only [hCall, Option.map_eq_some_iff] at h
      obtain ⟨issue, hFind, hNext⟩ := h
      exact Or.inr ⟨issue, List.mem_of_find?_eq_some hFind, success, hNext.symm⟩

end BreakerSession

end DocInsight.Query
