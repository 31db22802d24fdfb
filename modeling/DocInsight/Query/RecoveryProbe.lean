import DocInsight.Query.OpenaiProvider
import Mathlib.Logic.Function.Basic

/-! One generator's slots and breaker under concurrent calls. An HTTP exchange returns any
response or raises any error, and a call that ends has to leave neither a slot nor the
recovery probe behind. -/
namespace DocInsight.Query

open DocInsight.Contracts DocInsight.Python Interaction

/-- Tickets given out and not finished yet, next to the breaker that gave them. A ticket
stays with a call that ends without finishing it. -/
structure Ticketed (breaker : CircuitBreaker) (tickets : Nat → Option Nat) : Prop where
  le : ∀ call ticket, tickets call = some ticket → ticket ≤ breaker.epoch
  closed : breaker.opened = none → breaker.probing = false
  probe : breaker.opened ≠ none →
    (breaker.probing = true ↔ ∃ call, tickets call = some breaker.epoch)
  unique : breaker.opened ≠ none → ∀ call other, tickets call = some breaker.epoch →
    tickets other = some breaker.epoch → call = other

namespace Ticketed

variable {breaker : CircuitBreaker} {tickets : Nat → Option Nat} {call : Nat}

theorem new (settings : BreakerSettings) :
    Ticketed (CircuitBreaker.new settings) fun _ => none where
  le _ _ h := by cases h
  closed _ := rfl
  probe h := absurd rfl h
  unique h := absurd rfl h

/-- A ticket of the current epoch that is not a probe's was given by a closed breaker. -/
theorem closed_of_current (h : Ticketed breaker tickets)
    (hTicket : tickets call = some breaker.epoch) (hProbing : breaker.probing = false) :
    breaker.opened = none := by
  by_contra hOpened
  have hProbe := (h.probe hOpened).mpr ⟨call, hTicket⟩
  rw [hProbing] at hProbe
  cases hProbe

theorem acquire (h : Ticketed breaker tickets) (hNone : tickets call = none) (clock : ℚ) :
    Ticketed (breaker.acquire clock).2
      (Function.update tickets call (breaker.acquire clock).1) := by
  have hSame (hRejected : breaker.acquire clock = (none, breaker)) :
      Function.update tickets call (breaker.acquire clock).1 = tickets := by
    rw [hRejected, ← hNone, Function.update_eq_self]
  rcases breaker.acquire_cases clock with
    ⟨_, _, _, hAcquire⟩ | ⟨hOpened, hAcquire⟩ | ⟨opened, hOpened, _, hProbing, hAcquire⟩
  · rw [hSame hAcquire, hAcquire]
    exact h
  · rw [hAcquire]
    refine ⟨?_, h.closed, fun hOpen => absurd hOpened hOpen, fun hOpen => absurd hOpened hOpen⟩
    intro other ticket hTicket
    by_cases hCall : other = call
    · simp only [hCall, Function.update_self, Option.some.injEq] at hTicket
      exact hTicket.ge
    · exact h.le other ticket (by simpa [hCall] using hTicket)
  · -- The probe is admitted, and nobody else holds a ticket of its epoch.
    have hFree (other : Nat) : tickets other ≠ some breaker.epoch := by
      intro hOther
      have hProbe := (h.probe (by simp [hOpened])).mpr ⟨other, hOther⟩
      rw [hProbing] at hProbe
      cases hProbe
    have hOnly {other : Nat} (hOther :
        Function.update tickets call (some breaker.epoch) other = some breaker.epoch) :
        other = call := by
      by_contra hCall
      exact hFree other (by simpa [hCall] using hOther)
    rw [hAcquire]
    refine ⟨?_, fun hNone => by simp [hOpened] at hNone, ?_, ?_⟩
    · intro other ticket hTicket
      by_cases hCall : other = call
      · simp only [hCall, Function.update_self, Option.some.injEq] at hTicket
        exact hTicket.ge
      · exact h.le other ticket (by simpa [hCall] using hTicket)
    · intro _
      exact ⟨fun _ => ⟨call, Function.update_self ..⟩, fun _ => rfl⟩
    · intro _ first second hFirst hSecond
      exact (hOnly hFirst).trans (hOnly hSecond).symm

theorem finish (h : Ticketed breaker tickets) {ticket : Nat} (hTicket : tickets call = some ticket)
    (clock : ℚ) (success : Bool) :
    Ticketed (breaker.finish clock ticket success) (Function.update tickets call none) := by
  have hKept {other current : Nat} (hOther : Function.update tickets call none other = some current) :
      tickets other = some current := by
    by_cases hCall : other = call
    · simp [hCall] at hOther
    · simpa [hCall] using hOther
  -- After an epoch change no ticket is current.
  have hNext (after : CircuitBreaker) (hEpoch : after.epoch = breaker.epoch + 1)
      (hProbing : after.probing = false) :
      Ticketed after (Function.update tickets call none) := by
    have hStale (other : Nat) : Function.update tickets call none other ≠ some after.epoch := by
      intro hOther
      have hBound := h.le other _ (hKept hOther)
      omega
    refine ⟨?_, fun _ => hProbing, ?_, fun _ other _ hOther => absurd hOther (hStale other)⟩
    · intro other current hOther
      have hBound := h.le other current (hKept hOther)
      omega
    · intro _
      rw [hProbing]
      exact ⟨fun hFalse => absurd hFalse (by decide),
        fun ⟨other, hOther⟩ => absurd hOther (hStale other)⟩
  -- A closed breaker that stays closed has no probe.
  have hClosed (after : CircuitBreaker) (hEpoch : after.epoch = breaker.epoch)
      (hOpened : after.opened = none) (hProbing : after.probing = false) :
      Ticketed after (Function.update tickets call none) := by
    refine ⟨?_, fun _ => hProbing, fun hOpen => absurd hOpened hOpen,
      fun hOpen => absurd hOpened hOpen⟩
    intro other current hOther
    exact hEpoch ▸ h.le other current (hKept hOther)
  by_cases hCurrent : ticket = breaker.epoch
  · subst hCurrent
    rcases breaker.finish_current clock success with
      ⟨_, _, hFinish⟩ | ⟨_, hProbing, hFinish⟩ | ⟨_, _, hFinish⟩ | ⟨_, hProbing, _, hFinish⟩ <;>
      rw [hFinish]
    · exact hNext _ rfl rfl
    · exact hClosed _ rfl (h.closed_of_current hTicket hProbing) hProbing
    · exact hNext _ rfl rfl
    · exact hClosed _ rfl (h.closed_of_current hTicket hProbing) hProbing
  · rw [CircuitBreaker.finish_stale clock success hCurrent]
    refine ⟨fun other current hOther => h.le other current (hKept hOther), h.closed, ?_, ?_⟩
    · intro hOpened
      refine (h.probe hOpened).trans (exists_congr fun other => ⟨fun hOther => ?_, hKept⟩)
      have hCall : other ≠ call := by
        rintro rfl
        rw [hTicket, Option.some.injEq] at hOther
        exact hCurrent hOther
      simpa [hCall] using hOther
    · intro hOpened first second hFirst hSecond
      exact h.unique hOpened first second (hKept hFirst) (hKept hSecond)

end Ticketed

/-- The shared state of one generator, with the calls that hold its slots, the tickets not
finished yet, and the calls that met an error which the breaker does not count. -/
structure GeneratorState where
  free : Nat
  holders : List Nat := []
  breaker : CircuitBreaker
  tickets : Nat → Option Nat := fun _ => none
  lost : Nat → Bool := fun _ => false

/-- What a call meets: its turn at the semaphore, a clock reading, or what becomes of its
HTTP exchange. -/
inductive GeneratorChoice where
  | slot
  | clock (now : ℚ)
  | sent
  | response (response : HttpResponse)
  | raised (error : HostedError)

namespace GeneratorState

/-- An error that goes past the breaker is the call's last one before its slot is released. -/
def raised (call : Nat) (error : HostedError) (state : GeneratorState) : GeneratorState :=
  if error.counted then state else { state with lost := Function.update state.lost call true }

def perform (generator : OpenAIGenerator) (call : Nat) (state : GeneratorState) :
    (request : HostedCall) → GeneratorChoice →
      Option (Except HostedError request.Response × GeneratorState)
  | .acquireSlot, .slot =>
      if state.free = 0 then some (.ok false, state)
      else some (.ok true, { state with free := state.free - 1, holders := call :: state.holders })
  | .releaseSlot, .slot =>
      if generator.concurrency ≤ state.free then
        some (.error (.value "Semaphore released too many times"), state)
      else
        some (.ok (),
          { state with free := state.free + 1, holders := state.holders.erase call })
  | .acquireTicket, .clock now =>
      let answer := state.breaker.acquire now
      some (.ok answer.1,
        { state with
          breaker := answer.2, tickets := Function.update state.tickets call answer.1 })
  | .finishTicket ticket success, .clock now =>
      some (.ok (),
        { state with
          breaker := state.breaker.finish now ticket success
          tickets := Function.update state.tickets call none })
  | .send _ _, .sent => some (.ok (), state)
  | .send _ _, .raised error => some (.error error, state.raised call error)
  | .receive, .response response => some (.ok response, state)
  | .receive, .raised error => some (.error error, state.raised call error)
  | _, _ => none

/-- The recovery probe's exchange raises an error that the breaker does not count. -/
def abandons (state : GeneratorState) (call : Nat) (choice : GeneratorChoice) : Bool :=
  match choice with
  | .raised error =>
      !error.counted && state.breaker.probing &&
        state.tickets call = some state.breaker.epoch
  | _ => false

end GeneratorState

namespace OpenAIGenerator

/-- The surroundings of the calls of one generator. Nothing happens but their steps. -/
def environment (generator : OpenAIGenerator) :
    Environment Nat GeneratorState HostedCall HostedCall.Response HostedError where
  Choice := GeneratorChoice
  Event := Empty
  perform := GeneratorState.perform generator
  event _ event := nomatch event
  crash _ state := state

/-- A new generator and any number of calls that have not started. -/
def calls (generator : OpenAIGenerator) (requests : Nat → Text × List Text) :
    Pool Nat GeneratorState HostedCall HostedCall.Response HostedError Generation where
  state := { free := generator.concurrency, breaker := CircuitBreaker.new generator.breaker }
  programs call := some (generator.generate (requests call).1 (requests call).2)

end OpenAIGenerator

/-- The state, and what every call has still to do. -/
abbrev GeneratorPool :=
  Pool Nat GeneratorState HostedCall HostedCall.Response HostedError Generation

namespace GeneratorPool

/-- One step of one call. -/
def step (generator : OpenAIGenerator) (pool : GeneratorPool) (move : Nat × GeneratorChoice) :
    Option GeneratorPool :=
  Pool.step generator.environment pool (.advance move.1 move.2)

/-- A call that has started, as every call does by asking for a slot, and not ended. -/
def InFlight (pool : GeneratorPool) (call : Nat) : Prop :=
  ∃ request rest, pool.programs call = some (.call request rest) ∧ request ≠ .acquireSlot

/-- No slot and no probe outlives the calls, and a breaker without calls admits again. -/
structure NeverLeaks (generator : OpenAIGenerator) (pool : GeneratorPool) : Prop where
  idle : (∀ call, ¬InFlight pool call) →
    pool.state.free = generator.concurrency ∧ pool.state.breaker.probing = false
  probe : pool.state.breaker.probing = true →
    ∃ call, InFlight pool call ∧ pool.state.tickets call = some pool.state.breaker.epoch
  admits : (∀ call, ¬InFlight pool call) → ∃ cooled, ∀ now, cooled ≤ now →
    (pool.state.breaker.acquire now).1.isSome

end GeneratorPool

/-- Slots add up, tickets are kept, and a ticket outlives its call only by a lost error. -/
structure ProbeInvariant (generator : OpenAIGenerator) (state : GeneratorState) : Prop where
  slots : state.free + state.holders.length = generator.concurrency
  nodup : state.holders.Nodup
  ticketed : Ticketed state.breaker state.tickets
  ended : ∀ call ticket, state.tickets call = some ticket →
    call ∈ state.holders ∨ state.lost call = true

/-- What a call has to know before each of its requests. -/
def ProbeGuard (call : Nat) (state : GeneratorState) : HostedCall → Prop
  | .acquireSlot => call ∉ state.holders ∧ state.tickets call = none ∧ state.lost call = false
  | .releaseSlot => call ∈ state.holders ∧ (state.tickets call = none ∨ state.lost call = true)
  | .acquireTicket =>
      call ∈ state.holders ∧ state.tickets call = none ∧ state.lost call = false
  | .finishTicket ticket _ =>
      call ∈ state.holders ∧ state.tickets call = some ticket ∧ state.lost call = false
  | .send _ _ | .receive => call ∈ state.holders ∧ state.lost call = false
  | .reserve .. | .settle .. => False

/-- What the other calls leave alone. -/
structure ProbeRely (call : Nat) (state next : GeneratorState) : Prop where
  holds : call ∈ next.holders ↔ call ∈ state.holders
  ticket : next.tickets call = state.tickets call
  lost : next.lost call = state.lost call

variable {generator : OpenAIGenerator} {state next : GeneratorState} {call : Nat}

theorem ProbeRely.refl (call : Nat) (state : GeneratorState) : ProbeRely call state state :=
  ⟨Iff.rfl, rfl, rfl⟩

theorem ProbeRely.trans {later : GeneratorState} (h : ProbeRely call state next)
    (h' : ProbeRely call next later) : ProbeRely call state later :=
  ⟨h'.holds.trans h.holds, h'.ticket.trans h.ticket, h'.lost.trans h.lost⟩

/-- A call's own step keeps the invariant and what every other call relies on. -/
def ProbeKeeps (generator : OpenAIGenerator) (call : Nat) (state next : GeneratorState) : Prop :=
  ProbeInvariant generator next ∧ ∀ other, other ≠ call → ProbeRely other state next

theorem ProbeInvariant.acquireSlot (inv : ProbeInvariant generator state)
    (guard : ProbeGuard call state .acquireSlot) (hFree : state.free ≠ 0) :
    ProbeKeeps generator call state
      { state with free := state.free - 1, holders := call :: state.holders } := by
  have hSlots := inv.slots
  refine ⟨⟨?_, List.nodup_cons.mpr ⟨guard.1, inv.nodup⟩, inv.ticketed, ?_⟩, ?_⟩
  · simp only [List.length_cons]
    omega
  · intro other ticket hTicket
    exact (inv.ended other ticket hTicket).imp_left (List.mem_cons_of_mem call)
  · intro other hOther
    exact ⟨by simp [hOther], rfl, rfl⟩

theorem ProbeInvariant.releaseSlot (inv : ProbeInvariant generator state)
    (guard : ProbeGuard call state .releaseSlot) :
    ProbeKeeps generator call state
      { state with free := state.free + 1, holders := state.holders.erase call } := by
  have hSlots := inv.slots
  have hLength := List.length_erase_of_mem guard.1
  have hPositive := List.length_pos_of_mem guard.1
  refine ⟨⟨?_, inv.nodup.erase call, inv.ticketed, ?_⟩, ?_⟩
  · simp only [hLength]
    omega
  · intro other ticket hTicket
    by_cases hCall : other = call
    · subst hCall
      refine Or.inr (guard.2.resolve_left fun hNone => ?_)
      cases hNone.symm.trans hTicket
    · exact (inv.ended other ticket hTicket).imp_left (List.mem_erase_of_ne hCall).mpr
  · intro other hOther
    exact ⟨List.mem_erase_of_ne hOther, rfl, rfl⟩

/-- A holder is never refused its release. -/
theorem ProbeInvariant.free_lt (inv : ProbeInvariant generator state)
    (hHolds : call ∈ state.holders) : state.free < generator.concurrency := by
  have hSlots := inv.slots
  have hPositive := List.length_pos_of_mem hHolds
  omega

theorem ProbeInvariant.acquireTicket (inv : ProbeInvariant generator state)
    (guard : ProbeGuard call state .acquireTicket) (now : ℚ) :
    ProbeKeeps generator call state
      { state with
        breaker := (state.breaker.acquire now).2
        tickets := Function.update state.tickets call (state.breaker.acquire now).1 } := by
  obtain ⟨hHolds, hNone, _⟩ := guard
  refine ⟨⟨inv.slots, inv.nodup, inv.ticketed.acquire hNone now, ?_⟩, ?_⟩
  · intro other ticket hTicket
    by_cases hCall : other = call
    · exact Or.inl (hCall ▸ hHolds)
    · exact inv.ended other ticket (by simpa [hCall] using hTicket)
  · intro other hOther
    exact ⟨Iff.rfl, by simp [hOther], rfl⟩

theorem ProbeInvariant.finishTicket (inv : ProbeInvariant generator state) {ticket : Nat}
    {success : Bool} (guard : ProbeGuard call state (.finishTicket ticket success)) (now : ℚ) :
    ProbeKeeps generator call state
      { state with
        breaker := state.breaker.finish now ticket success
        tickets := Function.update state.tickets call none } := by
  refine ⟨⟨inv.slots, inv.nodup, inv.ticketed.finish guard.2.1 now success, ?_⟩, ?_⟩
  · intro other current hTicket
    by_cases hCall : other = call
    · simp [hCall] at hTicket
    · exact inv.ended other current (by simpa [hCall] using hTicket)
  · intro other hOther
    exact ⟨Iff.rfl, by simp [hOther], rfl⟩

theorem ProbeInvariant.raised (inv : ProbeInvariant generator state) (call : Nat)
    (error : HostedError) : ProbeKeeps generator call state (state.raised call error) := by
  unfold GeneratorState.raised
  split_ifs
  · exact ⟨inv, fun other _ => ProbeRely.refl other state⟩
  · refine ⟨⟨inv.slots, inv.nodup, inv.ticketed, ?_⟩, ?_⟩
    · intro other ticket hTicket
      refine (inv.ended other ticket hTicket).imp_right fun hLost => ?_
      by_cases hCall : other = call
      · simp [hCall]
      · simpa [hCall] using hLost
    · intro other hOther
      exact ⟨Iff.rfl, rfl, by simp [hOther]⟩

namespace GeneratorState

variable {choice : GeneratorChoice}

theorem perform_acquireSlot {answer : Except HostedError Bool}
    (h : perform generator call state .acquireSlot choice = some (answer, next)) :
    (answer = .ok false ∧ next = state) ∨
    (answer = .ok true ∧ state.free ≠ 0 ∧
      next = { state with free := state.free - 1, holders := call :: state.holders }) := by
  cases choice with
  | slot =>
      simp only [perform] at h
      split_ifs at h with hFree <;> cases h
      · exact Or.inl ⟨rfl, rfl⟩
      · exact Or.inr ⟨rfl, hFree, rfl⟩
  | _ => cases h

theorem perform_releaseSlot {answer : Except HostedError Unit}
    (h : perform generator call state .releaseSlot choice = some (answer, next)) :
    (generator.concurrency ≤ state.free) ∨
    (answer = .ok () ∧
      next = { state with free := state.free + 1, holders := state.holders.erase call }) := by
  cases choice with
  | slot =>
      simp only [perform] at h
      split_ifs at h with hFull <;> cases h
      · exact Or.inl hFull
      · exact Or.inr ⟨rfl, rfl⟩
  | _ => cases h

theorem perform_acquireTicket {answer : Except HostedError (Option Nat)}
    (h : perform generator call state .acquireTicket choice = some (answer, next)) :
    ∃ now, answer = .ok (state.breaker.acquire now).1 ∧
      next = { state with
        breaker := (state.breaker.acquire now).2
        tickets := Function.update state.tickets call (state.breaker.acquire now).1 } := by
  cases choice with
  | clock now =>
      cases h
      exact ⟨now, rfl, rfl⟩
  | _ => cases h

theorem perform_finishTicket {ticket : Nat} {success : Bool} {answer : Except HostedError Unit}
    (h : perform generator call state (.finishTicket ticket success) choice =
      some (answer, next)) :
    ∃ now, answer = .ok () ∧
      next = { state with
        breaker := state.breaker.finish now ticket success
        tickets := Function.update state.tickets call none } := by
  cases choice with
  | clock now =>
      cases h
      exact ⟨now, rfl, rfl⟩
  | _ => cases h

theorem perform_send {question : Text} {passages : List Text} {answer : Except HostedError Unit}
    (h : perform generator call state (.send question passages) choice = some (answer, next)) :
    (choice = .sent ∧ answer = .ok () ∧ next = state) ∨
    (∃ error, choice = .raised error ∧ answer = .error error ∧
      next = state.raised call error) := by
  cases choice with
  | sent =>
      cases h
      exact Or.inl ⟨rfl, rfl, rfl⟩
  | raised error =>
      cases h
      exact Or.inr ⟨error, rfl, rfl, rfl⟩
  | _ => cases h

theorem perform_receive {answer : Except HostedError HttpResponse}
    (h : perform generator call state .receive choice = some (answer, next)) :
    (∃ response, choice = .response response ∧ answer = .ok response ∧ next = state) ∨
    (∃ error, choice = .raised error ∧ answer = .error error ∧
      next = state.raised call error) := by
  cases choice with
  | response response =>
      cases h
      exact Or.inl ⟨response, rfl, rfl, rfl⟩
  | raised error =>
      cases h
      exact Or.inr ⟨error, rfl, rfl, rfl⟩
  | _ => cases h

end GeneratorState

/-- Every request whose guard holds keeps the invariant and what the others rely on. -/
theorem ProbeInvariant.perform (inv : ProbeInvariant generator state) {request : HostedCall}
    (guard : ProbeGuard call state request) {choice : GeneratorChoice}
    {answer : Except HostedError request.Response}
    (h : GeneratorState.perform generator call state request choice = some (answer, next)) :
    ProbeKeeps generator call state next := by
  have hSame : ProbeKeeps generator call state state :=
    ⟨inv, fun other _ => ProbeRely.refl other state⟩
  cases request with
  | reserve tenant tokens model => exact guard.elim
  | settle tenant reservation usage outcome => exact guard.elim
  | acquireSlot =>
      rcases GeneratorState.perform_acquireSlot h with ⟨-, rfl⟩ | ⟨-, hFree, rfl⟩
      · exact hSame
      · exact inv.acquireSlot guard hFree
  | releaseSlot =>
      rcases GeneratorState.perform_releaseSlot h with hFull | ⟨-, rfl⟩
      · exact absurd hFull (not_le.mpr (inv.free_lt guard.1))
      · exact inv.releaseSlot guard
  | acquireTicket =>
      obtain ⟨now, -, rfl⟩ := GeneratorState.perform_acquireTicket h
      exact inv.acquireTicket guard now
  | finishTicket ticket success =>
      obtain ⟨now, -, rfl⟩ := GeneratorState.perform_finishTicket h
      exact inv.finishTicket guard now
  | send question passages =>
      rcases GeneratorState.perform_send h with ⟨-, -, rfl⟩ | ⟨error, -, -, rfl⟩
      · exact hSame
      · exact inv.raised call error
  | receive =>
      rcases GeneratorState.perform_receive h with ⟨response, -, -, rfl⟩ | ⟨error, -, -, rfl⟩
      · exact hSame
      · exact inv.raised call error

/-- The discipline under which calls share one generator. -/
def OpenAIGenerator.discipline (generator : OpenAIGenerator) :
    Discipline generator.environment where
  Inv := ProbeInvariant generator
  Guard := ProbeGuard
  Rely := ProbeRely
  rely_refl := ProbeRely.refl
  rely_trans _ _ _ _ h h' := h.trans h'
  call_inv _ _ _ _ _ _ inv guard h := (inv.perform guard h).1
  call_rely _ other _ _ _ _ _ hOther inv guard h := (inv.perform guard h).2 other hOther
  event_inv _ event := nomatch event
  event_rely _ _ event := nomatch event
  crash_inv _ _ inv := inv
  crash_rely _ other state _ _ := ProbeRely.refl other state

/-- A call that holds a slot and has its ticket still to finish. -/
structure HoldsTicket (call ticket : Nat) (state : GeneratorState) : Prop where
  holds : call ∈ state.holders
  ticket : state.tickets call = some ticket
  lost : state.lost call = false

/-- A call with nothing left to do but to release its slot. -/
abbrev Leaving (call : Nat) (state : GeneratorState) : Prop :=
  ProbeGuard call state .releaseSlot

theorem ProbeRely.holdsTicket {ticket : Nat} (rely : ProbeRely call state next)
    (h : HoldsTicket call ticket state) : HoldsTicket call ticket next :=
  ⟨rely.holds.mpr h.holds, rely.ticket.trans h.ticket, rely.lost.trans h.lost⟩

theorem ProbeRely.leaving (rely : ProbeRely call state next) (h : Leaving call state) :
    Leaving call next := by
  refine ⟨rely.holds.mpr h.1, ?_⟩
  rw [rely.ticket, rely.lost]
  exact h.2

/-- A response read as an error is one that the breaker counts. -/
theorem OpenAIGenerator.read_counted {count : Nat} {response : HttpResponse}
    {error : HostedError} (h : generator.read count response = .error error) :
    error.counted = true := by
  unfold OpenAIGenerator.read at h
  split_ifs at h
  · cases h
    rfl
  · split at h
    · cases h
      rfl
    · rename_i data _
      rcases generator.pydantic.parseResponse_cases data count response.requestId with
        ⟨failure, -, -, -, hParse⟩ | ⟨usage, -, ⟨result, -, hParse⟩ | hParse⟩ <;>
        · rw [hParse] at h
          cases h <;> rfl

/-- What the exchange leaves behind: the ticket to finish, unless its error is lost. -/
def Exchanged (call ticket : Nat) (outcome : Except HostedError Generation)
    (state : GeneratorState) : Prop :=
  match outcome with
  | .ok _ => HoldsTicket call ticket state
  | .error error =>
      if error.counted then HoldsTicket call ticket state
      else call ∈ state.holders ∧ state.lost call = true

theorem exchanged_raised {ticket : Nat} (h : HoldsTicket call ticket state)
    (error : HostedError) :
    Exchanged call ticket (.error error) (state.raised call error) := by
  cases hCounted : error.counted with
  | true => simpa [Exchanged, GeneratorState.raised, hCounted] using h
  | false => simpa [Exchanged, GeneratorState.raised, hCounted] using h.holds

theorem exchanged_read {ticket : Nat} (h : HoldsTicket call ticket state) (count : Nat)
    (response : HttpResponse) : Exchanged call ticket (generator.read count response) state := by
  cases hRead : generator.read count response with
  | ok result => exact h
  | error error => simpa [Exchanged, OpenAIGenerator.read_counted hRead] using h

theorem leak_safe_call {ticket : Nat} (question : Text) (passages : List Text)
    (h : HoldsTicket call ticket state) :
    generator.discipline.Safe call (generator.call question passages)
      (Exchanged call ticket) state := by
  unfold OpenAIGenerator.call
  split_ifs with hEmpty
  · exact h
  refine Discipline.Safe.bind (Discipline.Safe.perform fun now rely _ => ?_)
  have hNow := ProbeRely.holdsTicket rely h
  refine ⟨⟨hNow.holds, hNow.lost⟩, fun choice answer sent hSend _ => ?_⟩
  rcases GeneratorState.perform_send hSend with ⟨-, rfl, rfl⟩ | ⟨error, -, rfl, rfl⟩
  · refine Discipline.Safe.bind (Discipline.Safe.perform fun later rely _ => ?_)
    have hLater := ProbeRely.holdsTicket rely hNow
    refine ⟨⟨hLater.holds, hLater.lost⟩, fun choice answer received hReceive _ => ?_⟩
    rcases GeneratorState.perform_receive hReceive with
      ⟨response, -, rfl, rfl⟩ | ⟨error, -, rfl, rfl⟩
    · exact exchanged_read hLater _ response
    · exact exchanged_raised hLater error
  · exact exchanged_raised hNow error

/-- Finishing its ticket leaves a call nothing but its slot. -/
theorem leak_safe_finishTicket {ticket : Nat} (success : Bool)
    (h : HoldsTicket call ticket state) :
    generator.discipline.Safe call (Hosted.finishTicket ticket success)
      (fun answer now => answer = .ok () ∧ Leaving call now) state := by
  refine Discipline.Safe.perform fun now rely _ => ?_
  have hNow := ProbeRely.holdsTicket rely h
  refine ⟨⟨hNow.holds, hNow.ticket, hNow.lost⟩, fun choice answer after hFinish _ => ?_⟩
  obtain ⟨clock, rfl, rfl⟩ := GeneratorState.perform_finishTicket hFinish
  exact ⟨rfl, hNow.holds, Or.inl (Function.update_self ..)⟩

theorem leak_safe_report {ticket : Nat} {error : HostedError}
    (h : Exchanged call ticket (.error error) state) :
    generator.discipline.Safe call (OpenAIGenerator.report ticket error)
      (fun outcome now => outcome = .error error ∧ Leaving call now) state := by
  unfold OpenAIGenerator.report
  cases hCounted : error.counted with
  | true =>
      have hTicket : HoldsTicket call ticket state := by simpa [Exchanged, hCounted] using h
      refine Discipline.Safe.bind ((leak_safe_finishTicket false hTicket).mono ?_)
      rintro _ now ⟨rfl, hLeaving⟩
      exact ⟨rfl, hLeaving⟩
  | false =>
      have hLost : call ∈ state.holders ∧ state.lost call = true := by
        simpa [Exchanged, hCounted] using h
      exact ⟨rfl, hLost.1, Or.inr hLost.2⟩

theorem leak_safe_admitted {ticket : Option Nat} (question : Text) (passages : List Text)
    (hHolds : call ∈ state.holders) (hLost : state.lost call = false)
    (hTicket : state.tickets call = ticket) :
    generator.discipline.Safe call (generator.admitted question passages ticket)
      (fun _ now => Leaving call now) state := by
  cases ticket with
  | none => exact ⟨hHolds, Or.inl hTicket⟩
  | some ticket =>
      have hCall : generator.discipline.Safe call
          ((generator.call question passages).tryCatch (OpenAIGenerator.report ticket))
          (fun outcome now => match outcome with
            | .ok _ => HoldsTicket call ticket now
            | .error _ => Leaving call now) state := by
        refine Discipline.Safe.tryCatch
          ((leak_safe_call question passages ⟨hHolds, hTicket, hLost⟩).mono ?_)
        rintro (error | result) now hExchanged
        · refine (leak_safe_report hExchanged).mono ?_
          rintro _ later ⟨rfl, hLeaving⟩
          exact hLeaving
        · exact hExchanged
      refine Discipline.Safe.bind (hCall.mono ?_)
      rintro (error | result) now hNow
      · exact hNow
      · refine Discipline.Safe.bind ((leak_safe_finishTicket true hNow).mono ?_)
        rintro _ later ⟨rfl, hLeaving⟩
        exact hLeaving

/-- Whatever a call meets, it ends without a slot. -/
theorem leak_safe_generate (question : Text) (passages : List Text)
    (h : ProbeGuard call state .acquireSlot) :
    generator.discipline.Safe call (generator.generate question passages)
      (fun _ now => call ∉ now.holders) state := by
  unfold OpenAIGenerator.generate
  split_ifs with hKey
  · exact h.1
  refine Discipline.Safe.bind (Discipline.Safe.perform fun now rely inv => ?_)
  have hRely : ProbeRely call state now := rely
  have hGuard : ProbeGuard call now .acquireSlot := by
    refine ⟨fun hHolds => h.1 (hRely.holds.mp hHolds), ?_, ?_⟩
    · rw [hRely.ticket, h.2.1]
    · rw [hRely.lost, h.2.2]
  refine ⟨hGuard, fun choice answer taken hSlot _ => ?_⟩
  rcases GeneratorState.perform_acquireSlot hSlot with ⟨rfl, rfl⟩ | ⟨rfl, -, rfl⟩
  · exact hGuard.1
  refine Discipline.Safe.bind (Discipline.Safe.perform fun later rely inv => ?_)
  have hLater : ProbeGuard call later .acquireTicket := by
    refine ⟨rely.holds.mpr (List.mem_cons_self ..), ?_, ?_⟩
    · rw [rely.ticket]
      exact hGuard.2.1
    · rw [rely.lost]
      exact hGuard.2.2
  refine ⟨hLater, fun choice answer issued hTicket _ => ?_⟩
  obtain ⟨clock, rfl, hIssued⟩ := GeneratorState.perform_acquireTicket hTicket
  have hHolds : call ∈ issued.holders := by
    rw [hIssued]
    exact hLater.1
  have hLost : issued.lost call = false := by
    rw [hIssued]
    exact hLater.2.2
  have hAnswer : issued.tickets call = (later.breaker.acquire clock).1 := by
    rw [hIssued]
    exact Function.update_self ..
  refine Discipline.Safe.tryFinally
    ((leak_safe_admitted question passages hHolds hLost hAnswer).mono ?_)
  intro outcome done hLeaving
  refine Discipline.Safe.perform fun ready rely inv => ?_
  have hReady := ProbeRely.leaving rely hLeaving
  refine ⟨hReady, fun choice answer released hRelease _ => ?_⟩
  rcases GeneratorState.perform_releaseSlot hRelease with hFull | ⟨rfl, rfl⟩
  · exact absurd hFull (not_le.mpr (inv.free_lt hReady.1))
  · exact inv.nodup.not_mem_erase

/-- The breaker waits for a probe whose call met a lost error. -/
def Abandoned (state : GeneratorState) : Prop :=
  ∃ call, state.lost call = true ∧ state.breaker.probing = true ∧
    state.tickets call = some state.breaker.epoch

theorem abandoned_acquireTicket (inv : ProbeInvariant generator state)
    (guard : ProbeGuard call state .acquireTicket) (now : ℚ) :
    Abandoned { state with
      breaker := (state.breaker.acquire now).2
      tickets := Function.update state.tickets call (state.breaker.acquire now).1 } ↔
    Abandoned state := by
  obtain ⟨_, hNone, hLost⟩ := guard
  have hOther {other : Nat} (h : state.lost other = true) : other ≠ call := by
    rintro rfl
    rw [hLost] at h
    cases h
  rcases state.breaker.acquire_cases now with
    ⟨_, _, _, hAcquire⟩ | ⟨hOpened, hAcquire⟩ | ⟨opened, hOpened, _, hProbing, hAcquire⟩ <;>
    rw [hAcquire]
  · rw [← hNone, Function.update_eq_self]
  · -- A closed breaker waits for nobody, with or without the new ticket.
    have hIdle := inv.ticketed.closed hOpened
    simp [Abandoned, hIdle]
  · -- The new probe is this call's own, and this call has lost nothing.
    have hBefore : ¬Abandoned state := by
      rintro ⟨other, _, hWaits, _⟩
      rw [hProbing] at hWaits
      cases hWaits
    refine iff_of_false ?_ hBefore
    rintro ⟨other, hOtherLost, _, hTicket⟩
    have hHeld : state.tickets other = some state.breaker.epoch := by
      simpa [hOther hOtherLost] using hTicket
    have hWaits := (inv.ticketed.probe (by simp [hOpened])).mpr ⟨other, hHeld⟩
    rw [hProbing] at hWaits
    cases hWaits

theorem abandoned_finishTicket (inv : ProbeInvariant generator state) {ticket : Nat}
    {success : Bool} (guard : ProbeGuard call state (.finishTicket ticket success)) (now : ℚ) :
    Abandoned { state with
      breaker := state.breaker.finish now ticket success
      tickets := Function.update state.tickets call none } ↔ Abandoned state := by
  obtain ⟨_, hTicket, hLost⟩ := guard
  have hOther {other : Nat} (h : state.lost other = true) : other ≠ call := by
    rintro rfl
    rw [hLost] at h
    cases h
  by_cases hCurrent : ticket = state.breaker.epoch
  · -- The current ticket is not a lost call's, and finishing it ends the probe.
    subst hCurrent
    have hBefore : ¬Abandoned state := by
      rintro ⟨other, hOtherLost, hProbing, hHeld⟩
      have hOpened : state.breaker.opened ≠ none := by
        intro hClosed
        rw [inv.ticketed.closed hClosed] at hProbing
        cases hProbing
      exact hOther hOtherLost (inv.ticketed.unique hOpened other call hHeld hTicket)
    refine iff_of_false ?_ hBefore
    rintro ⟨other, hOtherLost, hProbing, hHeld⟩
    rcases state.breaker.finish_current now success with
      ⟨_, _, hFinish⟩ | ⟨_, hIdle, hFinish⟩ | ⟨_, _, hFinish⟩ | ⟨_, hIdle, _, hFinish⟩ <;>
      simp only [hFinish] at hProbing
    · cases hProbing
    · rw [hIdle] at hProbing
      cases hProbing
    · cases hProbing
    · rw [hIdle] at hProbing
      cases hProbing
  · rw [CircuitBreaker.finish_stale now success hCurrent]
    refine exists_congr fun other => and_congr_right fun hOtherLost => ?_
    simp [hOther hOtherLost]

theorem abandoned_raised (call : Nat) (error : HostedError) :
    Abandoned (state.raised call error) ↔
      Abandoned state ∨ state.abandons call (.raised error) = true := by
  cases hCounted : error.counted with
  | true => simp [GeneratorState.raised, GeneratorState.abandons, hCounted]
  | false =>
      simp only [GeneratorState.raised, GeneratorState.abandons, hCounted, Bool.false_eq_true,
        ↓reduceIte, Bool.not_false, Bool.true_and, Bool.and_eq_true, decide_eq_true_eq]
      constructor
      · rintro ⟨other, hLost, hProbing, hHeld⟩
        by_cases hCall : other = call
        · exact Or.inr ⟨hProbing, hCall ▸ hHeld⟩
        · exact Or.inl ⟨other, by simpa [hCall] using hLost, hProbing, hHeld⟩
      · rintro (⟨other, hLost, hProbing, hHeld⟩ | ⟨hProbing, hHeld⟩)
        · refine ⟨other, ?_, hProbing, hHeld⟩
          by_cases hCall : other = call
          · simp [hCall]
          · simpa [hCall] using hLost
        · exact ⟨call, Function.update_self .., hProbing, hHeld⟩

/-- A probe is abandoned by the one step that loses its error, and by no other. -/
theorem abandoned_perform (inv : ProbeInvariant generator state) {request : HostedCall}
    (guard : ProbeGuard call state request) {choice : GeneratorChoice}
    {answer : Except HostedError request.Response}
    (h : GeneratorState.perform generator call state request choice = some (answer, next)) :
    Abandoned next ↔ Abandoned state ∨ state.abandons call choice = true := by
  have hQuiet (hChoice : ∀ error, choice ≠ .raised error) :
      state.abandons call choice = false := by
    cases choice with
    | raised error => exact absurd rfl (hChoice error)
    | _ => rfl
  cases request with
  | reserve tenant tokens model => exact guard.elim
  | settle tenant reservation usage outcome => exact guard.elim
  | acquireSlot =>
      have hNone := hQuiet (by rintro error rfl; cases h)
      rcases GeneratorState.perform_acquireSlot h with ⟨-, rfl⟩ | ⟨-, -, rfl⟩ <;>
        simp [hNone, Abandoned]
  | releaseSlot =>
      have hNone := hQuiet (by rintro error rfl; cases h)
      rcases GeneratorState.perform_releaseSlot h with hFull | ⟨-, rfl⟩
      · exact absurd hFull (not_le.mpr (inv.free_lt guard.1))
      · simp [hNone, Abandoned]
  | acquireTicket =>
      have hNone := hQuiet (by rintro error rfl; cases h)
      obtain ⟨now, -, rfl⟩ := GeneratorState.perform_acquireTicket h
      simpa [hNone] using abandoned_acquireTicket inv guard now
  | finishTicket ticket success =>
      have hNone := hQuiet (by rintro error rfl; cases h)
      obtain ⟨now, -, rfl⟩ := GeneratorState.perform_finishTicket h
      simpa [hNone] using abandoned_finishTicket inv guard now
  | send question passages =>
      rcases GeneratorState.perform_send h with ⟨rfl, -, rfl⟩ | ⟨error, rfl, -, rfl⟩
      · simp [GeneratorState.abandons]
      · exact abandoned_raised call error
  | receive =>
      rcases GeneratorState.perform_receive h with ⟨response, rfl, -, rfl⟩ | ⟨error, rfl, -, rfl⟩
      · simp [GeneratorState.abandons]
      · exact abandoned_raised call error

namespace GeneratorPool

variable {pool after : GeneratorPool} {move : Nat × GeneratorChoice}

/-- What a call leaves when it has ended: no slot. -/
abbrev leftNothing (call : Nat) (_ : Except HostedError Generation) (state : GeneratorState) :
    Prop := call ∉ state.holders

/-- Every call still has a program that keeps the discipline. -/
structure Orderly (generator : OpenAIGenerator) (pool : GeneratorPool) : Prop where
  safe : generator.discipline.PoolSafe leftNothing pool
  total : ∀ call, ∃ program, pool.programs call = some program

theorem orderly_calls (generator : OpenAIGenerator) (requests : Nat → Text × List Text) :
    Orderly generator (generator.calls requests) := by
  refine ⟨⟨⟨rfl, List.nodup_nil, Ticketed.new generator.breaker, ?_⟩, ?_⟩,
    fun call => ⟨_, rfl⟩⟩
  · intro call ticket hTicket
    cases hTicket
  · intro call program hProgram
    cases hProgram
    exact leak_safe_generate _ _ ⟨by simp [OpenAIGenerator.calls], rfl, rfl⟩

theorem Orderly.step (h : Orderly generator pool)
    (hStep : GeneratorPool.step generator pool move = some after) : Orderly generator after := by
  constructor
  · refine Discipline.PoolSafe.step ?_ h.safe hStep
    intro call outcome before later hRely hLeft
    exact fun hHolds => hLeft ((ProbeRely.holds hRely).mp hHolds)
  · intro call
    obtain ⟨request, rest, answer, _, _, hPrograms⟩ := Pool.step_advance hStep
    rw [hPrograms call]
    split_ifs
    · exact ⟨_, rfl⟩
    · exact h.total call

theorem Orderly.abandoned_step (h : Orderly generator pool)
    (hStep : GeneratorPool.step generator pool move = some after) :
    Abandoned after.state ↔
      Abandoned pool.state ∨ pool.state.abandons move.1 move.2 = true := by
  obtain ⟨request, rest, answer, hProgram, hPerform, _⟩ := Pool.step_advance hStep
  exact abandoned_perform h.safe.1 (h.safe.guard hProgram) hPerform

/-- Along a run, a probe is abandoned when some step of it abandons one. -/
theorem Orderly.abandoned_run {moves : List (Nat × GeneratorChoice)}
    (h : Orderly generator pool)
    (hRun : Transition.run (GeneratorPool.step generator) moves pool = some after) :
    ¬Abandoned after.state ↔ ¬Abandoned pool.state ∧
      Transition.Every (GeneratorPool.step generator)
        (fun pool move _ => pool.state.abandons move.1 move.2 = false) moves pool := by
  induction moves generalizing pool with
  | nil =>
      cases hRun
      simp [Transition.Every]
  | cons move rest ih =>
      obtain ⟨middle, hStep, hRest⟩ := (Transition.run_cons_eq_some _).mp hRun
      rw [ih (h.step hStep) hRest, h.abandoned_step hStep]
      simp only [Transition.Every, hStep, Option.some.injEq, forall_eq', not_or,
        Bool.not_eq_true]
      tauto

/-- A call that holds a slot is in flight. -/
theorem Orderly.inFlight (h : Orderly generator pool) {call : Nat}
    (hHolds : call ∈ pool.state.holders) : InFlight pool call := by
  obtain ⟨program, hProgram⟩ := h.total call
  cases program with
  | done outcome => exact absurd hHolds (h.safe.2 call _ hProgram)
  | call request rest =>
      refine ⟨request, rest, hProgram, ?_⟩
      rintro rfl
      exact (h.safe.guard hProgram : ProbeGuard call pool.state .acquireSlot).1 hHolds

/-- A running probe is a call's that is in flight, or it is abandoned. -/
theorem Orderly.probe (h : Orderly generator pool)
    (hProbing : pool.state.breaker.probing = true) :
    (∃ call, InFlight pool call ∧ pool.state.tickets call = some pool.state.breaker.epoch) ∨
      Abandoned pool.state := by
  have inv : ProbeInvariant generator pool.state := h.safe.1
  have hOpened : pool.state.breaker.opened ≠ none := by
    intro hClosed
    rw [inv.ticketed.closed hClosed] at hProbing
    cases hProbing
  obtain ⟨call, hTicket⟩ := (inv.ticketed.probe hOpened).mp hProbing
  rcases inv.ended call _ hTicket with hHolds | hLost
  · exact Or.inl ⟨call, h.inFlight hHolds, hTicket⟩
  · exact Or.inr ⟨call, hLost, hProbing, hTicket⟩

theorem Orderly.neverLeaks (h : Orderly generator pool) (hKept : ¬Abandoned pool.state) :
    NeverLeaks generator pool := by
  have inv : ProbeInvariant generator pool.state := h.safe.1
  have hIdle (hNone : ∀ call, ¬InFlight pool call) : pool.state.breaker.probing = false := by
    by_contra hProbing
    rcases h.probe (by simpa using hProbing) with ⟨call, hFlight, _⟩ | hAbandoned
    · exact hNone call hFlight
    · exact hKept hAbandoned
  constructor
  · intro hNone
    have hHolders : pool.state.holders = [] :=
      List.eq_nil_iff_forall_not_mem.mpr fun call hHolds => hNone call (h.inFlight hHolds)
    have hSlots := inv.slots
    rw [hHolders, List.length_nil, Nat.add_zero] at hSlots
    exact ⟨hSlots, hIdle hNone⟩
  · intro hProbing
    exact (h.probe hProbing).resolve_right hKept
  · intro hNone
    refine ⟨pool.state.breaker.opened.getD 0 + pool.state.breaker.seconds, fun now hNow => ?_⟩
    rcases pool.state.breaker.acquire_cases now with
      ⟨opened, hOpened, hReject, _⟩ | ⟨_, hAcquire⟩ | ⟨_, _, _, _, hAcquire⟩
    · rw [hOpened, Option.getD_some] at hNow
      rcases hReject with hEarly | hProbing
      · linarith
      · rw [hIdle hNone] at hProbing
        cases hProbing
    · rw [hAcquire]
      rfl
    · rw [hAcquire]
      rfl

/-- Where every exchange of a recovery probe answers or raises an error that the breaker
counts, no slot and no probe ever leaks. A run that has no call in flight has leaked
nothing exactly if that is how each of its probes went. -/
theorem neverLeaks_iff (generator : OpenAIGenerator) (requests : Nat → Text × List Text)
    (moves : List (Nat × GeneratorChoice)) (pool : GeneratorPool)
    (hRun : Transition.run (GeneratorPool.step generator) moves (generator.calls requests) =
      some pool) :
    (Transition.Every (GeneratorPool.step generator)
        (fun pool move _ => pool.state.abandons move.1 move.2 = false) moves
        (generator.calls requests) → NeverLeaks generator pool) ∧
    ((∀ call, ¬InFlight pool call) → (NeverLeaks generator pool ↔
      Transition.Every (GeneratorPool.step generator)
        (fun pool move _ => pool.state.abandons move.1 move.2 = false) moves
        (generator.calls requests))) := by
  have hStart := orderly_calls generator requests
  have hEnd : Orderly generator pool :=
    Transition.run_invariant _ (fun _ _ _ h hStep => h.step hStep) hStart hRun
  have hFresh : ¬Abandoned (generator.calls requests).state := by
    rintro ⟨call, hLost, _⟩
    cases hLost
  have hAbandoned := hStart.abandoned_run hRun
  refine ⟨fun hEvery => hEnd.neverLeaks (hAbandoned.mpr ⟨hFresh, hEvery⟩), fun hNone => ?_⟩
  constructor
  · intro hKept
    refine (hAbandoned.mp ?_).2
    rintro ⟨call, _, hProbing, _⟩
    rw [(hKept.idle hNone).2] at hProbing
    cases hProbing
  · exact fun hEvery => hEnd.neverLeaks (hAbandoned.mpr ⟨hFresh, hEvery⟩)

/-- One slot, and a breaker that the first counted failure opens for thirty seconds. -/
def sensitive : OpenAIGenerator where
  key := "key"
  concurrency := 1
  breaker := BreakerSettings.default.tolerating 0
  pydantic := { int := fun _ => none, generation := fun _ => none }

def sensitiveRequests (_ : Nat) : Text × List Text := (text "why?", [text "because"])

/-- The first call times out and opens the breaker; the probe meets a server error. -/
def failedProbe : List (Nat × GeneratorChoice) :=
  [(0, .slot), (0, .clock 0), (0, .sent), (0, .raised (.http "ReadTimeout")), (0, .clock 1),
   (0, .slot), (1, .slot), (1, .clock 31), (1, .sent), (1, .response ⟨503, none, none⟩),
   (1, .clock 32), (1, .slot)]

theorem neverLeaks_iff_failedProbe :
    ∃ pool, Transition.run (GeneratorPool.step sensitive) failedProbe
        (sensitive.calls sensitiveRequests) = some pool ∧ NeverLeaks sensitive pool := by
  have hRuns : (Transition.run (GeneratorPool.step sensitive) failedProbe
      (sensitive.calls sensitiveRequests)).isSome := by decide +kernel
  obtain ⟨pool, hRun⟩ := Option.isSome_iff_exists.mp hRuns
  exact ⟨pool, hRun,
    (neverLeaks_iff sensitive sensitiveRequests failedProbe pool hRun).1 (by decide +kernel)⟩

/-- The probe is answered with JSON nested too deeply for the decoder. -/
def lostProbe : List (Nat × GeneratorChoice) :=
  [(0, .slot), (0, .clock 0), (0, .sent), (0, .raised (.http "ReadTimeout")), (0, .clock 1),
   (0, .slot), (1, .slot), (1, .clock 31), (1, .sent), (1, .raised (.other "RecursionError")),
   (1, .slot)]

/-- The call has come to its outcome. -/
def ended (pool : GeneratorPool) (call : Nat) : Bool :=
  match pool.programs call with
  | some (.done _) => true
  | _ => false

/-- Its call is over, and the breaker rejects every later request for ever. -/
theorem lostProbe_leaks :
    ∃ pool, Transition.run (GeneratorPool.step sensitive) lostProbe
        (sensitive.calls sensitiveRequests) = some pool ∧ ¬NeverLeaks sensitive pool ∧
      ∀ now, (pool.state.breaker.acquire now).1 = none := by
  have hReached : (Transition.run (GeneratorPool.step sensitive) lostProbe
      (sensitive.calls sensitiveRequests)).map (fun pool => (ended pool 1, pool.state.tickets 1,
        pool.state.breaker)) =
      some (true, some 1, { limit := 1, seconds := 30, failures := 1, epoch := 1,
                            opened := some 1, probing := true }) := by
    decide +kernel
  obtain ⟨pool, hRun, hFacts⟩ := Option.map_eq_some_iff.mp hReached
  simp only [Prod.mk.injEq] at hFacts
  obtain ⟨hEnded, hTicket, hBreaker⟩ := hFacts
  have hOrderly : Orderly sensitive pool :=
    Transition.run_invariant _ (fun _ _ _ h hStep => h.step hStep)
      (orderly_calls sensitive sensitiveRequests) hRun
  refine ⟨pool, hRun, fun hKept => ?_, fun now => by simp [CircuitBreaker.acquire, hBreaker]⟩
  obtain ⟨call, ⟨request, rest, hProgram, _⟩, hHeld⟩ := hKept.probe (by rw [hBreaker])
  have hCall : call = 1 := by
    refine hOrderly.safe.1.ticketed.unique (by simp [hBreaker]) call 1 hHeld ?_
    rw [hTicket, hBreaker]
  rw [ended, ← hCall, hProgram] at hEnded
  cases hEnded

end GeneratorPool

end DocInsight.Query
