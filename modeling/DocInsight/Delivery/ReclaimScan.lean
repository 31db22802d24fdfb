import DocInsight.Contracts.Encoding
import DocInsight.Delivery.System
import DocInsight.Testing.Streams
import DocInsight.Worker.Calls
import DocInsight.Worker.Turns
import Mathlib.Algebra.Order.Ring.Rat

/-! The scans in which workers reclaim what others have left pending. Any number of workers run
over the streams of the tests, and between any two of their calls anyone may add to the streams,
read, acknowledge or claim. -/
namespace DocInsight.Delivery

open DocInsight.Contracts DocInsight.Worker DocInsight.Testing Interaction
  Interaction.Discipline InMemoryStreamConsumer

def documentStream : String := "di:documents"

def deadLetterStream : String := "di:documents:dlq"

/-- What a worker is set up with. -/
structure Member where
  settings : WorkerSettings := {}
  workerGroup : String := "worker"
  consumer : String
  workerBatch : Nat := 1
  claimMinIdleMs : Int := 300000

/-- A pass of a worker: when it was, what it found, where it started, and what it was answered. -/
structure Pass where
  time : ℚ
  before : InMemoryStreamConsumer
  cursor : String
  next : String
  claimed : List StreamMessage

/-- The streams, the time that the workers keep, and the passes of each worker so far. -/
structure ScanState where
  streams : InMemoryStreamConsumer := {}
  clock : ℚ := 0
  passes : Nat → List Pass := fun _ => []

/-- What is left open of a call: its answer, or an error that the stream raises instead, with or
without the effect of the command. -/
structure ScanChoice where
  answer : (call : Call) → Except Failure (Response call)
  failure : Option (Failure × Bool) := none

/-- Time passes, or anyone does something with the streams. -/
inductive ScanEvent where
  | elapse (seconds : ℚ)
  | operate (operation : StreamOperation)
  deriving DecidableEq, Repr

section Effect
variable (member : Member) (agent : Nat) (state : ScanState)

/-- What a command of a worker does to the streams. -/
def scanCommand (streams : InMemoryStreamConsumer) :
    (command : StreamCommand) → Except Failure (command.Answer × InMemoryStreamConsumer)
  | .createGroup => .ok ((), streams.xgroupCreate documentStream member.workerGroup)
  | .heartbeat => .ok ((), streams.heartbeat member.consumer)
  | .readGroup =>
      streams.xreadgroup documentStream member.workerGroup member.consumer member.workerBatch
  | .autoClaim cursor =>
      streams.xautoclaim documentStream member.workerGroup member.consumer member.claimMinIdleMs
        cursor member.workerBatch
  | .pending id =>
      (streams.xpending documentStream member.workerGroup id).map fun attempts =>
        (attempts, streams)
  | .addDeadLetter fields => .ok ((), (streams.xadd deadLetterStream fields).2)
  | .acknowledge id =>
      (streams.xack documentStream member.workerGroup id).map fun after => ((), after)

/-- Only a claim is a pass. -/
def passOf : (command : StreamCommand) → command.Answer → List Pass
  | .autoClaim cursor, (next, claimed) =>
      [{ time := state.clock, before := state.streams, cursor, next, claimed }]
  | _, _ => []

/-- A command was answered, after it has left these streams. -/
def ScanState.answered (command : StreamCommand) (answer : command.Answer)
    (streams : InMemoryStreamConsumer) : ScanState :=
  { state with
    streams
    passes := fun other =>
      if other = agent then state.passes agent ++ passOf state command answer
      else state.passes other }

/-- A claim that raises has claimed nothing; any other command may have had its effect. -/
def mayBeLost : StreamCommand → Bool
  | .autoClaim _ => false
  | _ => true

/-- Neither the clock of a process nor its stop event ever raises. -/
def neverRaises : Outside → Bool
  | .clock | .stopping | .wait => true
  | _ => false

/-- One call of a worker. -/
def scanPerform (choice : ScanChoice) :
    (call : Call) → Option (Except Failure (Response call) × ScanState)
  | .outside .clock => some (.ok state.clock, state)
  | .outside query =>
      match choice.answer (.outside query) with
      | .ok answer => some (.ok answer, state)
      | .error error => if neverRaises query then none else some (.error error, state)
  | .stream command =>
      match scanCommand member state.streams command, choice.failure with
      | .ok (answer, after), none => some (.ok answer, state.answered agent command answer after)
      | .ok (_, after), some (error, taken) =>
          some (.error error, if taken && mayBeLost command then
            { state with streams := after } else state)
      | .error error, _ => some (.error error, state)
  | call => some (choice.answer call, state)

end Effect

def scanOccur (state : ScanState) : ScanEvent → Option ScanState
  | .elapse seconds =>
      if 0 ≤ seconds then some { state with clock := state.clock + seconds } else none
  | .operate operation => some { state with streams := operation.perform state.streams }

def scanEnvironment (members : Nat → Member) :
    Environment Nat ScanState Call Response Failure where
  Choice := ScanChoice
  Event := ScanEvent
  perform agent state call choice := scanPerform (members agent) agent state choice call
  event := scanOccur
  crash _ state := state

abbrev ScanPool := Pool Nat ScanState Call Response Failure Unit

/-- Every worker is about to start. -/
def scanStart (setting : Setting) (members : Nat → Member) (turns : Nat → Nat) : ScanPool where
  state := {}
  programs agent :=
    some (Worker.run (backend setting) setting.codec (members agent).settings (turns agent) {})

def scanStep (members : Nat → Member) :
    ScanPool → Action Nat ScanChoice ScanEvent → Option ScanPool :=
  Pool.step (scanEnvironment members)

/-- The next pass starts where a pass has stopped; after the end of a scan it starts no sooner
than the cooldown allows. -/
structure Follows (settings : WorkerSettings) (pass next : Pass) : Prop where
  continues : next.cursor = pass.next
  cooled : pass.next = "0-0" → pass.time + settings.reclaimSeconds ≤ next.time

/-- A scan: its first pass starts at the beginning, and its last pass is the first one to come to
the end. -/
structure IsScan (scan : List Pass) : Prop where
  starts : scan.head?.map Pass.cursor = some "0-0"
  ends : scan.getLast?.map Pass.next = some "0-0"
  goesOn : ∀ pass ∈ scan.dropLast, pass.next ≠ "0-0"

instance (scan : List Pass) : Decidable (IsScan scan) :=
  decidable_of_iff
    (scan.head?.map Pass.cursor = some "0-0" ∧ scan.getLast?.map Pass.next = some "0-0" ∧
      ∀ pass ∈ scan.dropLast, pass.next ≠ "0-0")
    ⟨fun h => ⟨h.1, h.2.1, h.2.2⟩, fun h => ⟨h.starts, h.ends, h.goesOn⟩⟩

/-- What passes have claimed. -/
def claimedIds (passes : List Pass) : List Nat :=
  passes.flatMap fun pass => pass.claimed.map StreamMessage.id

section Passes
variable {member : Member}

/-- A pass as a page of a scan. -/
def Pass.page (member : Member) (pass : Pass) : PagedScan.Page Nat where
  start := place pass.cursor
  stop := stop pass.next
  wanted := Waiting documentStream member.workerGroup member.claimMinIdleMs pass.before
  taken := pass.claimed.map StreamMessage.id

/-- The cursor that the last pass was answered. -/
def lastCursor (passes : List Pass) : String := (passes.getLast?.map Pass.next).getD "0-0"

/-- Where the last pass has come to the end, so much time has passed since. -/
def Cooled (settings : WorkerSettings) (passes : List Pass) (now : ℚ) : Prop :=
  ∀ last ∈ passes.getLast?, last.next = "0-0" → last.time + settings.reclaimSeconds ≤ now

theorem Cooled.mono {settings : WorkerSettings} {passes : List Pass} {now later : ℚ}
    (cooled : Cooled settings passes now) (h : now ≤ later) : Cooled settings passes later :=
  fun last hLast hEnd => (cooled last hLast hEnd).trans h

theorem lastCursor_eq {passes : List Pass} {last : Pass} (h : passes.getLast? = some last) :
    lastCursor passes = last.next := by
  rw [lastCursor, h]
  rfl

/-- What the passes of a worker come to. -/
structure Scans (member : Member) (passes : List Pass) : Prop where
  chain : passes.IsChain (Follows member.settings)
  complete : ∀ pass ∈ passes, (pass.page member).Complete
  cursors : ∀ pass ∈ passes, IsCursor pass.next

theorem Scans.nil : Scans member [] where
  chain := List.isChain_nil
  complete _ h := absurd h List.not_mem_nil
  cursors _ h := absurd h List.not_mem_nil

theorem Scans.isCursor {passes : List Pass} (scans : Scans member passes) :
    IsCursor (lastCursor passes) := by
  unfold lastCursor
  cases hLast : passes.getLast? with
  | none => exact Or.inl rfl
  | some last => exact scans.cursors last (List.mem_of_getLast? hLast)

/-- Any stretch of the passes. -/
theorem Scans.part {earlier passes later : List Pass}
    (scans : Scans member (earlier ++ passes ++ later)) : Scans member passes where
  chain := scans.chain.left_of_append.right_of_append
  complete pass hPass :=
    scans.complete pass (List.mem_append_left later (List.mem_append_right earlier hPass))
  cursors pass hPass :=
    scans.cursors pass (List.mem_append_left later (List.mem_append_right earlier hPass))

/-- One more pass, from where the last one has stopped and not too soon. -/
theorem Scans.append {passes : List Pass} (scans : Scans member passes) {pass : Pass}
    (hCursor : pass.cursor = lastCursor passes)
    (hCooled : Cooled member.settings passes pass.time)
    (hPage : IsCursor pass.next ∧ (pass.page member).Complete) :
    Scans member (passes ++ [pass]) where
  chain := by
    apply List.isChain_append.mpr
    refine ⟨scans.chain, List.isChain_singleton pass, ?_⟩
    intro last hLast next hNext
    cases hNext
    constructor
    · exact hCursor.trans (lastCursor_eq hLast)
    · exact hCooled last hLast
  complete := by
    intro each hEach
    cases List.mem_append.mp hEach with
    | inl hOld => exact scans.complete each hOld
    | inr hNew => exact List.mem_singleton.mp hNew ▸ hPage.2
  cursors := by
    intro each hEach
    cases List.mem_append.mp hEach with
    | inl hOld => exact scans.cursors each hOld
    | inr hNew => exact List.mem_singleton.mp hNew ▸ hPage.1

end Passes

section Effects
variable {member : Member} {agent : Nat} {state after : ScanState} {choice : ScanChoice}

/-- Every call but a claim. -/
def Aside : Call → Prop
  | .stream (.autoClaim _) => False
  | _ => True

/-- A command leaves the streams as some operation would. -/
theorem scanCommand_ordered {streams later : InMemoryStreamConsumer} (ordered : streams.Ordered)
    {command : StreamCommand} {answer : command.Answer}
    (h : scanCommand member streams command = .ok (answer, later)) : later.Ordered := by
  cases command with
  | createGroup =>
      cases h
      exact ordered.xgroupCreate
  | heartbeat =>
      cases h
      exact ⟨ordered.numbered, ordered.known⟩
  | readGroup => exact ordered.xreadgroup h
  | autoClaim cursor => exact ordered.xautoclaim h
  | pending id =>
      simp only [scanCommand] at h
      cases hFound : streams.xpending documentStream member.workerGroup id with
      | error error =>
          rw [hFound] at h
          cases h
      | ok attempts =>
          rw [hFound] at h
          cases h
          exact ordered
  | addDeadLetter fields =>
      cases h
      exact ordered.xadd fields
  | acknowledge id =>
      simp only [scanCommand] at h
      cases hAcked : streams.xack documentStream member.workerGroup id with
      | error error =>
          rw [hAcked] at h
          cases h
      | ok acked =>
          rw [hAcked] at h
          cases h
          exact ordered.xack hAcked

theorem claim_of_not_aside {call : Call} (h : ¬Aside call) :
    ∃ cursor, call = .stream (.autoClaim cursor) := by
  unfold Aside at h
  split at h
  · exact ⟨_, rfl⟩
  · exact absurd trivial h

/-- What a command can do: it raises, with its effect at most, or it is answered. -/
theorem stream_cases {command : StreamCommand} {answer : Except Failure command.Answer}
    (h : scanPerform member agent state choice (.stream command) = some (answer, after)) :
    (∃ error, answer = .error error ∧ (after = state ∨
      mayBeLost command = true ∧ ∃ own streams,
        scanCommand member state.streams command = .ok (own, streams) ∧
          after = { state with streams })) ∨
    ∃ own streams, answer = .ok own ∧
      scanCommand member state.streams command = .ok (own, streams) ∧
      after = state.answered agent command own streams := by
  simp only [scanPerform] at h
  cases hCommand : scanCommand member state.streams command with
  | error error =>
      rw [hCommand] at h
      cases h
      exact Or.inl ⟨error, rfl, Or.inl rfl⟩
  | ok effect =>
      obtain ⟨own, streams⟩ := effect
      rw [hCommand] at h
      cases hFailure : choice.failure with
      | none =>
          rw [hFailure] at h
          cases h
          exact Or.inr ⟨own, streams, rfl, rfl, rfl⟩
      | some failure =>
          obtain ⟨error, taken⟩ := failure
          rw [hFailure] at h
          cases h
          refine Or.inl ⟨error, rfl, ?_⟩
          split_ifs with hTaken
          · exact Or.inr ⟨(Bool.and_eq_true _ _ ▸ hTaken).2, own, streams, rfl, rfl⟩
          · exact Or.inl rfl

/-- What a process asks of anything else changes nothing here. -/
theorem outside_cases {query : Outside} {answer : Except Failure query.Answer}
    (h : scanPerform member agent state choice (.outside query) = some (answer, after)) :
    after = state ∧ (neverRaises query = true → ∃ own, answer = .ok own) := by
  cases query with
  | clock =>
      cases h
      exact ⟨rfl, fun _ => ⟨_, rfl⟩⟩
  | stopping | wait | makeDirectory | removeDirectory | openObject | readObject | compute
  | traceparent =>
      simp only [scanPerform] at h
      split at h
      · cases h
        exact ⟨rfl, fun _ => ⟨_, rfl⟩⟩
      · split_ifs at h with hQuiet
        cases h
        exact ⟨rfl, fun hNever => absurd hNever hQuiet⟩

/-- A claim is one more pass, unless it raises. -/
theorem claim_cases {cursor : String} {answer : Except Failure (String × List StreamMessage)}
    (h : scanPerform member agent state choice (.stream (.autoClaim cursor)) =
      some (answer, after)) :
    (∃ error, answer = .error error ∧ after = state) ∨
    ∃ next claimed streams, answer = .ok (next, claimed) ∧
      state.streams.xautoclaim documentStream member.workerGroup member.consumer
        member.claimMinIdleMs cursor member.workerBatch = .ok ((next, claimed), streams) ∧
      after = state.answered agent (.autoClaim cursor) (next, claimed) streams := by
  cases stream_cases h with
  | inl hRaised =>
      obtain ⟨error, hAnswer, hAfter⟩ := hRaised
      refine Or.inl ⟨error, hAnswer, ?_⟩
      cases hAfter with
      | inl hSame => exact hSame
      | inr hLost => cases hLost.1
  | inr hAnswered =>
      obtain ⟨⟨next, claimed⟩, streams, hAnswer, hCommand, hAfter⟩ := hAnswered
      exact Or.inr ⟨next, claimed, streams, hAnswer, hCommand, hAfter⟩

/-- Any other call leaves the passes as they are. -/
theorem aside_cases {call : Call} {answer : Except Failure (Response call)} (hAside : Aside call)
    (h : scanPerform member agent state choice call = some (answer, after)) :
    (state.streams.Ordered → after.streams.Ordered) ∧ after.clock = state.clock ∧
      after.passes = state.passes := by
  cases call with
  | stream command =>
      cases stream_cases h with
      | inl hRaised =>
          obtain ⟨-, -, rfl | ⟨-, own, streams, hCommand, rfl⟩⟩ := hRaised
          · exact ⟨id, rfl, rfl⟩
          · exact ⟨fun ordered => scanCommand_ordered ordered hCommand, rfl, rfl⟩
      | inr hAnswered =>
          obtain ⟨own, streams, -, hCommand, rfl⟩ := hAnswered
          refine ⟨fun ordered => scanCommand_ordered ordered hCommand, rfl, ?_⟩
          funext other
          have hNone : passOf state command own = [] := by
            cases command with
            | autoClaim => exact hAside.elim
            | createGroup | heartbeat | readGroup | pending | addDeadLetter | acknowledge => rfl
          simp only [ScanState.answered, hNone, List.append_nil]
          split_ifs with hSame
          · rw [hSame]
          · rfl
  | outside query =>
      obtain ⟨rfl, -⟩ := outside_cases h
      exact ⟨id, rfl, rfl⟩
  | getDocument | markStatus | upsertDocument | begin | selectPending | publish | setPublished
  | commit | rollback =>
      cases h
      exact ⟨id, rfl, rfl⟩

end Effects

section Discipline
variable {members : Nat → Member} {agent : Nat} {state now : ScanState}

/-- What a worker must know before a claim: it goes on where it has stopped, and not too soon. -/
def MayClaim (members : Nat → Member) (agent : Nat) (state : ScanState) : Call → Prop
  | .stream (.autoClaim cursor) =>
      cursor = lastCursor (state.passes agent) ∧
        Cooled (members agent).settings (state.passes agent) state.clock
  | _ => True

theorem mayClaim_aside {call : Call} (hAside : Aside call) : MayClaim members agent state call := by
  unfold MayClaim
  split
  · exact hAside.elim
  · trivial

/-- Every worker's passes are scans, and its clock goes forward. -/
structure Scanning (members : Nat → Member) (state : ScanState) : Prop where
  ordered : state.streams.Ordered
  scans : ∀ agent, Scans (members agent) (state.passes agent)

/-- What others leave to a worker. -/
structure Unhurried (agent : Nat) (before after : ScanState) : Prop where
  passes : after.passes agent = before.passes agent
  clock : before.clock ≤ after.clock

theorem scanning_claim {cursor : String} {answer : Except Failure (String × List StreamMessage)}
    {choice : ScanChoice} {after : ScanState} (scanning : Scanning members state)
    (may : MayClaim members agent state (.stream (.autoClaim cursor)))
    (h : scanPerform (members agent) agent state choice (.stream (.autoClaim cursor)) =
      some (answer, after)) : Scanning members after := by
  cases claim_cases h with
  | inl hRaised =>
      obtain ⟨error, -, rfl⟩ := hRaised
      exact scanning
  | inr hClaimed =>
      obtain ⟨next, claimed, streams, -, hClaim, rfl⟩ := hClaimed
      obtain ⟨hCursor, hCooled⟩ := may
      have hIsCursor : IsCursor cursor := hCursor ▸ (scanning.scans agent).isCursor
      constructor
      · exact scanning.ordered.xautoclaim hClaim
      · intro other
        simp only [ScanState.answered]
        split_ifs with hSame
        · subst hSame
          exact (scanning.scans other).append hCursor hCooled
            (xautoclaim_page scanning.ordered hIsCursor hClaim)
        · exact scanning.scans other

/-- A worker relies on its passes to stay its own and on the clock to go forward. -/
def scanning (members : Nat → Member) : Discipline (scanEnvironment members) where
  Inv := Scanning members
  Guard := MayClaim members
  Rely := Unhurried
  rely_refl _ _ := ⟨rfl, le_rfl⟩
  rely_trans _ _ _ _ first second :=
    ⟨second.passes.trans first.passes, first.clock.trans second.clock⟩
  call_inv agent state request choice answer next scanning may h := by
    by_cases hAside : Aside request
    · obtain ⟨hOrdered, -, hPasses⟩ := aside_cases hAside h
      exact ⟨hOrdered scanning.ordered, fun other => hPasses ▸ scanning.scans other⟩
    · obtain ⟨cursor, rfl⟩ := claim_of_not_aside hAside
      exact scanning_claim scanning may h
  call_rely agent other state request choice answer next hOther _ _ h := by
    by_cases hAside : Aside request
    · obtain ⟨-, hClock, hPasses⟩ := aside_cases hAside h
      exact ⟨congrFun hPasses other, hClock.ge⟩
    · obtain ⟨cursor, rfl⟩ := claim_of_not_aside hAside
      cases claim_cases h with
      | inl hRaised =>
          obtain ⟨-, -, rfl⟩ := hRaised
          exact ⟨rfl, le_rfl⟩
      | inr hClaimed =>
          obtain ⟨-, -, streams, -, -, rfl⟩ := hClaimed
          exact ⟨if_neg hOther, le_rfl⟩
  event_inv state event next scanning h := by
    cases event with
    | elapse seconds =>
        simp only [scanEnvironment, scanOccur] at h
        split_ifs at h
        cases h
        exact ⟨scanning.ordered, scanning.scans⟩
    | operate operation =>
        cases h
        exact ⟨operation.ordered scanning.ordered, scanning.scans⟩
  event_rely agent state event next _ h := by
    cases event with
    | elapse seconds =>
        simp only [scanEnvironment, scanOccur] at h
        split_ifs at h with hForward
        cases h
        exact ⟨rfl, le_add_of_nonneg_right hForward⟩
    | operate operation =>
        cases h
        exact ⟨rfl, le_rfl⟩
  crash_inv _ _ scanning := scanning
  crash_rely _ _ _ _ _ := ⟨rfl, le_rfl⟩

end Discipline

section Turns
variable {setting : Setting} {members : Nat → Member} {agent : Nat} {state later : ScanState}
  {worker : WorkerState}

theorem handles_aside (setting : Setting) : (backend setting).Handles Aside where
  outside _ := Program.Makes.perform trivial
  addDeadLetter _ := Program.Makes.perform trivial
  acknowledge _ := Program.Makes.perform trivial
  markStatus _ _ _ _ _ := Program.Makes.perform trivial
  upsertDocument _ _ _ := Program.Makes.perform trivial
  heartbeat := Program.Makes.perform trivial
  pending _ := Program.Makes.perform trivial
  getDocument _ _ := Program.Makes.perform trivial
  markProcessing _ _ _ := Program.Makes.perform trivial

/-- A worker keeps the cursor that it was answered last, and a time for its next scan that is
not too soon. -/
structure KeepsCursor (settings : WorkerSettings) (agent : Nat) (worker : WorkerState)
    (state : ScanState) : Prop where
  cursor : worker.cursor = lastCursor (state.passes agent)
  cooled : Cooled settings (state.passes agent) worker.nextReclaim

/-- The last pass of a worker was answered this cursor. -/
def HasPassed (agent : Nat) (cursor : String) (state : ScanState) : Prop :=
  ∃ last, (state.passes agent).getLast? = some last ∧ last.next = cursor ∧
    last.time ≤ state.clock

/-- A worker that has passed keeps the cursor it was answered, and at the end of a scan a time
after the cooldown. -/
theorem HasPassed.keeps {settings : WorkerSettings} {cursor : String}
    (passed : HasPassed agent cursor state) (hCursor : worker.cursor = cursor)
    (hNext : cursor = "0-0" → state.clock + settings.reclaimSeconds ≤ worker.nextReclaim) :
    KeepsCursor settings agent worker state := by
  obtain ⟨last, hLast, hAnswered, hTime⟩ := passed
  constructor
  · rw [lastCursor_eq hLast, hAnswered, hCursor]
  · intro other hOther hEnd
    rw [hLast] at hOther
    cases hOther
    exact (add_le_add_left hTime _).trans (hNext (hAnswered.symm.trans hEnd))

theorem KeepsCursor.unhurried {settings : WorkerSettings}
    (keeps : KeepsCursor settings agent worker state) (h : Unhurried agent state later) :
    KeepsCursor settings agent worker later where
  cursor := h.passes.symm ▸ keeps.cursor
  cooled := h.passes.symm ▸ keeps.cooled

theorem HasPassed.unhurried {cursor : String} (passed : HasPassed agent cursor state)
    (h : Unhurried agent state later) : HasPassed agent cursor later := by
  obtain ⟨last, hLast, hAnswered, hTime⟩ := passed
  exact ⟨last, h.passes.symm ▸ hLast, hAnswered, hTime.trans h.clock⟩

/-- A program that claims nothing leaves a worker what it keeps. -/
theorem keeps_aside {settings : WorkerSettings} {Result : Type} {program : Task Result}
    (keeps : KeepsCursor settings agent worker state) (h : program.Makes Aside) :
    (scanning members).Safe agent program (fun _ later => KeepsCursor settings agent worker later)
      state := by
  apply Safe.of_makes (fun _ _ _ _ hAside => mayClaim_aside hAside)
    (fun _ _ hRely keeps => keeps.unhurried hRely) _ keeps h
  intro now request choice answer after scanning hAside hPerform keeps
  obtain ⟨-, hClock, hPasses⟩ := aside_cases hAside hPerform
  exact keeps.unhurried ⟨congrFun hPasses agent, hClock.ge⟩

theorem answered_keeps {settings : WorkerSettings} {Result : Type}
    (answer : Except Failure Result) (keeps : KeepsCursor settings agent worker state) :
    Answered (fun _ => KeepsCursor settings agent worker)
      (fun _ => KeepsCursor settings agent worker) answer state := by
  cases answer with
  | ok result => exact keeps
  | error error => exact keeps

theorem keeps_call {settings : WorkerSettings} {request : Call}
    (keeps : KeepsCursor settings agent worker state) (hAside : Aside request) :
    (scanning members).Safe agent (call request)
      (Answered (fun _ => KeepsCursor settings agent worker)
        fun _ => KeepsCursor settings agent worker) state :=
  (keeps_aside keeps (Program.Makes.perform hAside)).mono fun answer _ keeps =>
    answered_keeps answer keeps

/-- What never raises is answered. -/
theorem safe_neverRaises {query : Outside} (hQuiet : neverRaises query = true)
    {post : query.Answer → ScanState → Prop} {raised : Failure → ScanState → Prop}
    (h : ∀ answer later, Unhurried agent state later → post answer later) :
    (scanning members).Safe agent (call (.outside query)) (Answered post raised) state := by
  apply Safe.perform
  intro now hRely _
  refine ⟨trivial, fun choice answer after hPerform _ => ?_⟩
  obtain ⟨rfl, hAnswer⟩ := outside_cases hPerform
  obtain ⟨own, rfl⟩ := hAnswer hQuiet
  exact h own _ hRely

/-- A worker reads the clock. -/
theorem safe_readClock {post : ℚ → ScanState → Prop} {raised : Failure → ScanState → Prop}
    (h : ∀ later, Unhurried agent state later → post later.clock later) :
    (scanning members).Safe agent (call (.outside .clock)) (Answered post raised) state := by
  apply Safe.perform
  intro now hRely _
  refine ⟨trivial, fun choice answer after hPerform _ => ?_⟩
  cases hPerform
  exact h now hRely

/-- What a worker keeps from call to call, so that every claim goes on where it has stopped. -/
def scanRules (setting : Setting) (members : Nat → Member) (agent : Nat) :
    TurnRules (scanning members) agent (backend setting) setting.codec
      (members agent).settings where
  Known := KeepsCursor (members agent).settings agent
  Due worker state := KeepsCursor (members agent).settings agent worker state ∧
    Cooled (members agent).settings (state.passes agent) state.clock
  Claimed _ cursor _ state := HasPassed agent cursor state
  Ready worker _ state := KeepsCursor (members agent).settings agent worker state
  Ended worker _ state := KeepsCursor (members agent).settings agent worker state
  Raised _ _ := False
  stopping worker state keeps := safe_neverRaises rfl fun _ _ h => keeps.unhurried h
  waiting worker state keeps := safe_neverRaises rfl fun _ _ h => keeps.unhurried h
  heartbeat worker state keeps := keeps_call keeps trivial
  createGroup worker state keeps := keeps_call keeps trivial
  readGroup worker state keeps := keeps_call keeps trivial
  clock worker state keeps := by
    apply safe_readClock
    intro later h
    split_ifs with hDue
    · exact ⟨keeps.unhurried h, (keeps.unhurried h).cooled.mono hDue⟩
    · exact keeps.unhurried h
  scanning worker state keeps hCursor := by
    refine ⟨keeps, fun last hLast hEnd => ?_⟩
    exact absurd (keeps.cursor.trans ((lastCursor_eq hLast).trans hEnd)) hCursor
  autoClaim worker state due := by
    apply Safe.perform
    intro now hRely _
    obtain ⟨keeps, cooled⟩ := due
    have hKeeps := keeps.unhurried hRely
    rw [← hRely.passes] at cooled
    refine ⟨⟨hKeeps.cursor, cooled.mono hRely.clock⟩, fun choice answer after hPerform _ => ?_⟩
    cases claim_cases hPerform with
    | inl hRaised =>
        obtain ⟨error, rfl, rfl⟩ := hRaised
        exact hKeeps
    | inr hClaimed =>
        obtain ⟨next, claimed, streams, rfl, -, rfl⟩ := hClaimed
        have hLast : ((now.answered agent (.autoClaim worker.cursor) (next, claimed)
            streams).passes agent).getLast? =
              some ⟨now.clock, now.streams, worker.cursor, next, claimed⟩ := by
          simp only [ScanState.answered, if_true, passOf]
          exact List.getLast?_concat
        exact ⟨_, hLast, rfl, le_rfl⟩
  continued worker cursor messages state passed hCursor :=
    passed.keeps rfl fun hEnd => absurd hEnd hCursor
  wrapped worker messages state passed := by
    apply safe_readClock
    intro later h
    exact (passed.unhurried h).keeps rfl fun _ => le_rfl
  nothing _ _ := Iff.rfl
  handleAll worker messages state keeps :=
    (keeps_aside keeps ((handles_aside setting).handleAll setting.codec _ messages)).mono
      fun answer _ keeps => answered_keeps answer keeps
  created _ _ keeps := ⟨keeps.cursor, keeps.cooled⟩
  raised _ _ _ h := h.elim
  caught _ _ _ keeps _ := ⟨keeps.cursor, keeps.cooled⟩

theorem scanning_start (setting : Setting) (members : Nat → Member) (turns : Nat → Nat) :
    (scanning members).PoolSafe (fun _ _ _ => True) (scanStart setting members turns) := by
  constructor
  · constructor
    · constructor
      · intro stream entries h
        cases h
      · intro stream group state h
        cases h
    · exact fun _ => Scans.nil
  · intro agent program hProgram
    cases hProgram
    have hRun : (scanning members).Safe agent
        (Worker.run (backend setting) setting.codec (members agent).settings (turns agent) {})
        (scanRules setting members agent).Finished {} :=
      TurnRules.run (turns agent) ⟨rfl, nofun⟩
    exact hRun.mono fun _ _ _ => trivial

/-- In every run, the passes of every worker are scans. -/
theorem scans_run {turns : Nat → Nat} {moves : List (Action Nat ScanChoice ScanEvent)}
    {finish : ScanPool}
    (hRun : Transition.run (scanStep members) moves (scanStart setting members turns) =
      some finish) (agent : Nat) : Scans (members agent) (finish.state.passes agent) :=
  ((scanning_start setting members turns).run (fun _ _ _ _ _ _ => trivial) hRun).1.scans agent

end Turns

section Scan
variable {member : Member}

/-- The passes of a scan continue one another as pages. -/
theorem continues_of_chain {first : Pass} {rest : List Pass}
    (hChain : (first :: rest).IsChain (Follows member.settings))
    (hGoesOn : ∀ pass ∈ (first :: rest).dropLast, pass.next ≠ "0-0") :
    ((first :: rest).map (Pass.page member)).IsChain PagedScan.Page.Continues := by
  induction rest generalizing first with
  | nil => exact List.isChain_singleton _
  | cons second others ih =>
      obtain ⟨follows, hRest⟩ := List.isChain_cons_cons.mp hChain
      rw [List.dropLast_cons_cons] at hGoesOn
      obtain ⟨hFirst, hOthers⟩ := List.forall_mem_cons.mp hGoesOn
      apply List.isChain_cons_cons.mpr
      refine ⟨?_, ih hRest hOthers⟩
      simp only [PagedScan.Page.Continues, Pass.page, follows.continues, stop, if_neg hFirst]

theorem claimedIds_eq (passes : List Pass) :
    claimedIds passes = (passes.map (Pass.page member)).flatMap PagedScan.Page.taken := by
  rw [List.flatMap_map]
  rfl

/-- A scan claims exactly once what is waiting at every one of its passes until it is claimed. -/
theorem Scans.count_claimed {scan : List Pass} (scans : Scans member scan) (isScan : IsScan scan)
    {id : Nat} (hWaiting : ∀ before pass after, scan = before ++ pass :: after →
      id ∉ claimedIds before →
      Waiting documentStream member.workerGroup member.claimMinIdleMs pass.before id) :
    (claimedIds scan).count id = 1 := by
  cases scan with
  | nil => cases isScan.starts
  | cons first rest =>
      have hChain := continues_of_chain scans.chain isScan.goesOn
      have hStart : place first.cursor = 0 := by
        rw [Option.some.inj isScan.starts, place_start]
      have hEnd : (((first :: rest).map (Pass.page member)).getLast
          (List.cons_ne_nil _ _)).stop = ⊤ := by
        have hLast := isScan.ends
        rw [List.getLast?_eq_some_getLast (List.cons_ne_nil first rest), Option.map_some,
          Option.some.injEq] at hLast
        rw [List.getLast_map, Pass.page, hLast, stop_start]
      rw [@claimedIds_eq member]
      apply PagedScan.count_taken hChain
      · rw [← List.map_cons]
        intro page hPage
        obtain ⟨pass, hPass, rfl⟩ := List.mem_map.mp hPage
        exact scans.complete pass hPass
      · exact hEnd
      · exact hStart.le.trans (Nat.zero_le id)
      · intro before page after hSplit hNot
        rw [← List.map_cons] at hSplit
        obtain ⟨earlier, others, hScan, rfl, hOthers⟩ := List.map_eq_append_iff.mp hSplit
        obtain ⟨pass, later, rfl, rfl, rfl⟩ := List.map_eq_cons_iff.mp hOthers
        rw [← claimedIds_eq] at hNot
        exact hWaiting earlier pass later hScan hNot

end Scan

/-- A reclaim scan skips nothing, in every run: each pass of a worker starts where its last one
has stopped, and after the end of a scan no sooner than the cooldown; and whatever is pending and
idle for long enough at the passes of a scan, until the worker has claimed it, is claimed exactly
once in that scan. -/
theorem reclaim_skips_nothing {setting : Setting} {members : Nat → Member} {turns : Nat → Nat}
    {moves : List (Action Nat ScanChoice ScanEvent)} {finish : ScanPool}
    (hRun : Transition.run (scanStep members) moves (scanStart setting members turns) =
      some finish) (agent : Nat) :
    (finish.state.passes agent).IsChain (Follows (members agent).settings) ∧
      ∀ earlier scan later, finish.state.passes agent = earlier ++ scan ++ later → IsScan scan →
        ∀ id, (∀ before pass after, scan = before ++ pass :: after → id ∉ claimedIds before →
            Waiting documentStream (members agent).workerGroup (members agent).claimMinIdleMs
              pass.before id) →
          (claimedIds scan).count id = 1 := by
  have scans := scans_run hRun agent
  refine ⟨scans.chain, fun earlier scan later hPasses isScan id hWaiting => ?_⟩
  rw [hPasses] at scans
  exact scans.part.count_claimed isScan hWaiting

def idleSetting : Setting where
  codec := libraryCodec
  sha256 _ := ""
  uuid5 id _ := id
  batch := 1
  raises _ _ := false

/-- A worker is told whether to stop; nothing else that it asks is answered. -/
def told (stopping : Bool) : ScanChoice where
  answer
    | .outside .stopping => .ok stopping
    | _ => .error (.other "NotImplementedError")

/-- Two entries were delivered to a worker that is gone. Another one claims the first and is told
to stop before it has handled it, and the same again for the second. -/
def twoPasses : List (Action Nat ScanChoice ScanEvent) :=
  [.event (.operate (.xgroupCreate documentStream "worker")),
    .event (.operate (.xadd documentStream [])), .event (.operate (.xadd documentStream [])),
    .event (.operate (.xreadgroup documentStream "worker" "gone" 2)),
    .event (.operate (.setNow 300000))] ++
  List.replicate 6 (.advance 0 (told false)) ++ [.advance 0 (told true)] ++
  List.replicate 5 (.advance 0 (told false))

/-- The second entry waits at both passes, and the scan has claimed it once. -/
theorem reclaim_skips_nothing_twoPasses :
    ∃ finish : ScanPool, (finish.state.passes 0).map Pass.cursor = ["0-0", "2-0"] ∧
      (claimedIds (finish.state.passes 0)).count 1 = 1 := by
  have hFound : (Transition.run (scanStep fun _ => { consumer := "w" }) twoPasses
      (scanStart idleSetting (fun _ => { consumer := "w" }) fun _ => 2)).map
        (fun finish => ((finish.state.passes 0).map Pass.cursor,
          decide (IsScan (finish.state.passes 0)), decide (∀ pass ∈ finish.state.passes 0,
            Waiting documentStream "worker" 300000 pass.before 1))) =
      some (["0-0", "2-0"], true, true) := by
    decide +kernel
  obtain ⟨finish, hRun, hPasses⟩ := Option.map_eq_some_iff.mp hFound
  rw [Prod.mk.injEq, Prod.mk.injEq, decide_eq_true_eq, decide_eq_true_eq] at hPasses
  obtain ⟨hCursors, isScan, hWaiting⟩ := hPasses
  refine ⟨finish, hCursors, ?_⟩
  apply (reclaim_skips_nothing hRun 0).2 [] (finish.state.passes 0) [] (List.append_nil _).symm
    isScan
  intro before pass after hSplit _
  apply hWaiting pass
  rw [hSplit]
  exact List.mem_append_right before List.mem_cons_self

end DocInsight.Delivery
