import DocInsight.Delivery.BoundedAttempts
import DocInsight.Worker.Turns

/-! How often processing is invoked for an entry, over all workers and every run: each
invocation has used up a delivery of the entry whose number is within the maximum. -/
namespace DocInsight.Delivery

open DocInsight.Contracts DocInsight.Worker DocInsight.Ingest Interaction Interaction.Discipline

section Workers
variable {setting : Setting} {maximum agent : Nat} {now : DeliveryState × Account}

/-- An agent has a delivery of each message of a batch. -/
structure Batch (agent : Nat) (messages : List StreamMessage) (now : DeliveryState × Account) :
    Prop where
  distinct : (messages.map StreamMessage.id).Nodup
  deliveries : HasDeliveries agent (messages.map StreamMessage.id) now

/-- A batch that was just delivered is the agent's. -/
theorem Batch.issued {after : DeliveryState} (accounted : Accounted now)
    {messages : List StreamMessage} (hDelivers : Delivers now.1 after messages) :
    Batch agent messages (after, (now.2.issue agent messages after).enter agent .idle) where
  distinct := hDelivers.distinct
  deliveries id hId := by
    obtain ⟨message, hMessage, rfl⟩ := List.mem_map.mp hId
    exact ⟨_, accounted.held_issue hDelivers hMessage agent, rfl⟩

/-- A call that needs no delivery, where nothing else is known. -/
theorem ration_any {Result : Type} {program : Task Result} (hFree : program.Makes Free) :
    (rationed setting maximum).Safe agent program (fun _ _ => True) now :=
  (@ration_free setting maximum agent now [] _ _ hFree
    fun _ h => absurd h List.not_mem_nil).mono fun _ _ _ => trivial

theorem answered_any {Result : Type} (answer : Except Failure Result)
    (now : DeliveryState × Account) : Answered (fun _ _ => True) (fun _ _ => True) answer now := by
  cases answer with
  | ok result => trivial
  | error error => trivial

theorem ration_unknown {Result : Type} {program : Task Result} (hFree : program.Makes Free) :
    (rationed setting maximum).Safe agent program (Answered (fun _ _ => True) fun _ _ => True)
      now :=
  (ration_any hFree).mono fun answer later _ => answered_any answer later

/-- Between its calls a worker need not know anything but what it has received. -/
def rationedTurns (setting : Setting) (maximum agent : Nat) (settings : WorkerSettings)
    (hMaximum : settings.maxAttempts ≤ maximum) :
    TurnRules (rationed setting maximum) agent (backend setting) setting.codec settings where
  Known _ _ := True
  Due _ _ := True
  Claimed _ _ messages now := Batch agent messages now
  Ready _ messages now := Batch agent messages now
  Ended _ _ _ := True
  Raised _ _ := True
  stopping _ _ _ := ration_unknown (Program.Makes.perform trivial)
  waiting _ _ _ := ration_unknown (Program.Makes.perform trivial)
  heartbeat _ _ _ := ration_unknown (Program.Makes.perform trivial)
  createGroup _ _ _ := ration_unknown (Program.Makes.perform trivial)
  readGroup _ now _ := by
    apply ration_call
    · exact fun _ _ _ => trivial
    intro later choice answer after _ accounted hPerform
    cases answer with
    | error error => trivial
    | ok messages => exact Batch.issued accounted (delivers_readGroup accounted.toLined hPerform)
  clock worker now _ := by
    have hFree : (call (.outside .clock)).Makes Free := Program.Makes.perform trivial
    apply (ration_any hFree).mono
    intro answer later _
    cases answer with
    | error error => trivial
    | ok time =>
        show if worker.nextReclaim ≤ time then True else True
        exact (ite_self True).mpr trivial
  scanning _ _ _ _ := trivial
  autoClaim _ now _ := by
    apply ration_call
    · exact fun _ _ _ => trivial
    intro later choice answer after _ accounted hPerform
    cases answer with
    | error error => trivial
    | ok claimed => exact Batch.issued accounted (delivers_autoClaim accounted.toLined hPerform)
  continued _ _ _ _ batch _ := batch
  wrapped worker messages now batch := by
    have hFree : (call (.outside .clock)).Makes Free := Program.Makes.perform trivial
    apply (ration_free hFree batch.deliveries).mono
    intro answer later hLater
    cases answer with
    | error error => trivial
    | ok time => exact ⟨batch.distinct, hLater⟩
  nothing _ _ := iff_of_true ⟨List.nodup_nil, fun _ h => absurd h List.not_mem_nil⟩ trivial
  handleAll _ messages now batch :=
    (ration_handleAll settings hMaximum batch.distinct batch.deliveries).mono
      fun answer later _ => answered_any answer later
  created _ _ _ := trivial
  raised _ _ _ _ := trivial
  caught _ _ _ _ _ := trivial

end Workers

section Relays

theorem makes_publishRows (tenantId : String) (rows : List OutboxRow) :
    (publishRows relayBackend tenantId rows).Makes Free := by
  induction rows with
  | nil => trivial
  | cons row rest ih =>
      apply (Program.Makes.perform trivial).bind
      intro traceparent
      apply (Program.Makes.perform trivial).bind
      intro _
      exact (Program.Makes.perform trivial).bind fun _ => ih

theorem makes_transaction {Result : Type} (tenantId : String) {body : Task Result}
    (h : body.Makes Free) : (transaction relayBackend tenantId body).Makes Free := by
  have hRollback (error : Failure) : (relayBackend.rollback.andThen fun _ =>
      (throw error : Task Result)).Makes Free :=
    (Program.Makes.perform trivial).andThen fun _ => trivial
  apply (Program.Makes.perform trivial).bind
  intro _
  apply h.andThen
  intro outcome
  cases outcome with
  | error error => exact hRollback error
  | ok result =>
      apply Program.Makes.andThen (Program.Makes.perform trivial)
      intro committed
      cases committed with
      | ok done => trivial
      | error error => exact hRollback error

theorem makes_runTenants (batch : Nat) (tenants : List String) :
    (runTenants relayBackend batch tenants).Makes Free := by
  induction tenants with
  | nil => trivial
  | cons tenant rest ih =>
      apply Program.Makes.bind
      · unfold Ingest.runOnce
        split_ifs
        · trivial
        · apply makes_transaction
          apply (Program.Makes.perform trivial).bind
          intro rows
          exact (makes_publishRows tenant rows).bind fun _ => trivial
      · exact fun _ => ih

/-- A relay needs no delivery for anything that it does. -/
theorem makes_relay (tenants : List String) (batch turns : Nat) :
    (Ingest.run relayBackend tenants batch turns).Makes Free := by
  induction turns with
  | zero => trivial
  | succ turns ih =>
      apply (Program.Makes.perform trivial).bind
      intro stopping
      split_ifs
      · trivial
      · apply (makes_runTenants batch tenants).bind
        intro _
        exact (Program.Makes.perform trivial).bind fun _ => ih

end Relays

/-- Every worker processes an entry only where it has found at most so many deliveries. -/
def WithinLimit (maximum : Nat) (processes : Nat → Process) : Prop :=
  ∀ agent settings turns memory, processes agent = .worker settings turns memory →
    settings.maxAttempts ≤ maximum

theorem ration_process_task {setting : Setting} {maximum : Nat} {processes : Nat → Process}
    (hLimit : WithinLimit maximum processes) (agent : Nat) (now : DeliveryState × Account) :
    (rationed setting maximum).Safe agent ((processes agent).task setting) (fun _ _ => True)
      now := by
  cases hProcess : processes agent with
  | worker settings turns memory =>
      let rules := rationedTurns setting maximum agent settings (hLimit agent _ _ _ hProcess)
      have hRun : (rationed setting maximum).Safe agent
          (Worker.run (backend setting) setting.codec settings turns memory) rules.Finished now :=
        TurnRules.run turns trivial
      exact hRun.mono fun _ _ _ => trivial
  | relay tenants batch turns => exact ration_any (makes_relay tenants batch turns)

theorem rationed_start {setting : Setting} {maximum : Nat} {processes : Nat → Process}
    (hLimit : WithinLimit maximum processes) :
    (rationed setting maximum).PoolSafe (fun _ _ _ => True)
      ((start setting processes).observed {}) := by
  constructor
  · constructor
    · constructor
      · exact ⟨rfl, fun _ h => absurd h List.not_mem_nil⟩
      · exact fun ticket agent h => nomatch h
    · exact fun ticket h => absurd h List.not_mem_nil
    · exact List.nodup_nil
    · exact fun agent ticket found h => nomatch h
    · exact fun agent ticket found h => nomatch h
  · intro agent program hProgram
    cases hProgram
    exact ration_process_task hLimit agent _

/-- The entry whose processing a worker is about to begin: it is handling it, and its next
call marks the document as processing. -/
def invoked (agent : Nat) (deployment : Deployment) : Option Nat :=
  match deployment.programs agent with
  | some (.call (.markStatus _ _ .processing _) _) => (deployment.state.attempts agent).entry
  | _ => none

/-- The step has led its agent to the processing of an entry. -/
def Invokes (entry : Nat) (next : Deployment) : Move → Prop
  | .advance agent _ => invoked agent next = some entry
  | _ => False

instance (entry : Nat) (next : Deployment) (move : Move) : Decidable (Invokes entry next move) := by
  unfold Invokes
  cases move <;> infer_instance

/-- How often processing is invoked for an entry as a deployment goes on. -/
def invocations (setting : Setting) (entry : Nat) : List Move → Deployment → Nat
  | [], _ => 0
  | move :: rest, deployment =>
      match step setting deployment move with
      | none => 0
      | some next =>
          (if Invokes entry next move then 1 else 0) + invocations setting entry rest next

/-- The deliveries of an entry, up to the maximum, that have led to a lookup. -/
def used (maximum entry : Nat) (account : Account) : List Ticket :=
  account.spent.filter fun ticket => ticket.entry = entry ∧ ticket.number ≤ maximum

section Counting
variable {setting : Setting} {maximum agent entry : Nat}

/-- Deliveries of an entry are told apart by their numbers. -/
theorem length_used {now : DeliveryState × Account} (accounted : Accounted now) :
    (used maximum entry now.2).length ≤ maximum := by
  have hDistinct : ((used maximum entry now.2).map Ticket.number).Nodup := by
    apply List.Nodup.map_on _ (accounted.distinct.filter _)
    rintro ⟨first, number⟩ hFirst ⟨second, other⟩ hSecond (rfl : number = other)
    obtain ⟨rfl, -⟩ := of_decide_eq_true (List.mem_filter.mp hFirst).2
    obtain ⟨rfl, -⟩ := of_decide_eq_true (List.mem_filter.mp hSecond).2
    rfl
  have hWithin : (used maximum entry now.2).map Ticket.number ⊆
      (List.range maximum).map Nat.succ := by
    intro number hNumber
    obtain ⟨ticket, hTicket, rfl⟩ := List.mem_map.mp hNumber
    obtain ⟨hSpent, hUsed⟩ := List.mem_filter.mp hTicket
    obtain ⟨holder, hHolder⟩ := accounted.received ticket hSpent
    have hPositive := (accounted.issued ticket holder hHolder).1
    have hMaximum := (of_decide_eq_true hUsed).2
    refine List.mem_map.mpr ⟨ticket.number - 1, List.mem_range.mpr ?_, ?_⟩
    · omega
    · omega
  have hLength := (List.subperm_of_subset hDistinct hWithin).length_le
  rwa [List.length_map, List.length_map, List.length_range] at hLength

theorem used_spend (ticket : Ticket) (account : Account) :
    (used maximum entry (account.spend ticket)).length =
      (if ticket.entry = entry ∧ ticket.number ≤ maximum then 1 else 0) +
        (used maximum entry account).length := by
  rw [used, Account.spend, List.filter_cons]
  by_cases hUsed : ticket.entry = entry ∧ ticket.number ≤ maximum
  · rw [if_pos hUsed, if_pos (decide_eq_true hUsed), List.length_cons, Nat.add_comm]
    rfl
  · rw [if_neg hUsed, if_neg (by rw [decide_eq_false hUsed]; exact Bool.false_ne_true),
      Nat.zero_add]
    rfl

/-- A call leads to processing only where it uses up a delivery. -/
theorem used_see (maximum entry : Nat) {state after : DeliveryState} {account : Account} {choice : Choice}
    {request : Call} {answer : Except Failure (Response request)}
    (numbered : Numbered state account)
    (h : perform setting agent state choice request = some (answer, after)) :
    (used maximum entry account).length ≤
        (used maximum entry (see agent after request answer account)).length ∧
      ∀ ticket found, (see agent after request answer account).phase agent = .looked ticket found →
        (used maximum entry (see agent after request answer account)).length =
          (if ticket.entry = entry ∧ ticket.number ≤ maximum then 1 else 0) +
            (used maximum entry account).length := by
  rcases see_cases numbered h with ⟨messages, -, hSee⟩ | ⟨id, found, ticket, -, hSee⟩ |
    ⟨tenantId, id, spent, found, -, -, hSee⟩ | hSee
  all_goals rw [hSee]
  · refine ⟨le_rfl, fun ticket found hLooked => ?_⟩
    rw [Account.enter_phase] at hLooked
    cases hLooked
  · refine ⟨le_rfl, fun ticket found hLooked => ?_⟩
    rw [Account.enter_phase] at hLooked
    cases hLooked
  · have hUsed : (used maximum entry ((account.spend spent).enter agent
        (.looked spent found))).length =
        (if spent.entry = entry ∧ spent.number ≤ maximum then 1 else 0) +
          (used maximum entry account).length := used_spend spent account
    rw [hUsed]
    refine ⟨Nat.le_add_left _ _, fun ticket found hLooked => ?_⟩
    rw [Account.enter_phase] at hLooked
    cases hLooked
    rfl
  · refine ⟨le_rfl, fun ticket found hLooked => ?_⟩
    rw [Account.enter_phase] at hLooked
    cases hLooked

/-- A worker that is about to process an entry is at a delivery of it. -/
theorem invoked_entitled {next : Deployment} {later : Account}
    (safe : (rationed setting maximum).PoolSafe (fun _ _ _ => True) (next.observed later))
    (h : invoked agent next = some entry) :
    ∃ ticket found, later.phase agent = .looked ticket found ∧ ticket.entry = entry ∧
      found ≤ maximum := by
  unfold invoked at h
  split at h
  · rename_i tenantId id error rest hProgram
    obtain ⟨ticket, found, hLooked, hEntry, hFound⟩ := safe.guard hProgram
    exact ⟨ticket, found, hLooked, Option.some.inj (hEntry.symm.trans h), hFound⟩
  · cases h

/-- Where processing is about to begin, the call that led there has used up a delivery of
the entry. -/
theorem used_step {deployment next : Deployment} {move : Move} {account : Account}
    (safe : (rationed setting maximum).PoolSafe (fun _ _ _ => True) (deployment.observed account))
    (h : step setting deployment move = some next) :
    ∃ later, (rationed setting maximum).PoolSafe (fun _ _ _ => True) (next.observed later) ∧
      (if Invokes entry next move then 1 else 0) + (used maximum entry account).length ≤
        (used maximum entry later).length := by
  obtain ⟨later, hObserved⟩ := @Pool.observed_step _ _ _ _ _ _ _ (environment setting) see _ _ _ _ h
    account
  have hSafe := safe.step (fun _ _ _ _ _ h => h) hObserved
  refine ⟨later, hSafe, ?_⟩
  cases move with
  | advance agent choice =>
      obtain ⟨request, rest, answer, -, hPerform, -⟩ := Pool.step_advance hObserved
      obtain ⟨hOwn, hLater⟩ := Environment.observed_cases hPerform
      have hSee : later = see agent next.state request answer account := hLater
      have hUsed := used_see maximum entry safe.1.toNumbered hOwn
      rw [← hLater] at hUsed
      split_ifs with hInvokes
      · obtain ⟨ticket, found, hLooked, hEntry, hFound⟩ := invoked_entitled hSafe hInvokes
        have hNumber := (hSafe.1.looked agent ticket found hLooked).2.trans hFound
        have hMore := hUsed.2 ticket found hLooked
        rw [if_pos ⟨hEntry, hNumber⟩] at hMore
        exact hMore.ge
      · rw [Nat.zero_add]
        exact hUsed.1
  | crash agent =>
      have hSame : account = later :=
        congrArg (fun pool => pool.state.2) (Option.some.inj hObserved)
      subst hSame
      exact (Nat.zero_add _).le
  | event event =>
      obtain ⟨state, hEvent, hNext⟩ := Option.map_eq_some_iff.mp hObserved
      obtain ⟨own, -, rfl⟩ := Option.map_eq_some_iff.mp hEvent
      have hSame : account = later := congrArg (fun pool => pool.state.2) hNext
      subst hSame
      exact (Nat.zero_add _).le

/-- From a safe deployment on, processing is invoked for an entry at most as often as
deliveries within the maximum are left. -/
theorem invocations_le (moves : List Move) {deployment : Deployment} {account : Account}
    (safe : (rationed setting maximum).PoolSafe (fun _ _ _ => True)
      (deployment.observed account)) :
    invocations setting entry moves deployment + (used maximum entry account).length ≤ maximum := by
  induction moves generalizing deployment account with
  | nil => exact (Nat.zero_add _).trans_le (length_used safe.1)
  | cons move rest ih =>
      rw [invocations]
      cases hStep : step setting deployment move with
      | none => exact (Nat.zero_add _).trans_le (length_used safe.1)
      | some next =>
          obtain ⟨later, hSafe, hUsed⟩ := @used_step setting maximum entry _ _ _ _ safe hStep
          have hRest := ih hSafe
          simp only
          omega

end Counting

end DocInsight.Delivery
