import DocInsight.Delivery.Growth
import DocInsight.Library.Observation

/-! Every return of an entry to a worker counts as a delivery of its own: an account keeps
who received which delivery, and which of them led to a lookup. -/
namespace DocInsight.Delivery

open DocInsight.Contracts DocInsight.Worker Interaction Table

/-- How often an entry has been delivered, as long as it is pending. -/
def deliveries (id : Nat) (state : DeliveryState) : Nat :=
  ((select PendingEntry.id id state.pending).map PendingEntry.deliveries).getD 0

/-- A delivery of an entry, by how many there had been then. -/
structure Ticket where
  entry : Nat
  number : Nat
  deriving DecidableEq, Repr

/-- What an agent is at: an entry whose count it has found, or its looked up document. -/
inductive Phase where
  | idle
  | handling (ticket : Ticket) (found : Nat)
  | looked (ticket : Ticket) (found : Nat)
  deriving DecidableEq, Repr

/-- Who received each delivery, what each agent is at, and the deliveries that have led
to a lookup. -/
structure Account where
  holder : Ticket → Option Nat := fun _ => none
  phase : Nat → Phase := fun _ => .idle
  spent : List Ticket := []

namespace Account

def enter (agent : Nat) (phase : Phase) (account : Account) : Account :=
  { account with phase := fun other => if other = agent then phase else account.phase other }

/-- The entries of a batch are delivered to an agent. -/
def issue (agent : Nat) (messages : List StreamMessage) (after : DeliveryState)
    (account : Account) : Account :=
  { account with
    holder := fun ticket =>
      if (messages.any fun message => message.id = ticket.entry) ∧
          ticket.number = deliveries ticket.entry after then some agent
      else account.holder ticket }

def spend (ticket : Ticket) (account : Account) : Account :=
  { account with spent := ticket :: account.spent }

/-- An agent has received a delivery, and it has not led to a lookup. -/
def Held (agent : Nat) (ticket : Ticket) (account : Account) : Prop :=
  account.holder ticket = some agent ∧ ticket ∉ account.spent

instance (agent : Nat) (ticket : Ticket) (account : Account) :
    Decidable (account.Held agent ticket) := by
  unfold Held
  infer_instance

/-- The earliest delivery of an entry that an agent still has. -/
def ticketFor (agent entry found : Nat) (account : Account) : Option Ticket :=
  ((List.range (found + 1)).map fun number => ⟨entry, number⟩).find? fun ticket =>
    account.Held agent ticket

@[simp] theorem enter_phase (agent : Nat) (phase : Phase) (account : Account) :
    (account.enter agent phase).phase agent = phase :=
  if_pos rfl

theorem enter_phase_of_ne {agent other : Nat} (h : other ≠ agent) (phase : Phase)
    (account : Account) : (account.enter agent phase).phase other = account.phase other :=
  if_neg h

@[simp] theorem held_enter (agent other : Nat) (phase : Phase) (ticket : Ticket)
    (account : Account) :
    (account.enter agent phase).Held other ticket ↔ account.Held other ticket :=
  Iff.rfl

theorem ticketFor_some {agent entry found : Nat} {account : Account} {ticket : Ticket}
    (h : account.ticketFor agent entry found = some ticket) :
    account.Held agent ticket ∧ ticket.entry = entry ∧ ticket.number ≤ found := by
  have hHeld := List.find?_some h
  obtain ⟨number, hNumber, rfl⟩ := List.mem_map.mp (List.mem_of_find?_eq_some h)
  exact ⟨of_decide_eq_true hHeld, rfl, Nat.lt_succ_iff.mp (List.mem_range.mp hNumber)⟩

theorem ticketFor_isSome {agent found : Nat} {account : Account} {ticket : Ticket}
    (hHeld : account.Held agent ticket) (hFound : ticket.number ≤ found) :
    (account.ticketFor agent ticket.entry found).isSome = true := by
  rw [ticketFor, List.find?_isSome]
  refine ⟨ticket, List.mem_map.mpr ⟨ticket.number, ?_, rfl⟩, decide_eq_true hHeld⟩
  exact List.mem_range.mpr (Nat.lt_succ_of_le hFound)

end Account

/-- How the account follows the calls of the processes. -/
def see : Observer Nat DeliveryState Call Response Failure Account
  | agent, after, .stream .readGroup, .ok messages, account =>
      (account.issue agent messages after).enter agent .idle
  | agent, after, .stream (.autoClaim _), .ok (_, messages), account =>
      (account.issue agent messages after).enter agent .idle
  | agent, _, .stream (.pending id), .ok found, account =>
      match account.ticketFor agent id found with
      | some ticket => account.enter agent (.handling ticket found)
      | none => account.enter agent .idle
  | agent, _, .getDocument _ _, _, account =>
      match account.phase agent with
      | .handling ticket found => (account.spend ticket).enter agent (.looked ticket found)
      | _ => account.enter agent .idle
  | agent, _, _, _, account => account.enter agent .idle

/-- The entries are numbered in order, and only delivered ones are pending. -/
structure Lined (state : DeliveryState) : Prop where
  entryIds : state.entries.map StreamMessage.id = List.range state.entries.length
  pending : ∀ entry ∈ state.pending, entry.id < state.delivered

/-- A batch of entries is delivered: each of them for the first time, or once more. -/
structure Delivers (before after : DeliveryState) (messages : List StreamMessage) : Prop where
  entries : after.entries = before.entries
  delivered : before.delivered ≤ after.delivered
  pending : ∀ entry ∈ after.pending, entry.id < after.delivered
  kept : ∀ id later, id < before.delivered →
    select PendingEntry.id id after.pending = some later →
    ∃ entry, select PendingEntry.id id before.pending = some entry ∧
      entry.deliveries ≤ later.deliveries
  distinct : (messages.map StreamMessage.id).Nodup
  known : ∀ message ∈ messages, message.id < after.delivered ∧ 1 ≤ deliveries message.id after
  fresh : ∀ message ∈ messages, before.delivered ≤ message.id ∨
    ∃ entry, select PendingEntry.id message.id before.pending = some entry ∧
      entry.deliveries < deliveries message.id after

section Effect
variable {setting : Setting} {agent : Nat} {state middle : DeliveryState} {choice : Choice}

theorem Lined.id_eq (lined : Lined state) {index : Nat} (hIndex : index < state.entries.length) :
    state.entries[index].id = index := by
  have hSame := congrArg (fun ids => ids[index]?) lined.entryIds
  simpa [hIndex] using hSame

theorem Lined.ids_nodup (lined : Lined state) : (state.entries.map StreamMessage.id).Nodup := by
  rw [lined.entryIds]
  exact List.nodup_range

/-- What is read next is numbered from where the reading starts to where it ends. -/
theorem Lined.id_of_read (lined : Lined state) {batch : Nat} {message : StreamMessage}
    (hMessage : message ∈ (state.entries.drop state.delivered).take batch) :
    state.delivered ≤ message.id ∧
      message.id < state.delivered + ((state.entries.drop state.delivered).take batch).length := by
  obtain ⟨index, hIndex, hSame⟩ := List.mem_iff_getElem.mp hMessage
  rw [List.getElem_take, List.getElem_drop] at hSame
  rw [← hSame, lined.id_eq]
  exact ⟨Nat.le_add_right _ _, Nat.add_lt_add_left hIndex _⟩

theorem effect_readGroup (lined : Lined state) {own : Except Failure (List StreamMessage)}
    (h : effect setting agent state choice (.stream .readGroup) = some (own, middle)) :
    ∃ messages, own = .ok messages ∧ Delivers state middle messages := by
  cases h
  have hOld {id : Nat} (hId : state.delivered ≤ id) :
      select PendingEntry.id id state.pending = none := by
    rw [select_eq_none]
    intro entry hEntry hSame
    have := lined.pending entry hEntry
    omega
  have hNew {id : Nat} {later : PendingEntry}
      (hLater : select PendingEntry.id id (((state.entries.drop state.delivered).take
        setting.batch).map fun message => ⟨message.id, 1⟩) = some later) :
      state.delivered ≤ id ∧ later.deliveries = 1 := by
    obtain ⟨hMem, hKey⟩ := select_mem hLater
    obtain ⟨message, hMessage, rfl⟩ := List.mem_map.mp hMem
    exact ⟨hKey ▸ (lined.id_of_read hMessage).1, rfl⟩
  refine ⟨_, rfl, rfl, Nat.le_add_right _ _, ?_, ?_, ?_, ?_, ?_⟩
  · intro entry hEntry
    rcases List.mem_append.mp hEntry with hPending | hAdded
    · exact (lined.pending entry hPending).trans_le (Nat.le_add_right _ _)
    · obtain ⟨message, hMessage, rfl⟩ := List.mem_map.mp hAdded
      exact (lined.id_of_read hMessage).2
  · intro id later hId hLater
    simp only [select, List.find?_append, Option.or_eq_some_iff] at hLater
    rcases hLater with hPending | ⟨-, hAdded⟩
    · exact ⟨later, hPending, le_rfl⟩
    · have := (hNew hAdded).1
      omega
  · exact lined.ids_nodup.sublist
      (((List.take_sublist _ _).trans (List.drop_sublist _ _)).map _)
  · intro message hMessage
    have hRead := lined.id_of_read hMessage
    refine ⟨hRead.2, ?_⟩
    have hSome : (select PendingEntry.id message.id (((state.entries.drop state.delivered).take
        setting.batch).map fun message => (⟨message.id, 1⟩ : PendingEntry))).isSome = true := by
      rw [select, List.find?_isSome]
      exact ⟨_, List.mem_map_of_mem hMessage, decide_eq_true rfl⟩
    obtain ⟨later, hLater⟩ := Option.isSome_iff_exists.mp hSome
    have hFound : select PendingEntry.id message.id (state.pending ++
        ((state.entries.drop state.delivered).take setting.batch).map fun message =>
          (⟨message.id, 1⟩ : PendingEntry)) = some later := by
      have hNone := hOld hRead.1
      simp only [select, List.find?_append] at hNone hLater ⊢
      rw [hNone, hLater]
      rfl
    rw [deliveries, hFound, Option.map_some, Option.getD_some, (hNew hLater).2]
  · exact fun message hMessage => Or.inl (lined.id_of_read hMessage).1

theorem effect_autoClaim (lined : Lined state) {cursor : String}
    {own : Except Failure (String × List StreamMessage)}
    (h : effect setting agent state choice (.stream (.autoClaim cursor)) = some (own, middle)) :
    ∃ messages, own = .ok (choice.cursor, messages) ∧ Delivers state middle messages := by
  simp only [effect, streamEffect, Option.map_eq_some_iff] at h
  obtain ⟨⟨answer, after⟩, hEffect, hAfter⟩ := h
  split_ifs at hEffect with hClaimed
  cases hEffect
  cases hAfter
  have hSelect (id : Nat) : select PendingEntry.id id (updateWhere (fun entry =>
      choice.claimed.contains entry.id) (fun entry => { entry with
        deliveries := entry.deliveries + 1 }) state.pending) =
      (select PendingEntry.id id state.pending).map fun entry =>
        if choice.claimed.contains entry.id then { entry with deliveries := entry.deliveries + 1 }
        else entry :=
    select_updateWhere id state.pending fun _ _ => rfl
  have hCounted {message : StreamMessage} (hMessage : message ∈ state.entries.filter fun entry =>
      choice.claimed.contains entry.id) :
      ∃ entry, select PendingEntry.id message.id state.pending = some entry ∧
        select PendingEntry.id message.id (updateWhere (fun entry =>
          choice.claimed.contains entry.id) (fun entry => { entry with
            deliveries := entry.deliveries + 1 }) state.pending) =
          some { entry with deliveries := entry.deliveries + 1 } := by
    have hContains := (List.mem_filter.mp hMessage).2
    obtain ⟨pending, hPending, hId⟩ := List.any_eq_true.mp
      (List.all_eq_true.mp hClaimed message.id (List.contains_iff_mem.mp hContains))
    have hSome : (select PendingEntry.id message.id state.pending).isSome = true := by
      rw [select, List.find?_isSome]
      exact ⟨pending, hPending, hId⟩
    obtain ⟨entry, hEntry⟩ := Option.isSome_iff_exists.mp hSome
    refine ⟨entry, hEntry, ?_⟩
    rw [hSelect, hEntry, Option.map_some, (select_mem hEntry).2, if_pos hContains]
  refine ⟨_, rfl, rfl, le_rfl, ?_, ?_, ?_, ?_, ?_⟩
  · intro entry hEntry
    obtain ⟨old, hOld, rfl⟩ := mem_updateWhere.mp hEntry
    have := lined.pending old hOld
    split_ifs
    · exact this
    · exact this
  · intro id later _ hLater
    rw [hSelect] at hLater
    obtain ⟨entry, hEntry, rfl⟩ := Option.map_eq_some_iff.mp hLater
    refine ⟨entry, hEntry, ?_⟩
    split_ifs
    · exact Nat.le_succ _
    · exact le_rfl
  · exact lined.ids_nodup.sublist ((List.filter_sublist ..).map _)
  · intro message hMessage
    obtain ⟨entry, hEntry, hAfter⟩ := hCounted hMessage
    have hId := (select_mem hEntry).2
    refine ⟨hId ▸ lined.pending entry (select_mem hEntry).1, ?_⟩
    rw [deliveries, hAfter]
    exact Nat.le_add_left _ _
  · intro message hMessage
    obtain ⟨entry, hEntry, hAfter⟩ := hCounted hMessage
    refine Or.inr ⟨entry, hEntry, ?_⟩
    rw [deliveries, hAfter]
    exact Nat.lt_succ_self _

end Effect

/-- Every delivery that somebody has received is numbered among those counted. -/
structure Numbered (state : DeliveryState) (account : Account) : Prop extends Lined state where
  issued : ∀ ticket agent, account.holder ticket = some agent →
    1 ≤ ticket.number ∧ ticket.entry < state.delivered ∧
      ∀ entry, select PendingEntry.id ticket.entry state.pending = some entry →
        ticket.number ≤ entry.deliveries

section Numbered
variable {setting : Setting} {agent : Nat} {state middle after : DeliveryState} {choice : Choice}
  {account : Account}

/-- Entries are added, and pending ones acknowledged. -/
theorem Numbered.frame (numbered : Numbered state account)
    (hEntries : after.entries.map StreamMessage.id = List.range after.entries.length)
    (hDelivered : after.delivered = state.delivered)
    (hPending : after.pending ⊆ state.pending)
    (hKept : ∀ id entry, select PendingEntry.id id after.pending = some entry →
      select PendingEntry.id id state.pending = some entry) : Numbered after account where
  entryIds := hEntries
  pending entry hEntry := hDelivered ▸ numbered.pending entry (hPending hEntry)
  issued ticket agent hHolder := by
    obtain ⟨hPositive, hEntry, hCount⟩ := numbered.issued ticket agent hHolder
    exact ⟨hPositive, hDelivered ▸ hEntry, fun entry h => hCount entry (hKept _ entry h)⟩

theorem Numbered.sameLine (numbered : Numbered state account)
    (hEntries : after.entries = state.entries) (hDelivered : after.delivered = state.delivered)
    (hPending : after.pending = state.pending) : Numbered after account := by
  apply numbered.frame
  · rw [hEntries]
    exact numbered.entryIds
  · exact hDelivered
  · exact hPending ▸ List.Subset.refl _
  · exact fun id entry h => hPending ▸ h

theorem Numbered.addEntry (numbered : Numbered state account) (fields : Fields) :
    Numbered (state.addEntry fields) account := by
  apply numbered.frame
  · show (state.entries ++ [_]).map StreamMessage.id = List.range (state.entries ++ [_]).length
    rw [List.map_append, numbered.entryIds, List.length_append, List.length_singleton,
      List.range_succ]
    rfl
  · rfl
  · exact List.Subset.refl _
  · exact fun _ _ h => h

/-- Counts only grow when a batch is delivered. -/
theorem Numbered.delivers (numbered : Numbered state account) {messages : List StreamMessage}
    (h : Delivers state after messages) : Numbered after account where
  entryIds := h.entries ▸ numbered.entryIds
  pending := h.pending
  issued ticket agent hHolder := by
    obtain ⟨hPositive, hEntry, hCount⟩ := numbered.issued ticket agent hHolder
    refine ⟨hPositive, hEntry.trans_le h.delivered, fun later hLater => ?_⟩
    obtain ⟨entry, hOld, hGrows⟩ := h.kept _ later hEntry hLater
    exact (hCount entry hOld).trans hGrows

/-- What is delivered is not a delivery that anybody has received before. -/
theorem Numbered.unissued (numbered : Numbered state account) {messages : List StreamMessage}
    (h : Delivers state after messages) {ticket : Ticket}
    (hAny : (messages.any fun message => message.id = ticket.entry) = true)
    (hNumber : ticket.number = deliveries ticket.entry after) : account.holder ticket = none := by
  obtain ⟨message, hMessage, hId⟩ := List.any_eq_true.mp hAny
  have hSame : message.id = ticket.entry := of_decide_eq_true hId
  cases hHolder : account.holder ticket with
  | none => rfl
  | some agent =>
      obtain ⟨-, hEntry, hCount⟩ := numbered.issued ticket agent hHolder
      rcases h.fresh message hMessage with hNew | ⟨entry, hPending, hMore⟩
      · omega
      · rw [hSame] at hPending hMore
        have := hCount entry hPending
        omega

theorem Numbered.issue (numbered : Numbered state account) {messages : List StreamMessage}
    (h : Delivers state after messages) (agent : Nat) :
    Numbered after (account.issue agent messages after) := by
  have hAfter := numbered.delivers h
  refine ⟨hAfter.toLined, fun ticket other hHolder => ?_⟩
  simp only [Account.issue] at hHolder
  split_ifs at hHolder with hNew
  · obtain ⟨hAny, hNumber⟩ := hNew
    obtain ⟨message, hMessage, hId⟩ := List.any_eq_true.mp hAny
    have hKnown := h.known message hMessage
    rw [of_decide_eq_true hId, ← hNumber] at hKnown
    refine ⟨hKnown.2, hKnown.1, fun entry hEntry => ?_⟩
    rw [hNumber, deliveries, hEntry]
    exact le_rfl
  · exact hAfter.issued ticket other hHolder

theorem numbered_effect {request : Call} {own : Except Failure (Response request)}
    (numbered : Numbered state account)
    (h : effect setting agent state choice request = some (own, middle)) :
    Numbered middle account := by
  cases request with
  | stream command =>
      cases command with
      | readGroup =>
          obtain ⟨messages, -, hDelivers⟩ := effect_readGroup numbered.toLined h
          exact numbered.delivers hDelivers
      | autoClaim cursor =>
          obtain ⟨messages, -, hDelivers⟩ := effect_autoClaim numbered.toLined h
          exact numbered.delivers hDelivers
      | acknowledge id =>
          simp only [effect, streamEffect, Option.map_eq_some_iff] at h
          obtain ⟨⟨answer, reached⟩, hEffect, hAfter⟩ := h
          cases hAfter
          split at hEffect
          · cases hEffect
            apply numbered.frame
            · exact numbered.entryIds
            · rfl
            · exact List.filter_subset_self _
            · intro other entry hEntry
              obtain ⟨hMem, hKey⟩ := select_mem hEntry
              have hOther : other ≠ id := by
                rw [← hKey]
                exact of_decide_eq_true (List.mem_filter.mp hMem).2
              rw [select, List.find?_filter] at hEntry
              rw [select, ← hEntry]
              refine congrArg (fun p => List.find? p state.pending) (funext fun next => ?_)
              by_cases hNext : next.id = other
              · simp [hNext, hOther]
              · simp [hNext]
          · cases hEffect
            exact numbered
      | _ =>
          cases h
          exact numbered.sameLine rfl rfl rfl
  | publish event =>
      cases h
      exact (numbered.addEntry (event.streamFields setting.codec)).sameLine rfl rfl rfl
  | markStatus tenantId id status error =>
      simp only [effect] at h
      split at h
      · cases h
        exact numbered
      · cases h
        exact numbered.sameLine rfl rfl rfl
  | upsertDocument tenantId filename document =>
      rcases upsertEffect_cases h with ⟨-, rfl⟩ | ⟨record, row, -, -, -, rfl⟩
      · exact numbered
      · exact numbered.sameLine rfl rfl rfl
  | _ =>
      cases h
      exact numbered.sameLine rfl rfl rfl

theorem numbered_note {request : Call} (numbered : Numbered state account)
    (answer : Except Failure (Response request)) :
    Numbered (note agent request answer state) account := by
  obtain ⟨attempt, history, hNote, -⟩ := note_cases agent request answer state
  rw [hNote]
  exact numbered.sameLine rfl rfl rfl

theorem numbered_perform {request : Call} {answer : Except Failure (Response request)}
    (numbered : Numbered state account)
    (h : perform setting agent state choice request = some (answer, after)) :
    Numbered after account := by
  obtain ⟨middle, rfl, ⟨rfl, -⟩ | ⟨own, hEffect, -⟩⟩ := perform_cases h
  · exact numbered_note numbered answer
  · exact numbered_note (numbered_effect numbered hEffect) answer

theorem numbered_occur {event : Event} (numbered : Numbered state account)
    (h : occur state event = some after) : Numbered after account := by
  cases event with
  | register upload =>
      rcases register_cases h with rfl | ⟨-, -, -, rfl⟩
      · exact numbered
      · exact numbered.sameLine rfl rfl rfl
  | append fields =>
      cases h
      exact numbered.addEntry fields

end Numbered

/-- What the processes keep of an account: no delivery leads to two lookups, and a worker
that handles an entry has received a delivery of it, of at most the number it found. -/
structure Accounted (now : DeliveryState × Account) : Prop extends Numbered now.1 now.2 where
  received : ∀ ticket ∈ now.2.spent, ∃ agent, now.2.holder ticket = some agent
  distinct : now.2.spent.Nodup
  handling : ∀ agent ticket found, now.2.phase agent = .handling ticket found →
    now.2.Held agent ticket ∧ ticket.number ≤ found
  looked : ∀ agent ticket found, now.2.phase agent = .looked ticket found →
    ticket ∈ now.2.spent ∧ ticket.number ≤ found

/-- What a worker knows before it looks a document up and before it processes one, at the
delivery it is at; a count above the maximum is never processed. -/
def Entitled (maximum agent : Nat) (now : DeliveryState × Account) : Call → Prop
  | .getDocument _ _ => ∃ ticket found, now.2.phase agent = .handling ticket found ∧
      (now.1.attempts agent).entry = some ticket.entry
  | .markStatus _ _ .processing _ => ∃ ticket found, now.2.phase agent = .looked ticket found ∧
      (now.1.attempts agent).entry = some ticket.entry ∧ found ≤ maximum
  | _ => True

/-- What others leave of an agent's account. -/
structure Retains (agent : Nat) (before after : DeliveryState × Account) : Prop where
  phase : after.2.phase agent = before.2.phase agent
  attempt : after.1.attempts agent = before.1.attempts agent
  held : ∀ ticket, before.2.Held agent ticket → after.2.Held agent ticket

theorem Retains.refl (agent : Nat) (now : DeliveryState × Account) : Retains agent now now :=
  ⟨rfl, rfl, fun _ h => h⟩

theorem Retains.trans {agent : Nat} {first second third : DeliveryState × Account}
    (h : Retains agent first second) (h' : Retains agent second third) :
    Retains agent first third :=
  ⟨h'.phase.trans h.phase, h'.attempt.trans h.attempt, fun ticket held =>
    h'.held ticket (h.held ticket held)⟩

section Accounted
variable {setting : Setting} {agent : Nat} {state after : DeliveryState} {account : Account}
  {choice : Choice} {request : Call} {answer : Except Failure (Response request)}

/-- What a read returns has been delivered. -/
theorem delivers_readGroup {messages : List StreamMessage} (lined : Lined state)
    (h : perform setting agent state choice (.stream .readGroup) = some (.ok messages, after)) :
    Delivers state after messages := by
  obtain ⟨middle, rfl, ⟨-, error, hError, -⟩ | ⟨own, hEffect, rfl | ⟨error, hError, -⟩⟩⟩ :=
    perform_cases h
  · cases hError
  · obtain ⟨batch, hOwn, hDelivers⟩ := effect_readGroup lined hEffect
    cases hOwn
    exact hDelivers
  · cases hError

/-- What a claim returns has been delivered once more. -/
theorem delivers_autoClaim {cursor : String} {claimed : String × List StreamMessage}
    (lined : Lined state)
    (h : perform setting agent state choice (.stream (.autoClaim cursor)) =
      some (.ok claimed, after)) : Delivers state after claimed.2 := by
  obtain ⟨middle, rfl, ⟨-, error, hError, -⟩ | ⟨own, hEffect, rfl | ⟨error, hError, -⟩⟩⟩ :=
    perform_cases h
  · cases hError
  · obtain ⟨batch, hOwn, hDelivers⟩ := effect_autoClaim lined hEffect
    cases hOwn
    exact hDelivers
  · cases hError

/-- What a call does to the account: a batch is delivered, an entry's count is found, a
delivery leads to a lookup, or nothing but that the agent goes on. -/
theorem see_cases (numbered : Numbered state account)
    (h : perform setting agent state choice request = some (answer, after)) :
    (∃ messages, Delivers state after messages ∧
      see agent after request answer account =
        (account.issue agent messages after).enter agent .idle) ∨
    (∃ id found ticket, account.ticketFor agent id found = some ticket ∧
      see agent after request answer account =
        account.enter agent (.handling ticket found)) ∨
    (∃ tenantId id ticket found, request = .getDocument tenantId id ∧
      account.phase agent = .handling ticket found ∧
      see agent after request answer account =
        (account.spend ticket).enter agent (.looked ticket found)) ∨
    see agent after request answer account = account.enter agent .idle := by
  cases request with
  | stream command =>
      cases command with
      | readGroup =>
          cases answer with
          | error error => exact Or.inr (Or.inr (Or.inr rfl))
          | ok messages => exact Or.inl ⟨messages, delivers_readGroup numbered.toLined h, rfl⟩
      | autoClaim cursor =>
          cases answer with
          | error error => exact Or.inr (Or.inr (Or.inr rfl))
          | ok claimed => exact Or.inl ⟨claimed.2, delivers_autoClaim numbered.toLined h, rfl⟩
      | pending id =>
          cases answer with
          | error error => exact Or.inr (Or.inr (Or.inr rfl))
          | ok found =>
              cases hTicket : account.ticketFor agent id found with
              | some ticket =>
                  refine Or.inr (Or.inl ⟨id, found, ticket, hTicket, ?_⟩)
                  simp only [see, hTicket]
              | none =>
                  refine Or.inr (Or.inr (Or.inr ?_))
                  simp only [see, hTicket]
      | _ => exact Or.inr (Or.inr (Or.inr rfl))
  | getDocument tenantId id =>
      cases hPhase : account.phase agent with
      | handling ticket found =>
          refine Or.inr (Or.inr (Or.inl ⟨tenantId, id, ticket, found, rfl, rfl, ?_⟩))
          simp only [see, hPhase]
      | _ =>
          refine Or.inr (Or.inr (Or.inr ?_))
          simp only [see, hPhase]
  | _ => exact Or.inr (Or.inr (Or.inr rfl))

/-- Where a delivery is new, nobody has spent it. -/
theorem Accounted.held_issue (accounted : Accounted (state, account))
    {messages : List StreamMessage} (hDelivers : Delivers state after messages)
    {message : StreamMessage} (hMessage : message ∈ messages) (agent : Nat) :
    (account.issue agent messages after).Held agent ⟨message.id, deliveries message.id after⟩ := by
  have hAny : (messages.any fun other => other.id = message.id) = true :=
    List.any_eq_true.mpr ⟨message, hMessage, decide_eq_true rfl⟩
  constructor
  · exact if_pos ⟨hAny, rfl⟩
  · intro hSpent
    obtain ⟨holder, hHolder⟩ := accounted.received _ hSpent
    have hNone : account.holder ⟨message.id, deliveries message.id after⟩ = none :=
      accounted.unissued hDelivers hAny rfl
    cases hHolder.symm.trans hNone

/-- Deliveries that were received stay with who received them. -/
theorem Accounted.held_of_issue (accounted : Accounted (state, account))
    {messages : List StreamMessage} (hDelivers : Delivers state after messages) {other : Nat}
    (agent : Nat) {ticket : Ticket} (held : account.Held other ticket) :
    (account.issue agent messages after).Held other ticket := by
  refine ⟨?_, held.2⟩
  show (if _ then some agent else account.holder ticket) = some other
  rw [if_neg]
  · exact held.1
  · rintro ⟨hAny, hNumber⟩
    cases held.1.symm.trans (accounted.unissued hDelivers hAny hNumber)

theorem accounted_see (accounted : Accounted (state, account))
    (h : perform setting agent state choice request = some (answer, after)) :
    Accounted (after, see agent after request answer account) := by
  have hNumbered := numbered_perform accounted.toNumbered h
  rcases see_cases accounted.toNumbered h with ⟨messages, hDelivers, hSee⟩ |
    ⟨id, found, ticket, hTicket, hSee⟩ | ⟨tenantId, id, ticket, found, rfl, hPhase, hSee⟩ | hSee
  all_goals rw [hSee]
  · refine ⟨?_, ?_, accounted.distinct, ?_, ?_⟩
    · have hIssued := accounted.toNumbered.issue hDelivers agent
      exact ⟨hIssued.toLined, hIssued.issued⟩
    · intro spent hSpent
      obtain ⟨holder, hHolder⟩ := accounted.received spent hSpent
      by_cases hNew : (messages.any fun message => message.id = spent.entry) ∧
          spent.number = deliveries spent.entry after
      · exact ⟨agent, if_pos hNew⟩
      · exact ⟨holder, (if_neg hNew).trans hHolder⟩
    · intro other held count hHandling
      simp only [Account.enter] at hHandling
      split_ifs at hHandling
      obtain ⟨hHeld, hCount⟩ := accounted.handling other held count hHandling
      exact ⟨accounted.held_of_issue hDelivers agent hHeld, hCount⟩
    · intro other held count hLooked
      simp only [Account.enter] at hLooked
      split_ifs at hLooked
      exact accounted.looked other held count hLooked
  · refine ⟨⟨hNumbered.toLined, hNumbered.issued⟩, accounted.received, accounted.distinct, ?_, ?_⟩
    · intro other held count hHandling
      simp only [Account.enter] at hHandling
      split_ifs at hHandling with hSame
      · cases hHandling
        obtain ⟨hHeld, -, hFound⟩ := Account.ticketFor_some hTicket
        exact ⟨hSame ▸ hHeld, hFound⟩
      · exact accounted.handling other held count hHandling
    · intro other held count hLooked
      simp only [Account.enter] at hLooked
      split_ifs at hLooked
      exact accounted.looked other held count hLooked
  · obtain ⟨hHeld, hFound⟩ := accounted.handling agent ticket found hPhase
    refine ⟨⟨hNumbered.toLined, hNumbered.issued⟩, ?_, ?_, ?_, ?_⟩
    · intro spent hSpent
      rcases List.mem_cons.mp hSpent with rfl | hEarlier
      · exact ⟨agent, hHeld.1⟩
      · exact accounted.received spent hEarlier
    · exact List.nodup_cons.mpr ⟨hHeld.2, accounted.distinct⟩
    · intro other held count hHandling
      simp only [Account.enter] at hHandling
      split_ifs at hHandling with hSame
      obtain ⟨hOther, hCount⟩ := accounted.handling other held count hHandling
      refine ⟨⟨hOther.1, fun hSpent => ?_⟩, hCount⟩
      -- the delivery just spent is the agent's own, not the other's
      rcases List.mem_cons.mp hSpent with rfl | hEarlier
      · exact hSame (Option.some.inj (hOther.1.symm.trans hHeld.1))
      · exact hOther.2 hEarlier
    · intro other held count hLooked
      simp only [Account.enter] at hLooked
      split_ifs at hLooked
      · cases hLooked
        exact ⟨List.mem_cons_self .., hFound⟩
      · obtain ⟨hSpent, hCount⟩ := accounted.looked other held count hLooked
        exact ⟨List.mem_cons_of_mem _ hSpent, hCount⟩
  · refine ⟨⟨hNumbered.toLined, hNumbered.issued⟩, accounted.received, accounted.distinct, ?_, ?_⟩
    · intro other held count hHandling
      simp only [Account.enter] at hHandling
      split_ifs at hHandling
      exact accounted.handling other held count hHandling
    · intro other held count hLooked
      simp only [Account.enter] at hLooked
      split_ifs at hLooked
      exact accounted.looked other held count hLooked

theorem retains_see {other : Nat} (hOther : other ≠ agent) (accounted : Accounted (state, account))
    (h : perform setting agent state choice request = some (answer, after)) :
    Retains other (state, account) (after, see agent after request answer account) := by
  have hAttempt := (perform_spares hOther h).attempt
  rcases see_cases accounted.toNumbered h with ⟨messages, hDelivers, hSee⟩ |
    ⟨id, found, ticket, -, hSee⟩ | ⟨tenantId, id, ticket, found, rfl, hPhase, hSee⟩ | hSee
  all_goals rw [hSee]
  · exact ⟨Account.enter_phase_of_ne hOther _ _, hAttempt, fun ticket held =>
      accounted.held_of_issue hDelivers agent held⟩
  · exact ⟨Account.enter_phase_of_ne hOther _ _, hAttempt, fun ticket held => held⟩
  · obtain ⟨hOwn, -⟩ := accounted.handling agent ticket found hPhase
    refine ⟨Account.enter_phase_of_ne hOther _ _, hAttempt, fun held hHeld => ?_⟩
    refine ⟨hHeld.1, fun hSpent => ?_⟩
    rcases List.mem_cons.mp hSpent with rfl | hEarlier
    · exact hOther (Option.some.inj (hHeld.1.symm.trans hOwn.1))
    · exact hHeld.2 hEarlier
  · exact ⟨Account.enter_phase_of_ne hOther _ _, hAttempt, fun ticket held => held⟩

/-- How processes share the entries of the stream: each lookup is for a delivery of its own
that others leave to the agent, and only a count within the maximum is processed. -/
def rationed (setting : Setting) (maximum : Nat) :
    Discipline ((environment setting).observed see) where
  Inv := Accounted
  Guard := Entitled maximum
  Rely := Retains
  rely_refl := Retains.refl
  rely_trans _ _ _ _ h h' := h.trans h'
  call_inv agent now request choice answer after accounted _ h := by
    obtain ⟨hPerform, hAccount⟩ := Environment.observed_cases h
    have hAfter := accounted_see accounted hPerform
    rw [← hAccount] at hAfter
    exact hAfter
  call_rely agent other now request choice answer after hOther accounted _ h := by
    obtain ⟨hPerform, hAccount⟩ := Environment.observed_cases h
    have hAfter := retains_see hOther accounted hPerform
    rw [← hAccount] at hAfter
    exact hAfter
  event_inv now event after accounted h := by
    obtain ⟨later, hEvent, rfl⟩ := Option.map_eq_some_iff.mp h
    have hNumbered := numbered_occur accounted.toNumbered hEvent
    exact ⟨hNumbered, accounted.received, accounted.distinct, accounted.handling,
      accounted.looked⟩
  event_rely agent now event after _ h := by
    obtain ⟨later, hEvent, rfl⟩ := Option.map_eq_some_iff.mp h
    exact ⟨rfl, (occur_spares agent hEvent).attempt, fun _ held => held⟩
  crash_inv agent now accounted :=
    ⟨accounted.toNumbered.sameLine rfl rfl rfl, accounted.received, accounted.distinct,
      accounted.handling, accounted.looked⟩
  crash_rely agent other now hOther _ :=
    ⟨rfl, (crash_spares hOther now.1).attempt, fun _ held => held⟩

end Accounted

end DocInsight.Delivery
