import DocInsight.Library.PagedScan
import DocInsight.Library.Quoting
import DocInsight.Library.Raising
import DocInsight.Python.Dict
import DocInsight.Worker.Processing

/-! Deterministic pending entries and delivery counts, in place of the streams of Redis. -/
namespace DocInsight.Testing

open DocInsight.Contracts DocInsight.Worker DocInsight.Python

structure Pending where
  consumer : String
  deliveredMs : Int
  attempts : Nat := 1
  deriving DecidableEq, Repr

structure Group where
  offset : Nat := 0
  pending : List (Nat × Pending) := []
  deriving DecidableEq, Repr

structure InMemoryStreamConsumer where
  nowMs : Int := 0
  streams : List (String × List StreamMessage) := []
  groups : List ((String × String) × Group) := []
  heartbeats : List (String × Int) := []
  deriving DecidableEq, Repr

/-- The key of the entry with this number, as it is written. -/
def key (id : Nat) : String := toString (id + 1) ++ "-0"

/-- `int(part)` -/
def digits (part : List Char) : Except Failure Nat :=
  if part ≠ [] ∧ part.all Char.isDigit then .ok (Nat.ofDigitChars 10 part 0)
  else .error (.value "ValueError")

/-- `tuple(map(int, value.split("-")))` -/
def streamId (value : String) : Except Failure (List Nat) :=
  (Quoting.split ['-'] value.toList).mapM digits

/-- `first <= second`, for tuples. -/
def tupleLe : List Nat → List Nat → Bool
  | [], _ => true
  | _ :: _, [] => false
  | first :: rest, second :: others => first < second || first = second && tupleLe rest others

/-- `items[key]` -/
def item {Key Value : Type} [DecidableEq Key] (items : List (Key × Value)) (key : Key) :
    Except Failure Value :=
  match getItem items key with
  | some value => .ok value
  | none => .error .key

/-- What a pass over pending entries has come to. -/
structure Sweep where
  pending : List (Nat × Pending)
  claimed : List StreamMessage := []
  scanned : Nat := 0

namespace InMemoryStreamConsumer

def xgroupCreate (stream group : String) (streams : InMemoryStreamConsumer) :
    InMemoryStreamConsumer :=
  { streams with
    streams := insertNew streams.streams stream []
    groups := insertNew streams.groups (stream, group) {} }

def xadd (stream : String) (fields : Fields) (streams : InMemoryStreamConsumer) :
    Nat × InMemoryStreamConsumer :=
  let entries := (getItem streams.streams stream).getD []
  (entries.length,
    { streams with
      streams := setItem streams.streams stream (entries ++ [⟨entries.length, fields⟩]) })

def xreadgroup (stream group consumer : String) (count : Nat) (streams : InMemoryStreamConsumer) :
    Except Failure (List StreamMessage × InMemoryStreamConsumer) := do
  let state ← item streams.groups (stream, group)
  let entries := ((← item streams.streams stream).drop state.offset).take count
  let pending := entries.foldl
    (fun pending entry => setItem pending entry.id { consumer, deliveredMs := streams.nowMs })
    state.pending
  return (entries,
    { streams with
      groups := setItem streams.groups (stream, group)
        { state with offset := state.offset + entries.length, pending } })

def xack (stream group : String) (id : Nat) (streams : InMemoryStreamConsumer) :
    Except Failure InMemoryStreamConsumer := do
  let state ← item streams.groups (stream, group)
  return { streams with
    groups := setItem streams.groups (stream, group)
      { state with pending := state.pending.filter fun entry => entry.1 ≠ id } }

def xpending (stream group : String) (id : Nat) (streams : InMemoryStreamConsumer) :
    Except Failure Nat := do
  let state ← item streams.groups (stream, group)
  return ((getItem state.pending id).map Pending.attempts).getD 0

/-- Examine a pending entry, and claim it if it is idle for long enough. -/
def examine (consumer : String) (nowMs minIdleMs : Int) (entry : StreamMessage) (swept : Sweep) :
    Sweep :=
  match getItem swept.pending entry.id with
  | some state =>
      if minIdleMs ≤ nowMs - state.deliveredMs then
        { pending := setItem swept.pending entry.id
            { consumer, deliveredMs := nowMs, attempts := state.attempts + 1 }
          claimed := swept.claimed ++ [entry]
          scanned := swept.scanned + 1 }
      else { swept with scanned := swept.scanned + 1 }
  | none => { swept with scanned := swept.scanned + 1 }

/-- Examine one entry after the other, up to a number of claims or ten times as many entries. -/
def sweep (consumer : String) (nowMs minIdleMs : Int) (count : Nat) :
    List StreamMessage → Sweep → Sweep
  | [], swept => swept
  | entry :: rest, swept =>
      let swept := examine consumer nowMs minIdleMs entry swept
      if swept.claimed.length = count ∨ swept.scanned = count * 10 then swept
      else sweep consumer nowMs minIdleMs count rest swept

/-- The entries that a pass may examine. -/
def entriesFrom (start : String) (pending : List (Nat × Pending)) (entries : List StreamMessage) :
    Except Failure (List StreamMessage) :=
  entries.filterM fun entry =>
    if (getItem pending entry.id).isSome then do
      return tupleLe (← streamId start) (← streamId (key entry.id))
    else return false

def xautoclaim (stream group consumer : String) (minIdleMs : Int) (start : String) (count : Nat)
    (streams : InMemoryStreamConsumer) :
    Except Failure ((String × List StreamMessage) × InMemoryStreamConsumer) := do
  let state ← item streams.groups (stream, group)
  let entries ← entriesFrom start state.pending (← item streams.streams stream)
  let swept := sweep consumer streams.nowMs minIdleMs count entries { pending := state.pending }
  let cursor := (entries[swept.scanned]?.map fun entry => key entry.id).getD "0-0"
  return ((cursor, swept.claimed),
    { streams with
      groups := setItem streams.groups (stream, group) { state with pending := swept.pending } })

def heartbeat (consumer : String) (streams : InMemoryStreamConsumer) : InMemoryStreamConsumer :=
  { streams with heartbeats := setItem streams.heartbeats consumer (streams.nowMs + 30000) }

end InMemoryStreamConsumer

section Keys

theorem digits_toDigits (number : Nat) : digits (Nat.toDigits 10 number) = .ok number := by
  have hDigits : (Nat.toDigits 10 number).all Char.isDigit = true := by
    rw [List.all_eq_true]
    intro character hCharacter
    exact Nat.isDigit_of_mem_toDigits (by decide) (by decide) hCharacter
  rw [digits, if_pos ⟨Nat.toDigits_ne_nil, hDigits⟩, Nat.ofDigitChars_ten_toDigits]

/-- The number of an entry is read back from its key. -/
theorem streamId_key (id : Nat) : streamId (key id) = .ok [id + 1, 0] := by
  have hPieces : ∀ piece ∈ [Nat.toDigits 10 (id + 1), ['0']], '-' ∉ piece := by
    intro piece hPiece hDash
    cases hPiece with
    | head =>
        have hDigit := Nat.isDigit_of_mem_toDigits (by decide) (by decide) hDash
        revert hDigit
        decide
    | tail _ hLast =>
        rw [List.mem_singleton.mp hLast] at hDash
        revert hDash
        decide
  have hKey : (key id).toList = ['-'].intercalate [Nat.toDigits 10 (id + 1), ['0']] := by
    rw [key, String.toList_append, Nat.toString_eq_repr, Nat.repr_eq_ofList_toDigits,
      String.toList_ofList]
    rfl
  rw [streamId, hKey, Quoting.split_intercalate (List.cons_ne_nil _ _) hPieces]
  simp only [List.mapM_cons, List.mapM_nil, digits_toDigits]
  rfl

theorem streamId_start : streamId "0-0" = .ok [0, 0] := by decide

theorem key_ne_start (id : Nat) : key id ≠ "0-0" := by
  intro h
  have hSame := streamId_key id
  rw [h, streamId_start] at hSame
  cases hSame

/-- Where a pass starts: the beginning, or the entry of a key. -/
def IsCursor (cursor : String) : Prop := cursor = "0-0" ∨ ∃ id, cursor = key id

/-- The number of the first entry that a pass may look at. -/
def place (cursor : String) : Nat :=
  match streamId cursor with
  | .ok (number :: _) => number - 1
  | _ => 0

@[simp] theorem place_start : place "0-0" = 0 := by
  rw [place, streamId_start]

@[simp] theorem place_key (id : Nat) : place (key id) = id := by
  rw [place, streamId_key]
  rfl

/-- A pass from a cursor looks at the entries from its place on. -/
theorem tupleLe_cursor {cursor : String} (hCursor : IsCursor cursor) :
    ∃ parts, streamId cursor = .ok parts ∧
      ∀ id, tupleLe parts [id + 1, 0] = decide (place cursor ≤ id) := by
  cases hCursor with
  | inl hStart =>
      subst hStart
      refine ⟨_, streamId_start, fun id => ?_⟩
      rw [place_start]
      simp [tupleLe]
  | inr hKey =>
      obtain ⟨start, rfl⟩ := hKey
      refine ⟨_, streamId_key start, fun id => ?_⟩
      rw [place_key]
      simp only [tupleLe, Nat.add_lt_add_iff_right, Nat.add_right_cancel_iff, Bool.and_true,
        lt_irrefl, decide_false, decide_true, Bool.false_or]
      rw [Bool.eq_iff_iff]
      simp only [Bool.or_eq_true, decide_eq_true_eq]
      omega

end Keys

section Passes

theorem filterAuxM_ok {Item : Type} {decides : Item → Except Failure Bool} {keep : Item → Bool}
    {items : List Item} (h : ∀ item ∈ items, decides item = .ok (keep item))
    (kept : List Item) :
    items.filterAuxM decides kept = .ok ((items.filter keep).reverse ++ kept) := by
  induction items generalizing kept with
  | nil => rfl
  | cons item rest ih =>
      obtain ⟨hItem, hRest⟩ := List.forall_mem_cons.mp h
      have hNext : (item :: rest).filterAuxM decides kept =
          rest.filterAuxM decides (cond (keep item) (item :: kept) kept) := by
        rw [List.filterAuxM, hItem]
        rfl
      rw [hNext, ih hRest]
      cases hKeep : keep item with
      | true => simp [hKeep]
      | false => simp [hKeep]

theorem filterM_ok {Item : Type} {decides : Item → Except Failure Bool} {keep : Item → Bool}
    {items : List Item} (h : ∀ item ∈ items, decides item = .ok (keep item)) :
    items.filterM decides = .ok (items.filter keep) := by
  rw [List.filterM, filterAuxM_ok h []]
  show Except.ok _ = _
  rw [List.append_nil, List.reverse_reverse]

variable {pending : List (Nat × Pending)} {entries : List StreamMessage}

/-- A pass may examine the pending entries from its place on. -/
theorem entriesFrom_eq {start : String} (hCursor : IsCursor start) :
    InMemoryStreamConsumer.entriesFrom start pending entries =
      .ok (entries.filter fun entry =>
        (getItem pending entry.id).isSome && decide (place start ≤ entry.id)) := by
  obtain ⟨parts, hParts, hPlace⟩ := tupleLe_cursor hCursor
  apply filterM_ok
  intro entry _
  cases (getItem pending entry.id).isSome with
  | false => rfl
  | true =>
      rw [hParts, streamId_key, Bool.true_and, ← hPlace]
      rfl

/-- Whether a pass claims an entry when it examines it. -/
def idle (nowMs minIdleMs : Int) (pending : List (Nat × Pending)) (entry : StreamMessage) :
    Bool :=
  (getItem pending entry.id).any fun state => minIdleMs ≤ nowMs - state.deliveredMs

section Sweep
variable {consumer : String} {nowMs minIdleMs : Int} {count : Nat} {swept : Sweep}
  {entry : StreamMessage}

theorem examine_scanned :
    (InMemoryStreamConsumer.examine consumer nowMs minIdleMs entry swept).scanned =
      swept.scanned + 1 := by
  unfold InMemoryStreamConsumer.examine
  split
  · split_ifs
    · rfl
    · rfl
  · rfl

theorem examine_claimed :
    (InMemoryStreamConsumer.examine consumer nowMs minIdleMs entry swept).claimed =
      swept.claimed ++ [entry].filter (idle nowMs minIdleMs swept.pending) := by
  unfold InMemoryStreamConsumer.examine idle
  cases hState : getItem swept.pending entry.id with
  | none => simp [hState]
  | some state =>
      simp only
      split_ifs with hIdle
      · simp [hState, hIdle]
      · simp [hState, hIdle]

/-- Examining an entry changes nothing of another one. -/
theorem examine_pending {id : Nat} (hOther : id ≠ entry.id) :
    getItem (InMemoryStreamConsumer.examine consumer nowMs minIdleMs entry swept).pending id =
      getItem swept.pending id := by
  unfold InMemoryStreamConsumer.examine
  split
  · split_ifs
    · rw [getItem_setItem, if_neg hOther]
    · rfl
  · rfl

/-- What is pending stays pending. -/
theorem examine_known {id : Nat} :
    (getItem (InMemoryStreamConsumer.examine consumer nowMs minIdleMs entry swept).pending
      id).isSome = (getItem swept.pending id).isSome := by
  unfold InMemoryStreamConsumer.examine
  split
  · rename_i state hState
    split_ifs
    · rw [getItem_setItem]
      split_ifs with hSame
      · rw [hSame, hState]
        rfl
      · rfl
    · rfl
  · rfl

theorem sweep_known {id : Nat} :
    (getItem (InMemoryStreamConsumer.sweep consumer nowMs minIdleMs count entries swept).pending
      id).isSome = (getItem swept.pending id).isSome := by
  induction entries generalizing swept with
  | nil => rfl
  | cons entry rest ih =>
      simp only [InMemoryStreamConsumer.sweep]
      split_ifs
      · exact examine_known
      · exact ih.trans examine_known

/-- A pass examines the entries up to some place, and at least one if there is any; it claims
those that are idle. -/
theorem sweep_spec (hDistinct : (entries.map StreamMessage.id).Nodup) :
    ∃ examined rest, entries = examined ++ rest ∧ (rest ≠ [] → examined ≠ []) ∧
      (InMemoryStreamConsumer.sweep consumer nowMs minIdleMs count entries swept).scanned =
        swept.scanned + examined.length ∧
      (InMemoryStreamConsumer.sweep consumer nowMs minIdleMs count entries swept).claimed =
        swept.claimed ++ examined.filter (idle nowMs minIdleMs swept.pending) := by
  induction entries generalizing swept with
  | nil => exact ⟨[], [], rfl, id, rfl, (List.append_nil _).symm⟩
  | cons entry rest ih =>
      obtain ⟨hFresh, hRest⟩ := List.nodup_cons.mp hDistinct
      simp only [InMemoryStreamConsumer.sweep]
      split_ifs
      · exact ⟨[entry], rest, rfl, fun _ => List.cons_ne_nil _ _, examine_scanned,
          examine_claimed⟩
      · obtain ⟨examined, later, hSplit, -, hScanned, hClaimed⟩ :=
          @ih (InMemoryStreamConsumer.examine consumer nowMs minIdleMs entry swept) hRest
        have hSame : examined.filter (idle nowMs minIdleMs
            (InMemoryStreamConsumer.examine consumer nowMs minIdleMs entry swept).pending) =
              examined.filter (idle nowMs minIdleMs swept.pending) := by
          apply List.filter_congr
          intro other hOther
          have hNe : other.id ≠ entry.id := by
            intro hId
            apply hFresh
            rw [← hId, hSplit, List.map_append, List.mem_append]
            exact Or.inl (List.mem_map_of_mem hOther)
          rw [idle, idle, examine_pending hNe]
        refine ⟨entry :: examined, later, ?_, fun _ => List.cons_ne_nil _ _, ?_, ?_⟩
        · rw [hSplit, List.cons_append]
        · rw [hScanned, examine_scanned, List.length_cons]
          omega
        · rw [hClaimed, hSame, examine_claimed, List.append_assoc, ← List.filter_append]
          rfl

end Sweep

end Passes

namespace InMemoryStreamConsumer
variable {streams after : InMemoryStreamConsumer} {stream group consumer : String}

/-- The entries of a stream are numbered in order, and only entries are pending. -/
structure Ordered (streams : InMemoryStreamConsumer) : Prop where
  numbered : ∀ stream entries, getItem streams.streams stream = some entries →
    entries.map StreamMessage.id = List.range entries.length
  known : ∀ stream group state, getItem streams.groups (stream, group) = some state →
    ∀ id, (getItem state.pending id).isSome → ∃ entries,
      getItem streams.streams stream = some entries ∧ id < entries.length

/-- An entry is pending and idle for long enough to be claimed. -/
def Waiting (stream group : String) (minIdleMs : Int) (streams : InMemoryStreamConsumer)
    (id : Nat) : Prop :=
  ∃ state pending, getItem streams.groups (stream, group) = some state ∧
    getItem state.pending id = some pending ∧ minIdleMs ≤ streams.nowMs - pending.deliveredMs

instance (stream group : String) (minIdleMs : Int) (streams : InMemoryStreamConsumer) (id : Nat) :
    Decidable (Waiting stream group minIdleMs streams id) :=
  decidable_of_iff
    (∃ state ∈ getItem streams.groups (stream, group), ∃ pending ∈ getItem state.pending id,
      minIdleMs ≤ streams.nowMs - pending.deliveredMs)
    ⟨fun ⟨state, hState, pending, hPending, hIdle⟩ => ⟨state, pending, hState, hPending, hIdle⟩,
      fun ⟨state, pending, hState, hPending, hIdle⟩ => ⟨state, hState, pending, hPending, hIdle⟩⟩

/-- Where a pass that returns this cursor has stopped. -/
def stop (next : String) : WithTop Nat := if next = "0-0" then ⊤ else WithTop.some (place next)

@[simp] theorem stop_start : stop "0-0" = ⊤ := if_pos rfl

@[simp] theorem stop_key (id : Nat) : stop (key id) = WithTop.some id := by
  rw [stop, if_neg (key_ne_start id), place_key]

theorem item_eq_ok {Key Value : Type} [DecidableEq Key] {items : List (Key × Value)} {key : Key}
    {value : Value} : item items key = .ok value ↔ getItem items key = some value := by
  unfold item
  cases getItem items key with
  | none => simp
  | some found => simp

/-- What a pass does, where there is a group. -/
theorem xautoclaim_cases {minIdleMs : Int} {start next : String} {count : Nat}
    {claimed : List StreamMessage} (hCursor : IsCursor start)
    (h : streams.xautoclaim stream group consumer minIdleMs start count =
      .ok ((next, claimed), after)) :
    ∃ state all, getItem streams.groups (stream, group) = some state ∧
      getItem streams.streams stream = some all ∧
      let entries := all.filter fun entry =>
        (getItem state.pending entry.id).isSome && decide (place start ≤ entry.id)
      let swept := sweep consumer streams.nowMs minIdleMs count entries { pending := state.pending }
      next = (entries[swept.scanned]?.map fun entry => key entry.id).getD "0-0" ∧
        claimed = swept.claimed ∧
        after = { streams with
          groups := setItem streams.groups (stream, group)
            { state with pending := swept.pending } } := by
  obtain ⟨state, hState, h⟩ := Raising.bind_eq_ok.mp h
  obtain ⟨all, hAll, h⟩ := Raising.bind_eq_ok.mp h
  rw [entriesFrom_eq hCursor] at h
  cases h
  exact ⟨state, all, item_eq_ok.mp hState, item_eq_ok.mp hAll, rfl, rfl, rfl⟩

/-- A pass is a page of a scan: it claims what is waiting from its cursor on, up to the entry
where it has stopped. -/
theorem xautoclaim_page {minIdleMs : Int} {start next : String} {count : Nat}
    {claimed : List StreamMessage} (ordered : streams.Ordered) (hCursor : IsCursor start)
    (h : streams.xautoclaim stream group consumer minIdleMs start count =
      .ok ((next, claimed), after)) :
    IsCursor next ∧
      PagedScan.Page.Complete
        { start := place start, stop := stop next
          wanted := Waiting stream group minIdleMs streams
          taken := claimed.map StreamMessage.id } := by
  obtain ⟨state, all, hState, hAll, hNext, hClaimed, -⟩ := xautoclaim_cases hCursor h
  have hIncreasing : all.Pairwise fun first second => first.id < second.id := by
    rw [← List.pairwise_map, ordered.numbered stream all hAll]
    exact List.pairwise_lt_range
  generalize hEntries : (all.filter fun entry =>
    (getItem state.pending entry.id).isSome && decide (place start ≤ entry.id)) = entries at *
  have hOrder : entries.Pairwise fun first second => first.id < second.id := by
    rw [← hEntries]
    exact hIncreasing.filter _
  have hMember {entry : StreamMessage} : entry ∈ entries ↔
      entry ∈ all ∧ (getItem state.pending entry.id).isSome = true ∧ place start ≤ entry.id := by
    rw [← hEntries, List.mem_filter, Bool.and_eq_true, decide_eq_true_eq]
  have hDistinct : (entries.map StreamMessage.id).Nodup :=
    List.pairwise_map.mpr (hOrder.imp fun hLess => hLess.ne)
  obtain ⟨examined, rest, hSplit, hSome, hScanned, hSwept⟩ :=
    @sweep_spec entries consumer streams.nowMs minIdleMs count { pending := state.pending } hDistinct
  rw [hScanned, Nat.zero_add, hSplit, List.getElem?_append_right le_rfl, Nat.sub_self] at hNext
  rw [hSwept, List.nil_append] at hClaimed
  have hStop : IsCursor next ∧ stop next = PagedScan.stopBefore StreamMessage.id rest := by
    cases rest with
    | nil =>
        rw [hNext]
        exact ⟨Or.inl rfl, stop_start⟩
    | cons entry others =>
        rw [hNext]
        exact ⟨Or.inr ⟨entry.id, rfl⟩, stop_key entry.id⟩
  rw [hStop.2, hClaimed]
  refine ⟨hStop.1, ?_⟩
  rw [hSplit] at hOrder hMember
  apply PagedScan.complete_of_examined StreamMessage.id hOrder hSome
  · intro entry hEntry
    exact (hMember.mp hEntry).2.2
  · rintro id hFrom ⟨found, pending, hFound, hPending, hIdle⟩
    rw [hState] at hFound
    cases hFound
    have hKnown : (getItem state.pending id).isSome = true := by rw [hPending]; rfl
    obtain ⟨entries', hStream, hLess⟩ := ordered.known stream group state hState id hKnown
    rw [hAll] at hStream
    cases hStream
    have hRange : id ∈ all.map StreamMessage.id := by
      rw [ordered.numbered stream all hAll]
      exact List.mem_range.mpr hLess
    obtain ⟨entry, hEntry, rfl⟩ := List.mem_map.mp hRange
    refine ⟨entry, hMember.mpr ⟨hEntry, hKnown, hFrom⟩, rfl, ?_⟩
    rw [idle, hPending, Option.any_some]
    exact decide_eq_true hIdle

/-- What is known of the entries of a group is known of its later state too. -/
theorem Ordered.setGroup (ordered : streams.Ordered) {state : Group}
    (hPending : ∀ id, (getItem state.pending id).isSome → ∃ entries,
      getItem streams.streams stream = some entries ∧ id < entries.length) :
    Ordered { streams with groups := setItem streams.groups (stream, group) state } where
  numbered := ordered.numbered
  known other otherGroup found hFound id hId := by
    rw [getItem_setItem] at hFound
    split_ifs at hFound with hSame
    · cases hSame
      cases hFound
      exact hPending id hId
    · exact ordered.known other otherGroup found hFound id hId

theorem Ordered.xgroupCreate (ordered : streams.Ordered) :
    (streams.xgroupCreate stream group).Ordered where
  numbered other entries hEntries := by
    rw [InMemoryStreamConsumer.xgroupCreate, getItem_insertNew] at hEntries
    cases hOther : getItem streams.streams other with
    | some found =>
        rw [hOther, Option.some_or] at hEntries
        cases hEntries
        exact ordered.numbered other _ hOther
    | none =>
        rw [hOther, Option.none_or] at hEntries
        split_ifs at hEntries
        cases hEntries
        rfl
  known other otherGroup state hState id hId := by
    rw [InMemoryStreamConsumer.xgroupCreate, getItem_insertNew] at hState
    cases hOther : getItem streams.groups (other, otherGroup) with
    | some found =>
        rw [hOther, Option.some_or] at hState
        cases hState
        obtain ⟨entries, hEntries, hLess⟩ := ordered.known other otherGroup _ hOther id hId
        refine ⟨entries, ?_, hLess⟩
        rw [InMemoryStreamConsumer.xgroupCreate, getItem_insertNew, hEntries, Option.some_or]
    | none =>
        rw [hOther, Option.none_or] at hState
        split_ifs at hState
        cases hState
        cases hId

theorem Ordered.xadd (ordered : streams.Ordered) (fields : Fields) :
    (streams.xadd stream fields).2.Ordered where
  numbered other entries hEntries := by
    rw [InMemoryStreamConsumer.xadd, getItem_setItem] at hEntries
    split_ifs at hEntries with hSame
    · cases hEntries
      cases hStream : getItem streams.streams stream with
      | none => rfl
      | some old =>
          have hOld := ordered.numbered stream old hStream
          simp [hOld, List.range_succ]
    · exact ordered.numbered other entries hEntries
  known other otherGroup state hState id hId := by
    obtain ⟨entries, hEntries, hLess⟩ := ordered.known other otherGroup state hState id hId
    rw [InMemoryStreamConsumer.xadd, getItem_setItem]
    split_ifs with hSame
    · subst hSame
      refine ⟨_, rfl, ?_⟩
      rw [hEntries, Option.getD_some, List.length_append]
      exact Nat.lt_add_right _ hLess
    · exact ⟨entries, hEntries, hLess⟩

theorem isSome_getItem {Key Value : Type} [DecidableEq Key] {items : List (Key × Value)}
    {key : Key} : (getItem items key).isSome ↔ key ∈ items.map Prod.fst := by
  rw [← not_iff_not, Bool.not_eq_true, Option.isSome_eq_false_iff, Option.isNone_iff_eq_none]
  exact getItem_eq_none

/-- What is pending after a delivery was pending before or has been delivered. -/
theorem pending_delivered {messages : List StreamMessage} {delivery : Pending}
    {pending : List (Nat × Pending)} {id : Nat}
    (h : (getItem (messages.foldl (fun pending entry => setItem pending entry.id delivery) pending)
      id).isSome) :
    (getItem pending id).isSome ∨ ∃ entry ∈ messages, entry.id = id := by
  induction messages generalizing pending with
  | nil => exact Or.inl h
  | cons message rest ih =>
      cases ih h with
      | inl hPending =>
          rw [getItem_setItem] at hPending
          split_ifs at hPending with hSame
          · exact Or.inr ⟨message, List.mem_cons_self, hSame.symm⟩
          · exact Or.inl hPending
      | inr hLater =>
          obtain ⟨entry, hEntry, hId⟩ := hLater
          exact Or.inr ⟨entry, List.mem_cons_of_mem message hEntry, hId⟩

theorem Ordered.xreadgroup (ordered : streams.Ordered) {count : Nat}
    {messages : List StreamMessage}
    (h : streams.xreadgroup stream group consumer count = .ok (messages, after)) :
    after.Ordered := by
  obtain ⟨state, hState, h⟩ := Raising.bind_eq_ok.mp h
  obtain ⟨all, hAll, h⟩ := Raising.bind_eq_ok.mp h
  rw [item_eq_ok] at hState hAll
  cases h
  apply ordered.setGroup
  intro id hId
  cases pending_delivered hId with
  | inl hOld => exact ordered.known stream group state hState id hOld
  | inr hNew =>
      refine ⟨all, hAll, ?_⟩
      obtain ⟨entry, hEntry, rfl⟩ := hNew
      have hMember : entry.id ∈ all.map StreamMessage.id :=
        List.mem_map_of_mem (List.mem_of_mem_drop (List.mem_of_mem_take hEntry))
      rw [ordered.numbered stream all hAll] at hMember
      exact List.mem_range.mp hMember

theorem Ordered.xack (ordered : streams.Ordered) {id : Nat}
    (h : streams.xack stream group id = .ok after) : after.Ordered := by
  obtain ⟨state, hState, h⟩ := Raising.bind_eq_ok.mp h
  rw [item_eq_ok] at hState
  cases h
  apply ordered.setGroup
  intro other hOther
  apply ordered.known stream group state hState
  rw [isSome_getItem] at hOther ⊢
  exact ((List.filter_sublist).map Prod.fst).subset hOther

theorem Ordered.xautoclaim (ordered : streams.Ordered) {minIdleMs : Int} {start : String}
    {count : Nat} {answer : String × List StreamMessage}
    (h : streams.xautoclaim stream group consumer minIdleMs start count = .ok (answer, after)) :
    after.Ordered := by
  obtain ⟨state, hState, h⟩ := Raising.bind_eq_ok.mp h
  obtain ⟨all, -, h⟩ := Raising.bind_eq_ok.mp h
  obtain ⟨entries, -, h⟩ := Raising.bind_eq_ok.mp h
  rw [item_eq_ok] at hState
  cases h
  apply ordered.setGroup
  intro id hId
  rw [sweep_known] at hId
  exact ordered.known stream group state hState id hId

end InMemoryStreamConsumer

/-- What anyone may do with the streams, and the passing of the time they keep. -/
inductive StreamOperation where
  | xgroupCreate (stream group : String)
  | xadd (stream : String) (fields : Fields)
  | xreadgroup (stream group consumer : String) (count : Nat)
  | xack (stream group : String) (id : Nat)
  | xautoclaim (stream group consumer : String) (minIdleMs : Int) (start : String) (count : Nat)
  | heartbeat (consumer : String)
  | setNow (nowMs : Int)
  deriving DecidableEq, Repr

/-- What an operation leaves; one that raises leaves the streams as they are. -/
def StreamOperation.perform (streams : InMemoryStreamConsumer) :
    StreamOperation → InMemoryStreamConsumer
  | xgroupCreate stream group => streams.xgroupCreate stream group
  | xadd stream fields => (streams.xadd stream fields).2
  | xreadgroup stream group consumer count =>
      ((streams.xreadgroup stream group consumer count).toOption.map Prod.snd).getD streams
  | xack stream group id => (streams.xack stream group id).toOption.getD streams
  | xautoclaim stream group consumer minIdleMs start count =>
      ((streams.xautoclaim stream group consumer minIdleMs start count).toOption.map
        Prod.snd).getD streams
  | heartbeat consumer => streams.heartbeat consumer
  | setNow nowMs => { streams with nowMs }

/-- Whatever anyone does, entries stay numbered and only entries are pending. -/
theorem StreamOperation.ordered {streams : InMemoryStreamConsumer} (ordered : streams.Ordered)
    (operation : StreamOperation) : (operation.perform streams).Ordered := by
  cases operation with
  | xgroupCreate stream group => exact ordered.xgroupCreate
  | xadd stream fields => exact ordered.xadd fields
  | xreadgroup stream group consumer count =>
      simp only [perform]
      cases h : streams.xreadgroup stream group consumer count with
      | error error => exact ordered
      | ok read => exact ordered.xreadgroup h
  | xack stream group id =>
      simp only [perform]
      cases h : streams.xack stream group id with
      | error error => exact ordered
      | ok after => exact ordered.xack h
  | xautoclaim stream group consumer minIdleMs start count =>
      simp only [perform]
      cases h : streams.xautoclaim stream group consumer minIdleMs start count with
      | error error => exact ordered
      | ok claimed => exact ordered.xautoclaim h
  | heartbeat | setNow => exact ⟨ordered.numbered, ordered.known⟩

end DocInsight.Testing
