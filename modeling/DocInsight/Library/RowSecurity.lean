import DocInsight.Library.Transition

/-! Row security: tables in which a setting of the connection decides what rows a statement
sees and what rows it may leave. Statements are arbitrary, transactions interleave, and the
setting of a transaction ends with it. -/
namespace RowSecurity

variable {Row Setting Owner : Type}

/-- The policy of each row, what is deleted along with a row, and the constraints that hold
of all rows together, whoever sees them. -/
structure Schema (Row Setting : Type) where
  visible : Setting → Row → Bool
  writable : Setting → Row → Bool
  cascades : Row → Row → Bool
  legal : List Row → Bool

/-- Any statement: what it does depends on the rows that it sees. -/
inductive Statement (Row : Type) where
  | select
  | insert (rows : List Row → List Row)
  | update (change : List Row → Row → Option Row)
  | delete (condition : List Row → Row → Bool)

inductive Change (Row : Type) where
  | insert (row : Row)
  | replace (old new : Row)
  | delete (row : Row)

inductive Refusal where
  | policy
  | constraint
  deriving DecidableEq, Repr

/-- The rows that a change is about. -/
def Change.rows : Change Row → List Row
  | insert row | delete row => [row]
  | replace old new => [old, new]

def Change.apply [DecidableEq Row] (rows : List Row) : Change Row → List Row
  | insert row => rows ++ [row]
  | replace old new => rows.map fun row => if row = old then new else row
  | delete gone => rows.filter (· ≠ gone)

namespace Schema
variable [DecidableEq Row] (schema : Schema Row Setting) (setting : Setting) (view : List Row)

def seen : List Row := view.filter (schema.visible setting)

/-- Rows that are written have to pass the policy, and all rows the constraints. -/
def checked (written : List Row) (changes : List (Change Row)) :
    Except Refusal (List (Change Row)) :=
  if !written.all (schema.writable setting) then .error .policy
  else if !schema.legal (changes.foldl Change.apply view) then .error .constraint
  else .ok changes

/-- What a statement changes. Other rows than those it sees take part only where they are
deleted along with one of them. -/
def changes : Statement Row → Except Refusal (List (Change Row))
  | .select => .ok []
  | .insert rows =>
      let added := rows (schema.seen setting view)
      schema.checked setting view added (added.map .insert)
  | .update change =>
      let changed := (schema.seen setting view).filterMap fun row =>
        (change (schema.seen setting view) row).map fun new => (row, new)
      schema.checked setting view (changed.map Prod.snd)
        (changed.map fun (old, new) => .replace old new)
  | .delete condition =>
      let gone := (schema.seen setting view).filter (condition (schema.seen setting view))
      let along := view.filter fun row => gone.any fun parent => schema.cascades parent row
      schema.checked setting view [] ((gone ++ along).map .delete)

end Schema

/-- A connection's transaction: its setting, what it has changed so far, and whether a
statement of it was refused. -/
structure Session (Row Setting : Type) where
  setting : Setting
  changes : List (Change Row) := []
  failed : Bool := false

structure Server (Row Setting : Type) where
  committed : List Row
  sessions : Nat → Session Row Setting
  answers : List (Nat × List Row) := []

/-- What connections do; a transaction begins with the first of its actions. -/
inductive Action (Row Setting : Type) where
  | set (connection : Nat) (setting : Setting)
  | execute (connection : Nat) (statement : Statement Row)
  | commit (connection : Nat)
  | rollback (connection : Nat)

def Action.connection : Action Row Setting → Nat
  | set connection _ | execute connection _ | commit connection | rollback connection => connection

namespace Server
variable [DecidableEq Row] (schema : Schema Row Setting) (unset : Setting)
  (server : Server Row Setting)

def view (connection : Nat) : List Row :=
  (server.sessions connection).changes.foldl Change.apply server.committed

def withSession (connection : Nat) (session : Session Row Setting) : Server Row Setting :=
  { server with
    sessions := fun other => if other = connection then session else server.sessions other }

/-- Nothing goes on in a transaction after a refusal, and its commit is a rollback. -/
def step : Action Row Setting → Server Row Setting
  | .set connection setting =>
      let session := server.sessions connection
      if session.failed then server
      else server.withSession connection { session with setting }
  | .execute connection statement =>
      let session := server.sessions connection
      if session.failed then server
      else
        match schema.changes session.setting (server.view connection) statement with
        | .error _ => server.withSession connection { session with failed := true }
        | .ok changes =>
            { server.withSession connection
                { session with changes := session.changes ++ changes } with
              answers := server.answers ++
                [(connection, schema.seen session.setting (server.view connection))] }
  | .commit connection =>
      let ended := server.withSession connection { setting := unset }
      if (server.sessions connection).failed then ended
      else { ended with committed := server.view connection }
  | .rollback connection => server.withSession connection { setting := unset }

def run (actions : List (Action Row Setting)) : Server Row Setting :=
  actions.foldl (step schema unset) server

omit [DecidableEq Row] in
@[simp] theorem withSession_self (connection : Nat) (session : Session Row Setting) :
    (server.withSession connection session).sessions connection = session :=
  if_pos rfl

omit [DecidableEq Row] in
theorem withSession_of_ne {connection other : Nat} (session : Session Row Setting)
    (h : other ≠ connection) :
    (server.withSession connection session).sessions other = server.sessions other :=
  if_neg h

/-- No transaction is open. -/
def idle (committed : List Row) : Server Row Setting where
  committed := committed
  sessions _ := { setting := unset }

end Server

/-- What an action makes of the setting of its transaction. -/
def given (unset setting : Setting) : Action Row Setting → Setting
  | .set _ given => given
  | .commit _ | .rollback _ => unset
  | .execute _ _ => setting

/-- What an action makes of the setting of a connection's transaction. -/
def rebind (unset : Setting) (connection : Nat) (setting : Setting)
    (action : Action Row Setting) : Setting :=
  if action.connection = connection then given unset setting action else setting

/-- The setting that a connection gave its transaction last, since the one before ended. -/
def bound (unset : Setting) (connection : Nat) (actions : List (Action Row Setting)) : Setting :=
  actions.foldl (rebind unset connection) unset

/-- Policies that show and admit an owner's rows to the settings bound to it, and cascades
that stay with an owner. -/
structure Schema.Isolates (schema : Schema Row Setting) (owner : Row → Owner)
    (binds : Setting → Option Owner) : Prop where
  visible : ∀ setting row, schema.visible setting row = true → binds setting = some (owner row)
  writable : ∀ setting row, schema.writable setting row = true → binds setting = some (owner row)
  cascades : ∀ parent row, schema.cascades parent row = true → owner row = owner parent

section Isolation
variable {schema : Schema Row Setting} {owner : Row → Owner} {binds : Setting → Option Owner}
  {setting unset : Setting} {view : List Row} {changes : List (Change Row)} {keeper : Owner}

theorem Schema.Isolates.owner_of_seen (isolates : schema.Isolates owner binds) {row : Row}
    (h : row ∈ schema.seen setting view) : binds setting = some (owner row) :=
  isolates.visible setting row (List.mem_filter.mp h).2

variable [DecidableEq Row]

theorem checked_ok {written : List Row}
    {wanted : List (Change Row)} (h : schema.checked setting view written wanted = .ok changes) :
    changes = wanted ∧ ∀ row ∈ written, schema.writable setting row = true := by
  unfold Schema.checked at h
  split_ifs at h with hPolicy
  cases h
  exact ⟨rfl, by simpa using hPolicy⟩

/-- A statement changes rows of the owner that its setting binds, and no others. -/
theorem Schema.Isolates.changes_owned (isolates : schema.Isolates owner binds)
    {statement : Statement Row} (h : schema.changes setting view statement = .ok changes) :
    ∀ change ∈ changes, ∀ row ∈ change.rows, binds setting = some (owner row) := by
  intro change hChange row hRow
  cases statement with
  | select =>
      cases h
      cases hChange
  | insert rows =>
      obtain ⟨rfl, hWritten⟩ := checked_ok h
      obtain ⟨added, hAdded, rfl⟩ := List.mem_map.mp hChange
      cases List.mem_singleton.mp hRow
      exact isolates.writable setting _ (hWritten _ hAdded)
  | update change =>
      obtain ⟨rfl, hWritten⟩ := checked_ok h
      obtain ⟨⟨old, new⟩, hChanged, rfl⟩ := List.mem_map.mp hChange
      obtain ⟨seen, hSeen, hNew⟩ := List.mem_filterMap.mp hChanged
      obtain ⟨_, _, hPair⟩ := Option.map_eq_some_iff.mp hNew
      cases hPair
      cases List.mem_pair.mp hRow with
      | inl hOld => exact hOld ▸ isolates.owner_of_seen hSeen
      | inr hAfter =>
          exact hAfter ▸ isolates.writable setting _
            (hWritten _ (List.mem_map.mpr ⟨_, hChanged, rfl⟩))
  | delete condition =>
      obtain ⟨rfl, -⟩ := checked_ok h
      obtain ⟨gone, hGone, rfl⟩ := List.mem_map.mp hChange
      cases List.mem_singleton.mp hRow
      cases List.mem_append.mp hGone with
      | inl hSeen => exact isolates.owner_of_seen (List.mem_of_mem_filter hSeen)
      | inr hAlong =>
          obtain ⟨parent, hParent, hCascades⟩ := List.any_eq_true.mp (List.mem_filter.mp hAlong).2
          rw [isolates.cascades parent _ hCascades]
          exact isolates.owner_of_seen (List.mem_of_mem_filter hParent)

variable [DecidableEq Owner]

/-- The rows of an owner. -/
def ownedBy (owner : Row → Owner) (keeper : Owner) (rows : List Row) : List Row :=
  rows.filter (owner · = keeper)

/-- A change about rows of others leaves an owner's rows. -/
theorem ownedBy_apply {change : Change Row} (h : ∀ row ∈ change.rows, owner row ≠ keeper)
    (rows : List Row) : ownedBy owner keeper (change.apply rows) = ownedBy owner keeper rows := by
  cases change with
  | insert row =>
      have hRow : owner row ≠ keeper := h row List.mem_cons_self
      simp [ownedBy, Change.apply, hRow]
  | delete gone =>
      have hGone : owner gone ≠ keeper := h gone List.mem_cons_self
      rw [ownedBy, ownedBy, Change.apply, List.filter_filter]
      apply List.filter_congr
      intro row _
      by_cases hRow : row = gone
      · simp [hRow, hGone]
      · simp [hRow]
  | replace old new =>
      have hOld : owner old ≠ keeper := h old List.mem_cons_self
      have hNew : owner new ≠ keeper := h new (List.mem_cons_of_mem _ List.mem_cons_self)
      induction rows with
      | nil => rfl
      | cons row rest ih =>
          simp only [Change.apply, ownedBy, List.map_cons] at ih ⊢
          by_cases hRow : row = old
          · rw [if_pos hRow, List.filter_cons_of_neg (by simpa using hNew),
              List.filter_cons_of_neg (by simpa [hRow] using hOld), ih]
          · rw [if_neg hRow, List.filter_cons, List.filter_cons, ih]

theorem ownedBy_foldl (h : ∀ change ∈ changes, ∀ row ∈ change.rows, owner row ≠ keeper)
    (rows : List Row) :
    ownedBy owner keeper (changes.foldl Change.apply rows) = ownedBy owner keeper rows := by
  induction changes generalizing rows with
  | nil => rfl
  | cons change rest ih =>
      rw [List.foldl_cons, ih fun other hOther => h other (List.mem_cons_of_mem _ hOther),
        ownedBy_apply (h change List.mem_cons_self)]

/-- Nobody has touched or been shown an owner's rows, nor is about to. -/
structure Untouched (owner : Row → Owner) (binds : Setting → Option Owner) (keeper : Owner)
    (rows : List Row) (server : Server Row Setting) : Prop where
  committed : ownedBy owner keeper server.committed = rows
  settings : ∀ connection, binds (server.sessions connection).setting ≠ some keeper
  changes : ∀ connection, ∀ change ∈ (server.sessions connection).changes,
    ∀ row ∈ change.rows, owner row ≠ keeper
  answers : ∀ answer ∈ server.answers, ∀ row ∈ answer.2, owner row ≠ keeper

section Steps
variable {rows : List Row} {server : Server Row Setting} {connection : Nat}

theorem ownedBy_view (untouched : Untouched owner binds keeper rows server) :
    ownedBy owner keeper (server.view connection) = rows := by
  rw [Server.view, ownedBy_foldl (untouched.changes connection), untouched.committed]

omit [DecidableEq Row] in
theorem Untouched.withSession (untouched : Untouched owner binds keeper rows server)
    {session : Session Row Setting} (hSetting : binds session.setting ≠ some keeper)
    (hChanges : ∀ change ∈ session.changes, ∀ row ∈ change.rows, owner row ≠ keeper) :
    Untouched owner binds keeper rows (server.withSession connection session) where
  committed := untouched.committed
  settings other := by
    by_cases hOther : other = connection
    · rw [hOther, Server.withSession_self]
      exact hSetting
    · rw [server.withSession_of_ne session hOther]
      exact untouched.settings other
  changes other := by
    by_cases hOther : other = connection
    · rw [hOther, Server.withSession_self]
      exact hChanges
    · rw [server.withSession_of_ne session hOther]
      exact untouched.changes other
  answers := untouched.answers

omit [DecidableEq Row] in
theorem Untouched.ended (untouched : Untouched owner binds keeper rows server)
    (hUnset : binds unset ≠ some keeper) :
    Untouched owner binds keeper rows (server.withSession connection { setting := unset }) :=
  untouched.withSession hUnset fun _ hChange => by cases hChange

theorem Untouched.step (isolates : schema.Isolates owner binds)
    (hUnset : binds unset ≠ some keeper) (untouched : Untouched owner binds keeper rows server)
    {action : Action Row Setting}
    (hAction : ∀ connection setting, action = .set connection setting →
      binds setting ≠ some keeper) :
    Untouched owner binds keeper rows (server.step schema unset action) := by
  cases action with
  | set connection setting =>
      simp only [Server.step]
      split
      · exact untouched
      · exact untouched.withSession (hAction connection setting rfl) (untouched.changes connection)
  | rollback connection => exact untouched.ended hUnset
  | commit connection =>
      simp only [Server.step]
      split
      · exact untouched.ended hUnset
      · have ended := @Untouched.ended _ _ _ owner binds unset keeper _ rows server connection
          untouched hUnset
        exact ⟨ownedBy_view untouched, ended.settings, ended.changes, ended.answers⟩
  | execute connection statement =>
      have hOther : ∀ row, binds (server.sessions connection).setting = some (owner row) →
          owner row ≠ keeper := by
        intro row hRow hKeeper
        exact untouched.settings connection (hKeeper ▸ hRow)
      simp only [Server.step]
      split
      · exact untouched
      · split
        · exact untouched.withSession (untouched.settings connection)
            (untouched.changes connection)
        · rename_i changes hChanges
          have hOwned := isolates.changes_owned hChanges
          have staged : Untouched owner binds keeper rows (server.withSession connection
              { server.sessions connection with
                changes := (server.sessions connection).changes ++ changes }) := by
            apply Untouched.withSession untouched
            · exact untouched.settings connection
            · intro change hChange row hRow
              cases List.mem_append.mp hChange with
              | inl hBefore => exact untouched.changes connection change hBefore row hRow
              | inr hNew => exact hOther row (hOwned change hNew row hRow)
          refine ⟨staged.committed, staged.settings, staged.changes, ?_⟩
          intro answer hAnswer row hRow
          cases List.mem_append.mp hAnswer with
          | inl hBefore => exact untouched.answers answer hBefore row hRow
          | inr hNew =>
              cases List.mem_singleton.mp hNew
              exact hOther row (isolates.owner_of_seen hRow)

theorem Untouched.run (isolates : schema.Isolates owner binds)
    (hUnset : binds unset ≠ some keeper) {actions : List (Action Row Setting)}
    (hActions : ∀ connection setting, .set connection setting ∈ actions →
      binds setting ≠ some keeper) (untouched : Untouched owner binds keeper rows server) :
    Untouched owner binds keeper rows (server.run schema unset actions) := by
  induction actions generalizing server with
  | nil => exact untouched
  | cons action rest ih =>
      apply ih fun connection setting hSet =>
        hActions connection setting (List.mem_cons_of_mem _ hSet)
      apply untouched.step isolates hUnset
      rintro connection setting rfl
      exact hActions connection setting List.mem_cons_self

end Steps

end Isolation

section Settings
variable [DecidableEq Row] {schema : Schema Row Setting} {unset current : Setting}
  {server : Server Row Setting} {connection : Nat}

/-- A transaction that goes on has this setting. -/
def Has (connection : Nat) (setting : Setting) (server : Server Row Setting) : Prop :=
  (server.sessions connection).failed = false → (server.sessions connection).setting = setting

/-- An action leaves the transactions of other connections. -/
theorem step_other {action : Action Row Setting} (h : action.connection ≠ connection) :
    (server.step schema unset action).sessions connection = server.sessions connection := by
  have hOther := h.symm
  cases action with
  | set other setting =>
      simp only [Server.step]
      split
      · rfl
      · exact server.withSession_of_ne _ hOther
  | rollback other => exact server.withSession_of_ne _ hOther
  | commit other =>
      simp only [Server.step]
      split <;> exact server.withSession_of_ne _ hOther
  | execute other statement =>
      simp only [Server.step]
      split
      · rfl
      · split <;> exact server.withSession_of_ne _ hOther

theorem Has.step (has : Has connection current server) (action : Action Row Setting) :
    Has connection (rebind unset connection current action) (server.step schema unset action) := by
  intro hGoing
  by_cases hOther : action.connection = connection
  · subst hOther
    rw [rebind, if_pos rfl]
    cases action with
    | set connection setting =>
        simp only [Server.step, Action.connection] at hGoing ⊢
        split at hGoing
        · rename_i hFailed
          cases hFailed.symm.trans hGoing
        · rename_i hFailed
          rw [if_neg hFailed, Server.withSession_self]
          rfl
    | rollback connection => simp [Server.step, Action.connection, given]
    | commit connection =>
        simp only [Server.step, Action.connection]
        split <;> simp [given]
    | execute connection statement =>
        simp only [Server.step, Action.connection] at hGoing ⊢
        split at hGoing
        · rename_i hFailed
          cases hFailed.symm.trans hGoing
        · rename_i hFailed
          rw [if_neg hFailed]
          split at hGoing
          · simp at hGoing
          · simpa [given, Action.connection] using has (by simpa [Action.connection] using hFailed)
  · rw [step_other hOther] at hGoing ⊢
    rw [rebind, if_neg hOther]
    exact has hGoing

/-- The setting of a transaction is the one it was given, whatever other transactions do. -/
theorem Has.run (has : Has connection current server) (actions : List (Action Row Setting)) :
    Has connection (actions.foldl (rebind unset connection) current)
      (server.run schema unset actions) := by
  induction actions generalizing server current with
  | nil => exact has
  | cons action rest ih => exact ih (has.step action)

/-- What a statement is shown are rows of the owner that its transaction was bound to. -/
theorem answers_bound {owner : Row → Owner} {binds : Setting → Option Owner}
    (isolates : schema.Isolates owner binds) (first : List (Action Row Setting))
    (committed : List Row) (connection : Nat) (statement : Statement Row) :
    let before := (Server.idle unset committed).run schema unset first
    ∀ answer ∈ (before.step schema unset (.execute connection statement)).answers,
      answer ∈ before.answers ∨
        ∀ row ∈ answer.2, binds (bound unset connection first) = some (owner row) := by
  intro before answer hAnswer
  have hStart : Has connection unset (Server.idle unset committed) := fun _ => rfl
  simp only [Server.step] at hAnswer
  split at hAnswer
  · exact Or.inl hAnswer
  · rename_i hGoing
    split at hAnswer
    · exact Or.inl hAnswer
    · cases List.mem_append.mp hAnswer with
      | inl hBefore => exact Or.inl hBefore
      | inr hNew =>
          cases List.mem_singleton.mp hNew
          refine Or.inr fun row hRow => ?_
          have hSetting := hStart.run first (by simpa using hGoing)
          rw [bound, ← hSetting]
          exact isolates.owner_of_seen hRow

end Settings

end RowSecurity
