import DocInsight.Frontend.App

/-! What a session of the page shows and what ends it. Requests carry the token that was held
when they were sent, and their responses may find the page in another session. -/
namespace DocInsight.Frontend

open Transition Table

variable {Answer : Type}

/-- The page goes on with its session and shows what it showed. -/
structure SessionKept (before after : Page Answer) : Prop where
  token : after.token = before.token
  generation : after.generation = before.generation
  timers : after.timers = before.timers
  documents : after.documents = before.documents
  shown : after.view.documents = before.view.documents
  answer : after.view.answer = before.view.answer
  auth : after.view.authHidden = before.view.authHidden
  connected : after.view.connectedHidden = before.view.connectedHidden

theorem SessionKept.trans {first second third : Page Answer} (kept : SessionKept first second)
    (later : SessionKept second third) : SessionKept first third where
  token := later.token.trans kept.token
  generation := later.generation.trans kept.generation
  timers := later.timers.trans kept.timers
  documents := later.documents.trans kept.documents
  shown := later.shown.trans kept.shown
  answer := later.answer.trans kept.answer
  auth := later.auth.trans kept.auth
  connected := later.connected.trans kept.connected

/-- The token that a request was sent with whose response is a failure. -/
def failedToken (page : Page Answer) : Event Answer → Option String
  | .listing id response =>
      match page.taskAt id, api response with
      | some (.refresh task), .error _ => some task.token
      | _, _ => none
  | .usage id response =>
      match page.taskAt id, api response with
      | some (.refresh task), .error _ => some task.token
      | _, _ => none
  | .answer id response =>
      match page.taskAt id, api response with
      | some (.query token _), .error _ => some token
      | _, _ => none
  | .uploaded id response =>
      match page.taskAt id, uploadFile response with
      | some (.upload token _), .error _ => some token
      | _, _ => none
  | _ => none

/-- The tokens that what the page shows was got with. -/
def Page.shown (page : Page Answer) : List String :=
  if page.view.connectedHidden then [] else page.figures.toList ++ page.answered.toList

/-- What a step renders or brings to view comes from requests that were sent with the token of
the page, and the failure of a request that was sent with another token ends no session. -/
structure Confined (before : Page Answer) (event : Event Answer) (after : Page Answer) : Prop where
  rendered : ∀ painted ∈ after.painted, painted.token = before.token
  revealed : before.view.connectedHidden = true → ∀ token ∈ after.shown, token = before.token
  kept : ∀ token, failedToken before event = some token → before.token ≠ "" →
    token ≠ before.token → SessionKept before after

/-- A response comes from another session than the one that the page is in. -/
def Late (token : String) (page : Page Answer) : Prop := page.token ≠ "" ∧ token ≠ page.token

/-- A late response of a refresh is dropped: it is the first of two, or the page was
disconnected since; or it is a failure that no connection waits for and that does not say that
the token has expired. -/
def Refresh.dropped (task : Refresh) (result : Except Refusal Refresh) (page : Page Answer) :
    Prop :=
  match result with
  | .ok arrived => arrived.library = none ∨ task.generation ≠ page.generation
  | .error refusal =>
      refusal.expired = false ∧ (task.rejected = true ∨ task.waiter ≠ .connect)

/-- The tokens of what a refresh leaves standing when it is done: all of it, if the page was
disconnected since, and otherwise the answer. -/
def Refresh.leaves (task : Refresh) (page : Page Answer) : List String :=
  if task.generation = page.generation then page.answered.toList
  else page.figures.toList ++ page.answered.toList

/-- A connection that is done while the page holds a token and hides its parts leaves nothing in
them that was got with another token. -/
def Refresh.revealing (task : Refresh) (result : Except Refusal Refresh) (page : Page Answer) :
    Prop :=
  match result with
  | .ok arrived => arrived.library ≠ none → task.waiter = .connect → page.token ≠ "" →
      page.view.connectedHidden = true → ∀ token ∈ task.leaves page, token = page.token
  | .error _ => True

/-- A response of a refresh is dropped where it is late, and brings nothing else to view. -/
def Refresh.harmless (task : Refresh) (result : Except Refusal Refresh) (page : Page Answer) :
    Prop :=
  (Late task.token page → task.dropped result page) ∧ task.revealing result page

/-- Every response from another session is one that the page drops, and no connection brings to
view what another session has left. -/
def LateDropped (page : Page Answer) : Event Answer → Prop
  | .listing id response =>
      match page.taskAt id with
      | some (.refresh task) =>
          task.harmless
            ((api response).map fun documents => { task with listing := .arrived documents }) page
      | _ => True
  | .usage id response =>
      match page.taskAt id with
      | some (.refresh task) =>
          task.harmless ((api response).map fun usage => { task with usage := .arrived usage })
            page
      | _ => True
  | .answer id response =>
      match page.taskAt id with
      | some (.query token generation) => Late token page →
          match api response with
          | .ok _ => generation ≠ page.generation
          | .error refusal => refusal.expired = false
      | _ => True
  | .uploaded id response =>
      match page.taskAt id with
      | some (.upload token _) => Late token page →
          match uploadFile response with
          | .ok _ => True
          | .error refusal => refusal.expired = false
      | _ => True
  | _ => True

namespace Page
variable {page : Page Answer}

@[simp] theorem painted_resume (waiter : Waiter) : (page.resume waiter).painted = page.painted := by
  cases waiter with
  | connect =>
      unfold resume
      split_ifs
      · rfl
      · rfl
  | background | upload | query => rfl

@[simp] theorem painted_giveUp (waiter : Waiter) (message : String) :
    (page.giveUp waiter message).painted = page.painted := by
  cases waiter with
  | connect | background | upload | query => rfl

@[simp] theorem painted_expire (refusal : Refusal) :
    (page.expire refusal).painted = page.painted := by
  unfold expire
  split_ifs
  · rfl
  · rfl

/-- A refresh that is done renders what it has got, unless its session is over. -/
theorem painted_complete (task : Refresh) (documents : List ListedDocument) (usage : Usage) :
    (page.complete task documents usage).painted =
      if task.generation ≠ page.generation ∨ page.token = "" then page.painted
      else [.library task documents usage] := by
  unfold complete
  split_ifs
  · exact painted_resume _
  · rw [painted_resume]
    rfl

/-- What goes on after a failed refresh ends the session exactly if it is a connection. -/
theorem giveUp_kept {before : Page Answer} (kept : SessionKept before page)
    (hToken : before.token ≠ "") (waiter : Waiter) (message : String) :
    SessionKept before (page.giveUp waiter message) ↔ waiter ≠ .connect := by
  cases waiter with
  | connect => exact iff_of_false (fun kept => hToken kept.token.symm) fun h => h rfl
  | background | upload | query =>
      exact iff_of_true ⟨kept.token, kept.generation, kept.timers, kept.documents, kept.shown,
        kept.answer, kept.auth, kept.connected⟩ nofun

theorem not_kept_of_generation {before after : Page Answer}
    (h : after.generation = before.generation + 1) : ¬SessionKept before after := by
  intro kept
  have hSame := kept.generation
  omega

theorem generation_giveUp (waiter : Waiter) (message : String) :
    (page.giveUp waiter message).generation = page.generation := by
  cases waiter with
  | connect | background | upload | query => rfl

/-- A refused response of a refresh ends no session exactly if the token has not expired and no
connection waits for it. -/
theorem settle_kept (id : Nat) (task refused : Refresh) (refusal : Refusal)
    (hToken : page.token ≠ "") :
    SessionKept page (page.settle id task (.error refusal) refused) ↔
      refusal.expired = false ∧ (task.rejected = true ∨ task.waiter ≠ .connect) := by
  cases hExpired : refusal.expired with
  | true =>
      have hGeneration : (page.settle id task (.error refusal) refused).generation =
          page.generation + 1 := by
        simp only [settle, expire, hExpired, if_true]
        split_ifs
        · rfl
        · rw [generation_giveUp]
          rfl
      exact iff_of_false (not_kept_of_generation hGeneration) nofun
  | false =>
      simp only [settle, expire, hExpired, Bool.false_eq_true, if_false, true_and]
      have kept : SessionKept page (page.setTask id refused) :=
        ⟨rfl, rfl, rfl, rfl, rfl, rfl, rfl, rfl⟩
      split_ifs with hRejected
      · exact iff_of_true kept (Or.inl hRejected)
      · rw [giveUp_kept kept hToken]
        simp [hRejected]

/-- A successful response of a refresh renders nothing from another session exactly if it is the
first of two, or the page was disconnected since. -/
theorem settle_rendered (id : Nat) (task : Refresh) {arrived : Refresh} (refused : Refresh)
    (hPainted : page.painted = []) :
    (∀ painted ∈ (page.settle id task (.ok arrived) refused).painted,
        painted.token = page.token) ↔
      (Late arrived.token page →
        arrived.library = none ∨ arrived.generation ≠ page.generation) := by
  cases hLibrary : arrived.library with
  | none =>
      have hSame : (page.settle id task (.ok arrived) refused).painted = [] := by
        simp only [settle, hLibrary]
        exact hPainted
      rw [hSame]
      exact iff_of_true (List.forall_mem_nil _) fun _ => Or.inl rfl
  | some library =>
      have hComplete : (page.settle id task (.ok arrived) refused).painted =
          if arrived.generation ≠ page.generation ∨ page.token = "" then page.painted
          else [.library arrived library.1 library.2] := by
        simp only [settle, hLibrary]
        exact painted_complete _ _ _
      rw [hComplete]
      split_ifs with hStale
      · rw [hPainted]
        apply iff_of_true
        · exact List.forall_mem_nil _
        · intro hLate
          right
          exact hStale.resolve_right hLate.1
      · obtain ⟨hSame, hToken⟩ := not_or.mp hStale
        simp only [List.mem_singleton, forall_eq, Painted.token, hSame, Late, false_or]
        constructor
        · intro hOwn hLate
          exact absurd hOwn hLate.2
        · intro hOwn
          by_contra hOther
          exact hOwn ⟨hToken, hOther⟩

/-- What is hidden shows nothing. -/
theorem shown_of_hidden (h : page.view.connectedHidden = true) : page.shown = [] := by
  rw [shown, h, if_pos rfl]

theorem hidden_giveUp (waiter : Waiter) (message : String) :
    (page.giveUp waiter message).view.connectedHidden = page.view.connectedHidden := by
  cases waiter with
  | connect | background | upload | query => rfl

theorem hidden_expire (refusal : Refusal) (h : page.view.connectedHidden = true) :
    (page.expire refusal).view.connectedHidden = true := by
  unfold expire
  split_ifs
  · rfl
  · exact h

/-- A hidden page that goes on after a refresh is shown for a connection with a token only. -/
theorem shown_resume {waiter : Waiter} (hHidden : page.view.connectedHidden = true) :
    (page.resume waiter).shown =
      if waiter = .connect ∧ page.token ≠ "" then page.figures.toList ++ page.answered.toList
      else [] := by
  cases waiter with
  | connect =>
      unfold resume
      by_cases hToken : page.token = ""
      · rw [if_pos hToken, if_neg (fun h => h.2 hToken), shown_of_hidden hHidden]
      · rw [if_neg hToken, if_pos ⟨rfl, hToken⟩]
        rfl
  | background => rw [if_neg nofun, resume, shown_of_hidden hHidden]
  | upload => rw [if_neg nofun, resume, shown_of_hidden (by exact hHidden)]
  | query => rw [if_neg nofun, resume, shown_of_hidden (by exact hHidden)]

theorem hidden_paint (task : Refresh) (documents : List ListedDocument) (usage : Usage) :
    (page.paint task documents usage).view.connectedHidden = page.view.connectedHidden := by
  unfold paint
  split_ifs
  · rfl
  · rfl

theorem paint_standing (task : Refresh) (documents : List ListedDocument) (usage : Usage) :
    (page.paint task documents usage).figures = some task.token ∧
      (page.paint task documents usage).answered = page.answered ∧
      (page.paint task documents usage).token = page.token := by
  unfold paint
  split_ifs
  · exact ⟨rfl, rfl, rfl⟩
  · exact ⟨rfl, rfl, rfl⟩

/-- A refresh that is done brings to view what it has got and what it leaves. -/
theorem shown_complete (task : Refresh) (documents : List ListedDocument) (usage : Usage)
    (hHidden : page.view.connectedHidden = true) :
    (page.complete task documents usage).shown =
      if task.waiter = .connect ∧ page.token ≠ "" then
        if task.generation = page.generation then task.token :: task.leaves page
        else task.leaves page
      else [] := by
  by_cases hStale : task.generation ≠ page.generation ∨ page.token = ""
  · rw [complete, if_pos hStale, shown_resume hHidden]
    split_ifs with hConnect hSame
    · exact absurd hStale (not_or.mpr ⟨not_not.mpr hSame, hConnect.2⟩)
    · rw [Refresh.leaves, if_neg hSame]
    · rfl
  · obtain ⟨hSame, hToken⟩ := not_or.mp hStale
    obtain ⟨hFigures, hAnswered, hKept⟩ := @paint_standing _ page task documents usage
    rw [complete, if_neg hStale, shown_resume ((hidden_paint _ _ _).trans hHidden), hFigures,
      hAnswered, hKept, if_pos (not_not.mp hSame), Refresh.leaves, if_pos (not_not.mp hSame)]
    rfl

/-- What a refresh that is done renders being of the session, it brings nothing of another one
to view exactly if it leaves nothing of another one to a connection. -/
theorem complete_revealed (task : Refresh) (documents : List ListedDocument) (usage : Usage)
    (hRendered : ∀ painted ∈ (page.complete task documents usage).painted,
      painted.token = page.token) :
    (page.view.connectedHidden = true →
        ∀ token ∈ (page.complete task documents usage).shown, token = page.token) ↔
      (task.waiter = .connect → page.token ≠ "" → page.view.connectedHidden = true →
        ∀ token ∈ task.leaves page, token = page.token) := by
  constructor
  · intro hRevealed hConnect hHeld hHidden token hMem
    apply hRevealed hHidden token
    rw [shown_complete _ _ _ hHidden, if_pos ⟨hConnect, hHeld⟩]
    split_ifs
    · exact List.mem_cons_of_mem _ hMem
    · exact hMem
  · intro hRevealing hHidden token hMem
    rw [shown_complete _ _ _ hHidden] at hMem
    split_ifs at hMem with hConnect hSame
    · rcases List.mem_cons.mp hMem with rfl | hLeft
      · -- What it has got was rendered.
        have hHeld : ¬(task.generation ≠ page.generation ∨ page.token = "") :=
          not_or.mpr ⟨not_not.mpr hSame, hConnect.2⟩
        rw [painted_complete, if_neg hHeld] at hRendered
        exact hRendered _ (List.mem_singleton_self _)
      · exact hRevealing hConnect.1 hConnect.2 hHidden token hLeft
    · exact hRevealing hConnect.1 hConnect.2 hHidden token hMem
    · exact absurd hMem List.not_mem_nil

theorem revealed_of_hidden {next : Page Answer} {token : String}
    (h : page.view.connectedHidden = true → next.view.connectedHidden = true) :
    page.view.connectedHidden = true → ∀ shown ∈ next.shown, shown = token := by
  intro hHidden
  rw [shown_of_hidden (h hHidden)]
  exact List.forall_mem_nil _

/-- A refused response of a refresh brings nothing to view. -/
theorem settle_hidden (id : Nat) (task refused : Refresh) (refusal : Refusal)
    (h : page.view.connectedHidden = true) :
    (page.settle id task (.error refusal) refused).view.connectedHidden = true := by
  simp only [settle]
  split_ifs
  · exact hidden_expire refusal h
  · rw [hidden_giveUp]
    exact hidden_expire refusal h

/-- What a refresh renders being of the session, it brings nothing of another one to view exactly
if it leaves nothing of another one. -/
theorem settle_revealed (id : Nat) (task refused : Refresh) (result : Except Refusal Refresh)
    (hArrive : ∀ arrived, result = .ok arrived →
      arrived.generation = task.generation ∧ arrived.waiter = task.waiter)
    (hRendered : ∀ painted ∈ (page.settle id task result refused).painted,
      painted.token = page.token) :
    (page.view.connectedHidden = true →
        ∀ token ∈ (page.settle id task result refused).shown, token = page.token) ↔
      task.revealing result page := by
  cases result with
  | error refusal =>
      exact iff_of_true (revealed_of_hidden (settle_hidden id task refused refusal)) trivial
  | ok arrived =>
      obtain ⟨hGeneration, hWaiter⟩ := hArrive arrived rfl
      cases hLibrary : arrived.library with
      | none =>
          have hSettled : page.settle id task (.ok arrived) refused = page.setTask id arrived := by
            simp only [settle, hLibrary]
          rw [hSettled]
          apply iff_of_true
          · exact revealed_of_hidden fun hHidden => hHidden
          · exact fun hDone => absurd hLibrary hDone
      | some library =>
          have hSettled : page.settle id task (.ok arrived) refused =
              (page.setTask id arrived).complete arrived library.1 library.2 := by
            simp only [settle, hLibrary]
          have hLeaves : arrived.leaves (page.setTask id arrived) = task.leaves page := by
            rw [Refresh.leaves, hGeneration]
            rfl
          rw [hSettled] at hRendered ⊢
          have hRevealed := complete_revealed arrived library.1 library.2 hRendered
          rw [hLeaves, hWaiter] at hRevealed
          simp only [Refresh.revealing, hLibrary, ne_eq, reduceCtorEq, not_false_eq_true,
            true_imp_iff]
          exact hRevealed

/-- A response of a refresh is confined to its session exactly if it is dropped when late. -/
theorem settle_confined {Value : Type} (id : Nat) (task refused : Refresh)
    (result : Except Refusal Value) {arrive : Value → Refresh} (hPainted : page.painted = [])
    (hArrive : ∀ value, (arrive value).token = task.token ∧
      (arrive value).generation = task.generation) :
    ((∀ painted ∈ (page.settle id task (result.map arrive) refused).painted,
        painted.token = page.token) ∧
      (result.toBool = false → Late task.token page →
        SessionKept page (page.settle id task (result.map arrive) refused))) ↔
      (Late task.token page → task.dropped (result.map arrive) page) := by
  cases result with
  | ok value =>
      obtain ⟨hToken, hGeneration⟩ := hArrive value
      have hRendered := @settle_rendered _ page id task (arrive value) refused hPainted
      rw [hToken, hGeneration] at hRendered
      simp only [Except.map, Refresh.dropped, hRendered, and_iff_left_iff_imp]
      exact fun _ => nofun
  | error refusal =>
      have hNothing : (page.settle id task (.error refusal) refused).painted = [] := by
        simp only [settle]
        split_ifs
        · exact (painted_expire refusal).trans hPainted
        · rw [painted_giveUp]
          exact (painted_expire refusal).trans hPainted
      simp only [Except.map, hNothing, List.not_mem_nil, false_imp_iff, implies_true, true_and,
        Refresh.dropped, Except.toBool, true_imp_iff]
      exact forall_congr' fun hLate => settle_kept id task refused refusal hLate.1

/-- So a response of a refresh is confined to its session exactly if it is harmless. -/
theorem settle_harmless {Value : Type} (id : Nat) (task refused : Refresh)
    (result : Except Refusal Value) {arrive : Value → Refresh} (hPainted : page.painted = [])
    (hArrive : ∀ value, (arrive value).token = task.token ∧
      (arrive value).generation = task.generation ∧ (arrive value).waiter = task.waiter) :
    ((∀ painted ∈ (page.settle id task (result.map arrive) refused).painted,
        painted.token = page.token) ∧
      (page.view.connectedHidden = true →
        ∀ token ∈ (page.settle id task (result.map arrive) refused).shown, token = page.token) ∧
      (result.toBool = false → Late task.token page →
        SessionKept page (page.settle id task (result.map arrive) refused))) ↔
      task.harmless (result.map arrive) page := by
  have hConfined := @settle_confined _ page _ id task refused result arrive hPainted
    fun value => ⟨(hArrive value).1, (hArrive value).2.1⟩
  have hRevealed := @settle_revealed _ page id task refused (result.map arrive) (by
    intro arrived hOk
    cases result with
    | error refusal => cases hOk
    | ok value =>
        cases hOk
        exact (hArrive value).2)
  constructor
  · rintro ⟨hRendered, hShown, hKept⟩
    exact ⟨hConfined.mp ⟨hRendered, hKept⟩, (hRevealed hRendered).mp hShown⟩
  · rintro ⟨hDropped, hRevealing⟩
    obtain ⟨hRendered, hKept⟩ := hConfined.mpr hDropped
    exact ⟨hRendered, (hRevealed hRendered).mpr hRevealing, hKept⟩

/-- No other response brings anything to view. -/
theorem settleAnswer_hidden (id : Nat) (token : String) (generation : Nat)
    (result : Except Refusal Answer) (h : page.view.connectedHidden = true) :
    (page.settleAnswer id token generation result).view.connectedHidden = true := by
  cases result with
  | ok answer =>
      simp only [settleAnswer]
      split_ifs
      · exact h
      · exact h
  | error refusal => exact @hidden_expire _ (page.dropTask id) refusal h

theorem settleUpload_hidden (id generation : Nat) (result : Except Refusal Unit)
    (h : page.view.connectedHidden = true) :
    (page.settleUpload id generation result).view.connectedHidden = true := by
  cases result with
  | ok accepted =>
      simp only [settleUpload]
      split_ifs
      · exact h
      · exact h
  | error refusal => exact @hidden_expire _ (page.dropTask id) refusal h

/-- A refusal ends the session exactly if the token has expired, whatever is told of it. -/
theorem expire_kept {before : Page Answer} (kept : SessionKept before page) (refusal : Refusal)
    {finish : Page Answer → Page Answer}
    (hFinish : ∀ page, SessionKept page (finish page)) :
    SessionKept before (finish (page.expire refusal)) ↔ refusal.expired = false := by
  have hKept := hFinish (page.expire refusal)
  cases hExpired : refusal.expired with
  | true =>
      apply iff_of_false _ nofun
      apply not_kept_of_generation
      rw [hKept.generation, expire, hExpired, if_pos rfl, ← kept.generation]
      rfl
  | false =>
      rw [expire, hExpired, if_neg Bool.false_ne_true] at hKept ⊢
      exact iff_of_true (kept.trans hKept) rfl

/-- So is the response of a query. -/
theorem settleAnswer_confined (id : Nat) (token : String) (generation : Nat)
    (result : Except Refusal Answer) (hPainted : page.painted = []) :
    ((∀ painted ∈ (page.settleAnswer id token generation result).painted,
        painted.token = page.token) ∧
      (result.toBool = false → Late token page →
        SessionKept page (page.settleAnswer id token generation result))) ↔
      (Late token page →
        match result with
        | .ok _ => generation ≠ page.generation
        | .error refusal => refusal.expired = false) := by
  cases result with
  | ok answer =>
      by_cases hShown : generation = page.generation ∧ page.token ≠ ""
      · have hRendered : (page.settleAnswer id token generation (.ok answer)).painted =
            [.answer token answer] :=
          congrArg painted (if_pos hShown)
        rw [hRendered]
        simp only [List.mem_singleton, forall_eq, Painted.token, Late, hShown.1, ne_eq, not_true,
          imp_false, not_and, not_not, Except.toBool, Bool.true_eq_false, false_imp_iff, and_true]
        exact ⟨fun h _ => h, fun h => h hShown.2⟩
      · have hRendered : (page.settleAnswer id token generation (.ok answer)).painted =
            page.painted := by
          have hSettled : page.settleAnswer id token generation (.ok answer) =
              (page.dropTask id).finishQuery := if_neg hShown
          rw [hSettled]
          rfl
        rw [hRendered, hPainted]
        apply iff_of_true
        · exact ⟨List.forall_mem_nil _, nofun⟩
        · intro hLate hSame
          exact hShown ⟨hSame, hLate.1⟩
  | error refusal =>
      have hNothing : (page.settleAnswer id token generation (.error refusal)).painted = [] :=
        (painted_expire refusal).trans hPainted
      have kept : SessionKept page (page.dropTask id) := ⟨rfl, rfl, rfl, rfl, rfl, rfl, rfl, rfl⟩
      have hKept := @expire_kept _ _ _ kept refusal
        (fun page => (page.notice refusal.message).finishQuery)
        fun _ => ⟨rfl, rfl, rfl, rfl, rfl, rfl, rfl, rfl⟩
      rw [hNothing]
      simp only [List.not_mem_nil, false_imp_iff, implies_true, true_and, Except.toBool,
        true_imp_iff]
      exact forall_congr' fun _ => hKept

/-- So is the response of an upload, which renders nothing. -/
theorem settleUpload_confined (id : Nat) (token : String) (generation : Nat)
    (result : Except Refusal Unit) (hPainted : page.painted = []) :
    ((∀ painted ∈ (page.settleUpload id generation result).painted,
        painted.token = page.token) ∧
      (result.toBool = false → Late token page →
        SessionKept page (page.settleUpload id generation result))) ↔
      (Late token page →
        match result with
        | .ok _ => True
        | .error refusal => refusal.expired = false) := by
  cases result with
  | ok answer =>
      have hNothing : (page.settleUpload id generation (.ok answer)).painted = [] := by
        simp only [settleUpload]
        split_ifs
        · exact hPainted
        · exact hPainted
      rw [hNothing]
      exact iff_of_true ⟨List.forall_mem_nil _, nofun⟩ fun _ => trivial
  | error refusal =>
      have hNothing : (page.settleUpload id generation (.error refusal)).painted = [] :=
        (painted_expire refusal).trans hPainted
      have kept : SessionKept page (page.dropTask id) := ⟨rfl, rfl, rfl, rfl, rfl, rfl, rfl, rfl⟩
      have hKept := @expire_kept _ _ _ kept refusal
        (fun page => (page.notice refusal.message).finishUpload)
        fun _ => ⟨rfl, rfl, rfl, rfl, rfl, rfl, rfl, rfl⟩
      rw [hNothing]
      simp only [List.not_mem_nil, false_imp_iff, implies_true, true_and, Except.toBool,
        true_imp_iff]
      exact forall_congr' fun _ => hKept

end Page

section Step
variable {page next : Page Answer} {event : Event Answer}

def Event.isResponse : Event Answer → Bool
  | .listing _ _ | .usage _ _ | .answer _ _ | .uploaded _ _ => true
  | _ => false

/-- Only a response renders anything. -/
theorem painted_handle (page : Page Answer) {event : Event Answer} (h : event.isResponse = false) :
    (handle page event).painted = page.painted := by
  cases event with
  | connect | signout | refresh | prev | next | chooseFile | selectScope | query => rfl
  | tick timer hidden =>
      simp only [handle]
      split_ifs
      · rfl
      · rfl
  | upload =>
      simp only [handle]
      split_ifs
      · rfl
      · rfl
  | listing | usage | answer | uploaded => cases h

/-- Only a response brings anything to view. -/
theorem hidden_handle (page : Page Answer) {event : Event Answer} (h : event.isResponse = false)
    (hHidden : page.view.connectedHidden = true) :
    (handle page event).view.connectedHidden = true := by
  cases event with
  | connect | refresh | prev | next | chooseFile | selectScope | query => exact hHidden
  | signout => rfl
  | tick timer hidden =>
      simp only [handle]
      split_ifs
      · exact hHidden
      · exact hHidden
  | upload =>
      simp only [handle]
      split_ifs
      · exact hHidden
      · exact hHidden
  | listing | usage | answer | uploaded => cases h

/-- Nothing but a response can come too late. -/
theorem quiet_confined (h : event.isResponse = false) :
    Confined page event (handle { page with painted := [] } event) ∧ LateDropped page event := by
  have hPainted : (handle { page with painted := [] } event).painted = [] := painted_handle _ h
  constructor
  · constructor
    · rw [hPainted]
      exact List.forall_mem_nil _
    · exact Page.revealed_of_hidden fun hHidden =>
        hidden_handle { page with painted := [] } h hHidden
    · intro token hFailed
      cases event with
      | listing | usage | answer | uploaded => cases h
      | _ => cases hFailed
  · cases event with
    | listing | usage | answer | uploaded => cases h
    | _ => trivial

/-- What it means for the response of one request. -/
theorem confined_iff_of_failed {Value : Type} {result : Except Refusal Value} {token : String}
    (hFailed : failedToken page event = if result.toBool then none else some token) :
    Confined page event next ↔
      (∀ painted ∈ next.painted, painted.token = page.token) ∧
        (page.view.connectedHidden = true → ∀ token ∈ next.shown, token = page.token) ∧
        (result.toBool = false → Late token page → SessionKept page next) := by
  constructor
  · intro confined
    refine ⟨confined.rendered, confined.revealed, fun hRefused hLate => ?_⟩
    rw [hRefused, if_neg Bool.false_ne_true] at hFailed
    exact confined.kept token hFailed hLate.1 hLate.2
  · rintro ⟨hRendered, hRevealed, hKept⟩
    refine ⟨hRendered, hRevealed, fun other hOther hToken hLate => ?_⟩
    rw [hFailed] at hOther
    split_ifs at hOther with hRefused
    cases hOther
    exact hKept (by simpa using hRefused) ⟨hToken, hLate⟩

/-- What it means for a response that brings nothing to view. -/
theorem confined_iff_of_hidden {Value : Type} {result : Except Refusal Value} {token : String}
    (hFailed : failedToken page event = if result.toBool then none else some token)
    (hHidden : page.view.connectedHidden = true → next.view.connectedHidden = true) :
    Confined page event next ↔
      (∀ painted ∈ next.painted, painted.token = page.token) ∧
        (result.toBool = false → Late token page → SessionKept page next) := by
  rw [confined_iff_of_failed hFailed, and_iff_right (Page.revealed_of_hidden hHidden)]

theorem sessionKept_clean {after : Page Answer} :
    SessionKept { page with painted := [] } after ↔ SessionKept page after :=
  ⟨fun kept => ⟨kept.1, kept.2, kept.3, kept.4, kept.5, kept.6, kept.7, kept.8⟩,
    fun kept => ⟨kept.1, kept.2, kept.3, kept.4, kept.5, kept.6, kept.7, kept.8⟩⟩

/-- What it means for a response of a refresh. -/
theorem refresh_confined {Value : Type} {result : Except Refusal Value} {id : Nat}
    {task refused : Refresh} {arrive : Value → Refresh}
    (hFailed : failedToken page event = if result.toBool then none else some task.token)
    (hArrive : ∀ value, (arrive value).token = task.token ∧
      (arrive value).generation = task.generation ∧ (arrive value).waiter = task.waiter) :
    Confined page event
        (Page.settle id task (result.map arrive) refused { page with painted := [] }) ↔
      task.harmless (result.map arrive) page := by
  rw [confined_iff_of_failed hFailed, ← sessionKept_clean]
  exact Page.settle_harmless id task refused result rfl hArrive

/-- A step keeps to its session exactly if a response from another session is dropped. -/
theorem step_confined (hStep : step page event = some next) :
    Confined page event next ↔ LateDropped page event := by
  unfold step at hStep
  split_ifs at hStep with hEnabled
  cases hStep
  cases hResponse : event.isResponse with
  | false =>
      obtain ⟨confined, hDropped⟩ := @quiet_confined _ page event hResponse
      exact iff_of_true confined hDropped
  | true =>
      cases event with
      | listing id response =>
          cases hTask : page.taskAt id with
          | none => simp [Event.enabled, hTask] at hEnabled
          | some task =>
              cases task with
              | query | upload => simp [Event.enabled, hTask] at hEnabled
              | refresh task =>
                  have hClean : Page.taskAt id { page with painted := [] } = some (.refresh task) :=
                    hTask
                  have hFailed : failedToken page (.listing id response) =
                      if (api response).toBool then none else some task.token := by
                    simp only [failedToken, hTask]
                    cases api response <;> rfl
                  simp only [LateDropped, hTask, handle, hClean]
                  exact refresh_confined hFailed fun _ => ⟨rfl, rfl, rfl⟩
      | usage id response =>
          cases hTask : page.taskAt id with
          | none => simp [Event.enabled, hTask] at hEnabled
          | some task =>
              cases task with
              | query | upload => simp [Event.enabled, hTask] at hEnabled
              | refresh task =>
                  have hClean : Page.taskAt id { page with painted := [] } = some (.refresh task) :=
                    hTask
                  have hFailed : failedToken page (.usage id response) =
                      if (api response).toBool then none else some task.token := by
                    simp only [failedToken, hTask]
                    cases api response <;> rfl
                  simp only [LateDropped, hTask, handle, hClean]
                  exact refresh_confined hFailed fun _ => ⟨rfl, rfl, rfl⟩
      | answer id response =>
          cases hTask : page.taskAt id with
          | none => simp [Event.enabled, hTask] at hEnabled
          | some task =>
              cases task with
              | refresh | upload => simp [Event.enabled, hTask] at hEnabled
              | query token generation =>
                  have hClean : Page.taskAt id { page with painted := [] } =
                      some (.query token generation) := hTask
                  have hFailed : failedToken page (.answer id response) =
                      if (api response).toBool then none else some token := by
                    simp only [failedToken, hTask]
                    cases api response <;> rfl
                  have hHidden := @Page.settleAnswer_hidden _ { page with painted := [] } id token
                    generation (api response)
                  rw [confined_iff_of_hidden hFailed (by simpa only [handle, hClean] using hHidden)]
                  simp only [LateDropped, hTask, handle, hClean, ← sessionKept_clean]
                  exact Page.settleAnswer_confined id token generation _ rfl
      | uploaded id response =>
          cases hTask : page.taskAt id with
          | none => simp [Event.enabled, hTask] at hEnabled
          | some task =>
              cases task with
              | refresh | query => simp [Event.enabled, hTask] at hEnabled
              | upload token generation =>
                  have hClean : Page.taskAt id { page with painted := [] } =
                      some (.upload token generation) := hTask
                  have hFailed : failedToken page (.uploaded id response) =
                      if (uploadFile response).toBool then none else some token := by
                    simp only [failedToken, hTask]
                    cases uploadFile response <;> rfl
                  have hHidden := @Page.settleUpload_hidden _ { page with painted := [] } id
                    generation (uploadFile response)
                  rw [confined_iff_of_hidden hFailed (by simpa only [handle, hClean] using hHidden)]
                  simp only [LateDropped, hTask, handle, hClean, ← sessionKept_clean]
                  exact Page.settleUpload_confined id token generation _ rfl
      | _ => cases hResponse

end Step

/-- In every order of what its user does and what arrives, the page keeps what it shows and what
it ends to the session it is in exactly if it drops every response from another one. -/
theorem sessions_confined_iff (events : List (Event Answer)) :
    Every step Confined events {} ↔
      Every step (fun page event _ => LateDropped page event) events {} := by
  constructor
  · intro h
    exact h.mono _ fun _ _ _ hStep confined => (step_confined hStep).mp confined
  · intro h
    exact h.mono _ fun _ _ _ hStep hDropped => (step_confined hStep).mpr hDropped

/-- A session is disconnected and another one connected while a poll of the first is waiting. -/
def reconnected : List (Event Unit) :=
  [.connect "a", .listing 0 (.reply 200 (.ok [])), .usage 0 (.reply 200 (.ok ⟨0, 1000, 0, 0⟩)),
    .tick 0 false, .signout, .connect "b"]

/-- The poll of the first session ends the second. -/
theorem sessions_not_confined : ¬∀ events : List (Event Unit), Every step Confined events {} := by
  intro h
  have hLast := (every_iff step).mp (h (reconnected ++ [.listing 1 (.reply 401 (.ok []))]))
    reconnected (.listing 1 (.reply 401 (.ok []))) []
  have hRun : (run step reconnected {}).map (fun page =>
      (page.token, failedToken page (.listing 1 (.reply 401 (.ok []))),
        (step page (.listing 1 (.reply 401 (.ok [])))).map Page.token)) =
      some ("b", some "a", some "") := by
    decide
  cases hPage : run step reconnected {} with
  | none =>
      rw [hPage] at hRun
      cases hRun
  | some page =>
      rw [hPage, Option.map_some, Option.some.injEq, Prod.mk.injEq, Prod.mk.injEq] at hRun
      obtain ⟨hToken, hFailed, hNext⟩ := hRun
      obtain ⟨next, hStep, hEnded⟩ := Option.map_eq_some_iff.mp hNext
      have kept := (hLast page next rfl hPage hStep).kept "a" hFailed (by rw [hToken]; decide)
        (by rw [hToken]; decide)
      have hSame := kept.token
      rw [hToken, hEnded] at hSame
      revert hSame
      decide

end DocInsight.Frontend
