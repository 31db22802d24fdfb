import DocInsight.Library.Table
import DocInsight.Library.Transition
import Mathlib.Data.Rat.Defs

/-! The page in the browser. Handlers run one at a time up to the point where they wait for a
response; responses arrive in any order, and what waited for one goes on with the shared
variables as they are then. -/
namespace DocInsight.Frontend

open Table

structure ListedDocument where
  id : String
  filename : String
  sizeBytes : Nat
  language : Option String := none
  pageCount : Option Nat := none
  status : String
  error : Option String := none
  deriving DecidableEq, Repr

structure Usage where
  chargedTokens : Int
  dailyLimit : Int
  requests : Int
  reservedTokens : Int
  deriving DecidableEq, Repr

/-- What comes back for a request: a status with what the body parses to, or nothing. -/
inductive Response (Value : Type) where
  | reply (status : Nat) (body : Except String Value)
  | lost (message : String)

/-- Why a request has no result, and whether that ends the session. -/
structure Refusal where
  message : String
  expired : Bool := false
  deriving DecidableEq, Repr

/-- Call the same-origin gateway: a value, or a safe user-facing error. -/
def api {Value : Type} : Response Value → Except Refusal Value
  | .lost message => .error { message }
  | .reply status body =>
      if status = 401 then
        .error
          { message :=
              "Your access token has expired or is invalid. Connect again with a fresh token."
            expired := true }
      else if status = 403 then
        .error { message := "This tenant is not provisioned for the workspace." }
      else if status = 429 then
        .error { message := "Too many requests. Please wait a moment and try again." }
      else if ¬(200 ≤ status ∧ status ≤ 299) then
        .error
          { message := "Request failed (" ++ toString status ++
              "). Check your input and try again." }
      else body.mapError fun message => { message }

/-- Resolve when ingestion accepts the file. -/
def uploadFile : Response Unit → Except Refusal Unit
  | .lost message => .error { message }
  | .reply status _ =>
      if status = 401 then
        .error { message := "Access token expired. Connect again.", expired := true }
      else if 200 ≤ status ∧ status < 300 then .ok ()
      else
        .error
          { message := "Upload failed (" ++ toString status ++
              "). Supported files: PDF, PNG, JPEG." }

/-- What stands beside a list of documents: their total, the page, and its two buttons. -/
structure Paging where
  total : Int
  more : Bool
  prevDisabled : Bool
  nextDisabled : Bool
  page : ℚ
  deriving DecidableEq, Repr

def paging (offset : Int) (documents : List ListedDocument) : Paging where
  total := offset + documents.length
  more := documents.length = 20
  prevDisabled := offset = 0
  nextDisabled := documents.length < 20
  page := offset / 20 + 1

/-- The parts of the page that handlers read and change. -/
structure View (Answer : Type) where
  notice : String := ""
  authHidden : Bool := false
  connectedHidden : Bool := true
  signoutHidden : Bool := true
  documents : List ListedDocument := []
  scope : List (String × String) := [("All documents", "")]
  selected : String := ""
  paging : Paging := ⟨0, false, true, true, 1⟩
  usage : Option Usage := none
  answer : Option (Answer × List ListedDocument) := none
  file : Option Nat := none
  uploadDisabled : Bool := true
  progressHidden : Bool := true
  askDisabled : Bool := false

/-- Render this library page and rebuild the query scope from processed documents. -/
def renderDocuments {Answer : Type} (items : List ListedDocument) (view : View Answer) :
    View Answer :=
  let scope := ("All documents", "") ::
    (items.filter fun document => document.status = "processed").map fun document =>
      (document.filename, document.id)
  { view with
    documents := items
    scope := scope
    -- Preserve selection across polling only while it remains on the current page.
    selected := if view.selected ∈ scope.map Prod.snd then view.selected else "" }

/-- The handler that goes on when a refresh is done. -/
inductive Waiter where
  | connect
  | background
  | upload
  | query
  deriving DecidableEq, Repr

inductive Arrival (Value : Type) where
  | waiting
  | arrived (value : Value)
  | refused

/-- A refresh that waits for its two responses, with what its requests were sent with. -/
structure Refresh where
  token : String
  generation : Nat
  offset : Int
  waiter : Waiter
  listing : Arrival (List ListedDocument) := .waiting
  usage : Arrival Usage := .waiting

/-- One of the two responses was refused already. -/
def Refresh.rejected (task : Refresh) : Bool :=
  match task.listing, task.usage with
  | .refused, _ => true
  | _, .refused => true
  | _, _ => false

/-- What a refresh has got once both of its responses have arrived. -/
def Refresh.library (task : Refresh) : Option (List ListedDocument × Usage) :=
  match task.listing, task.usage with
  | .arrived documents, .arrived usage => some (documents, usage)
  | _, _ => none

inductive Task where
  | refresh (task : Refresh)
  | query (token : String) (generation : Nat)
  | upload (token : String) (generation : Nat)

structure Pending where
  id : Nat
  task : Task

/-- What a step has rendered, with what the requests it comes from were sent with. -/
inductive Painted (Answer : Type) where
  | library (task : Refresh) (documents : List ListedDocument) (usage : Usage)
  | answer (token : String) (answer : Answer)

def Painted.token {Answer : Type} : Painted Answer → String
  | library task _ _ => task.token
  | answer token _ => token

/-- The variables of the page, what waits for responses, what was rendered last, and with which
tokens the figures and the answer were got that stand in the page, shown or hidden. -/
structure Page (Answer : Type) where
  token : String := ""
  offset : Int := 0
  documents : List ListedDocument := []
  poll : Option Nat := none
  refreshFailed : Bool := false
  generation : Nat := 0
  view : View Answer := {}
  timers : List Nat := []
  nextTimer : Nat := 0
  tasks : List Pending := []
  nextTask : Nat := 0
  painted : List (Painted Answer) := []
  figures : Option String := none
  answered : Option String := none

namespace Page
variable {Answer : Type}

def notice (message : String) (page : Page Answer) : Page Answer :=
  { page with refreshFailed := false, view := { page.view with notice := message } }

def showRefreshFailure (message : String) (page : Page Answer) : Page Answer :=
  { page.notice message with refreshFailed := true }

/-- Clear page-held credentials/content and invalidate pending successful responses. -/
def disconnect (page : Page Answer) : Page Answer :=
  { page with
    token := ""
    -- A completed fetch can outlive sign-out; generation guards prevent repainting it.
    generation := page.generation + 1
    timers := page.timers.filter fun timer => some timer ≠ page.poll
    documents := []
    -- The usage and the names to choose from stay where they are, hidden.
    answered := none
    view := { page.view with
      authHidden := false
      connectedHidden := true
      signoutHidden := true
      documents := []
      answer := none
      file := none
      uploadDisabled := true } }

def addTask (task : Task) (page : Page Answer) : Page Answer :=
  { page with
    tasks := page.tasks ++ [⟨page.nextTask, task⟩]
    nextTask := page.nextTask + 1 }

/-- Send the two requests of a refresh with the current token and offset. -/
def startRefresh (waiter : Waiter) (page : Page Answer) : Page Answer :=
  page.addTask (.refresh
    { token := page.token, generation := page.generation, offset := page.offset, waiter })

def finishUpload (page : Page Answer) : Page Answer :=
  { page with view := { page.view with
      progressHidden := true, uploadDisabled := page.view.file.isNone } }

def finishQuery (page : Page Answer) : Page Answer :=
  { page with view := { page.view with askDisabled := false } }

/-- Go on after a refresh that did not fail. -/
def resume (waiter : Waiter) (page : Page Answer) : Page Answer :=
  match waiter with
  | .connect =>
      if page.token = "" then page
      else
        { page with
          view := { page.view with
            authHidden := true, connectedHidden := false, signoutHidden := false }
          poll := some page.nextTimer
          timers := page.timers ++ [page.nextTimer]
          nextTimer := page.nextTimer + 1 }
  | .background => page
  | .upload => page.finishUpload
  | .query => page.finishQuery

/-- Go on after a refresh that failed. -/
def giveUp (waiter : Waiter) (message : String) (page : Page Answer) : Page Answer :=
  match waiter with
  | .connect => { page.notice message with token := "" }
  | .background => page.showRefreshFailure message
  | .upload => (page.notice message).finishUpload
  | .query => (page.notice message).finishQuery

/-- Show the library and the usage that a refresh has got. -/
def paint (task : Refresh) (documents : List ListedDocument) (usage : Usage)
    (page : Page Answer) : Page Answer :=
  let page := if page.refreshFailed then page.notice "" else page
  { page with
    documents := documents
    view := { renderDocuments documents page.view with
      paging := paging page.offset documents, usage := some usage }
    painted := [.library task documents usage]
    figures := some task.token }

/-- Discard what a disconnected session has got, and show anything else. -/
def complete (task : Refresh) (documents : List ListedDocument) (usage : Usage)
    (page : Page Answer) : Page Answer :=
  if task.generation ≠ page.generation ∨ page.token = "" then page.resume task.waiter
  else (page.paint task documents usage).resume task.waiter

def setTask (id : Nat) (task : Refresh) (page : Page Answer) : Page Answer :=
  { page with
    tasks := updateWhere (fun pending => pending.id = id) (fun _ => ⟨id, .refresh task⟩) page.tasks }

def dropTask (id : Nat) (page : Page Answer) : Page Answer :=
  { page with tasks := page.tasks.filter fun pending => pending.id ≠ id }

/-- An expired token disconnects the page before anything else is told. -/
def expire (refusal : Refusal) (page : Page Answer) : Page Answer :=
  if refusal.expired then page.disconnect else page

/-- One of the two responses of a refresh has arrived. The first refusal ends the refresh. -/
def settle (id : Nat) (task : Refresh) (result : Except Refusal Refresh) (refused : Refresh)
    (page : Page Answer) : Page Answer :=
  match result with
  | .ok arrived =>
      match arrived.library with
      | some (documents, usage) => (page.setTask id arrived).complete arrived documents usage
      | none => page.setTask id arrived
  | .error refusal =>
      let page := (page.expire refusal).setTask id refused
      if task.rejected then page else page.giveUp task.waiter refusal.message

def settleAnswer (id : Nat) (token : String) (generation : Nat) (result : Except Refusal Answer)
    (page : Page Answer) : Page Answer :=
  let page := page.dropTask id
  match result with
  | .ok answer =>
      if generation = page.generation ∧ page.token ≠ "" then
        startRefresh .query
          { page with
            view := { page.view with answer := some (answer, page.documents) }
            painted := [.answer token answer]
            answered := some token }
      else page.finishQuery
  | .error refusal => ((page.expire refusal).notice refusal.message).finishQuery

def settleUpload (id : Nat) (generation : Nat) (result : Except Refusal Unit)
    (page : Page Answer) : Page Answer :=
  let page := page.dropTask id
  match result with
  | .ok _ =>
      if generation ≠ page.generation then page.finishUpload
      else
        let page := { page with offset := 0, view := { page.view with file := none } }
        (page.notice "Document uploaded. Processing continues in the background.").startRefresh
          .upload
  | .error refusal => ((page.expire refusal).notice refusal.message).finishUpload

def taskAt (id : Nat) (page : Page Answer) : Option Task :=
  (select Pending.id id page.tasks).map Pending.task

end Page

/-- What happens to the page: its user acts, a timer ticks, or a response arrives. -/
inductive Event (Answer : Type) where
  | connect (token : String)
  | signout
  | tick (timer : Nat) (hidden : Bool)
  | refresh
  | prev
  | next
  | chooseFile (size : Option Nat)
  | selectScope (value : String)
  | upload
  | query
  | listing (id : Nat) (response : Response (List ListedDocument))
  | usage (id : Nat) (response : Response Usage)
  | answer (id : Nat) (response : Response Answer)
  | uploaded (id : Nat) (response : Response Unit)

section Step
variable {Answer : Type}

/-- What a user can do depends on what is shown and enabled. -/
def Event.enabled (page : Page Answer) : Event Answer → Bool
  | .connect _ => !page.view.authHidden
  | .signout => !page.view.signoutHidden
  | .tick timer _ => timer ∈ page.timers
  | .refresh | .chooseFile _ => !page.view.connectedHidden
  | .prev => !page.view.connectedHidden && !page.view.paging.prevDisabled
  | .next => !page.view.connectedHidden && !page.view.paging.nextDisabled
  | .selectScope value => !page.view.connectedHidden && value ∈ page.view.scope.map Prod.snd
  | .upload => !page.view.connectedHidden && !page.view.uploadDisabled
  | .query => !page.view.connectedHidden && !page.view.askDisabled
  | .listing id _ =>
      match page.taskAt id with
      | some (.refresh { listing := .waiting, .. }) => true
      | _ => false
  | .usage id _ =>
      match page.taskAt id with
      | some (.refresh { usage := .waiting, .. }) => true
      | _ => false
  | .answer id _ =>
      match page.taskAt id with
      | some (.query _ _) => true
      | _ => false
  | .uploaded id _ =>
      match page.taskAt id with
      | some (.upload _ _) => true
      | _ => false

/-- The handlers of the page. -/
def handle (page : Page Answer) : Event Answer → Page Answer
  | .connect token => Page.startRefresh .connect { page.notice "" with token, offset := 0 }
  | .signout => page.disconnect.notice "Disconnected. Your session has been cleared."
  | .tick _ hidden =>
      -- Background tabs need no polling; the next visible interval catches up.
      if page.token ≠ "" ∧ ¬hidden then page.startRefresh .background else page
  | .refresh => (page.notice "").startRefresh .background
  | .prev => Page.startRefresh .background { page with offset := page.offset - 20 }
  | .next => Page.startRefresh .background { page with offset := page.offset + 20 }
  | .chooseFile size =>
      { page with view := { page.view with file := size, uploadDisabled := size.isNone } }
  | .selectScope value => { page with view := { page.view with selected := value } }
  | .upload =>
      if page.view.file.all fun size => 50 * 1024 * 1024 < size then
        page.notice "Choose a PDF or image no larger than 50 MiB."
      else
        let page := page.notice ""
        Page.addTask (.upload page.token page.generation)
          { page with view := { page.view with uploadDisabled := true, progressHidden := false } }
  | .query =>
      let page := page.notice ""
      Page.addTask (.query page.token page.generation)
        { page with view := { page.view with askDisabled := true } }
  | .listing id response =>
      match page.taskAt id with
      | some (.refresh task) =>
          page.settle id task
            ((api response).map fun documents => { task with listing := .arrived documents })
            { task with listing := .refused }
      | _ => page
  | .usage id response =>
      match page.taskAt id with
      | some (.refresh task) =>
          page.settle id task
            ((api response).map fun usage => { task with usage := .arrived usage })
            { task with usage := .refused }
      | _ => page
  | .answer id response =>
      match page.taskAt id with
      | some (.query token generation) => page.settleAnswer id token generation (api response)
      | _ => page
  | .uploaded id response =>
      match page.taskAt id with
      | some (.upload _ generation) => page.settleUpload id generation (uploadFile response)
      | _ => page

/-- One event, when it can happen; what was rendered before it is forgotten. -/
def step (page : Page Answer) (event : Event Answer) : Option (Page Answer) :=
  if event.enabled page then some (handle { page with painted := [] } event) else none

end Step

end DocInsight.Frontend
