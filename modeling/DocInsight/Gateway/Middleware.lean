import DocInsight.Gateway.Forwarding
import DocInsight.Library.Traces

/-! The public response policy around an application: what is sent where it fails before or
after its response has started, and the headers that every response start carries. -/
namespace DocInsight.Gateway

open DocInsight.Python Interaction

/-- What an application sends. -/
inductive Message where
  | start (status : Nat) (headers : Headers)
  | body (data : Bytes)
  | other (kind : String)
  deriving DecidableEq, Repr

def Message.starts : Message → Bool
  | start _ _ => true
  | _ => false

/-- What an application is called with; the request ID is in its state. -/
structure Scope where
  http : Bool
  headers : Headers
  requestId : Option Text := none
  deriving DecidableEq, Repr

variable {Failure : Type}

/-- A run of an application over the messages it sends. Sending may fail, and whatever else
it does may. -/
abbrev Sending (Failure : Type) : Type := Program Message (fun _ => Unit) Failure Unit

abbrev Application (Failure : Type) : Type := Scope → Sending Failure

/-- A message that was sent, with how that went. -/
abbrev Sent (Failure : Type) : Type := Exchange Message (fun _ => Unit) Failure

/-- `headers[name] = value`: the first entry of the name is kept for it, and no other. -/
def Headers.set (name : String) (value : Text) : Headers → Headers
  | [] => [(name, value)]
  | header :: rest =>
      if header.1 = name then (name, value) :: rest.filter (·.1 ≠ name)
      else header :: Headers.set name value rest

/-- Send a whole response. -/
def Response.send (response : Response) : Sending Failure :=
  (Program.perform (.start response.status response.headers)).bind fun _ =>
    Program.perform (.body response.body)

def internalError : Response := error 500 "internal_error" "request failed"

def started (before : Bool) (message : Message) : Bool := before || message.starts

/-- Sanitize failures only while a replacement HTTP response is still legal. Not every
failure is an `Exception`: a cancellation is not. -/
def errorPolicy (isException : Failure → Bool) (app : Application Failure) :
    Application Failure := fun scope =>
  Program.relay started id
    (fun begun failure =>
      if !isException failure || begun || !scope.http then throw failure
      else internalError.send) false (app scope)

/-- The headers that every response start is given. -/
def stamp (requestId : Text) : Message → Message
  | .start status headers =>
      .start status (((headers.set "cache-control" (text "no-store")).set
        "x-content-type-options" (text "nosniff")).set "x-request-id" requestId)
  | message => message

def requestIdCharacter (character : CodePoint) : Bool :=
  (65 ≤ character.val && character.val ≤ 90) || (97 ≤ character.val && character.val ≤ 122) ||
    isDigit character || character.val = 45 || character.val = 46 || character.val = 95

/-- `[A-Za-z0-9._-]{1,128}` -/
def validRequestId (value : Text) : Bool :=
  0 < value.length && value.length ≤ 128 && value.all requestIdCharacter

/-- The caller's request ID where it has one of that form, and a fresh one elsewhere. -/
def requestIdOf (headers : Headers) (fresh : Text) : Text :=
  let given := (headers.getlist "x-request-id").head?.getD []
  if validRequestId given then given else fresh

/-- Attach request IDs and cache policy to every HTTP response start. -/
def responsePolicy (isException : Failure → Bool) (fresh : Text) (app : Application Failure) :
    Application Failure := fun scope =>
  if scope.http then
    let requestId := requestIdOf scope.headers fresh
    Program.relay started (stamp requestId)
      (fun begun failure =>
        if !isException failure || begun then throw failure
        else Program.relay (fun _ _ => ()) (stamp requestId) (fun _ => throw) ()
          internalError.send)
      false (app { scope with requestId := some requestId })
  else app scope

section Headers
variable {name : String} {value : Text}

/-- A header that was set has one value, and the others have theirs. -/
theorem getlist_set (headers : Headers) (other : String) :
    Headers.getlist (headers.set name value) other =
      if other = name then [value] else headers.getlist other := by
  induction headers with
  | nil =>
      by_cases hOther : other = name
      · simp [Headers.set, Headers.getlist, hOther]
      · simp [Headers.set, Headers.getlist, hOther, Ne.symm hOther]
  | cons header rest ih =>
      by_cases hHeader : header.1 = name
      · by_cases hOther : other = name
        · simp [Headers.set, Headers.getlist, hHeader, hOther, List.filter_filter]
        · have hFilter : (rest.filter (·.1 ≠ name)).filter (·.1 = other) =
              rest.filter (·.1 = other) := by
            rw [List.filter_filter]
            apply List.filter_congr
            intro entry _
            by_cases hEntry : entry.1 = other
            · simp [hEntry, hOther]
            · simp [hEntry]
          simp only [Headers.set, Headers.getlist, if_pos hHeader, if_neg hOther]
          rw [List.filter_cons_of_neg (by simpa using Ne.symm hOther), hFilter,
            List.filter_cons_of_neg (by simpa [hHeader] using Ne.symm hOther)]
      · simp only [Headers.set, if_neg hHeader]
        by_cases hEntry : header.1 = other
        · have hOther : other ≠ name := hEntry ▸ hHeader
          rw [if_neg hOther] at ih ⊢
          simpa [Headers.getlist, hEntry] using ih
        · simpa [Headers.getlist, hEntry] using ih

end Headers

/-- What every response start tells, whatever the response. -/
def Policed (requestId : Text) (message : Message) : Prop :=
  ∀ status headers, message = .start status headers →
    headers.getlist "x-request-id" = [requestId] ∧
      headers.getlist "cache-control" = [text "no-store"] ∧
      headers.getlist "x-content-type-options" = [text "nosniff"]

/-- What is sent in place of a response that has not started. -/
def internalErrorMessages (requestId : Text) : List Message :=
  [stamp requestId (.start internalError.status internalError.headers), .body internalError.body]

section Policies
variable {isException : Failure → Bool} {fresh requestId : Text} {app : Application Failure}
  {scope : Scope} {made : List (Sent Failure)} {outcome : Except Failure Unit}

theorem requestIdOf_valid {headers : Headers} (hFresh : validRequestId fresh = true) :
    validRequestId (requestIdOf headers fresh) = true := by
  simp only [requestIdOf]
  split
  · assumption
  · exact hFresh

theorem stamp_policed (message : Message) : Policed requestId (stamp requestId message) := by
  intro status headers hStart
  cases message with
  | start before given =>
      cases hStart
      simp [getlist_set]
  | body data => cases hStart
  | other kind => cases hStart

theorem passedOn_policed {inner : List (Sent Failure)} :
    ∀ exchange ∈ inner.map (passedOn (stamp requestId)), Policed requestId exchange.1 := by
  intro exchange hMember
  obtain ⟨sent, -, rfl⟩ := List.mem_map.mp hMember
  exact stamp_policed sent.1

theorem foldl_started (messages : List Message) (begun : Bool) :
    messages.foldl started begun = (begun || messages.any Message.starts) := by
  induction messages generalizing begun with
  | nil => simp
  | cons message rest ih => rw [List.foldl_cons, ih, List.any_cons, started, Bool.or_assoc]

/-- Whether a response has started among what was sent. -/
def Begun (made : List (Sent Failure)) : Prop := (made.map Sigma.fst).any Message.starts = true

/-- A response is sent in its order, and as far as sending goes well. -/
theorem performs_send {response : Response} (h : response.send.Performs made outcome) :
    ∃ rest, made.map Sigma.fst = .start response.status response.headers :: rest ∧
      rest <+: [.body response.body] ∧ (outcome = .ok () → rest = [.body response.body]) := by
  obtain ⟨answer, rest, rfl, hRest⟩ := Program.performs_call.mp h
  cases answer with
  | error failure =>
      obtain ⟨rfl, rfl⟩ := Program.performs_done.mp hRest
      exact ⟨[], rfl, by simp, fun hOutcome => by cases hOutcome⟩
  | ok _ =>
      obtain ⟨answer, rest, rfl, hBody⟩ := Program.performs_call.mp hRest
      obtain ⟨rfl, rfl⟩ := Program.performs_done.mp hBody
      exact ⟨_, rfl, List.prefix_rfl, fun _ => rfl⟩

/-- A failure is replaced exactly where it is an exception and no response has started. -/
theorem performs_replaced {change : Message → Message} {program replacement : Sending Failure}
    (h : (Program.relay started change
      (fun begun failure => if !isException failure || begun then throw failure else replacement)
      false program).Performs made outcome) :
    ∃ inner result, program.Performs inner result ∧
      ((made = inner.map (passedOn change) ∧ outcome = result ∧
          ∀ failure, result = .error failure → isException failure = true → Begun inner) ∨
        ∃ failure told, result = .error failure ∧ isException failure = true ∧ ¬ Begun inner ∧
          made = inner.map (passedOn change) ++ told ∧ replacement.Performs told outcome) := by
  obtain ⟨inner, ⟨result, hInner, rfl, rfl⟩ | ⟨failure, handled, hInner, hHandled, rfl⟩⟩ :=
    Program.performs_relay h
  · exact ⟨inner, .ok result, hInner, Or.inl ⟨rfl, rfl, fun _ hError => by cases hError⟩⟩
  · refine ⟨inner, .error failure, hInner, ?_⟩
    rw [foldl_started, Bool.false_or] at hHandled
    by_cases hReplaced : isException failure = true ∧ ¬ Begun inner
    · rw [if_neg (by simpa [hReplaced.1, Begun] using hReplaced.2)] at hHandled
      exact Or.inr ⟨failure, handled, rfl, hReplaced.1, hReplaced.2, rfl, hHandled⟩
    · have hBegun : isException failure = true → Begun inner :=
        fun hException => not_not.mp fun hNot => hReplaced ⟨hException, hNot⟩
      have hRaised : (!isException failure || (inner.map Sigma.fst).any Message.starts) = true := by
        cases hException : isException failure with
        | false => rfl
        | true => exact hBegun hException
      rw [if_pos hRaised] at hHandled
      obtain ⟨rfl, rfl⟩ := Program.performs_done.mp hHandled
      refine Or.inl ⟨by rw [List.append_nil], rfl, fun other hOther hException => ?_⟩
      cases hOther
      exact hBegun hException

theorem performs_errorPolicy (h : (errorPolicy isException app scope).Performs made outcome)
    (hHttp : scope.http = true) :
    ∃ inner result, (app scope).Performs inner result ∧
      ((made = inner ∧ outcome = result ∧
          ∀ failure, result = .error failure → isException failure = true → Begun inner) ∨
        ∃ failure told, result = .error failure ∧ isException failure = true ∧ ¬ Begun inner ∧
          made = inner ++ told ∧ internalError.send.Performs told outcome) := by
  simp only [errorPolicy, hHttp, Bool.not_true, Bool.or_false] at h
  have hPassed : passedOn id = (id : Sent Failure → Sent Failure) := rfl
  simpa only [hPassed, List.map_id] using performs_replaced h

theorem performs_responsePolicy (hHttp : scope.http = true)
    (h : (responsePolicy isException fresh app scope).Performs made outcome) :
    let requestId := requestIdOf scope.headers fresh
    ∃ inner result, (app { scope with requestId := some requestId }).Performs inner result ∧
      ((made = inner.map (passedOn (stamp requestId)) ∧ outcome = result ∧
          ∀ failure, result = .error failure → isException failure = true → Begun inner) ∨
        ∃ failure told, result = .error failure ∧ isException failure = true ∧ ¬ Begun inner ∧
          made = (inner ++ told).map (passedOn (stamp requestId)) ∧
          internalError.send.Performs told outcome) := by
  intro requestId
  simp only [responsePolicy, if_pos hHttp] at h
  obtain ⟨inner, result, hInner, hPassed | ⟨failure, told, hResult, hException, hBegun, rfl, hTold⟩⟩ :=
    performs_replaced h
  · exact ⟨inner, result, hInner, Or.inl hPassed⟩
  · obtain ⟨sent, hSent, rfl⟩ := Program.performs_passed hTold
    exact ⟨inner, result, hInner,
      Or.inr ⟨failure, sent, hResult, hException, hBegun, by rw [List.map_append], hSent⟩⟩

/-- Whatever the application does, every response start of the policy is stamped. -/
theorem responsePolicy_policed (hHttp : scope.http = true)
    (h : (responsePolicy isException fresh app scope).Performs made outcome) :
    ∀ exchange ∈ made, Policed (requestIdOf scope.headers fresh) exchange.1 := by
  obtain ⟨inner, result, -, ⟨rfl, -⟩ | ⟨failure, told, -, -, -, rfl, -⟩⟩ :=
    performs_responsePolicy hHttp h
  · exact passedOn_policed
  · exact passedOn_policed

/-- Both policies around an application, for every run of theirs. Each response start carries
one valid request ID, which is the application's too, and the cache policy. What the
application sends is passed on, and its failure is raised, unless it is an exception before
any response start: then exactly the constant error follows, as far as sending goes well,
whatever the exception was. -/
theorem response_policed (hFresh : validRequestId fresh = true) (hHttp : scope.http = true)
    (h : (responsePolicy isException fresh (errorPolicy isException app) scope).Performs
      made outcome) :
    ∃ requestId inner result, validRequestId requestId = true ∧
      (∀ exchange ∈ made, Policed requestId exchange.1) ∧
      (app { scope with requestId := some requestId }).Performs inner result ∧
      ((made = inner.map (passedOn (stamp requestId)) ∧ outcome = result ∧
          ∀ failure, result = .error failure → isException failure = true → Begun inner) ∨
        ∃ failure told, result = .error failure ∧ isException failure = true ∧ ¬ Begun inner ∧
          made = inner.map (passedOn (stamp requestId)) ++ told ∧
          told ≠ [] ∧ told.map Sigma.fst <+: internalErrorMessages requestId ∧
          (outcome = .ok () → told.map Sigma.fst = internalErrorMessages requestId)) := by
  have hPoliced := responsePolicy_policed hHttp h
  have hValid : validRequestId (requestIdOf scope.headers fresh) = true :=
    requestIdOf_valid hFresh
  obtain ⟨outer, middle, hOuter, hPassed⟩ := performs_responsePolicy hHttp h
  obtain ⟨inner, result, hInner, hErrors⟩ := performs_errorPolicy hOuter hHttp
  refine ⟨requestIdOf scope.headers fresh, inner, result, hValid, hPoliced, hInner, ?_⟩
  rcases hErrors with ⟨rfl, rfl, hBegun⟩ |
    ⟨failure, told, hResult, hException, hBegun, rfl, hTold⟩
  · rcases hPassed with hPassed | ⟨failure, -, hResult, hException, hNot, -⟩
    · exact Or.inl hPassed
    · exact absurd (hBegun failure hResult hException) hNot
  · obtain ⟨rest, hStart, hRest, hWhole⟩ := performs_send hTold
    rcases hPassed with ⟨rfl, rfl, -⟩ | ⟨_, -, -, -, hNot, -⟩
    · refine Or.inr ⟨failure, told.map (passedOn (stamp _)), hResult, hException, hBegun,
        by rw [List.map_append], ?_, ?_, ?_⟩
      · intro hNone
        rw [List.map_eq_nil_iff.mp hNone] at hStart
        cases hStart
      · rw [map_passedOn_fst, hStart, internalErrorMessages]
        exact List.cons_prefix_cons.mpr ⟨rfl, hRest.map (stamp _)⟩
      · intro hOutcome
        rw [map_passedOn_fst, hStart, hWhole hOutcome]
        rfl
    · have hTold : Begun (inner ++ told) := by
        simp [Begun, List.map_append, hStart, Message.starts]
      exact absurd hTold hNot

end Policies

/-- An application that fails at once, and what is sent for it. -/
def failing : Application Unit := fun _ => .done (.error ())

def failingSent : List (Sent Unit) :=
  (internalErrorMessages (text "0")).map fun message => ⟨message, .ok ()⟩

theorem response_policed_failing :
    ∃ requestId told, validRequestId requestId = true ∧
      (∀ exchange ∈ failingSent, Policed requestId exchange.1) ∧ told ≠ [] ∧
      failingSent = told ∧ told.map Sigma.fst = internalErrorMessages requestId := by
  have hRun : (responsePolicy (fun _ => true) (text "0") (errorPolicy (fun _ => true) failing)
      ⟨true, [], none⟩).Performs failingSent (.ok ()) := by
    change Program.Performs (.call _ _) [_, _] _
    apply Program.Performs.call
    change Program.Performs (.call _ _) [_] _
    apply Program.Performs.call
    apply Program.Performs.done
  obtain ⟨requestId, inner, result, hValid, hPoliced, hInner, hSent⟩ :=
    response_policed (by decide) rfl hRun
  obtain ⟨rfl, rfl⟩ := Program.performs_done.mp hInner
  rcases hSent with ⟨-, hOutcome, -⟩ | ⟨_, told, -, -, -, hMade, hTold, -, hWhole⟩
  · cases hOutcome
  · exact ⟨requestId, told, hValid, hPoliced, hTold, hMade, hWhole rfl⟩

end DocInsight.Gateway
