import DocInsight.Gateway.Auth
import DocInsight.Gateway.Http
import DocInsight.Gateway.RateLimit
import DocInsight.Library.Interaction
import Mathlib.Data.List.Infix

/-! Forwarding a request whose caller is known: verified identity headers, a bounded body,
and errors that say nothing of the upstream. -/
namespace DocInsight.Gateway

open DocInsight.Python Interaction

/-- A request as the framework hands it over; its stream is read once. -/
structure Request where
  method : String
  headers : Headers
  requestId : Text
  traceparent : Option Text := none
  stream : ChunkStream
  deriving DecidableEq, Repr

/-- `headers.getlist(name)`. -/
def Headers.getlist (headers : Headers) (name : String) : List Text :=
  (headers.filter (·.1 = name)).map Prod.snd

/-- `int` refuses longer runs of digits. -/
def maxStrDigits : Nat := 4300

def isDigit (character : CodePoint) : Bool := 48 ≤ character.val && character.val ≤ 57

/-- `int(value)` of ASCII digits. -/
def number (value : Text) : Nat :=
  value.foldl (fun total character => 10 * total + (character.val - 48)) 0

/-- Reject ambiguous or oversized declared lengths before reading the body. -/
def checkLength (request : Request) (limit : Nat) : Except GatewayError Unit :=
  match request.headers.getlist "content-length" with
  | [] => .ok ()
  | [length] =>
      if length.isEmpty || !length.all isDigit then
        .error (.raised (.value "Invalid content length"))
      else if maxStrDigits < length.length then
        .error (.raised (.value "Exceeds the limit for integer string conversion"))
      else if limit < number length then .error .uploadTooLarge
      else .ok ()
  | _ => .error (.raised (.value "Invalid content length"))

/-- Copy the carrier, replacing stale context without propagating baggage. -/
def inject (traceparent : Option Text) (headers : Headers) : Headers :=
  (headers.filter fun header => !(["traceparent", "tracestate", "baggage"].contains header.1)) ++
    (traceparent.toList.map fun value => ("traceparent", value))

/-- Of the caller's headers, these pass. -/
def allowedHeaders (request : Request) : Headers :=
  ["content-type", "accept"].filterMap fun name =>
    (request.headers.getlist name).head?.map fun value => (name, value)

/-- Allowlist request headers and replace identity with verified JWT claims. -/
def forwardedHeaders (request : Request) (identity : Identity) : Headers :=
  inject request.traceparent (allowedHeaders request ++
    [("x-tenant-id", text identity.tenant), ("x-user-id", text identity.user),
      ("x-request-id", request.requestId), ("accept-encoding", text "identity")])

/-- The gateway's settings, as far as requests meet them. -/
structure Settings where
  jwks : JwksSettings
  jwtIssuer : Text
  jwtAudience : Text
  jwtLeewaySeconds : ℚ := 30
  rateLimitFailOpen : Bool := false
  maxUploadBytes : Nat := 50 * 1024 * 1024
  upstreamTimeoutSeconds : ℚ := 30
  tenants : Text := []

/-- What a request awaits. -/
inductive GatewayCall where
  | key (kid : Text)
  | time
  | consume (identity : Identity)
  | exchange (request : UpstreamRequest)

abbrev GatewayCall.Response (Key : Type) : GatewayCall → Type
  | key _ => Key
  | time => ℚ
  | consume _ => RateDecision
  | exchange _ => UpstreamReply

/-- The work of one request. -/
abbrev Handling (Key Result : Type) : Type :=
  Program GatewayCall (GatewayCall.Response Key) GatewayError Result

/-- What a computation without calls comes to. -/
def Handling.lift {Key Result : Type} : Except GatewayError Result → Handling Key Result :=
  Program.done

/-- Transport failures become safe errors; anything else is left to the outer policy. -/
def forwardFailure : GatewayError → Except GatewayError Response
  | .uploadTooLarge => .ok (error 413 "payload_too_large" "request body too large")
  | .raised (.value _) | .clientDisconnect =>
      .ok (error 400 "invalid_request" "invalid request body")
  | .httpTimeout | .timeout => .ok (error 504 "upstream_timeout" "upstream timed out")
  | .http => .ok (error 502 "bad_gateway" "upstream request failed")
  | other => .error other

/-- What a forwarded request asks of its upstream. -/
def upstreamRequest (settings : Settings) (request : Request) (path : String) (ingest : Bool)
    (identity : Identity) : UpstreamRequest where
  ingest := ingest
  method := request.method
  path := path
  headers := forwardedHeaders request identity
  body := limitedBody request.stream settings.maxUploadBytes
  timeout := settings.upstreamTimeoutSeconds * (if ingest then 4 else 1)

/-- Stream a bounded request and translate transport failures to safe errors. -/
def forward {Key : Type} (library : JsonLibrary) (settings : Settings) (request : Request)
    (path : String) (ingest : Bool) (identity : Identity) : Handling Key Response :=
  tryCatch
    (do Handling.lift (checkLength request settings.maxUploadBytes)
        let reply ← Program.perform (.exchange (upstreamRequest settings request path ingest identity))
        Handling.lift ((upstreamResponse library reply).mapError .raised))
    fun failure => Handling.lift (forwardFailure failure)

/-- How a request is answered once its upstream is. -/
def answered (library : JsonLibrary) (answer : Except GatewayError UpstreamReply) :
    Except GatewayError Response :=
  tryCatch (answer >>= fun reply => (upstreamResponse library reply).mapError .raised)
    forwardFailure

section Forward
variable {Key : Type} (library : JsonLibrary) (settings : Settings) (request : Request)
  (path : String) (ingest : Bool) (identity : Identity)

/-- Forwarding is one exchange, unless the declared length is refused. -/
theorem forward_eq : (forward library settings request path ingest identity : Handling Key Response) =
    match checkLength request settings.maxUploadBytes with
    | .error failure => .done (forwardFailure failure)
    | .ok _ => .call (.exchange (upstreamRequest settings request path ingest identity)) fun answer =>
        .done (answered library answer) := by
  unfold forward
  cases checkLength request settings.maxUploadBytes with
  | error failure => rfl
  | ok _ =>
      show Program.call _ _ = Program.call _ _
      congr 1
      funext answer
      cases answer with
      | error failure => rfl
      | ok reply =>
          show Program.andThen (Handling.lift ((upstreamResponse library reply).mapError .raised)) _ =
            Program.done (tryCatch ((upstreamResponse library reply).mapError .raised) _)
          cases (upstreamResponse library reply).mapError GatewayError.raised with
          | error failure => rfl
          | ok response => rfl

end Forward

/-- One exchange over a transport, and the chunks that are sent in it. Nothing else is
awaited while a request is forwarded. -/
def HttpUpstream.answer {Key : Type} (upstream : HttpUpstream) (transport : Transport)
    (sent : List Bytes) :
    (call : GatewayCall) → Except GatewayError (call.Response Key) × List Bytes
  | .exchange request =>
      ((upstream.exchange request transport).1, sent ++ (upstream.exchange request transport).2)
  | .key _ => (.error .invalidToken, sent)
  | .time => (.error .overflow, sent)
  | .consume _ => (.error .backendUnavailable, sent)

/-- What a client is answered over a transport, and what was sent to the upstream. -/
def HttpUpstream.forwarded (upstream : HttpUpstream) (transport : Transport)
    (library : JsonLibrary) (settings : Settings) (request : Request) (path : String)
    (ingest : Bool) (identity : Identity) : Except GatewayError Response × List Bytes :=
  (forward library settings request path ingest identity : Handling Unit Response).interpret
    (upstream.answer transport) []

namespace Transport
variable {transport : Transport} {limit : Nat} {stream : ChunkStream}

theorem send_leading (body : ChunkStream) : (transport.send body).2 <+: body.chunks := by
  have hTaken := List.take_prefix transport.asked body.chunks
  unfold send
  cases body.raises with
  | none => exact hTaken
  | some failure =>
      simp only
      split_ifs <;> exact hTaken

/-- A body over the limit that is asked for as often as it has chunks ends the exchange. -/
theorem send_over (hOver : limit < stream.bytes.length)
    (hAsked : stream.chunks.length ≤ transport.asked) :
    (transport.send (limitedBody stream limit)).1 = .error .uploadTooLarge := by
  obtain ⟨hRaises, hShort⟩ := limited_of_lt stream.raises (Nat.zero_le limit)
    (by rw [Nat.zero_add]; exact hOver)
  unfold send limitedBody
  rw [hRaises]
  simp only
  rw [if_pos (hShort.trans_le hAsked)]

/-- A body within the limit is sent as it is. -/
theorem send_within (hWithin : stream.bytes.length ≤ limit) :
    transport.send (limitedBody stream limit) = transport.send stream := by
  rw [limitedBody, limited_of_le _ (by rw [Nat.zero_add]; exact hWithin)]

/-- What is asked for to its end is sent whole, or ends the exchange. -/
theorem send_whole (hAsked : stream.chunks.length < transport.asked) :
    transport.send stream = (match stream.raises with
      | some failure => .error failure
      | none => transport.response, stream.chunks) := by
  have hTake : stream.chunks.take transport.asked = stream.chunks :=
    List.take_of_length_le hAsked.le
  unfold send
  cases stream.raises with
  | none => simp only [hTake]
  | some failure => simp only [hTake, if_pos hAsked]

theorem send_response {body : ChunkStream} {head : HttpResponse}
    (h : (transport.send body).1 = .ok head) : transport.response = .ok head := by
  unfold send at h
  cases hRaises : body.raises with
  | none =>
      rw [hRaises] at h
      exact h
  | some failure =>
      rw [hRaises] at h
      simp only at h
      split_ifs at h
      exact h

/-- What is sent of a body is its beginning, within the limit. -/
theorem send_limited : (transport.send (limitedBody stream limit)).2.flatten <+: stream.bytes ∧
    (transport.send (limitedBody stream limit)).2.flatten.length ≤ limit := by
  have hSent : (transport.send (limitedBody stream limit)).2.flatten <+:
      (limitedBody stream limit).chunks.flatten := (transport.send_leading _).flatten
  have hLimit := limited_length_le stream.raises (Nat.zero_le limit) stream.chunks
  refine ⟨hSent.trans (limited_leading stream.raises 0 stream.chunks).flatten, hSent.length_le.trans ?_⟩
  rwa [Nat.zero_add] at hLimit

/-- An exchange that came to a response after the body was read to its end sent it whole. -/
theorem send_complete {head : HttpResponse}
    (h : (transport.send (limitedBody stream limit)).1 = .ok head)
    (hAsked : stream.chunks.length < transport.asked) :
    (transport.send (limitedBody stream limit)).2 = stream.chunks ∧ stream.raises = none := by
  have hWithin : stream.bytes.length ≤ limit := by
    by_contra hOver
    rw [send_over (Nat.lt_of_not_le hOver) hAsked.le] at h
    cases h
  rw [send_within hWithin, send_whole hAsked] at h ⊢
  refine ⟨rfl, ?_⟩
  cases hRaises : stream.raises with
  | none => rfl
  | some failure =>
      rw [hRaises] at h
      cases h

/-- Where a body is read to its end, what comes of it does not depend on its cuts. -/
theorem send_cut {cut : ChunkStream} {other : Transport} (hBytes : cut.bytes = stream.bytes)
    (hRaises : cut.raises = stream.raises) (hResponse : other.response = transport.response)
    (hAsked : stream.chunks.length < transport.asked) (hOther : cut.chunks.length < other.asked) :
    (other.send (limitedBody cut limit)).1 = (transport.send (limitedBody stream limit)).1 := by
  by_cases hWithin : stream.bytes.length ≤ limit
  · rw [send_within hWithin, send_within (hBytes ▸ hWithin), send_whole hAsked, send_whole hOther,
      hRaises, hResponse]
  · have hOver : limit < stream.bytes.length := Nat.lt_of_not_le hWithin
    rw [send_over hOver hAsked.le, send_over (hBytes ▸ hOver) hOther.le]

end Transport

namespace HttpUpstream
variable (upstream : HttpUpstream) (transport : Transport) (library : JsonLibrary)
  (settings : Settings) (request : Request) (path : String) (ingest : Bool) (identity : Identity)

theorem forwarded_eq : upstream.forwarded transport library settings request path ingest identity =
    match checkLength request settings.maxUploadBytes with
    | .error failure => (forwardFailure failure, [])
    | .ok _ =>
        let sent := transport.send (limitedBody request.stream settings.maxUploadBytes)
        (answered library (sent.1 >>= upstream.receive), sent.2) := by
  rw [forwarded, forward_eq]
  cases checkLength request settings.maxUploadBytes with
  | error failure => rfl
  | ok _ =>
      simp only [Program.interpret, answer, exchange, upstreamRequest, List.nil_append]
      rcases transport.send (limitedBody request.stream settings.maxUploadBytes) with ⟨sent, chunks⟩
      cases sent with
      | error failure => rfl
      | ok response => rfl

/-- A success is a response of the upstream's, read whole. -/
theorem receive_success {response : HttpResponse} {reply : UpstreamReply}
    (h : upstream.receive response = .ok reply) (hStatus : reply.status < 300) :
    reply.status = response.status ∧ reply.body = response.body.bytes ∧
      (200 ≤ reply.status → reply.body.length ≤ upstream.maxResponseBytes) := by
  unfold receive at h
  split at h
  · rename_i data hRead
    cases h
    refine ⟨rfl, (boundedRead_eq hRead).1, fun hLow => ?_⟩
    have hBound := boundedRead_length_le (Nat.zero_le _) hRead
    rwa [limit, if_pos ⟨hLow, hStatus⟩] at hBound
  · cases h
    exact absurd hStatus (by decide)
  · cases h

end HttpUpstream

theorem status_forwardFailure {failure : GatewayError} {response : Response}
    (h : forwardFailure failure = .ok response) : 400 ≤ response.status := by
  cases failure with
  | raised raised =>
      cases raised with
      | value message =>
          cases h
          decide
      | _ => cases h
  | _ =>
      cases h
      try decide

section Answered
variable {library : JsonLibrary} {reply : UpstreamReply} {response : Response}

theorem answered_reply (h : upstreamResponse library reply = .ok response) :
    answered library (.ok reply) = .ok response := by
  show tryCatch ((upstreamResponse library reply).mapError .raised) forwardFailure = _
  rw [h]
  rfl

theorem answered_raised {raised : Raised} (h : upstreamResponse library reply = .error raised) :
    answered library (.ok reply) = forwardFailure (.raised raised) := by
  show tryCatch ((upstreamResponse library reply).mapError .raised) forwardFailure = _
  rw [h]
  rfl

/-- An answer is made of a reply, or of what went wrong. -/
theorem answered_cases {answer : Except GatewayError UpstreamReply}
    (h : answered library answer = .ok response) :
    (∃ reply, answer = .ok reply ∧ upstreamResponse library reply = .ok response) ∨
    ∃ failure, forwardFailure failure = .ok response := by
  cases answer with
  | error failure => exact Or.inr ⟨failure, h⟩
  | ok reply =>
      cases hResponse : upstreamResponse library reply with
      | error raised => exact Or.inr ⟨.raised raised, (answered_raised hResponse) ▸ h⟩
      | ok passed =>
          rw [answered_reply hResponse] at h
          cases h
          exact Or.inl ⟨reply, rfl, hResponse⟩

/-- What is answered below 300 is an upstream's success as it came. -/
theorem answered_success {answer : Except GatewayError UpstreamReply}
    (h : answered library answer = .ok response) (hStatus : response.status < 300) :
    ∃ reply, answer = .ok reply ∧ 200 ≤ reply.status ∧ reply.status < 300 ∧
      response.status = reply.status ∧ response.body = reply.body := by
  rcases answered_cases h with ⟨reply, rfl, hResponse⟩ | ⟨failure, hFailure⟩
  · obtain ⟨hLow, hHigh, rfl⟩ := upstreamResponse_success hResponse hStatus
    exact ⟨reply, rfl, hLow, hHigh, rfl, rfl⟩
  · have hLow := status_forwardFailure hFailure
    omega

end Answered

/-- What an upstream's success tells a client, and of which body. -/
theorem forwarded_success {upstream : HttpUpstream} {transport : Transport}
    {library : JsonLibrary} {stream : ChunkStream} {limit : Nat} {response : Response}
    (h : answered library ((transport.send (limitedBody stream limit)).1 >>= upstream.receive) =
      .ok response) (hStatus : response.status < 300) :
    (∃ head, transport.response = .ok head ∧ response.status = head.status ∧
      response.body = head.body.bytes ∧ response.body.length ≤ upstream.maxResponseBytes) ∧
    (stream.chunks.length < transport.asked →
      (transport.send (limitedBody stream limit)).2.flatten = stream.bytes ∧
        stream.raises = none) := by
  obtain ⟨reply, hReply, hLow, hHigh, hSame, hBody⟩ := answered_success h hStatus
  obtain ⟨head, hHead, hReceive⟩ := Raising.bind_eq_ok.mp hReply
  obtain ⟨hReplied, hRead, hBound⟩ := upstream.receive_success hReceive hHigh
  refine ⟨⟨head, Transport.send_response hHead, hSame.trans hReplied, hBody.trans hRead,
    hBody ▸ hBound hLow⟩, fun hAsked => ?_⟩
  obtain ⟨hSent, hRaises⟩ := Transport.send_complete hHead hAsked
  exact ⟨by rw [hSent, ChunkStream.bytes], hRaises⟩

/-- Over every transport and however the body is cut: an upstream is sent the beginning of
the body and never more than the limit, and a success is the upstream's own, within its
limit, of a body that was sent whole where it was read to its end. A body over the limit
that is read on is refused, and the answer does not depend on the cuts. -/
theorem forwarded_streams (upstream : HttpUpstream) (transport : Transport)
    (library : JsonLibrary) (settings : Settings) (request : Request) (path : String)
    (ingest : Bool) (identity : Identity) :
    let result := upstream.forwarded transport library settings request path ingest identity
    (result.2.flatten <+: request.stream.bytes ∧
      result.2.flatten.length ≤ settings.maxUploadBytes) ∧
    (∀ response, result.1 = .ok response → response.status < 300 →
      (∃ head, transport.response = .ok head ∧ response.status = head.status ∧
        response.body = head.body.bytes ∧ response.body.length ≤ upstream.maxResponseBytes) ∧
      (request.stream.chunks.length < transport.asked →
        result.2.flatten = request.stream.bytes ∧ request.stream.raises = none)) ∧
    (checkLength request settings.maxUploadBytes = .ok () →
      settings.maxUploadBytes < request.stream.bytes.length →
      request.stream.chunks.length ≤ transport.asked →
      result.1 = .ok (error 413 "payload_too_large" "request body too large")) ∧
    ∀ (cut : ChunkStream) (other : Transport), cut.bytes = request.stream.bytes →
      cut.raises = request.stream.raises → other.response = transport.response →
      request.stream.chunks.length < transport.asked → cut.chunks.length < other.asked →
      (upstream.forwarded other library settings { request with stream := cut } path ingest
        identity).1 = result.1 := by
  intro result
  have hResult : result = upstream.forwarded transport library settings request path ingest
      identity := rfl
  clear_value result
  rw [HttpUpstream.forwarded_eq] at hResult
  cases hLength : checkLength request settings.maxUploadBytes with
  | error failure =>
      rw [hLength] at hResult
      subst hResult
      refine ⟨⟨List.nil_prefix, Nat.zero_le _⟩, fun response hOk hStatus => ?_, fun h => ?_, ?_⟩
      · have hLow := status_forwardFailure hOk
        omega
      · cases h
      · intro cut other _ _ _ _ _
        have hSame : checkLength { request with stream := cut } settings.maxUploadBytes =
            .error failure := hLength
        rw [HttpUpstream.forwarded_eq, hSame]
  | ok _ =>
      rw [hLength] at hResult
      subst hResult
      refine ⟨Transport.send_limited, fun response => forwarded_success, fun _ hOver hAsked => ?_, ?_⟩
      · show answered library ((transport.send _).1 >>= upstream.receive) = _
        rw [Transport.send_over hOver hAsked]
        rfl
      · intro cut other hBytes hRaises hResponse hAsked hOther
        have hSame : checkLength { request with stream := cut } settings.maxUploadBytes =
            .ok () := hLength
        rw [HttpUpstream.forwarded_eq, hSame]
        show answered library ((other.send _).1 >>= upstream.receive) =
          answered library ((transport.send _).1 >>= upstream.receive)
        rw [Transport.send_cut hBytes hRaises hResponse hAsked hOther]

def upload (chunks : List Bytes) : Request where
  method := "POST"
  headers := []
  requestId := text "r"
  stream := ⟨chunks, none⟩

def accepting (asked : Nat) : Transport where
  asked := asked
  response := .ok ⟨202, some (text "application/json"), ⟨[[7], [8]], none⟩⟩

/-- A gateway that takes three bytes refuses four, and passes three on, in one cut or another. -/
theorem forwarded_streams_cut : ∃ (settings : Settings) (library : JsonLibrary),
    settings.maxUploadBytes = 3 ∧
    (HttpUpstream.forwarded {} (accepting 2) library settings (upload [[1, 2], [3, 4]]) "/ingest" true
      RateSession.alice).1 = .ok (error 413 "payload_too_large" "request body too large") ∧
    (HttpUpstream.forwarded {} (accepting 4) library settings (upload [[1], [2, 3], [4]]) "/ingest"
      true RateSession.alice).1 = .ok (error 413 "payload_too_large" "request body too large") ∧
    (HttpUpstream.forwarded {} (accepting 3) library settings (upload [[1, 2], [3]]) "/ingest" true
      RateSession.alice).1 = .ok ⟨202, [("content-type", text "application/json")], [7, 8]⟩ ∧
    (HttpUpstream.forwarded {} (accepting 2) library settings (upload [[1, 2, 3]]) "/ingest" true
      RateSession.alice).1 = .ok ⟨202, [("content-type", text "application/json")], [7, 8]⟩ := by
  let settings : Settings :=
    { jwks := ⟨300, 5, by norm_num, by norm_num, by norm_num⟩
      jwtIssuer := [], jwtAudience := [], maxUploadBytes := 3 }
  let library : JsonLibrary := ⟨fun _ => .error (.value "Expecting value"), fun _ => []⟩
  obtain ⟨-, -, hOver, -⟩ := forwarded_streams {} (accepting 2) library settings
    (upload [[1, 2], [3, 4]]) "/ingest" true RateSession.alice
  obtain ⟨-, -, hDrained, hOverCut⟩ := forwarded_streams {} (accepting 3) library settings
    (upload [[1, 2], [3, 4]]) "/ingest" true RateSession.alice
  obtain ⟨-, -, -, hCut⟩ := forwarded_streams {} (accepting 3) library settings
    (upload [[1, 2], [3]]) "/ingest" true RateSession.alice
  have hOther := hOverCut ⟨[[1], [2, 3], [4]], none⟩ (accepting 4) rfl rfl rfl (by decide) (by decide)
  have hWhole := hCut ⟨[[1, 2, 3]], none⟩ (accepting 2) rfl rfl rfl (by decide) (by decide)
  have hAccepted : (HttpUpstream.forwarded {} (accepting 3) library settings (upload [[1, 2], [3]])
      "/ingest" true RateSession.alice).1 =
        .ok ⟨202, [("content-type", text "application/json")], [7, 8]⟩ := by
    rw [HttpUpstream.forwarded_eq]
    rfl
  have hRefused := hDrained rfl (by decide) (by decide)
  exact ⟨settings, library, rfl, hOver rfl (by decide) (by decide), hOther.trans hRefused,
    hAccepted, hWhole.trans hAccepted⟩

end DocInsight.Gateway
