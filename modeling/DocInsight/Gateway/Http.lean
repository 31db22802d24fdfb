import DocInsight.Gateway.Responses

/-! The exchange with an upstream: a request body is streamed out chunk by chunk, and a
response is read up to a limit. What the transport does in between is supplied. -/
namespace DocInsight.Gateway

open DocInsight.Python

/-- An exception, as far as the gateway's handlers tell exceptions apart. -/
inductive GatewayError where
  | invalidToken
  | jwt
  | backendUnavailable
  | uploadTooLarge
  | clientDisconnect
  | httpTimeout
  | http
  | timeout
  | overflow
  | raised (raised : Raised)
  deriving DecidableEq, Repr

/-- What an iterator of chunks yields, and what it then raises where it does not end. -/
structure ChunkStream where
  chunks : List Bytes
  raises : Option GatewayError := none
  deriving DecidableEq, Repr

def ChunkStream.bytes (stream : ChunkStream) : Bytes := stream.chunks.flatten

/-- Enforce a limit on a stream from the bytes that have passed already. -/
def limited (limit : Nat) (raises : Option GatewayError) : Nat → List Bytes → ChunkStream
  | _, [] => ⟨[], raises⟩
  | total, chunk :: rest =>
      if limit < total + chunk.length then ⟨[], some .uploadTooLarge⟩
      else
        let later := limited limit raises (total + chunk.length) rest
        { later with chunks := chunk :: later.chunks }

/-- Enforce the byte limit even when `Content-Length` is absent or misleading. -/
def limitedBody (stream : ChunkStream) (limit : Nat) : ChunkStream :=
  limited limit stream.raises 0 stream.chunks

/-- Bound decoded response bytes, including compressed upstream responses. -/
def boundedRead (limit : Nat) (raises : Option GatewayError) : Bytes → List Bytes →
    Except GatewayError Bytes
  | result, [] =>
      match raises with
      | some error => .error error
      | none => .ok result
  | result, chunk :: rest =>
      if limit < result.length + chunk.length then .error (.raised (.value "Response too large"))
      else boundedRead limit raises (result ++ chunk) rest

/-- The head of a response, and its decoded body. -/
structure HttpResponse where
  status : Nat
  contentType : Option Text
  body : ChunkStream
  deriving DecidableEq, Repr

/-- What the client meets in one exchange: how often it asks the request body for a chunk
before a response arrives or the exchange fails, and with what. -/
structure Transport where
  asked : Nat
  response : Except GatewayError HttpResponse

/-- What is asked of an upstream. -/
structure UpstreamRequest where
  ingest : Bool
  method : String
  path : String
  headers : Headers
  body : ChunkStream
  timeout : ℚ
  deriving DecidableEq, Repr

/-- Send a request. A body that raises when it is asked for more ends the exchange. -/
def Transport.send (transport : Transport) (body : ChunkStream) :
    Except GatewayError HttpResponse × List Bytes :=
  let sent := body.chunks.take transport.asked
  match body.raises with
  | some error =>
      if body.chunks.length < transport.asked then (.error error, sent)
      else (transport.response, sent)
  | none => (transport.response, sent)

structure HttpUpstream where
  maxResponseBytes : Nat := 16 * 1024 * 1024

namespace HttpUpstream

def limit (upstream : HttpUpstream) (status : Nat) : Nat :=
  if 200 ≤ status ∧ status < 300 then upstream.maxResponseBytes else 64 * 1024

/-- Read a response; one that is too large counts as a failed one. -/
def receive (upstream : HttpUpstream) (response : HttpResponse) :
    Except GatewayError UpstreamReply :=
  match boundedRead (upstream.limit response.status) response.body.raises []
      response.body.chunks with
  | .ok data =>
      let contentType := match response.contentType with
        | some value => if value.isEmpty then text "application/json" else value
        | none => text "application/json"
      .ok { status := response.status, body := data, contentType }
  | .error (.raised (.value _)) => .ok { status := 502, body := [] }
  | .error error => .error error

/-- Stream uploads out, then buffer only a bounded upstream response. -/
def exchange (upstream : HttpUpstream) (request : UpstreamRequest) (transport : Transport) :
    Except GatewayError UpstreamReply × List Bytes :=
  match transport.send request.body with
  | (.ok response, sent) => (upstream.receive response, sent)
  | (.error error, sent) => (.error error, sent)

end HttpUpstream

section Limited
variable {limit : Nat} (raises : Option GatewayError)

theorem limited_leading (total : Nat) (chunks : List Bytes) :
    (limited limit raises total chunks).chunks <+: chunks := by
  induction chunks generalizing total with
  | nil => exact List.prefix_refl []
  | cons chunk rest ih =>
      unfold limited
      split_ifs
      · exact List.nil_prefix
      · exact (List.prefix_cons_inj chunk).mpr (ih (total + chunk.length))

theorem limited_length_le {total : Nat} (hTotal : total ≤ limit) (chunks : List Bytes) :
    total + (limited limit raises total chunks).chunks.flatten.length ≤ limit := by
  induction chunks generalizing total with
  | nil => simpa [limited] using hTotal
  | cons chunk rest ih =>
      unfold limited
      split_ifs with hOver
      · simpa using hTotal
      · have hRest := ih (Nat.le_of_not_lt hOver)
        simp only [List.flatten_cons, List.length_append]
        omega

/-- A body within the limit passes whole, and ends as it does. -/
theorem limited_of_le {total : Nat} {chunks : List Bytes}
    (h : total + chunks.flatten.length ≤ limit) :
    limited limit raises total chunks = ⟨chunks, raises⟩ := by
  induction chunks generalizing total with
  | nil => rfl
  | cons chunk rest ih =>
      rw [List.flatten_cons, List.length_append] at h
      rw [limited, if_neg (by omega), ih (by omega)]

/-- A body over the limit never ends well, however it is cut. -/
theorem limited_of_lt {total : Nat} {chunks : List Bytes} (hTotal : total ≤ limit)
    (h : limit < total + chunks.flatten.length) :
    (limited limit raises total chunks).raises = some .uploadTooLarge ∧
      (limited limit raises total chunks).chunks.length < chunks.length := by
  induction chunks generalizing total with
  | nil =>
      simp only [List.flatten_nil, List.length_nil, Nat.add_zero] at h
      omega
  | cons chunk rest ih =>
      rw [List.flatten_cons, List.length_append] at h
      unfold limited
      split_ifs with hOver
      · exact ⟨rfl, Nat.succ_pos _⟩
      · obtain ⟨hRaises, hShort⟩ := ih (Nat.le_of_not_lt hOver) (by omega)
        exact ⟨hRaises, Nat.succ_lt_succ hShort⟩

end Limited

theorem boundedRead_length_le {limit : Nat} {raises : Option GatewayError} {result data : Bytes}
    {chunks : List Bytes} (hResult : result.length ≤ limit)
    (h : boundedRead limit raises result chunks = .ok data) : data.length ≤ limit := by
  induction chunks generalizing result with
  | nil =>
      cases raises with
      | none =>
          cases h
          exact hResult
      | some error => cases h
  | cons chunk rest ih =>
      unfold boundedRead at h
      split_ifs at h with hOver
      refine ih ?_ h
      rw [List.length_append]
      omega

/-- What is read whole is every byte, in order. -/
theorem boundedRead_eq {limit : Nat} {raises : Option GatewayError} {result data : Bytes}
    {chunks : List Bytes} (h : boundedRead limit raises result chunks = .ok data) :
    data = result ++ chunks.flatten ∧ raises = none := by
  induction chunks generalizing result with
  | nil =>
      cases raises with
      | none =>
          cases h
          simp
      | some error => cases h
  | cons chunk rest ih =>
      unfold boundedRead at h
      split_ifs at h
      obtain ⟨hData, hRaises⟩ := ih h
      exact ⟨by rw [hData, List.flatten_cons, List.append_assoc], hRaises⟩

end DocInsight.Gateway
