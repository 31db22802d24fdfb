import DocInsight.Gateway.Forwarding

/-! What becomes of an answer of the services behind the gateway on its way to a client. -/
namespace DocInsight.Gateway

open DocInsight.Python

/-- The answers of the services: a success, or an error whose code and message a client may
be told. -/
inductive Served : Response → Prop where
  | success {status : Nat} {body : Bytes} (low : 200 ≤ status) (high : status < 300) :
      Served ⟨status, [("content-type", text "application/json")], body⟩
  | error {status : Nat} {code message : String} (low : 400 ≤ status)
      (code_valid : validCode (text code) = true) (message_le : (text message).length ≤ 1024) :
      Served (error status code message)

/-- What a client is told of an answer: all of it, unless a service has failed. -/
def relayed (response : Response) : Response :=
  if response.status < 500 then response else upstreamFailure response.status

section Size

/-- A character takes one escape of six bytes at most. -/
theorem byteCount_jsonEscape_le (character : CodePoint) : byteCount (jsonEscape character) ≤ 6 := by
  have hWidth : utf8Width character ≤ 4 := by
    unfold utf8Width
    split_ifs <;> omega
  have hDigit : ∀ digit < 16, utf8Width (hexDigit digit) ≤ 1 := by decide
  unfold jsonEscape
  split
  case h_8 =>
    split_ifs with hControl
    · have hFirst := hDigit (character.val / 16) (by omega)
      have hSecond := hDigit (character.val % 16) (by omega)
      have hEscape : byteCount (text "\\u00") = 4 := by decide
      simp only [byteCount_append, byteCount_cons, byteCount_nil, hEscape]
      omega
    · simp only [byteCount_cons, byteCount_nil]
      omega
  all_goals decide

theorem byteCount_jsonString_le (value : Text) :
    byteCount (jsonString value) ≤ 6 * value.length + 2 := by
  have hQuote : byteCount (text "\"") = 1 := by decide
  have hEscaped : byteCount (value.flatMap jsonEscape) ≤ 6 * value.length := by
    induction value with
    | nil => exact Nat.le_refl _
    | cons character rest ih =>
        have hFirst := byteCount_jsonEscape_le character
        rw [List.flatMap_cons, byteCount_append, List.length_cons]
        omega
  rw [jsonString, byteCount_append, byteCount_append, hQuote]
  omega

theorem length_utf8Bytes (value : Text) : (value.flatMap utf8Bytes).length = byteCount value := by
  induction value with
  | nil => rfl
  | cons character rest ih =>
      rw [List.flatMap_cons, List.length_append, ih, byteCount_cons]
      congr 1
      simp only [utf8Bytes, utf8Width]
      split_ifs <;> rfl

/-- An error that a client may be told is small. -/
theorem length_error_le (status : Nat) {code message : String}
    (hCode : (text code).length ≤ 64) (hMessage : (text message).length ≤ 1024) :
    (error status code message).body.length ≤ 64 * 1024 := by
  have hCodeBytes := byteCount_jsonString_le (text code)
  have hMessageBytes := byteCount_jsonString_le (text message)
  have hNames : byteCount (jsonString (text "error")) = 7 ∧
      byteCount (jsonString (text "code")) = 6 ∧ byteCount (jsonString (text "message")) = 9 := by
    decide
  have hFormat (float : Option ℚ → Text) : byteCount (JsonFormat.compact float).item = 1 ∧
      byteCount (JsonFormat.compact float).key = 1 :=
    ⟨(by decide : byteCount (text ",") = 1), (by decide : byteCount (text ":") = 1)⟩
  rw [error, length_utf8Bytes, errorContent, byteCount_dumps_dict]
  simp only [List.map_cons, List.map_nil, List.sum_cons, List.sum_nil, List.length_cons,
    List.length_nil, byteCount_dumps_dict, Json.dumps_str, (hFormat _).1, (hFormat _).2, hNames.1,
    hNames.2.1, hNames.2.2]
  omega

theorem length_of_validCode {code : Text} (h : validCode code = true) : code.length ≤ 64 := by
  cases code with
  | nil => exact Nat.zero_le _
  | cons first rest =>
      simp only [validCode, Bool.and_eq_true, decide_eq_true_eq] at h
      exact Nat.succ_le_succ h.1.2

end Size

/-- What is within the limit is read whole, however it is cut. -/
theorem boundedRead_of_le {limit : Nat} {result : Bytes} {chunks : List Bytes}
    (h : result.length + chunks.flatten.length ≤ limit) :
    boundedRead limit none result chunks = .ok (result ++ chunks.flatten) := by
  induction chunks generalizing result with
  | nil => rw [boundedRead, List.flatten_nil, List.append_nil]
  | cons chunk rest ih =>
      rw [List.flatten_cons, List.length_append] at h
      rw [boundedRead, if_neg (by omega), ih, List.flatten_cons, List.append_assoc]
      rw [List.length_append]
      omega

/-- An error in the form of the schema passes the checks as it is. -/
theorem upstreamResponse_error {library : JsonLibrary} {status : Nat} {code message : String}
    (hLow : 400 ≤ status) (hHigh : status < 500) (hCode : validCode (text code) = true)
    (hMessage : (text message).length ≤ 1024)
    (hReads : library.loads (error status code message).body =
      .ok (errorContent (text code) (text message))) :
    upstreamResponse library { status, body := (error status code message).body } =
      .ok (error status code message) := by
  have hDistinct : DistinctKeys (errorContent (text code) (text message)) := by
    simp [errorContent, DistinctKeys, DistinctFields]
  have hPublic : publicPayload (errorContent (text code) (text message)) = .ok true :=
    (publicPayload_iff hDistinct).mpr
      ⟨_, text code, text message, rfl, List.Perm.refl _, hCode, hMessage⟩
  have hRendered : jsonResponse library (errorContent (text code) (text message)) status =
      .ok (error status code message) := by
    refine Raising.bind_eq_ok.mpr ⟨(error status code message).body, encode_eq_ok.mpr ⟨?_, rfl⟩, rfl⟩
    simp [errorContent, encodable_dumps_dict (JsonFormat.narrow_compact _), encodable_jsonString]
  have hStrict : strictResponse library { status, body := (error status code message).body } =
      .ok (some (error status code message)) :=
    Raising.bind_eq_ok.mpr ⟨_, hReads, Raising.bind_eq_ok.mpr ⟨true, hPublic,
      Raising.bind_eq_ok.mpr ⟨_, hRendered, rfl⟩⟩⟩
  have hType : (text "application/json").takeWhile (· ≠ codePoint ';') = text "application/json" := by
    decide
  rw [upstreamResponse, if_neg (show ¬ (200 ≤ status ∧ status < 300) by omega),
    if_pos ⟨⟨hLow, hHigh⟩, hType⟩, hStrict]

theorem upstreamResponse_failed {library : JsonLibrary} {reply : UpstreamReply}
    (h : 500 ≤ reply.status) : upstreamResponse library reply = .ok (upstreamFailure reply.status) := by
  rw [upstreamResponse, if_neg (by omega), if_neg (by omega)]

/-- An error in another form does not pass: a client learns no more than that there was one. -/
theorem upstreamResponse_foreign {library : JsonLibrary} {reply : UpstreamReply}
    {fields : List (Text × Json)} (hStatus : 300 ≤ reply.status)
    (hReads : library.loads reply.body = .ok (.dict fields))
    (hForeign : fields.lookup (text "error") = none) :
    upstreamResponse library reply = .ok (upstreamFailure reply.status) := by
  have hItem : (Json.dict fields).item "error" = .error .key := by
    simp only [Json.item, hForeign]
  have hRefused : publicPayload (.dict fields) = .error .key := by
    rw [publicPayload, hItem]
    rfl
  have hStrict : strictResponse library reply = .error .key := by
    rw [strictResponse, hReads]
    show (publicPayload (.dict fields) >>= _) = _
    rw [hRefused]
    rfl
  rw [upstreamResponse, if_neg (by omega), hStrict]
  split_ifs
  · rfl
  · rfl

section Relay
variable {library : JsonLibrary} {upstream : HttpUpstream} {cut : ChunkStream}

theorem receive_whole {status : Nat} (hEnds : cut.raises = none)
    (hSize : cut.bytes.length ≤ upstream.limit status) :
    upstream.receive ⟨status, some (text "application/json"), cut⟩ =
      .ok { status, body := cut.bytes } := by
  have hRead : boundedRead (upstream.limit status) cut.raises [] cut.chunks = .ok cut.bytes := by
    rw [hEnds]
    exact boundedRead_of_le (by simpa [ChunkStream.bytes] using hSize)
  rw [HttpUpstream.receive, hRead]
  rfl

/-- However it is cut on its way, a client is told a success byte by byte. -/
theorem answered_whole {status : Nat} (hLow : 200 ≤ status) (hHigh : status < 300)
    (hEnds : cut.raises = none) (hSize : cut.bytes.length ≤ upstream.maxResponseBytes) :
    answered library (upstream.receive ⟨status, some (text "application/json"), cut⟩) =
      .ok ⟨status, [("content-type", text "application/json")], cut.bytes⟩ := by
  have hLimit : cut.bytes.length ≤ upstream.limit status := by
    rw [HttpUpstream.limit, if_pos ⟨hLow, hHigh⟩]
    exact hSize
  have hLatin : (text "application/json").all (fun character => character.val < 256) = true := by
    decide
  rw [receive_whole hEnds hLimit]
  apply answered_reply
  rw [upstreamResponse, if_pos ⟨hLow, hHigh⟩, rawResponse, if_pos hLatin]

/-- An error of a request is told byte by byte too; of a failure, only that there was one. -/
theorem answered_error {status : Nat} {code message : String} (hLow : 400 ≤ status)
    (hCode : validCode (text code) = true) (hMessage : (text message).length ≤ 1024)
    (hBytes : cut.bytes = (error status code message).body) (hEnds : cut.raises = none)
    (hReads : library.loads (error status code message).body =
      .ok (errorContent (text code) (text message))) :
    answered library (upstream.receive ⟨status, some (text "application/json"), cut⟩) =
      .ok (relayed (error status code message)) := by
  have hLimit : cut.bytes.length ≤ upstream.limit status := by
    rw [HttpUpstream.limit, if_neg (by omega), hBytes]
    exact length_error_le status (length_of_validCode hCode) hMessage
  rw [receive_whole hEnds hLimit, hBytes, relayed]
  apply answered_reply
  by_cases hHigh : status < 500
  · rw [if_pos (show (error status code message).status < 500 from hHigh)]
    exact upstreamResponse_error hLow hHigh hCode hMessage hReads
  · rw [if_neg (show ¬ (error status code message).status < 500 from hHigh)]
    exact upstreamResponse_failed (Nat.le_of_not_lt hHigh)

/-- So an error in another form reaches a client as the failure of the upstream. -/
theorem answered_foreign {status : Nat} {fields : List (Text × Json)} (hStatus : 300 ≤ status)
    (hEnds : cut.raises = none) (hSize : cut.bytes.length ≤ 64 * 1024)
    (hReads : library.loads cut.bytes = .ok (.dict fields))
    (hForeign : fields.lookup (text "error") = none) :
    answered library (upstream.receive ⟨status, some (text "application/json"), cut⟩) =
      .ok (upstreamFailure status) := by
  have hLimit : cut.bytes.length ≤ upstream.limit status := by
    rw [HttpUpstream.limit, if_neg (by omega)]
    exact hSize
  rw [receive_whole hEnds hLimit]
  exact answered_reply (upstreamResponse_foreign hStatus hReads hForeign)

end Relay

end DocInsight.Gateway
