import DocInsight.Python.Dumps
import Mathlib.Data.List.Nodup

/-! What a client is told: public errors are small, structured and independent of exception
text, and an upstream's error passes only where it has that form already. -/
namespace DocInsight.Gateway

open DocInsight.Python

abbrev Bytes := List UInt8

/-- Headers under lower-case names, in their order. -/
abbrev Headers := List (String × Text)

structure UpstreamReply where
  status : Nat
  body : Bytes
  contentType : Text := text "application/json"
  deriving DecidableEq, Repr

structure Response where
  status : Nat
  headers : Headers
  body : Bytes
  deriving DecidableEq, Repr

/-- One character in UTF-8. -/
def utf8Bytes (character : CodePoint) : Bytes :=
  let code := character.val
  let trailing (shift : Nat) := UInt8.ofNat (0x80 + code / shift % 64)
  if code < 0x80 then [UInt8.ofNat code]
  else if code < 0x800 then [UInt8.ofNat (0xC0 + code / 64), trailing 1]
  else if code < 0x10000 then [UInt8.ofNat (0xE0 + code / 4096), trailing 64, trailing 1]
  else [UInt8.ofNat (0xF0 + code / 262144), trailing 4096, trailing 64, trailing 1]

/-- `value.encode()`; a lone surrogate has no encoding. -/
def encode (value : Text) : Except Raised Bytes :=
  if value.any isSurrogate then .error (.value "surrogates not allowed")
  else .ok (value.flatMap utf8Bytes)

/-- The standard library's JSON: how bytes are read, and how a float is written. -/
structure JsonLibrary where
  loads : Bytes → Except Raised Json
  float : Option ℚ → Text

/-- A response with a JSON body; rendering raises where the text has no encoding. -/
def jsonResponse (library : JsonLibrary) (content : Json) (status : Nat) :
    Except Raised Response := do
  let body ← encode (content.dumps (.compact library.float))
  return { status, headers := [("content-type", text "application/json")], body }

/-- A response with given bytes; a header value has to be Latin-1. -/
def rawResponse (body : Bytes) (status : Nat) (contentType : Text) : Except Raised Response :=
  if contentType.all fun character => character.val < 256 then
    .ok { status, headers := [("content-type", contentType)], body }
  else .error (.value "ordinal not in range(256)")

def errorContent (code message : Text) : Json :=
  .dict [(text "error", .dict [(text "code", .str code), (text "message", .str message)])]

/-- An error with texts of the source. There is no float in it, and it has an encoding. -/
def error (status : Nat) (code message : String) : Response where
  status := status
  headers := [("content-type", text "application/json")]
  body := ((errorContent (text code) (text message)).dumps (.compact fun _ => [])).flatMap utf8Bytes

/-- `[a-z0-9][a-z0-9_]{0,63}` -/
def validCode (code : Text) : Bool :=
  let letter (character : CodePoint) : Bool :=
    (97 ≤ character.val && character.val ≤ 122) || (48 ≤ character.val && character.val ≤ 57)
  match code with
  | [] => false
  | first :: rest =>
      letter first && rest.length ≤ 63 && rest.all fun character =>
        letter character || character.val = 95

def hashable : Json → Bool
  | .list _ | .dict _ => false
  | _ => true

/-- `set(value) == {…}` for a set of texts. -/
def isSetOf (names : List String) (value : Json) : Except Raised Bool := do
  let items ← value.iterate
  if items.all hashable then
    return (items.all fun item => names.any item.isText) &&
      names.all fun name => items.any (·.isText name)
  else throw .type

/-- The checks of an error's detail, in their order. -/
def publicDetail (detail : Json) : Except Raised Bool := do
  let whole ← isSetOf ["code", "message"] detail
  if whole then
    match ← detail.item "code" with
    | .str code =>
        if validCode code then
          match ← detail.item "message" with
          | .str message => return message.length ≤ 1024
          | _ => return false
        else return false
    | _ => return false
  else return false

def publicPayload (payload : Json) : Except Raised Bool := do
  let detail ← payload.item "error"
  let alone ← isSetOf ["error"] payload
  if alone then publicDetail detail else return false

/-- Pass an upstream's error on, where it is one. -/
def strictResponse (library : JsonLibrary) (reply : UpstreamReply) :
    Except Raised (Option Response) := do
  let payload ← library.loads reply.body
  if ← publicPayload payload then return some (← jsonResponse library payload reply.status)
  return none

def upstreamFailure (status : Nat) : Response :=
  if status = 504 then error 504 "upstream_timeout" "upstream timed out"
  else error 502 "bad_gateway" "upstream request failed"

/-- `ValueError`, `KeyError` and `TypeError` are passed over. -/
def passedOver : Raised → Bool
  | .value _ | .key | .type => true
  | _ => false

def upstreamResponse (library : JsonLibrary) (reply : UpstreamReply) : Except Raised Response :=
  if 200 ≤ reply.status ∧ reply.status < 300 then
    rawResponse reply.body reply.status reply.contentType
  else if (400 ≤ reply.status ∧ reply.status < 500) ∧
      reply.contentType.takeWhile (· ≠ codePoint ';') = text "application/json" then
    match strictResponse library reply with
    | .ok (some response) => .ok response
    | .ok none => .ok (upstreamFailure reply.status)
    | .error raised =>
        if passedOver raised then .ok (upstreamFailure reply.status) else .error raised
  else .ok (upstreamFailure reply.status)

mutual

/-- In a decoded document no object has a key twice. -/
def DistinctKeys : Json → Prop
  | .list items => DistinctItems items
  | .dict fields => (fields.map Prod.fst).Nodup ∧ DistinctFields fields
  | _ => True

def DistinctItems : List Json → Prop
  | [] => True
  | item :: rest => DistinctKeys item ∧ DistinctItems rest

def DistinctFields : List (Text × Json) → Prop
  | [] => True
  | (_, value) :: rest => DistinctKeys value ∧ DistinctFields rest

end

/-- A code and a message, in either order, and nothing else. -/
structure PublicDetail (fields : List (Text × Json)) (code message : Text) : Prop where
  fields : fields.Perm [(text "code", .str code), (text "message", .str message)]
  code : validCode code = true
  message : message.length ≤ 1024

/-- All that a client learns from an error is a code and a message. -/
def PublicError (response : Response) : Prop :=
  ∃ fields code message float, PublicDetail fields code message ∧
    encode ((Json.dict [(text "error", .dict fields)]).dumps (.compact float)) = .ok response.body

theorem DistinctFields.of_mem {fields : List (Text × Json)} (h : DistinctFields fields)
    {field : Text × Json} (hField : field ∈ fields) : DistinctKeys field.2 := by
  induction fields with
  | nil => cases hField
  | cons head rest ih =>
      rcases List.mem_cons.mp hField with rfl | hRest
      · exact h.1
      · exact ih h.2 hRest

/-- The keys of an object are the names, each of them once. -/
theorem isSetOf_dict {names : List String} (hNames : names.Nodup) {fields : List (Text × Json)}
    (hKeys : (fields.map Prod.fst).Nodup) :
    isSetOf names (.dict fields) = .ok true ↔ (fields.map Prod.fst).Perm (names.map text) := by
  have hTexts : (names.map text).Nodup := hNames.map fun _ _ => text_inj.mp
  have hAnswer : isSetOf names (.dict fields) = .ok
      (((fields.map fun field => Json.str field.1).all fun item => names.any (item.isText ·)) &&
        names.all fun name => (fields.map fun field => Json.str field.1).any (·.isText name)) := by
    have hItems : (fields.map fun field => Json.str field.1).all hashable = true := by
      simp [hashable]
    show (if _ then _ else _) = _
    exact if_pos hItems
  rw [List.perm_ext_iff_of_nodup hKeys hTexts, hAnswer]
  simp only [Except.ok.injEq, Bool.and_eq_true, List.all_map, List.all_eq_true, List.any_eq_true,
    List.any_map, Function.comp_apply, Json.isText, decide_eq_true_eq, List.mem_map]
  constructor
  · rintro ⟨hKnown, hAll⟩ key
    constructor
    · rintro ⟨field, hField, rfl⟩
      obtain ⟨name, hName, hSame⟩ := hKnown field hField
      exact ⟨name, hName, hSame.symm⟩
    · rintro ⟨name, hName, rfl⟩
      exact hAll name hName
  · intro h
    constructor
    · intro field hField
      obtain ⟨name, hName, hSame⟩ := (h field.1).mp ⟨field, hField, rfl⟩
      exact ⟨name, hName, hSame.symm⟩
    · intro name hName
      exact (h (text name)).mpr ⟨name, hName, rfl⟩

/-- In a list without repeated keys, what stands under a key is found. -/
theorem lookup_of_mem {Key Value : Type} [BEq Key] [LawfulBEq Key] {fields : List (Key × Value)}
    (hKeys : (fields.map Prod.fst).Nodup) {field : Key × Value} (hField : field ∈ fields) :
    fields.lookup field.1 = some field.2 := by
  obtain ⟨before, after, rfl⟩ := List.append_of_mem hField
  refine List.lookup_eq_some_iff.mpr ⟨before, after, rfl, ?_⟩
  intro other hOther
  rw [List.map_append, List.nodup_append] at hKeys
  rw [bne_iff_ne]
  exact (hKeys.2.2 other.1 (List.mem_map_of_mem hOther) field.1 List.mem_cons_self).symm

/-- Two keys, each once, with what stands under them. -/
theorem perm_pair_of_keys {fields : List (Text × Json)} {first second : Text} {one other : Json}
    (hKeys : (fields.map Prod.fst).Nodup) (h : (fields.map Prod.fst).Perm [first, second])
    (hOne : fields.lookup first = some one) (hOther : fields.lookup second = some other) :
    fields.Perm [(first, one), (second, other)] := by
  have hSelf : (fields.map Prod.fst).map (fun key => (key, (fields.lookup key).getD .null)) =
      fields := by
    rw [List.map_map]
    conv_rhs => rw [← List.map_id fields]
    apply List.map_congr_left
    intro field hField
    simp [lookup_of_mem hKeys hField]
  rw [← hSelf]
  simpa [hOne, hOther] using h.map fun key => (key, (fields.lookup key).getD .null)

theorem publicDetail_of_ok {detail : Json} (hDistinct : DistinctKeys detail)
    (h : publicDetail detail = .ok true) : ∃ fields code message, detail = .dict fields ∧
      PublicDetail fields code message := by
  obtain ⟨whole, hWhole, h⟩ := Raising.bind_eq_ok.mp h
  cases whole with
  | false => cases h
  | true =>
      obtain ⟨found, hFound, h⟩ := Raising.bind_eq_ok.mp h
      cases detail with
      | dict fields =>
          cases found with
          | str code =>
              simp only at h
              split_ifs at h with hCode
              · obtain ⟨said, hSaid, h⟩ := Raising.bind_eq_ok.mp h
                cases said with
                | str message =>
                    have hLength : message.length ≤ 1024 := of_decide_eq_true (Except.ok.inj h)
                    refine ⟨fields, code, message, rfl, ?_, hCode, hLength⟩
                    exact perm_pair_of_keys hDistinct.1
                      ((isSetOf_dict (by decide) hDistinct.1).mp hWhole)
                      (Json.item_dict.mp hFound) (Json.item_dict.mp hSaid)
                | _ => cases h
              · cases h
          | _ => cases h
      | _ => cases hFound

theorem publicDetail_ok {fields : List (Text × Json)} {code message : Text}
    (hKeys : (fields.map Prod.fst).Nodup) (detail : PublicDetail fields code message) :
    publicDetail (.dict fields) = .ok true := by
  have hWhole : isSetOf ["code", "message"] (.dict fields) = .ok true :=
    (isSetOf_dict (by decide) hKeys).mpr (detail.fields.map Prod.fst)
  have hCode : (Json.dict fields).item "code" = .ok (.str code) :=
    Json.item_dict.mpr (lookup_of_mem hKeys (detail.fields.mem_iff.mpr List.mem_cons_self))
  have hMessage : (Json.dict fields).item "message" = .ok (.str message) :=
    Json.item_dict.mpr (lookup_of_mem hKeys
      (detail.fields.mem_iff.mpr (List.mem_cons_of_mem _ List.mem_cons_self)))
  refine Raising.bind_eq_ok.mpr ⟨true, hWhole, Raising.bind_eq_ok.mpr ⟨_, hCode, ?_⟩⟩
  simp only [detail.code, if_true]
  refine Raising.bind_eq_ok.mpr ⟨_, hMessage, ?_⟩
  exact congrArg Except.ok (decide_eq_true detail.message)

/-- The checks pass an error with a code and a message, and nothing else. -/
theorem publicPayload_iff {payload : Json} (hDistinct : DistinctKeys payload) :
    publicPayload payload = .ok true ↔ ∃ fields code message,
      payload = .dict [(text "error", .dict fields)] ∧ PublicDetail fields code message := by
  constructor
  · intro h
    obtain ⟨detail, hDetail, h⟩ := Raising.bind_eq_ok.mp h
    obtain ⟨alone, hAlone, h⟩ := Raising.bind_eq_ok.mp h
    cases payload with
    | dict outer =>
        cases alone with
        | false => cases h
        | true =>
            have hOuter := ((isSetOf_dict (by decide) hDistinct.1).mp hAlone)
            have hLookup := Json.item_dict.mp hDetail
            obtain ⟨field, rfl, hField⟩ := List.map_eq_singleton_iff.mp
              (List.perm_singleton.mp hOuter)
            obtain ⟨name, value⟩ := field
            have hName : name = text "error" := hField
            subst hName
            rw [List.lookup_cons_self] at hLookup
            cases hLookup
            obtain ⟨fields, code, message, rfl, found⟩ :=
              publicDetail_of_ok (hDistinct.2.of_mem List.mem_cons_self) h
            exact ⟨fields, code, message, rfl, found⟩
    | _ => cases hDetail
  · rintro ⟨fields, code, message, rfl, detail⟩
    have hKeys : (fields.map Prod.fst).Nodup := (hDistinct.2.of_mem List.mem_cons_self).1
    refine Raising.bind_eq_ok.mpr ⟨.dict fields, ?_, Raising.bind_eq_ok.mpr ⟨true, ?_, ?_⟩⟩
    · exact Json.item_dict.mpr List.lookup_cons_self
    · exact (isSetOf_dict (by decide) hDistinct.1).mpr (List.Perm.refl _)
    · exact publicDetail_ok hKeys detail

theorem encode_eq_ok {value : Text} {bytes : Bytes} :
    encode value = .ok bytes ↔ Python.Encodable value ∧ value.flatMap utf8Bytes = bytes := by
  have hAny : value.any isSurrogate = true ↔ ¬Python.Encodable value := by
    simp [Python.Encodable]
  unfold encode
  split_ifs with hSurrogate
  · exact iff_of_false (fun h => by cases h) fun h => hAny.mp hSurrogate h.1
  · rw [Except.ok.injEq, iff_and_self]
    exact fun _ => not_not.mp (mt hAny.mpr hSurrogate)

/-- Texts of the source within the schema make an error that a client may be told. -/
theorem publicError_error (status : Nat) {code message : String}
    (hCode : validCode (text code) = true) (hMessage : (text message).length ≤ 1024) :
    PublicError (error status code message) := by
  refine ⟨_, text code, text message, fun _ => [], ⟨List.Perm.refl _, hCode, hMessage⟩, ?_⟩
  refine encode_eq_ok.mpr ⟨?_, rfl⟩
  simp [encodable_dumps_dict (JsonFormat.narrow_compact _), encodable_jsonString]

theorem publicError_upstreamFailure (status : Nat) : PublicError (upstreamFailure status) := by
  unfold upstreamFailure
  split_ifs
  · exact publicError_error 504 (by decide) (by decide)
  · exact publicError_error 502 (by decide) (by decide)

theorem status_upstreamFailure (status : Nat) :
    (upstreamFailure status).status = 502 ∨ (upstreamFailure status).status = 504 := by
  unfold upstreamFailure
  split_ifs
  · exact Or.inr rfl
  · exact Or.inl rfl

/-- An upstream's error keeps its status where it passes. -/
theorem strictResponse_status {library : JsonLibrary} {reply : UpstreamReply} {response : Response}
    (h : strictResponse library reply = .ok (some response)) : response.status = reply.status := by
  obtain ⟨payload, -, h⟩ := Raising.bind_eq_ok.mp h
  obtain ⟨allowed, -, h⟩ := Raising.bind_eq_ok.mp h
  cases allowed with
  | false => cases h
  | true =>
      obtain ⟨rendered, hRendered, h⟩ := Raising.bind_eq_ok.mp h
      cases h
      obtain ⟨body, -, hRendered⟩ := Raising.bind_eq_ok.mp hRendered
      cases hRendered
      rfl

/-- An upstream's error that passes has the form of a public error. -/
theorem strictResponse_public {library : JsonLibrary} {reply : UpstreamReply} {response : Response}
    (hDistinct : ∀ payload, library.loads reply.body = .ok payload → DistinctKeys payload)
    (h : strictResponse library reply = .ok (some response)) : PublicError response := by
  obtain ⟨payload, hLoads, h⟩ := Raising.bind_eq_ok.mp h
  obtain ⟨allowed, hAllowed, h⟩ := Raising.bind_eq_ok.mp h
  cases allowed with
  | false => cases h
  | true =>
      obtain ⟨rendered, hRendered, h⟩ := Raising.bind_eq_ok.mp h
      cases h
      obtain ⟨body, hBody, hRendered⟩ := Raising.bind_eq_ok.mp hRendered
      cases hRendered
      obtain ⟨fields, code, message, rfl, detail⟩ :=
        (publicPayload_iff (hDistinct payload hLoads)).mp hAllowed
      exact ⟨fields, code, message, library.float, detail, hBody⟩

/-- A success with its bytes, an error that passes, or a failure of the gateway's own. -/
theorem upstreamResponse_cases {library : JsonLibrary} {reply : UpstreamReply} {response : Response}
    (h : upstreamResponse library reply = .ok response) :
    (200 ≤ reply.status ∧ reply.status < 300 ∧
      response = ⟨reply.status, [("content-type", reply.contentType)], reply.body⟩) ∨
    (400 ≤ reply.status ∧ reply.status < 500 ∧
      strictResponse library reply = .ok (some response)) ∨
    response = upstreamFailure reply.status := by
  unfold upstreamResponse at h
  split_ifs at h with hSuccess hJson
  · unfold rawResponse at h
    split_ifs at h
    cases h
    exact Or.inl ⟨hSuccess.1, hSuccess.2, rfl⟩
  · cases hStrict : strictResponse library reply with
    | ok found =>
        rw [hStrict] at h
        cases found with
        | none =>
            cases h
            exact Or.inr (Or.inr rfl)
        | some passed =>
            cases h
            exact Or.inr (Or.inl ⟨hJson.1.1, hJson.1.2, rfl⟩)
    | error raised =>
        rw [hStrict] at h
        simp only at h
        split_ifs at h
        cases h
        exact Or.inr (Or.inr rfl)
  · cases h
    exact Or.inr (Or.inr rfl)

/-- What is answered below 300 is an upstream's success as it came. -/
theorem upstreamResponse_success {library : JsonLibrary} {reply : UpstreamReply}
    {response : Response} (h : upstreamResponse library reply = .ok response)
    (hStatus : response.status < 300) : 200 ≤ reply.status ∧ reply.status < 300 ∧
      response = ⟨reply.status, [("content-type", reply.contentType)], reply.body⟩ := by
  rcases upstreamResponse_cases h with hSuccess | ⟨hLow, -, hStrict⟩ | rfl
  · exact hSuccess
  · rw [strictResponse_status hStrict] at hStatus
    omega
  · rcases status_upstreamFailure reply.status with hSame | hSame
    all_goals
      rw [hSame] at hStatus
      omega

/-- A success passes with its bytes; of anything else a client learns a public error. -/
theorem upstreamResponse_public {library : JsonLibrary} {reply : UpstreamReply} {response : Response}
    (hDistinct : ∀ payload, library.loads reply.body = .ok payload → DistinctKeys payload)
    (h : upstreamResponse library reply = .ok response) :
    (200 ≤ reply.status ∧ reply.status < 300 ∧
      response = ⟨reply.status, [("content-type", reply.contentType)], reply.body⟩) ∨
    (PublicError response ∧ (response.status = 502 ∨ response.status = 504 ∨
      400 ≤ response.status ∧ response.status < 500 ∧ response.status = reply.status)) := by
  rcases upstreamResponse_cases h with hSuccess | ⟨hLow, hHigh, hStrict⟩ | rfl
  · exact Or.inl hSuccess
  · have hStatus := strictResponse_status hStrict
    exact Or.inr ⟨strictResponse_public hDistinct hStrict,
      Or.inr (Or.inr ⟨hStatus ▸ hLow, hStatus ▸ hHigh, hStatus⟩)⟩
  · exact Or.inr ⟨publicError_upstreamFailure reply.status,
      (status_upstreamFailure reply.status).imp_right Or.inl⟩

end DocInsight.Gateway
