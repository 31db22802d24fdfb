import DocInsight.Gateway.Forwarding
import DocInsight.Library.Quoting
import DocInsight.Python.Dict
import DocInsight.Python.Words

/-! Authenticate, charge one token, then stream to the selected service: the work of one
request, whatever it is answered on the way. -/
namespace DocInsight.Gateway

open DocInsight.Contracts DocInsight.Python Interaction

/-- The token library: the header of a token, unverified, and the claims of one that
verifies under a key for an issuer and an audience, with some leeway, at a time. -/
structure TokenLibrary (Key : Type) where
  getUnverifiedHeader : Text → Except GatewayError Json
  decode : Text → Key → Text → Text → ℚ → ℚ → Except GatewayError Json

/-- A text as a string; what has no character becomes one that no identifier admits. -/
def asString (value : Text) : String :=
  String.ofList (value.map fun character => Char.ofNat character.val)

/-- An identity from claims; these become HTTP headers. -/
def Identity.make (tenant user : Text) : Except Raised Identity :=
  if hTenant : validTenant (asString tenant) = true then
    if hUser : validUser (asString user) = true then
      .ok ⟨asString tenant, asString user, hTenant, hUser⟩
    else .error (.value "Invalid user")
  else .error (.value "Invalid tenant")

/-- `value.lower()`, as far as ASCII letters come of it. -/
def lower (value : Text) : Text :=
  value.map fun character =>
    if 65 ≤ character.val && character.val ≤ 90 then codePoint (Char.ofNat (character.val + 32))
    else character

/-- The identity that verified claims give. -/
def claimedIdentity (claims : Json) : Except GatewayError Identity := do
  let tenant ← (claims.item "tenant").mapError .raised
  match tenant with
  | .str tenant =>
      match ← (claims.item "sub").mapError .raised with
      | .str user =>
          match ← (claims.item "exp").mapError .raised with
          | .int _ =>
              match ← (claims.item "iat").mapError .raised with
              | .int _ => (Identity.make tenant user).mapError .raised
              | _ => throw .invalidToken
          | _ => throw .invalidToken
      | _ => throw .invalidToken
  | _ => throw .invalidToken

/-- The key identifier that an RS256 token names. -/
def namedKey (header : Json) : Except GatewayError Text := do
  let kid ← (header.get "kid").mapError .raised
  let algorithm ← (header.get "alg").mapError .raised
  match kid with
  | .str kid =>
      if algorithm.isText "RS256" && !kid.isEmpty then return kid else throw .invalidToken
  | _ => throw .invalidToken

/-- Library, key parsing and provider errors all fail authentication closed. -/
def failsClosed : GatewayError → Bool
  | .invalidToken | .jwt | .http | .httpTimeout | .timeout | .overflow => true
  | .raised raised => raised.expected
  | _ => false

/-- The token of a bearer authorization. -/
def bearerToken (authorization : Text) : Except GatewayError Text :=
  match (words authorization).map (·.group) with
  | [scheme, token] =>
      if lower scheme = text "bearer" ∧ token.length ≤ 16384 then .ok token
      else .error .invalidToken
  | _ => .error (.raised (.value "not two values to unpack"))

section Gateway
variable {Key : Type} (tokens : TokenLibrary Key) (library : JsonLibrary) (settings : Settings)

/-- Verify a signature and required claims under the key that the token names. -/
def verified (token : Text) (key : Key) (now : ℚ) : Except GatewayError Identity := do
  let claims ← tokens.decode token key settings.jwtIssuer settings.jwtAudience
    settings.jwtLeewaySeconds now
  claimedIdentity claims

/-- The token of an authorization, and the key that its unverified header names. -/
def presented (authorization : Text) : Except GatewayError (Text × Text) := do
  let token ← bearerToken authorization
  let header ← tokens.getUnverifiedHeader token
  let kid ← namedKey header
  return (token, kid)

/-- What a failure of authentication is told as. -/
def closed (failure : GatewayError) : GatewayError :=
  if failsClosed failure then .invalidToken else failure

/-- Verify signature and required claims before returning a tenant identity. -/
def authenticate (authorization : Text) : Handling Key Identity :=
  tryCatch
    (do -- The header selects a key; only decoding establishes identity.
        let (token, kid) ← Handling.lift (presented tokens authorization)
        let key ← Program.perform (.key kid)
        let now ← Program.perform .time
        Handling.lift (verified tokens settings token key now))
    fun failure => throw (closed failure)

/-- What the limiter makes of a request. -/
inductive Quota where
  | remaining (tokens : Int)
  | refused (response : Response)
  | failingOpen

def Response.withHeader (response : Response) (name : String) (value : Text) : Response :=
  { response with headers := setItem response.headers name value }

def refusal (decision : RateDecision) : Response :=
  ((error 429 "rate_limited" "request rate exceeded").withHeader
    "retry-after" (text (toString decision.retryAfter))).withHeader
    "x-ratelimit-remaining" (text (toString decision.remaining))

/-- What is made of the limiter's answer. -/
def Quota.of : Except GatewayError RateDecision → Handling Key Quota
  | .ok decision =>
      if decision.allowed then pure (.remaining decision.remaining)
      else pure (.refused (refusal decision))
  | .error .backendUnavailable =>
      if settings.rateLimitFailOpen then pure .failingOpen
      else pure (.refused (error 503 "rate_limit_unavailable" "rate limiter unavailable"))
  | .error failure => throw failure

/-- Remaining quota, an error response, or neither when failing open. -/
def quota (identity : Identity) : Handling Key Quota :=
  .call (.consume identity) (Quota.of settings)

/-- `not self.settings.tenants or identity.tenant in self.settings.tenants.split(",")`. -/
def Settings.provisions (identity : Identity) : Bool :=
  settings.tenants.isEmpty ||
    (Quoting.split (text ",") settings.tenants).contains (text identity.tenant)

def unauthorized : Response :=
  (error 401 "unauthorized" "invalid token").withHeader "www-authenticate" (text "Bearer")

/-- Exactly one authorization header is looked at. -/
def authenticated (request : Request) : Handling Key Identity :=
  match request.headers.getlist "authorization" with
  | [authorization] => authenticate tokens settings authorization
  | _ => throw .invalidToken

section Route
variable (request : Request) (path : String) (ingest : Bool)

/-- Forward a request, unless its quota is refused. -/
def spend (identity : Identity) : Quota → Handling Key Response
  | .refused response => pure response
  | .failingOpen => forward library settings request path ingest identity
  | .remaining tokens => do
      let response ← forward library settings request path ingest identity
      pure (response.withHeader "x-ratelimit-remaining" (text (toString tokens)))

/-- Enforce tenant access and quota for a caller who is known. -/
def proceed : Except GatewayError Identity → Handling Key Response
  | .error .invalidToken => pure unauthorized
  | .error failure => throw failure
  | .ok identity =>
      if !settings.provisions identity then
        pure (error 403 "tenant_unavailable" "tenant is not provisioned")
      else do
        let quota ← quota settings identity
        spend library settings request path ingest identity quota

/-- Authenticate and enforce tenant access and quota before upstream I/O. -/
def proxy : Handling Key Response :=
  (authenticated tokens settings request).andThen (proceed library settings request path ingest)

end Route

/-- Authentication asks for the named key, then for the time, and for nothing else. -/
theorem authenticate_eq (authorization : Text) :
    authenticate tokens settings authorization =
      match presented tokens authorization with
      | .error failure => .done (.error (closed failure))
      | .ok (token, kid) => .call (.key kid) fun
          | .error failure => .done (.error (closed failure))
          | .ok key => .call .time fun
              | .error failure => .done (.error (closed failure))
              | .ok now => .done ((verified tokens settings token key now).mapError closed) := by
  unfold authenticate
  cases presented tokens authorization with
  | error failure => rfl
  | ok names =>
      show Program.call _ _ = Program.call _ _
      congr 1
      funext answer
      cases answer with
      | error failure => rfl
      | ok key =>
          show Program.call _ _ = Program.call _ _
          congr 1
          funext answer
          cases answer with
          | error failure => rfl
          | ok now =>
              show Program.andThen (Handling.lift (verified tokens settings names.1 key now)) _ =
                Program.done ((verified tokens settings names.1 key now).mapError closed)
              cases verified tokens settings names.1 key now with
              | error failure => rfl
              | ok identity => rfl

end Gateway

end DocInsight.Gateway
