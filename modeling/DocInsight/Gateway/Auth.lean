import DocInsight.Python.Json
import Mathlib.Algebra.Order.Ring.Rat
import Mathlib.Order.WithBot
import Mathlib.Tactic.Linarith

/-! The gateway's signing keys: which of an issuer's keys are usable, and the cache
that decides when the issuer is asked again. The clock is read exactly. -/
namespace DocInsight.Gateway

open DocInsight.Python

/-- The two configured durations, as the gateway settings validate them. -/
structure JwksSettings where
  jwksCacheSeconds : ℚ
  jwksRefreshSeconds : ℚ
  cache_gt : 0 < jwksCacheSeconds
  refresh_gt : 0 < jwksRefreshSeconds
  cacheCoversRefreshCooldown : jwksRefreshSeconds ≤ jwksCacheSeconds

/-- The token library's key type: how an item is loaded, and the size of the key it
holds when that is a public RSA key. -/
structure KeyLibrary (Key : Type) where
  load : Json → Except Raised Key
  publicBits : Key → Option Nat

variable {Key : Type} (library : KeyLibrary Key)

/-- Keys by identifier, in the order in which the document lists them. -/
abbrev KeySet (Key : Type) := List (Text × Key)

/-- An item of another type, algorithm or use is left out and not an error. -/
def forSigning (item : Json) : Except Raised Bool := do
  let kty ← item.get "kty"
  if !kty.isText "RSA" then return false
  let alg ← item.getOr "alg" (.str (text "RS256"))
  if !alg.isText "RS256" then return false
  let use ← item.getOr "use" (.str (text "sig"))
  if !use.isText "sig" then return false
  let operations ← item.getOr "key_ops" (.list [.str (text "verify")])
  operations.contains "verify"

/-- Add one item to the keys collected so far. -/
def addSigningKey (result : KeySet Key) (item : Json) : Except Raised (KeySet Key) := do
  if !(← forSigning item) then return result
  let kid ← item.get "kid"
  let key ← library.load item
  match library.publicBits key with
  | none => throw (.value "Invalid signing key")
  | some bits =>
      if bits < 2048 then throw (.value "Invalid signing key")
      match kid with
      | .str kid =>
          if kid.isEmpty || (result.lookup kid).isSome || (← item.contains "d") then
            throw (.value "Invalid key identifier")
          return result ++ [(kid, key)]
      | _ => throw (.value "Invalid key identifier")

/-- Validate usable public RS256 keys; reject weak or ambiguous key sets. -/
def signingKeys (document : Json) : Except Raised (KeySet Key) := do
  let items ← (← document.item "keys").iterate
  let result ← items.foldlM (addSigningKey library) []
  if result.isEmpty then throw (.value "No signing keys")
  return result

structure Authenticator (Key : Type) where
  keys : KeySet Key := []
  expires : WithBot ℚ := ⊥
  nextRefresh : WithBot ℚ := ⊥

inductive KeyFailure where
  | invalidToken
  | source
  | signingKeys (raised : Raised)
  deriving DecidableEq

/-- One call: the identifier, and what it meets where it reads the clock or fetches.
A fetch that raises answers no document. -/
structure KeyCall where
  kid : Text
  now : ℚ
  document : Option Json
  stored : ℚ
  checked : ℚ

/-- What a call did with the issuer's document. -/
inductive Fetch (Key : Type) where
  | skipped
  | failed
  | succeeded (keys : KeySet Key)

structure KeyOutcome (Key : Type) where
  fetch : Fetch Key
  answer : Except KeyFailure Key
  authenticator : Authenticator Key

namespace Authenticator

/-- Ask the issuer for an unknown identifier or an expired cache, outside the backoff. -/
def refreshes (authenticator : Authenticator Key) (kid : Text) (now : ℚ) : Bool :=
  ((authenticator.keys.lookup kid).isNone || authenticator.expires ≤ now) &&
    authenticator.nextRefresh ≤ now

/-- The final check of every call that comes to it. -/
def answer (authenticator : Authenticator Key) (kid : Text) (checked : ℚ) :
    Except KeyFailure Key :=
  if authenticator.expires ≤ checked then .error .invalidToken
  else
    match authenticator.keys.lookup kid with
    | some key => .ok key
    | none => .error .invalidToken

/-- `signing_keys(await self.source.fetch())`. -/
def fetched (document : Option Json) : Except KeyFailure (KeySet Key) :=
  match document with
  | none => .error .source
  | some document => (signingKeys library document).mapError .signingKeys

/-- Resolve a signing key with serialized refresh and bounded cache lifetime. -/
def key (settings : JwksSettings) (authenticator : Authenticator Key) (call : KeyCall) :
    KeyOutcome Key :=
  if authenticator.refreshes call.kid call.now then
    -- The backoff is set before the fetch, so a failure keeps it.
    let waiting := { authenticator with nextRefresh := call.now + settings.jwksRefreshSeconds }
    match fetched library call.document with
    | .error failure => ⟨.failed, .error failure, waiting⟩
    | .ok keys =>
        let refreshed :=
          { waiting with keys := keys, expires := call.stored + settings.jwksCacheSeconds }
        ⟨.succeeded keys, refreshed.answer call.kid call.checked, refreshed⟩
  else ⟨.skipped, authenticator.answer call.kid call.checked, authenticator⟩

end Authenticator

end DocInsight.Gateway
