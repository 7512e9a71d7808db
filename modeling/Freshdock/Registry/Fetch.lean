import Freshdock.Calls
import Freshdock.Config.Credentials
import Freshdock.Interaction.SideBySide
import Freshdock.Registry.Challenge

/-!
# Asking a registry for a digest

`fetchDigest` asks a registry for the manifest of an image: with a cached token if there is one,
and otherwise, or when it is refused, with a token from the realm that the registry's challenge
names. The credentials of the image's host go to that realm. A realm that refuses them is asked
again without them.

The token cache and the hosts that were warned about are shared by all fetches, behind a lock
each, so reading and writing them are calls (`RegistryCall`), like the requests. `serves` says how
the shared state answers; the network answers anything, at any later time.

**Outside code.** The authority of a base URL is a parameter (`OciRegistry.authorityOf`). A base
without one, where the source panics, makes a program that never returns.
-/

set_option autoImplicit false

namespace Freshdock.Registry

open Text Interaction
open Config (CredentialStore canonicalizeHost)

/-! ## Requests and responses -/

/-- A header that is no text cannot be read: `none`. -/
abbrev HeaderValue : Type := Option String

structure Response where
  status : Nat
  /-- What the client says of a response whose status is an error. -/
  statusError : String
  headers : String → Option HeaderValue

/-- The body of a realm's response. -/
structure TokenBody where
  token : Option String
  accessToken : Option String
  expiresIn : Option Nat

structure TokenResponse where
  status : Nat
  statusError : String
  /-- Or why the body is none. -/
  body : Except String TokenBody

/-- A request that got no response: whether for want of a connection or of time, and the text. -/
structure SendError where
  unreachable : Bool
  text : String

def classifySendError (e : SendError) : RegistryError :=
  if e.unreachable then .networkUnavailable e.text else .http e.text

/-- Was the request refused? -/
def isDenied (status : Nat) : Bool := status == 401 || status == 403

/-- Is this the status of a client's or of a server's error? -/
def isErrorStatus (status : Nat) : Bool := 400 ≤ status && status < 600

/-- How a refusal's status is shown. -/
def deniedText (status : Nat) : String :=
  if status = 401 then "401 Unauthorized" else "403 Forbidden"

inductive RegistryCall where
  /-- A connection to try, with two seconds to succeed. A failure has no text when they ran out. -/
  | connect (authority : String)
  | headManifest (base path tag : String) (token : Option String)
  /-- A request to a realm, with a username and a password or without. -/
  | requestToken (realm : String) (query : List (String × String))
      (basicAuth : Option (String × String))
  | cachedToken (key : String)
  | storeToken (key token : String) (expiresIn : Option Nat)
  /-- Note whether a host's pull budget is low; the reply says whether to warn. -/
  | firstLowBudget (host : String) (low : Bool)

def RegistryCall.Reply : RegistryCall → Type
  | .connect _ => Except (Option String) Unit
  | .headManifest .. => Except SendError Response
  | .requestToken .. => Except SendError TokenResponse
  | .cachedToken _ => Option String
  | .storeToken .. => Unit
  | .firstLowBudget .. => Bool

/-- A program that asks a registry. -/
abbrev RegistryProg (α : Type) : Type := Program RegistryCall RegistryCall.Reply α

/-- A part of a fetch, which ends with the first error. -/
abbrev Fetch (α : Type) : Type := Fallible RegistryCall RegistryCall.Reply RegistryError α

abbrev RegistryEvent : Type := Event RegistryCall RegistryCall.Reply

/-- One call of a fetch. -/
abbrev ask (c : RegistryCall) : Fetch c.Reply := liftM (Program.request c : RegistryProg c.Reply)

/-! ## Where an image's registry is -/

/-- A base URL that all requests go to, and its authority. -/
structure Endpoints where
  registryBase : String
  registryAuthority : String

structure OciRegistry where
  store : CredentialStore
  registryOverride : Option Endpoints
  /-- The host and port of a base URL. -/
  authorityOf : String → Option String

/-- Hub's API is at a host of its own. -/
def baseForHost (host : String) : String :=
  if canonicalizeHost host = "docker.io" then "https://registry-1.docker.io"
  else "https://" ++ host

/-- The base URL and the authority for the requests to a host. -/
def OciRegistry.endpoints (registry : OciRegistry) (host : String) : Fetch Endpoints :=
  match registry.registryOverride with
  | some endpoints => pure endpoints
  | none =>
      match registry.authorityOf (baseForHost host) with
      | some authority => pure ⟨baseForHost host, authority⟩
      | none => ExceptT.mk .stalled

def probe (authority : String) : Fetch Unit := do
  let connected : Except (Option String) Unit ← ask (.connect authority)
  match connected with
  | .ok () => pure ()
  | .error (some e) => throw (.networkUnavailable (authority ++ ": " ++ e))
  | .error none => throw (.networkUnavailable (authority ++ ": connect timeout"))

/-! ## Tokens -/

def headManifest (base path tag : String) (token : Option String) : Fetch Response := do
  let sent : Except SendError Response ← ask (.headManifest base path tag token)
  match sent with
  | .ok response => pure response
  | .error e => throw (classifySendError e)

def askRealm (realm : String) (query : List (String × String))
    (basicAuth : Option (String × String)) : Fetch TokenResponse := do
  let sent : Except SendError TokenResponse ← ask (.requestToken realm query basicAuth)
  match sent with
  | .ok response => pure response
  | .error e => throw (classifySendError e)

/-- The token of a realm's response, and its lifetime. -/
def finishToken (response : TokenResponse) : Except RegistryError (String × Option Nat) :=
  if isErrorStatus response.status then .error (.http response.statusError)
  else
    match response.body with
    | .error text => .error (.http text)
    | .ok body =>
        match body.token.or body.accessToken with
        | none => .error (.auth "token response had no token field")
        | some token => .ok (token, body.expiresIn)

def tokenQuery (service : Option String) (scope : String) : List (String × String) :=
  (service.map ("service", ·)).toList ++ [("scope", scope)]

/-- What is sent of the credentials for a host. -/
def OciRegistry.basicAuth (registry : OciRegistry) (host : String) : Option (String × String) :=
  (registry.store.get host).map fun creds => (creds.username.getD "", creds.token)

/-- A realm refused the credentials that were sent: ask it without any. -/
def requestAnonymously (realm : String) (query : List (String × String)) (host : String) :
    Fetch (String × Option Nat) := do
  let response ← askRealm realm query none
  if isDenied response.status then throw (.credentialsRejected host)
  else MonadExcept.ofExcept (finishToken response)

/-- A token for a scope, from the realm of a challenge, with the credentials for the host. -/
def OciRegistry.requestToken (registry : OciRegistry) (realm : String) (service : Option String)
    (scope host : String) : Fetch (String × Option Nat) := do
  let query := tokenQuery service scope
  let response ← askRealm realm query (registry.basicAuth host)
  if isDenied response.status then
    if (registry.basicAuth host).isSome then requestAnonymously realm query host
    else throw (.auth ("token endpoint denied access (status " ++ deniedText response.status ++ ")"))
  else MonadExcept.ofExcept (finishToken response)

/-! ## Pull budgets -/

/-- The count of a budget header `<count>;w=<seconds>`. -/
def budgetCount (value : String) : Option Nat :=
  parseU64 (trim ((split value ';').headD ""))

/-- Is less than a tenth of the limit left? -/
def budgetLow (limit remaining : String) : Bool :=
  match budgetCount limit, budgetCount remaining with
  | some l, some r => min (r * 10) (2 ^ 64 - 1) < l
  | _, _ => false

/-- Note the pull budget that a response shows. -/
def logRateLimit (host : String) (response : Response) : Fetch Unit :=
  match response.headers "ratelimit-limit" with
  | none => pure ()
  | some limit => do
      let remaining := ((response.headers "ratelimit-remaining").bind id).getD "-"
      let _warn : Bool ← ask (.firstLowBudget host (budgetLow (limit.getD "?") remaining))
      pure ()

/-! ## A fetch -/

/-- The key of a repository's tokens. -/
def cacheKey (host path : String) : String :=
  host ++ "|" ++ ("repository:" ++ path ++ ":pull")

/-- The challenge of a response. -/
def challengeOf (response : Response) : Except RegistryError Challenge :=
  match ((response.headers "www-authenticate").bind id).bind parseWwwAuthenticate with
  | some challenge => .ok challenge
  | none => .error (.auth "registry returned 401 without a Bearer challenge")

/-- After a refusal: a token from the realm of the challenge, and the request again with it. -/
def OciRegistry.followChallenge (registry : OciRegistry) (host path base tag : String)
    (refused : Response) : Fetch Response := do
  let challenge ← MonadExcept.ofExcept (challengeOf refused)
  let (token, expiresIn) ←
    registry.requestToken challenge.realm challenge.service (tokenScope challenge path) host
  let _stored : Unit ← ask (.storeToken (cacheKey host path) token expiresIn)
  headManifest base path tag (some token)

/-- The response to go by: a refused request is made again. -/
def OciRegistry.lastResponse (registry : OciRegistry) (host path base tag : String)
    (first : Response) : Fetch Response :=
  if first.status = 401 then registry.followChallenge host path base tag first else pure first

/-- The digest of a last response. -/
def digestOf (host path : String) (response : Response) : Fetch String := do
  if isDenied response.status then
    throw (.auth ("registry denied access to " ++ host ++ "/" ++ path ++ " (status " ++
      deniedText response.status ++ ")"))
  else do
    logRateLimit host response
    if isErrorStatus response.status then throw (.http response.statusError)
    else
      match (response.headers "docker-content-digest").bind id with
      | none => throw .missingDigest
      | some digest => pure digest

/-- The digest that a registry serves for an image. -/
def OciRegistry.fetchDigest (registry : OciRegistry) (image : ImageRef) : Fetch String := do
  let (host, path) := splitRepository image.repository
  let endpoints ← registry.endpoints host
  probe endpoints.registryAuthority
  let token : Option String ← ask (.cachedToken (cacheKey host path))
  let first ← headManifest endpoints.registryBase path image.tag token
  let last ← registry.lastResponse host path endpoints.registryBase image.tag first
  digestOf host path last

/-! ## The shared state -/

/-- The first point of time, in nanoseconds, that the monotonic clock cannot hold. -/
def instantLimit : Nat := 2 ^ 63 * 1000000000

def defaultTtl : Duration := Duration.fromSecs 60

def expirySkew : Duration := Duration.fromSecs 5

structure CachedToken where
  token : String
  expiresAt : Nat
  deriving DecidableEq, Repr

/-- A token to cache: for its lifetime less the skew, and for a second at least. -/
def CachedToken.new (token : String) (expiresIn : Option Nat) (now : Nat) : CachedToken :=
  let ttl := (expiresIn.map Duration.fromSecs).getD defaultTtl
  let effective := max (ttl - expirySkew) (Duration.fromSecs 1)
  ⟨token, if now + effective < instantLimit then now + effective else now + defaultTtl⟩

/-- The token, unless it has expired. -/
def CachedToken.validToken (cached : CachedToken) (now : Nat) : Option String :=
  if now < cached.expiresAt then some cached.token else none

/-- What all fetches share, and the time. -/
structure SharedState where
  now : Nat
  tokenCache : SortedMap String CachedToken
  /-- The hosts that were warned about, until their budget recovers. -/
  lowBudget : List String

def SharedState.empty (now : Nat) : SharedState := ⟨now, .empty, []⟩

/-- The warned hosts, once a host's budget is seen to be low or not. -/
def noteBudget (host : String) (low : Bool) (warned : List String) : List String :=
  if low then host :: warned.filter (· ≠ host) else warned.filter (· ≠ host)

/-- How a call is answered. Time may pass before it is. -/
def serves : Answers RegistryCall RegistryCall.Reply SharedState
  | .cachedToken key, s, token, s' =>
      s.now ≤ s'.now ∧ s' = { s with now := s'.now } ∧
        token = (s.tokenCache.get? key).bind (·.validToken s'.now)
  | .storeToken key token expiresIn, s, _, s' =>
      s.now ≤ s'.now ∧ s' = { s with
        now := s'.now
        tokenCache := s.tokenCache.insert key (.new token expiresIn s'.now) }
  | .firstLowBudget host low, s, warn, s' =>
      s.now ≤ s'.now ∧ s' = { s with now := s'.now, lowBudget := noteBudget host low s.lowBudget } ∧
        warn = (low && !s.lowBudget.contains host)
  | .connect _, s, _, s' => s.now ≤ s'.now ∧ s' = { s with now := s'.now }
  | .headManifest .., s, _, s' => s.now ≤ s'.now ∧ s' = { s with now := s'.now }
  | .requestToken .., s, _, s' => s.now ≤ s'.now ∧ s' = { s with now := s'.now }

end Freshdock.Registry
