import Freshdock.Foundation.Decimals
import Freshdock.Interaction.Count
import Freshdock.Interaction.Inline
import Freshdock.Registry.Fetch

/-!
# What a fetch asks of a registry

Whatever is answered, a fetch asks a realm for a token only after a refusal whose challenge names
the realm, with the credentials of its own host or, after these were refused, with none; and a
token that it sends is one it was just given or one it read from the cache (`emits_fetchDigest`).
It makes two requests for the manifest at most, and two for a token (`fetch_asks_little`).
-/

set_option autoImplicit false

namespace Freshdock.Registry

open Text Interaction

/-! ## What one fetch keeps to -/

section Guarantees

/-- A realm gave a token. -/
def Issued (rely : RegistryEvent → Prop) (token : String) (expiresIn : Option Nat) : Prop :=
  ∃ realm query auth response, rely ⟨.requestToken realm query auth, some (.ok response)⟩ ∧
    finishToken response = .ok (token, expiresIn)

/-- The base URL of the requests for images of a host. -/
def OciRegistry.baseOf (registry : OciRegistry) (host : String) : String :=
  match registry.registryOverride with
  | some endpoints => endpoints.registryBase
  | none => baseForHost host

/-- The registry at `base` refused a request for a manifest with a challenge. -/
def Challenged (rely : RegistryEvent → Prop) (base path tag : String) (challenge : Challenge) :
    Prop :=
  ∃ token response, rely ⟨.headManifest base path tag token, some (.ok response)⟩ ∧
    response.status = 401 ∧ challengeOf response = .ok challenge

/-- A realm refused the credentials that were sent to it. -/
def Refused (rely : RegistryEvent → Prop) (realm : String) (query : List (String × String))
    (auth : Option (String × String)) : Prop :=
  ∃ response, rely ⟨.requestToken realm query auth, some (.ok response)⟩ ∧
    isDenied response.status = true

/-- What a fetch of a tag of a repository keeps to. -/
def FetchKeeps (registry : OciRegistry) (host path tag : String) (rely : RegistryEvent → Prop) :
    RegistryEvent → Prop
  | ⟨.connect _, _⟩ => True
  | ⟨.headManifest base path' tag' token, _⟩ =>
      base = registry.baseOf host ∧ path' = path ∧ tag' = tag ∧ ∀ sent, token = some sent →
        rely ⟨.cachedToken (cacheKey host path), some (some sent)⟩ ∨
          ∃ expiresIn, Issued rely sent expiresIn
  | ⟨.requestToken realm query auth, _⟩ =>
      (∃ challenge, Challenged rely (registry.baseOf host) path tag challenge ∧
        realm = challenge.realm ∧
        query = tokenQuery challenge.service (tokenScope challenge path)) ∧
      (auth = registry.basicAuth host ∨
        auth = none ∧ Refused rely realm query (registry.basicAuth host))
  | ⟨.cachedToken key, _⟩ => key = cacheKey host path
  | ⟨.storeToken key token expiresIn, _⟩ =>
      key = cacheKey host path ∧ Issued rely token expiresIn
  | ⟨.firstLowBudget host' _, _⟩ => host' = host

variable {registry : OciRegistry} {host path tag : String} {rely : RegistryEvent → Prop}

/-- The rule for one call of a fetch. -/
theorem emits_ask_bind {α : Type} {guar : RegistryEvent → Prop} {c : RegistryCall}
    {k : c.Reply → Fetch α} {post : Except RegistryError α → Prop}
    (calls : ∀ reply, guar ⟨c, reply⟩)
    (rest : ∀ r, rely ⟨c, some r⟩ → Emits rely guar (k r).run post) :
    Emits rely guar (Registry.ask c >>= k).run post :=
  emits_lift_bind (emits_request calls fun _ hr => hr) rest

theorem emits_ofExcept {α : Type} {guar : RegistryEvent → Prop} (r : Except RegistryError α) :
    Emits rely guar (MonadExcept.ofExcept r : Fetch α).run fun r' => r' = r := by
  cases r <;> exact emits_done rfl

theorem emits_endpoints {guar : RegistryEvent → Prop} (host : String) :
    Emits rely guar (registry.endpoints host).run
      fun r => ∀ endpoints, r = .ok endpoints → endpoints.registryBase = registry.baseOf host := by
  unfold OciRegistry.endpoints OciRegistry.baseOf
  cases registry.registryOverride with
  | some endpoints =>
      apply emits_done
      rintro _ ⟨⟩
      rfl
  | none =>
      generalize baseForHost host = base
      cases registry.authorityOf base with
      | some authority =>
          apply emits_done
          rintro _ ⟨⟩
          rfl
      | none => exact emits_stalled

theorem emits_probe (authority : String) :
    Emits rely (FetchKeeps registry host path tag rely) (probe authority).run fun _ => True := by
  refine emits_ask_bind (fun _ => trivial) fun connected _ => ?_
  match connected with
  | .ok () => exact emits_done trivial
  | .error (some _) => exact emits_done trivial
  | .error none => exact emits_done trivial

theorem emits_headManifest {token : Option String}
    (known : ∀ sent, token = some sent →
      rely ⟨.cachedToken (cacheKey host path), some (some sent)⟩ ∨
        ∃ expiresIn, Issued rely sent expiresIn) :
    Emits rely (FetchKeeps registry host path tag rely)
      (headManifest (registry.baseOf host) path tag token).run
      fun r => ∀ response, r = .ok response →
        rely ⟨.headManifest (registry.baseOf host) path tag token, some (.ok response)⟩ := by
  refine emits_ask_bind (fun _ => ⟨rfl, rfl, rfl, known⟩) fun sent hsent => ?_
  cases sent with
  | ok response =>
      apply emits_done
      rintro _ ⟨⟩
      exact hsent
  | error e => exact emits_done nofun

theorem emits_askRealm {realm : String} {query : List (String × String)}
    {auth : Option (String × String)}
    (allowed : FetchKeeps registry host path tag rely ⟨.requestToken realm query auth, none⟩) :
    Emits rely (FetchKeeps registry host path tag rely) (askRealm realm query auth).run
      fun r => ∀ response, r = .ok response →
        rely ⟨.requestToken realm query auth, some (.ok response)⟩ := by
  refine emits_ask_bind (fun _ => allowed) fun sent hsent => ?_
  cases sent with
  | ok response =>
      apply emits_done
      rintro _ ⟨⟩
      exact hsent
  | error e => exact emits_done nofun

/-- What is read of a realm's response was given by it. -/
theorem emits_finishToken {guar : RegistryEvent → Prop} {realm : String}
    {query : List (String × String)} {auth : Option (String × String)} {response : TokenResponse}
    (answered : rely ⟨.requestToken realm query auth, some (.ok response)⟩) :
    Emits rely guar (MonadExcept.ofExcept (finishToken response) : Fetch (String × Option Nat)).run
      fun r => ∀ token expiresIn, r = .ok (token, expiresIn) → Issued rely token expiresIn :=
  (emits_ofExcept _).weaken fun _ hr _ _ hok =>
    ⟨realm, query, auth, response, answered, hr.symm.trans hok⟩

theorem emits_requestToken {challenge : Challenge}
    (challenged : Challenged rely (registry.baseOf host) path tag challenge) :
    Emits rely (FetchKeeps registry host path tag rely)
      (registry.requestToken challenge.realm challenge.service (tokenScope challenge path) host).run
      fun r => ∀ token expiresIn, r = .ok (token, expiresIn) → Issued rely token expiresIn := by
  refine emits_except_bind (emits_askRealm ⟨⟨challenge, challenged, rfl, rfl⟩, .inl rfl⟩)
    (fun _ => nofun) fun response answered => ?_
  split_ifs with denied creds
  · refine emits_except_bind
      (emits_askRealm ⟨⟨challenge, challenged, rfl, rfl⟩, .inr ⟨rfl, response, answered, denied⟩⟩)
      (fun _ => nofun) fun anonymous answered' => ?_
    split_ifs
    · exact emits_done nofun
    · exact emits_finishToken answered'
  · exact emits_done nofun
  · exact emits_finishToken answered

theorem emits_followChallenge {token : Option String} {refused : Response}
    (answered : rely ⟨.headManifest (registry.baseOf host) path tag token, some (.ok refused)⟩)
    (unauthorized : refused.status = 401) :
    Emits rely (FetchKeeps registry host path tag rely)
      (registry.followChallenge host path (registry.baseOf host) tag refused).run
      fun r => ∀ response, r = .ok response →
        ∃ token, rely ⟨.headManifest (registry.baseOf host) path tag token, some (.ok response)⟩ := by
  have read : Emits rely (FetchKeeps registry host path tag rely)
      (MonadExcept.ofExcept (challengeOf refused) : Fetch Challenge).run
      fun r => ∀ challenge, r = .ok challenge → challengeOf refused = .ok challenge :=
    (emits_ofExcept _).weaken fun _ hr _ hok => hr.symm.trans hok
  refine emits_except_bind read (fun _ => nofun) fun challenge hchallenge => ?_
  have challenged : Challenged rely (registry.baseOf host) path tag challenge :=
    ⟨token, refused, answered, unauthorized, hchallenge⟩
  have gives : Emits rely (FetchKeeps registry host path tag rely)
      (registry.requestToken challenge.realm challenge.service (tokenScope challenge path) host).run
      fun r => ∀ given : String × Option Nat, r = .ok given → Issued rely given.1 given.2 :=
    (emits_requestToken challenged).weaken fun _ hr given hok => hr _ _ hok
  refine emits_except_bind gives (fun _ => nofun) fun given issued => ?_
  refine emits_ask_bind (fun _ => ⟨rfl, issued⟩) fun _ _ => ?_
  refine (emits_headManifest ?_).weaken fun _ hr response hok => ⟨_, hr response hok⟩
  rintro _ ⟨⟩
  exact .inr ⟨_, issued⟩

theorem emits_lastResponse {token : Option String} {first : Response}
    (answered : rely ⟨.headManifest (registry.baseOf host) path tag token, some (.ok first)⟩) :
    Emits rely (FetchKeeps registry host path tag rely)
      (registry.lastResponse host path (registry.baseOf host) tag first).run
      fun r => ∀ last, r = .ok last →
        ∃ token, rely ⟨.headManifest (registry.baseOf host) path tag token, some (.ok last)⟩ := by
  unfold OciRegistry.lastResponse
  split_ifs with unauthorized
  · exact emits_followChallenge answered unauthorized
  · apply emits_done
    rintro _ ⟨⟩
    exact ⟨token, answered⟩

theorem emits_logRateLimit (response : Response) :
    Emits rely (FetchKeeps registry host path tag rely) (logRateLimit host response).run
      fun _ => True := by
  unfold logRateLimit
  split
  · exact emits_done trivial
  · exact emits_ask_bind (fun _ => rfl) fun _ _ => emits_done trivial

/-- A digest is read from a header of a response that is no error. -/
def Serves (response : Response) (digest : String) : Prop :=
  isDenied response.status = false ∧ isErrorStatus response.status = false ∧
    response.headers "docker-content-digest" = some (some digest)

theorem emits_digestOf (response : Response) :
    Emits rely (FetchKeeps registry host path tag rely) (digestOf host path response).run
      fun r => ∀ digest, r = .ok digest → Serves response digest := by
  unfold digestOf
  by_cases denied : isDenied response.status = true
  · rw [if_pos denied]
    exact emits_done nofun
  rw [if_neg denied]
  refine emits_except_bind ((emits_logRateLimit response).weaken fun _ _ _ _ => trivial)
    (fun _ => nofun) fun _ _ => ?_
  split_ifs with failed
  · exact emits_done nofun
  · split
    · exact emits_done nofun
    · rename_i digest hdigest
      apply emits_done
      rintro _ ⟨⟩
      refine ⟨by simpa using denied, by simpa using failed, ?_⟩
      simpa [Option.bind_eq_some_iff] using hdigest

/-- **What a fetch keeps to**, whatever is answered, and what its digest is. -/
theorem emits_fetchDigest (image : ImageRef) :
    Emits rely
      (FetchKeeps registry (splitRepository image.repository).1
        (splitRepository image.repository).2 image.tag rely)
      (registry.fetchDigest image).run
      fun r => ∀ digest, r = .ok digest → ∃ base token response,
        rely ⟨.headManifest base (splitRepository image.repository).2 image.tag token,
          some (.ok response)⟩ ∧ Serves response digest := by
  unfold OciRegistry.fetchDigest
  obtain ⟨host, path⟩ := splitRepository image.repository
  refine emits_except_bind (emits_endpoints host) (fun _ => nofun) fun endpoints hbase => ?_
  refine emits_except_bind ((emits_probe _).weaken fun _ _ _ _ => trivial) (fun _ => nofun)
    fun _ _ => ?_
  refine emits_ask_bind (fun _ => rfl) fun token cached => ?_
  rw [hbase]
  refine emits_except_bind (emits_headManifest fun sent hsent => .inl (hsent ▸ cached))
    (fun _ => nofun) fun first answered => ?_
  refine emits_except_bind (emits_lastResponse answered) (fun _ => nofun) fun last hlast => ?_
  obtain ⟨token', hlast⟩ := hlast
  exact (emits_digestOf last).weaken fun _ hr digest hok =>
    ⟨_, token', last, hlast, hr digest hok⟩

/-- Every event of a fetch keeps to it. -/
theorem fetch_keeps (registry : OciRegistry) (image : ImageRef) (rely : RegistryEvent → Prop) :
    Emits rely
      (FetchKeeps registry (splitRepository image.repository).1
        (splitRepository image.repository).2 image.tag rely)
      (registry.fetchDigest image).run fun _ => True :=
  (emits_fetchDigest image).weaken fun _ _ => trivial

end Guarantees

/-! ## The response a fetch goes by -/

section WentBy

variable {registry : OciRegistry} {image : ImageRef} {host path tag : String}

/-- A note of a pull budget. -/
def IsNote (e : RegistryEvent) : Prop := ∃ host low, e.call = .firstLowBudget host low

/-- The events end with a response to a request for a manifest. -/
def EndsWith (base path tag : String) (response : Response) (events : List RegistryEvent) : Prop :=
  ∃ front token, events = front ++ [⟨.headManifest base path tag token, some (.ok response)⟩]

/-- The program notes no budget, and what it returns is the response that its events end with. -/
def Responds (base path tag : String) (m : Fetch Response) : Prop :=
  ∀ events out, Produces m.run events out → (∀ e ∈ events, ¬ IsNote e) ∧
    ∀ response, out = some (.ok response) → EndsWith base path tag response events

theorem EndsWith.after {base : String} {response : Response} {events : List RegistryEvent}
    (h : EndsWith base path tag response events) (first : List RegistryEvent) :
    EndsWith base path tag response (first ++ events) := by
  obtain ⟨front, token, rfl⟩ := h
  exact ⟨first ++ front, token, (List.append_assoc ..).symm⟩

/-- The rule for a part that notes nothing. -/
theorem Responds.after {α : Type} {base : String} {m : Fetch α} {k : α → Fetch Response}
    {mid : α → Prop}
    (quiet : Emits (fun _ => True) (fun e => ¬ IsNote e) m.run fun r => ∀ a, r = .ok a → mid a)
    (rest : ∀ a, mid a → Responds base path tag (k a)) : Responds base path tag (m >>= k) := by
  intro events out produced
  rcases produced.of_except_bind with ⟨rfl, hm⟩ | ⟨e, hout, hm⟩ | ⟨first, a, more, rfl, hm, hk⟩
  · exact ⟨(quiet _ _ hm fun _ _ => trivial).1, fun _ h => by cases h⟩
  · refine ⟨(quiet _ _ hm fun _ _ => trivial).1, fun response h => ?_⟩
    rcases hout with rfl | rfl <;> cases h
  · obtain ⟨hquiet, hmid⟩ := quiet _ _ hm fun _ _ => trivial
    obtain ⟨hmore, ends⟩ := rest a (hmid _ rfl a rfl) more out hk
    refine ⟨fun e he => ?_, fun response h => (ends response h).after first⟩
    rcases List.mem_append.mp he with he | he
    · exact hquiet e he
    · exact hmore e he

/-- A fetch up to the response that it goes by. -/
def OciRegistry.answered (registry : OciRegistry) (image : ImageRef) : Fetch Response := do
  let (host, path) := splitRepository image.repository
  let endpoints ← registry.endpoints host
  probe endpoints.registryAuthority
  let token : Option String ← ask (.cachedToken (cacheKey host path))
  let first ← headManifest endpoints.registryBase path image.tag token
  registry.lastResponse host path endpoints.registryBase image.tag first

end WentBy

/-! ## How much a fetch asks -/

section Counts

variable {registry : OciRegistry} {hit : RegistryEvent → Bool}

/-- What the calls of a fetch to `host` count for: a manifest request for `h` at most, a first
token request for `t`, one without the credentials that were refused for `a`, and any other call
for nothing. -/
structure Weighs (hit : RegistryEvent → Bool) (auth : Option (String × String)) (h t a : Nat) :
    Prop where
  head : ∀ base path tag token, AtMost hit h (Program.request (.headManifest base path tag token))
  first : ∀ realm query, AtMost hit t (Program.request (.requestToken realm query auth))
  anonymous : auth.isSome = true →
    ∀ realm query, AtMost hit a (Program.request (.requestToken realm query none))
  connect : ∀ authority reply, hit ⟨.connect authority, reply⟩ = false
  cached : ∀ key reply, hit ⟨.cachedToken key, reply⟩ = false
  store : ∀ key token expiresIn reply, hit ⟨.storeToken key token expiresIn, reply⟩ = false
  budget : ∀ host low reply, hit ⟨.firstLowBudget host low, reply⟩ = false

/-- A call that is never hit counts for nothing. -/
theorem atMost_missed {c : RegistryCall} (missed : ∀ reply, hit ⟨c, reply⟩ = false) :
    AtMost hit 0 (Program.request c : RegistryProg c.Reply) := by
  have asks : Emits (fun _ => True) (fun e => e.call = c)
      (Program.request c : RegistryProg c.Reply) fun _ => True :=
    emits_request (fun _ => rfl) fun _ _ => trivial
  refine atMost_of_emits ?_ asks
  rintro ⟨_, reply⟩ rfl
  exact missed reply

/-- The rule for a call that is never hit. -/
theorem atMost_ask_bind {α : Type} {n : Nat} {c : RegistryCall} {k : c.Reply → Fetch α}
    (missed : ∀ reply, hit ⟨c, reply⟩ = false) (rest : ∀ r, AtMost hit n (k r).run) :
    AtMost hit n (Registry.ask c >>= k).run := by
  have hsum := atMost_lift_bind (atMost_missed missed) rest
  rwa [Nat.zero_add] at hsum

theorem atMost_ofExcept {α : Type} (r : Except RegistryError α) :
    AtMost hit 0 (MonadExcept.ofExcept r : Fetch α).run := by
  cases r <;> exact atMost_done _

theorem atMost_probe {auth : Option (String × String)} {h t a : Nat}
    (weighs : Weighs hit auth h t a) (authority : String) :
    AtMost hit 0 (probe authority).run := by
  refine atMost_ask_bind (weighs.connect authority) fun connected => ?_
  match connected with
  | .ok () => exact atMost_done _
  | .error (some _) => exact atMost_done _
  | .error none => exact atMost_done _

theorem atMost_headManifest {auth : Option (String × String)} {h t a : Nat}
    (weighs : Weighs hit auth h t a) (base path tag : String) (token : Option String) :
    AtMost hit h (headManifest base path tag token).run := by
  refine atMost_lift_bind (n := 0) (weighs.head base path tag token) fun sent => ?_
  cases sent <;> exact atMost_done _

theorem atMost_askRealm {n : Nat} {realm : String} {query : List (String × String)}
    {auth : Option (String × String)}
    (h : AtMost hit n (Program.request (.requestToken realm query auth))) :
    AtMost hit n (askRealm realm query auth).run := by
  refine atMost_lift_bind (n := 0) h fun sent => ?_
  cases sent <;> exact atMost_done _

variable {host : String} {h t a : Nat}

theorem atMost_requestToken (weighs : Weighs hit (registry.basicAuth host) h t a) (realm : String)
    (service : Option String) (scope : String) :
    AtMost hit (t + a) (registry.requestToken realm service scope host).run := by
  refine atMost_except_bind (atMost_askRealm (weighs.first realm _)) fun response => ?_
  split_ifs with denied creds
  · refine atMost_except_bind (n := 0) (atMost_askRealm (weighs.anonymous creds realm _))
      fun anonymous => ?_
    split_ifs
    · exact atMost_done _
    · exact atMost_ofExcept _
  · exact (atMost_done _).mono (Nat.zero_le a)
  · exact (atMost_ofExcept _).mono (Nat.zero_le a)

theorem atMost_lastResponse (weighs : Weighs hit (registry.basicAuth host) h t a)
    (path base tag : String) (first : Response) :
    AtMost hit (t + a + h) (registry.lastResponse host path base tag first).run := by
  unfold OciRegistry.lastResponse
  split_ifs
  · have hfollow : AtMost hit (0 + (t + a + h))
        (registry.followChallenge host path base tag first).run := by
      refine atMost_except_bind (atMost_ofExcept _) fun challenge => ?_
      refine atMost_except_bind (atMost_requestToken weighs _ _ _) fun given => ?_
      exact atMost_ask_bind (weighs.store _ _ _) fun _ => atMost_headManifest weighs _ _ _ _
    rwa [Nat.zero_add] at hfollow
  · exact (atMost_done _).mono (Nat.zero_le _)

theorem atMost_digestOf (weighs : Weighs hit (registry.basicAuth host) h t a) (path : String)
    (response : Response) : AtMost hit 0 (digestOf host path response).run := by
  unfold digestOf
  by_cases denied : isDenied response.status = true
  · rw [if_pos denied]
    exact atMost_done _
  rw [if_neg denied]
  have hlog : AtMost hit 0 (logRateLimit host response).run := by
    unfold logRateLimit
    split
    · exact atMost_done _
    · exact atMost_ask_bind (weighs.budget _ _) fun _ => atMost_done _
  refine atMost_except_bind (m := 0) (n := 0) hlog fun _ => ?_
  split_ifs
  · exact atMost_done _
  · split <;> exact atMost_done _

/-- **A fetch makes two manifest requests and two token requests at most**, weighed by what they
count for. -/
theorem atMost_fetchDigest (image : ImageRef)
    (weighs : Weighs hit (registry.basicAuth (splitRepository image.repository).1) h t a) :
    AtMost hit (h + (t + a + h)) (registry.fetchDigest image).run := by
  unfold OciRegistry.fetchDigest
  generalize splitRepository image.repository = place at weighs ⊢
  obtain ⟨host, path⟩ := place
  have hfetch : AtMost hit (0 + (0 + (h + (t + a + h + 0)))) (do
      let endpoints ← registry.endpoints host
      probe endpoints.registryAuthority
      let token : Option String ← Registry.ask (.cachedToken (cacheKey host path))
      let first ← headManifest endpoints.registryBase path image.tag token
      let last ← registry.lastResponse host path endpoints.registryBase image.tag first
      digestOf host path last : Fetch String).run := by
    refine atMost_except_bind ?_ fun endpoints => ?_
    · unfold OciRegistry.endpoints
      split
      · exact atMost_done _
      · split
        · exact atMost_done _
        · intro events out produced
          cases produced
          exact Nat.le_refl 0
    refine atMost_except_bind (atMost_probe weighs _) fun _ => ?_
    refine atMost_ask_bind (weighs.cached _) fun token => ?_
    refine atMost_except_bind (atMost_headManifest weighs _ _ _ _) fun first => ?_
    exact atMost_except_bind (atMost_lastResponse weighs _ _ _ _) fun last =>
      atMost_digestOf weighs _ _
  simpa only [Nat.zero_add, Nat.add_zero] using hfetch

end Counts

/-! ## The requests of a fetch -/

def isManifestRequest : RegistryEvent → Bool
  | ⟨.headManifest .., _⟩ => true
  | _ => false

def isTokenRequest : RegistryEvent → Bool
  | ⟨.requestToken .., _⟩ => true
  | _ => false

/-- Is this a token request with credentials? -/
def showsCredentials : RegistryEvent → Bool
  | ⟨.requestToken _ _ auth, _⟩ => auth.isSome
  | _ => false

/-! ### A registry to try a fetch against -/

/-- A registry that is open to all, whose realm refuses credentials. -/
def openRegistry : Handler RegistryCall RegistryCall.Reply SharedState
  | .connect _, s => (some (.ok ()), s)
  | .headManifest _ _ _ none, s =>
      let headers := fun name =>
        if name = "www-authenticate" then some (some "Bearer realm=\"https://r/t\"") else none
      (some (.ok ⟨401, "401 Unauthorized", headers⟩), s)
  | .headManifest _ _ _ (some _), s =>
      let headers := fun name =>
        if name = "docker-content-digest" then some (some "sha256:1")
        else if name = "ratelimit-limit" then some (some "100;w=60")
        else if name = "ratelimit-remaining" then some (some "9;w=60")
        else none
      (some (.ok ⟨200, "", headers⟩), s)
  | .requestToken _ _ (some _), s => (some (.ok ⟨401, "401 Unauthorized", .error ""⟩), s)
  | .requestToken _ _ none, s => (some (.ok ⟨200, "", .ok ⟨some "t", none, none⟩⟩), s)
  | .cachedToken key, s => (some ((s.tokenCache.get? key).bind (·.validToken s.now)), s)
  | .storeToken key token expiresIn, s =>
      (some (), { s with tokenCache := s.tokenCache.insert key (.new token expiresIn s.now) })
  | .firstLowBudget host low, s =>
      (some (low && !s.lowBudget.contains host),
        { s with lowBudget := noteBudget host low s.lowBudget })

/-- Credentials for the registry, which it does not know. -/
def staleCredentials : OciRegistry where
  store := ⟨SortedMap.empty.insert "r.io" ⟨none, "s"⟩⟩
  registryOverride := none
  authorityOf := fun _ => some "r.io:443"

/-- A fetch with them. -/
def staleFetch : Run RegistryCall RegistryCall.Reply SharedState (Except RegistryError String) :=
  play openRegistry (staleCredentials.fetchDigest ⟨"r.io/a", "1"⟩).run (.empty 0)

section Requests

variable {registry : OciRegistry} {image : ImageRef} {events : List RegistryEvent}
  {out : Option (Except RegistryError String)}

theorem atMost_manifests (image : ImageRef) :
    AtMost isManifestRequest 2 (registry.fetchDigest image).run :=
  atMost_fetchDigest (h := 1) (t := 0) (a := 0) image
    ⟨fun _ _ _ _ => atMost_request _, fun _ _ => atMost_missed fun _ => rfl,
      fun _ _ _ => atMost_missed fun _ => rfl, fun _ _ => rfl, fun _ _ => rfl,
      fun _ _ _ _ => rfl, fun _ _ _ => rfl⟩

theorem atMost_tokens (image : ImageRef) :
    AtMost isTokenRequest 2 (registry.fetchDigest image).run :=
  atMost_fetchDigest (h := 0) (t := 1) (a := 1) image
    ⟨fun _ _ _ _ => atMost_missed fun _ => rfl, fun _ _ => atMost_request _,
      fun _ _ _ => atMost_request _, fun _ _ => rfl, fun _ _ => rfl,
      fun _ _ _ _ => rfl, fun _ _ _ => rfl⟩

/-- The second request for a token is anonymous. -/
theorem atMost_credentials (image : ImageRef) :
    AtMost showsCredentials 1 (registry.fetchDigest image).run :=
  atMost_fetchDigest (h := 0) (t := 1) (a := 0) image
    ⟨fun _ _ _ _ => atMost_missed fun _ => rfl, fun _ _ => atMost_request _,
      fun _ _ _ => atMost_missed fun _ => rfl, fun _ _ => rfl, fun _ _ => rfl,
      fun _ _ _ _ => rfl, fun _ _ _ => rfl⟩

/-- **A fetch asks little**: twice for the manifest, twice for a token, and with credentials once,
whatever is answered. A digest that it returns was served for its own image. -/
theorem fetch_asks_little (produced : Produces (registry.fetchDigest image).run events out) :
    events.countP isManifestRequest ≤ 2 ∧ events.countP isTokenRequest ≤ 2 ∧
      events.countP showsCredentials ≤ 1 ∧
      ∀ digest, out = some (.ok digest) → ∃ base token response,
        ⟨.headManifest base (splitRepository image.repository).2 image.tag token,
          some (.ok response)⟩ ∈ events ∧ Serves response digest := by
  refine ⟨atMost_manifests image events out produced, atMost_tokens image events out produced,
    atMost_credentials image events out produced, fun digest hout => ?_⟩
  exact (emits_fetchDigest image events out produced fun _ he => he).2 _ hout digest rfl

theorem fetch_asks_little_stale : staleFetch.out = some (.ok "sha256:1") ∧
    staleFetch.trace.countP isManifestRequest ≤ 2 ∧ staleFetch.trace.countP isTokenRequest ≤ 2 ∧
      staleFetch.trace.countP showsCredentials ≤ 1 := by
  have asks := fetch_asks_little (play_produces openRegistry
    (staleCredentials.fetchDigest ⟨"r.io/a", "1"⟩).run (.empty 0))
  exact ⟨rfl, asks.1, asks.2.1, asks.2.2.1⟩

/-- **A fetch shows credentials to the realm of their own host only**: every token request follows
a refusal, by the registry of the image's host, of a manifest request for the image, to the realm
that the refusal's challenge names, with the credentials for that host, or without any after these
were refused. -/
theorem fetch_confines (produced : Produces (registry.fetchDigest image).run events out)
    {before after : List RegistryEvent} {realm : String} {query : List (String × String)}
    {auth : Option (String × String)}
    {reply : Option (RegistryCall.requestToken realm query auth).Reply}
    (place : events = before ++ ⟨.requestToken realm query auth, reply⟩ :: after) :
    (∃ challenge,
      Challenged (· ∈ before) (registry.baseOf (splitRepository image.repository).1)
        (splitRepository image.repository).2 image.tag challenge ∧
        realm = challenge.realm ∧ query = tokenQuery challenge.service
          (tokenScope challenge (splitRepository image.repository).2)) ∧
      (auth = registry.basicAuth (splitRepository image.repository).1 ∨
        auth = none ∧ Refused (· ∈ before) realm query
          (registry.basicAuth (splitRepository image.repository).1)) := by
  have keeps := emits_at_place (fetch_keeps registry image) produced place
  obtain ⟨⟨challenge, ⟨token, response, hmem, status, hchallenge⟩, hrealm, hquery⟩, hauth⟩ :=
    keeps
  refine ⟨⟨challenge, ⟨token, response, ?_, status, hchallenge⟩, hrealm, hquery⟩, ?_⟩
  · simpa using hmem
  rcases hauth with hauth | ⟨rfl, response', hmem', denied⟩
  · exact .inl hauth
  · cases hcreds : registry.basicAuth (splitRepository image.repository).1 with
    | none => exact .inl rfl
    | some creds =>
        rw [hcreds] at hmem'
        exact .inr ⟨rfl, response', by simpa using hmem', denied⟩

end Requests

end Freshdock.Registry
