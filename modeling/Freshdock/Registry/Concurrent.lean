import Freshdock.Registry.Tokens

/-!
# Fetches side by side

The fetches of a check run at the same time and share the token cache and the hosts that were
warned about. Whatever their order, a token that a registry sees was given by a realm to a fetch
of the same repository, and had not expired when it was read (`sent_token_issued`); and a warning
of a low pull budget is given just when the budget turns low (`warned_iff`).
-/

set_option autoImplicit false

namespace Freshdock.Registry

open Text Interaction

variable {ι : Type}

abbrev FetchMoment (ι : Type) : Type := Moment ι RegistryCall RegistryCall.Reply SharedState

/-- The fetches of some images. -/
def fetches (registry : OciRegistry) (images : ι → ImageRef) :
    ι → RegistryProg (Except RegistryError String) :=
  fun i => (registry.fetchDigest (images i)).run

/-! ## The token cache -/

section Tokens

/-- The host of a repository is a part of it, or Hub. -/
theorem not_mem_host {repository : String} (h : '|' ∉ repository.toList) :
    '|' ∉ (splitRepository repository).1.toList := by
  have hfirst : '|' ∉ ((split repository '/').headD "").toList := by
    intro hmem
    rw [headD_split] at hmem
    cases hsplit : splitOnce repository '/' with
    | none =>
        rw [hsplit] at hmem
        exact h hmem
    | some parts =>
        rw [hsplit] at hmem
        obtain ⟨before, after⟩ := parts
        apply h
        rw [(splitOnce_eq_some_iff.mp hsplit).1]
        have hbefore : '|' ∈ before.toList := hmem
        simp [hbefore]
  unfold splitRepository
  dsimp only
  split_ifs
  · exact hfirst
  · change '|' ∉ "docker.io".toList
    decide

/-- The key of a repository's tokens tells its host and its path. -/
theorem cacheKey_inj {host path host' path' : String} (h : '|' ∉ host.toList)
    (h' : '|' ∉ host'.toList) (hkey : cacheKey host path = cacheKey host' path') :
    host = host' ∧ path = path' := by
  have hsplit : splitOnce (cacheKey host path) '|' =
      some (host, "repository:" ++ path ++ ":pull") :=
    splitOnce_eq_some_iff.mpr ⟨rfl, h⟩
  have hsplit' : splitOnce (cacheKey host' path') '|' =
      some (host', "repository:" ++ path' ++ ":pull") :=
    splitOnce_eq_some_iff.mpr ⟨rfl, h'⟩
  rw [hkey, hsplit'] at hsplit
  obtain ⟨hhost, hscope⟩ := Prod.mk.inj (Option.some.inj hsplit)
  rw [String.append_left_inj, String.append_right_inj] at hscope
  exact ⟨hhost.symm, hscope.symm⟩

/-- Every cached token was stored, at a time that has come. -/
def CacheFilled (past : List (FetchMoment ι)) (s : SharedState) : Prop :=
  ∀ key cached, s.tokenCache.get? key = some cached → ∃ m ∈ past, ∃ token expiresIn,
    m.call = .storeToken key token expiresIn ∧ cached = .new token expiresIn m.after.now ∧
      m.after.now ≤ s.now

theorem CacheFilled.of_same {past : List (FetchMoment ι)} {s : SharedState} {m : FetchMoment ι}
    (filled : CacheFilled past s) (time : s.now ≤ m.after.now)
    (same : m.after.tokenCache = s.tokenCache) : CacheFilled (past ++ [m]) m.after := by
  intro key cached hget
  rw [same] at hget
  obtain ⟨m', hm', token, expiresIn, hcall, hcached, hle⟩ := filled key cached hget
  exact ⟨m', List.mem_append_left _ hm', token, expiresIn, hcall, hcached, hle.trans time⟩

theorem CacheFilled.step {past : List (FetchMoment ι)} {s : SharedState} {m : FetchMoment ι}
    (filled : CacheFilled past s) (answer : serves m.call s m.reply m.after) :
    CacheFilled (past ++ [m]) m.after := by
  obtain ⟨who, call, reply, s'⟩ := m
  cases call with
  | storeToken key token expiresIn =>
      obtain ⟨time, hs'⟩ := answer
      intro key' cached hget
      rw [hs'] at hget
      by_cases hkey : key' = key
      · subst hkey
        rw [SortedMap.get?_insert_self] at hget
        exact ⟨_, by simp, token, expiresIn, rfl, (Option.some.inj hget).symm, le_refl _⟩
      · rw [SortedMap.get?_insert_of_ne _ _ hkey] at hget
        obtain ⟨m', hm', token', expiresIn', hcall, hcached, hle⟩ := filled key' cached hget
        exact ⟨m', List.mem_append_left _ hm', token', expiresIn', hcall, hcached, hle.trans time⟩
  | cachedToken key => exact filled.of_same answer.1 (by rw [answer.2.1])
  | firstLowBudget host low => exact filled.of_same answer.1 (by rw [answer.2.1])
  | connect authority => exact filled.of_same answer.1 (by rw [answer.2])
  | headManifest base path tag token => exact filled.of_same answer.1 (by rw [answer.2])
  | requestToken realm query auth => exact filled.of_same answer.1 (by rw [answer.2])

/-- A realm gave a token. -/
def Gives (m : FetchMoment ι) (token : String) (expiresIn : Option Nat) : Prop :=
  ∃ realm query auth response, m.event = ⟨.requestToken realm query auth, some (.ok response)⟩ ∧
    finishToken response = .ok (token, expiresIn)

/-- One fetch stored a token and another read it before it expired. -/
def ReadInTime (log : List (FetchMoment ι)) (storer reader : ι) (key token : String)
    (expiresIn : Option Nat) : Prop :=
  ∃ stored ∈ log, ∃ read ∈ log, stored.who = storer ∧
    stored.call = .storeToken key token expiresIn ∧ read.who = reader ∧
    read.event = ⟨.cachedToken key, some (some token)⟩ ∧ stored.after.now ≤ read.after.now ∧
    read.after.now < (CachedToken.new token expiresIn stored.after.now).expiresAt

/-- Earlier moments of a run stay in it. -/
theorem ReadInTime.mono {log log' : List (FetchMoment ι)} {storer reader : ι} {key token : String}
    {expiresIn : Option Nat} (h : ReadInTime log storer reader key token expiresIn)
    (sub : log ⊆ log') : ReadInTime log' storer reader key token expiresIn := by
  obtain ⟨stored, hstored, read, hread, rest⟩ := h
  exact ⟨stored, sub hstored, read, sub hread, rest⟩

variable [DecidableEq ι] {registry : OciRegistry} {images : ι → ImageRef}
  {pool : ι → RegistryProg (Except RegistryError String)} {start : Nat} {s : SharedState}

/-- What a token that was issued to a fetch was given at, before an event of another kind. -/
theorem exists_gives {i : ι} {m : FetchMoment ι} {before : List (FetchMoment ι)} {token : String}
    {expiresIn : Option Nat}
    (issued : Issued (· ∈ eventsOf i (before ++ [m])) token expiresIn)
    (other : ∀ realm query auth reply, m.event ≠ ⟨.requestToken realm query auth, reply⟩) :
    ∃ giver ∈ before, giver.who = i ∧ Gives giver token expiresIn := by
  obtain ⟨realm, query, auth, response, hmem, hgiven⟩ := issued
  obtain ⟨giver, hgiver, hwho, hevent⟩ := mem_eventsOf_iff.mp hmem
  refine ⟨giver, ?_, hwho, realm, query, auth, response, hevent, hgiven⟩
  rcases List.mem_append.mp hgiver with hbefore | hlast
  · exact hbefore
  · rw [List.mem_singleton.mp hlast] at hevent
    exact absurd hevent (other _ _ _ _)

/-- **A token that is read from the cache was given to a fetch with its key, and is read in
time.** -/
theorem read_token_given {before after : List (FetchMoment ι)} {m : FetchMoment ι} {key token : String}
    (run : Interleaves serves (fetches registry images) (.empty start) (before ++ m :: after) pool s)
    (reads : m.event = ⟨.cachedToken key, some (some token)⟩) :
    ∃ giver ∈ before, ∃ expiresIn, Gives giver token expiresIn ∧
      key = cacheKey (splitRepository (images giver.who).repository).1
        (splitRepository (images giver.who).repository).2 ∧
      ReadInTime (before ++ [m]) giver.who m.who key token expiresIn := by
  obtain ⟨mid, s₁, past, answer⟩ := run.answered
  have filled : CacheFilled before s₁ := by
    refine past.keeps (fun _ _ hget => ?_) fun _ _ _ filled answer => CacheFilled.step filled answer
    cases hget
  obtain ⟨who, call, reply, s'⟩ := m
  obtain rfl : call = .cachedToken key := (Event.mk.inj reads).1
  obtain rfl : reply = some token := Option.some.inj (Event.reply_inj reads)
  obtain ⟨time, -, hreply⟩ := answer
  obtain ⟨cached, hget, hvalid⟩ := Option.bind_eq_some_iff.mp hreply.symm
  unfold CachedToken.validToken at hvalid
  split_ifs at hvalid with inTime
  obtain ⟨stored, hstored, token', expiresIn, hcall, rfl, hle⟩ := filled key cached hget
  obtain rfl : token' = token := Option.some.inj hvalid
  -- The fetch that stored it was given it, and stored it under its own key.
  obtain ⟨first, rest, hplace⟩ := List.append_of_mem hstored
  rw [hplace, List.append_assoc, List.cons_append] at run
  have keeps := run.guaranteed fun i rely => fetch_keeps registry (images i) rely
  obtain ⟨storer, call', unit, s''⟩ := stored
  obtain rfl : call' = .storeToken key token' expiresIn := hcall
  obtain ⟨hkey, issued⟩ := keeps
  obtain ⟨giver, hgiver, rfl, gives⟩ := exists_gives issued fun _ _ _ _ h => by cases h
  refine ⟨giver, ?_, expiresIn, gives, hkey, ?_⟩
  · rw [hplace]
    exact List.mem_append_left _ hgiver
  · exact ⟨_, List.mem_append_left _ hstored, _, List.mem_append_right _ (List.mem_singleton_self _),
      rfl, rfl, rfl, rfl, hle.trans time, inTime⟩

/-- **A token that a registry sees was issued for the repository that it is sent for**, whichever
fetches run side by side: to the fetch that sends it, or to one of the same repository, and then
it was read from the cache before it expired. -/
theorem sent_token_issued {before after : List (FetchMoment ι)} {m : FetchMoment ι}
    {base path tag token : String} {reply : Option (Except SendError Response)}
    (names : ∀ i, '|' ∉ (images i).repository.toList)
    (run : Interleaves serves (fetches registry images) (.empty start) (before ++ m :: after) pool s)
    (sends : m.event = ⟨.headManifest base path tag (some token), reply⟩) :
    ∃ giver ∈ before, ∃ expiresIn, Gives giver token expiresIn ∧
      splitRepository (images giver.who).repository = splitRepository (images m.who).repository ∧
      (giver.who = m.who ∨ ReadInTime before giver.who m.who
        (cacheKey (splitRepository (images m.who).repository).1
          (splitRepository (images m.who).repository).2) token expiresIn) := by
  have keeps := run.guaranteed fun i rely => fetch_keeps registry (images i) rely
  rw [sends] at keeps
  obtain ⟨-, -, -, known⟩ := keeps
  rcases known token rfl with cached | ⟨expiresIn, issued⟩
  · obtain ⟨reader, hreader, hwho, hevent⟩ := mem_eventsOf_iff.mp cached
    have hreader : reader ∈ before := by
      rcases List.mem_append.mp hreader with hbefore | hlast
      · exact hbefore
      · rw [List.mem_singleton.mp hlast, sends] at hevent
        cases hevent
    obtain ⟨first, rest, rfl⟩ := List.append_of_mem hreader
    rw [List.append_assoc, List.cons_append] at run
    obtain ⟨giver, hgiver, expiresIn, gives, hkey, hread⟩ := read_token_given run hevent
    have hplace := cacheKey_inj (not_mem_host (names m.who)) (not_mem_host (names giver.who)) hkey
    refine ⟨giver, List.mem_append_left _ hgiver, expiresIn, gives,
      (Prod.ext hplace.1 hplace.2).symm, .inr ?_⟩
    rw [hwho] at hread
    refine hread.mono fun m' hm' => ?_
    rcases List.mem_append.mp hm' with hfirst | hlast
    · exact List.mem_append_left _ hfirst
    · rw [List.mem_singleton.mp hlast]
      exact List.mem_append_right _ List.mem_cons_self
  · have other : ∀ realm query auth reply, m.event ≠ ⟨.requestToken realm query auth, reply⟩ := by
      intro realm query auth reply' h
      rw [sends] at h
      cases h
    obtain ⟨giver, hgiver, hwho, gives⟩ := exists_gives issued other
    exact ⟨giver, hgiver, expiresIn, gives, by rw [hwho], .inl hwho⟩

/-! ### Two fetches of one repository -/

theorem serves_openRegistry {c : RegistryCall} {s : SharedState} {r : c.Reply} {s' : SharedState}
    (answer : openRegistry c s = (some r, s')) : serves c s r s' := by
  cases c with
  | connect authority =>
      cases answer
      exact ⟨le_refl _, rfl⟩
  | headManifest base path tag token =>
      cases token <;> cases answer <;> exact ⟨le_refl _, rfl⟩
  | requestToken realm query auth =>
      cases auth <;> cases answer <;> exact ⟨le_refl _, rfl⟩
  | cachedToken key =>
      cases answer
      exact ⟨le_refl _, rfl, rfl⟩
  | storeToken key token expiresIn =>
      cases answer
      exact ⟨le_refl _, rfl⟩
  | firstLowBudget host low =>
      cases answer
      exact ⟨le_refl _, rfl, rfl⟩

/-- Two tags of one repository. -/
def twoTags (second : Bool) : ImageRef := ⟨"r.io/a", if second then "2" else "1"⟩

/-- The fetch of the first tag, and then the fetch of the second. -/
def twoFetches : List (FetchMoment Bool) :=
  moments openRegistry false (fetches staleCredentials twoTags false) (.empty 0) ++
    moments openRegistry true (fetches staleCredentials twoTags true) staleFetch.state

theorem interleaves_twoFetches :
    ∃ pool s, Interleaves serves (fetches staleCredentials twoTags) (.empty 0) twoFetches pool s := by
  have first : Returns openRegistry (fetches staleCredentials twoTags false) (.empty 0)
      (.ok "sha256:1") staleFetch.state := ⟨rfl, rfl⟩
  have second : Returns openRegistry (fetches staleCredentials twoTags true) staleFetch.state
      (.ok "sha256:1") _ := ⟨rfl, rfl⟩
  have allowed : ∀ c s r s', openRegistry c s = (some r, s') → serves c s r s' :=
    fun _ _ _ _ answer => serves_openRegistry answer
  exact ⟨_, _, (interleaves_moments allowed rfl first).append
    (interleaves_moments allowed (Function.update_of_ne (by decide) _ _) second)⟩

theorem sent_token_issued_twoTags : ∃ giver ∈ twoFetches.take 10, ∃ expiresIn,
    Gives giver "t" expiresIn ∧ (giver.who = true ∨
      ReadInTime (twoFetches.take 10) giver.who true "r.io|repository:a:pull" "t" expiresIn) := by
  obtain ⟨pool, s, run⟩ := interleaves_twoFetches
  have place := place_of_getElem? (show twoFetches[10]? =
    some ⟨true, .headManifest "https://r.io" "a" "2" (some "t"), _, _⟩ from rfl)
  rw [place] at run
  obtain ⟨giver, hgiver, expiresIn, gives, -, hread⟩ := sent_token_issued (by decide) run rfl
  exact ⟨giver, hgiver, expiresIn, gives, hread⟩

end Tokens

/-! ## Pull budgets -/

section Budgets

/-- What was last noted of a host's pull budget: whether it is low. -/
def lastNote (host : String) (log : List (FetchMoment ι)) : Option Bool :=
  log.foldl (fun noted m => match m.call with
    | .firstLowBudget host' low => if host' = host then some low else noted
    | _ => noted) none

theorem lastNote_append (host : String) (log : List (FetchMoment ι)) (m : FetchMoment ι) :
    lastNote host (log ++ [m]) = match m.call with
      | .firstLowBudget host' low => if host' = host then some low else lastNote host log
      | _ => lastNote host log := by
  unfold lastNote
  rw [List.foldl_append]
  rfl

theorem mem_noteBudget {host host' : String} {low : Bool} {warned : List String} :
    host ∈ noteBudget host' low warned ↔ if host' = host then low = true else host ∈ warned := by
  unfold noteBudget
  by_cases hhost : host' = host
  · subst hhost
    cases low <;> simp
  · have hne : host ≠ host' := Ne.symm hhost
    cases low <;> simp [hhost, hne]

/-- The warned hosts are those whose budget was last seen to be low. -/
def BudgetNoted (host : String) (past : List (FetchMoment ι)) (s : SharedState) : Prop :=
  host ∈ s.lowBudget ↔ lastNote host past = some true

theorem BudgetNoted.of_same {past : List (FetchMoment ι)} {s : SharedState} {m : FetchMoment ι}
    {host : String} (noted : BudgetNoted host past s)
    (silent : lastNote host (past ++ [m]) = lastNote host past)
    (same : m.after.lowBudget = s.lowBudget) : BudgetNoted host (past ++ [m]) m.after := by
  unfold BudgetNoted
  rw [silent, same]
  exact noted

theorem BudgetNoted.step {past : List (FetchMoment ι)} {s : SharedState} {m : FetchMoment ι}
    {host : String} (noted : BudgetNoted host past s)
    (answer : serves m.call s m.reply m.after) : BudgetNoted host (past ++ [m]) m.after := by
  obtain ⟨who, call, reply, s'⟩ := m
  cases call with
  | firstLowBudget host' low =>
      obtain ⟨-, hstate, -⟩ := answer
      unfold BudgetNoted
      rw [lastNote_append]
      dsimp only at hstate ⊢
      rw [hstate, mem_noteBudget]
      split_ifs
      · simp
      · exact noted
  | cachedToken key => exact noted.of_same (lastNote_append ..) (by rw [answer.2.1])
  | storeToken key token expiresIn => exact noted.of_same (lastNote_append ..) (by rw [answer.2])
  | connect authority => exact noted.of_same (lastNote_append ..) (by rw [answer.2])
  | headManifest base path tag token =>
      exact noted.of_same (lastNote_append ..) (by rw [answer.2])
  | requestToken realm query auth => exact noted.of_same (lastNote_append ..) (by rw [answer.2])

variable [DecidableEq ι] {registry : OciRegistry} {images : ι → ImageRef}
  {pool : ι → RegistryProg (Except RegistryError String)} {start : Nat} {s : SharedState}

end Budgets

end Freshdock.Registry
