import Freshdock.Registry.Tokens
import Freshdock.System

/-!
# Where credentials go

Whatever freshdock does, credentials leave it in requests to realms only. Such a request follows a
refusal by the registry of an image, goes to the realm that the refusal names, and carries the
credentials that are configured for the host of the image (`credentials_confined`).
-/

set_option autoImplicit false

namespace Freshdock.System

open Interaction Registry Notify

variable {registry : OciRegistry} {targets : List Target} {α : Type} {p : Prog α}
  {below before after : List SystemEvent} {out : Option α}

/-- A request to a registry belongs to a fetch that freshdock made. -/
theorem place_in_fetch {e : RegistryEvent} (run : Produces (wired registry targets p) below out)
    (place : below = before ++ ofRegistry e :: after) :
    ∃ image first inner last reply,
      Produces (registry.fetchDigest image).run (inner ++ e :: last) reply ∧
        before = first ++ inner.map ofRegistry := by
  obtain ⟨events, -, carried⟩ := run.of_inline
  obtain ⟨first, inner, last, rest, rfl, rfl, ⟨c, reply⟩, -, hrun⟩ := carried.tiled.place place
  dsimp only at hrun
  generalize hall : inner ++ ofRegistry e :: last = all at hrun
  cases carriedOut hrun with
  | @fetched image asked _ hfetch =>
      obtain ⟨inner', rest', rfl, rfl, hrest⟩ := List.map_eq_append_iff.mp hall.symm
      obtain ⟨e', last', rfl, he, rfl⟩ := List.map_eq_cons_iff.mp hrest
      obtain rfl : e' = e := by
        obtain ⟨call, reply'⟩ := e'
        obtain ⟨call', reply''⟩ := e
        cases he
        rfl
      exact ⟨image, first, inner', last', _, hfetch, rfl⟩
  | @dispatched event sends _ hdispatch =>
      have hmem : ofRegistry e ∈ sends.map ofNotify := hall ▸ List.mem_append_right _ List.mem_cons_self
      obtain ⟨_, -, hother⟩ := List.mem_map.mp hmem
      cases hother
  | host _ _ hhost =>
      have hmem : ofRegistry e ∈ all := hall ▸ List.mem_append_right _ List.mem_cons_self
      rcases Produces.request_cases (c := SystemCall.host c) hhost with
        ⟨rfl, -⟩ | ⟨reply', rfl, -⟩
      · cases hmem
      · cases List.mem_singleton.mp hmem

/-- A request for a token follows a refusal, by the registry of an image's host, of a request for
the manifest of the image, to the realm that the refusal's challenge names; and it carries the
credentials for that host, or none after the realm refused these. -/
def Confined (registry : OciRegistry) (before : List SystemEvent) (realm : String)
    (query : List (String × String)) (auth : Option (String × String)) : Prop :=
  ∃ image : ImageRef,
    (∃ challenge,
      Challenged (fun e => ofRegistry e ∈ before)
        (registry.baseOf (splitRepository image.repository).1)
        (splitRepository image.repository).2 image.tag challenge ∧
      realm = challenge.realm ∧ query = tokenQuery challenge.service
        (tokenScope challenge (splitRepository image.repository).2)) ∧
    (auth = registry.basicAuth (splitRepository image.repository).1 ∨
      auth = none ∧ Refused (fun e => ofRegistry e ∈ before) realm query
        (registry.basicAuth (splitRepository image.repository).1))

/-- **Credentials are confined**, in every run of every program of freshdock. -/
theorem credentials_confined {realm : String} {query : List (String × String)}
    {auth : Option (String × String)} {reply : Option (Except SendError TokenResponse)}
    (run : Produces (wired registry targets p) below out)
    (place : below = before ++ ⟨.registry (.requestToken realm query auth), reply⟩ :: after) :
    Confined registry before realm query auth := by
  obtain ⟨image, first, inner, last, reply', hfetch, rfl⟩ :=
    place_in_fetch (e := ⟨.requestToken realm query auth, reply⟩) run place
  have earlier : ∀ e, e ∈ inner → ofRegistry e ∈ first ++ inner.map ofRegistry :=
    fun e he => List.mem_append_right _ (List.mem_map_of_mem he)
  obtain ⟨⟨challenge, ⟨token, response, hmem, status, hchallenge⟩, hrealm, hquery⟩, hauth⟩ :=
    fetch_confines hfetch rfl
  refine ⟨image, ⟨challenge, ⟨token, response, earlier _ hmem, status, hchallenge⟩, hrealm,
    hquery⟩, ?_⟩
  rcases hauth with hown | ⟨hnone, response', hmem', denied⟩
  · exact .inl hown
  · exact .inr ⟨hnone, response', earlier _ hmem', denied⟩

/-- The registry that is open to all, without a host. -/
def openSystem : Handler SystemCall SystemCall.Reply SharedState
  | .host _, s => (none, s)
  | .registry c, s => openRegistry c s
  | .notify _, s => (none, s)

/-- A fetch with credentials that the registry does not know. -/
def staleRun : Run SystemCall SystemCall.Reply SharedState (Except RegistryError String) :=
  play openSystem (wired staleCredentials [] (request (.fetchDigest ⟨"r.io/a", "1"⟩))) (.empty 0)

theorem credentials_confined_stale : Confined staleCredentials (staleRun.trace.take 4)
    "https://r/t" [("scope", "repository:a:pull")] none := by
  have place := place_of_getElem? (show staleRun.trace[4]? =
    some ⟨.registry (.requestToken "https://r/t" [("scope", "repository:a:pull")] none), _⟩
    from rfl)
  exact credentials_confined (play_produces openSystem
    (wired staleCredentials [] (request (.fetchDigest ⟨"r.io/a", "1"⟩))) (.empty 0)) place

end Freshdock.System
