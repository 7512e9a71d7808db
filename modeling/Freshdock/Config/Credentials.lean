import Freshdock.Config.Notifications
import Freshdock.Foundation.LastWins

/-!
# Registry credentials

The credentials of a registry host, from the tables of the config file and the
`FRESHDOCK_REGISTRY_*` variables. Several spellings stand for one host, and of the tables and of
the variables for it the last one counts, field by field, a variable before a table
(`buildStore_get`). So the credentials are the same in every order unless two of those that count
differ (`credentials_resolved`).

**Outside code.** The order in which the hash maps are visited is a parameter (`StoreOrder`).
-/

set_option autoImplicit false

namespace Freshdock.Config

open Text

structure RegistryCredentials where
  username : Option String
  token : String
  deriving DecidableEq, Repr

/-- The one spelling of a registry host. -/
def canonicalizeHost (key : String) : String :=
  let folded := toAsciiLowercase (trim key)
  if folded = "dockerhub" ∨ folded = "docker" ∨ folded = "docker.io" ∨
      folded = "registry-1.docker.io" ∨ folded = "index.docker.io" then "docker.io"
  else if folded = "ghcr" ∨ folded = "ghcr.io" then "ghcr.io"
  else if folded = "quay" ∨ folded = "quay.io" then "quay.io"
  else if folded = "lscr" ∨ folded = "lscr.io" then "lscr.io"
  else folded

/-- Credentials by the one spelling of their host. -/
structure CredentialStore where
  byHost : SortedMap String RegistryCredentials

/-- The credentials for a registry host in any spelling. -/
def CredentialStore.get (store : CredentialStore) (host : String) : Option RegistryCredentials :=
  store.byHost.get? (canonicalizeHost host)

abbrev Registries : Type := SortedMap String RegistryCredentials

/-- A host, and the username and the token that the environment has for it. -/
abbrev PartialCredentials : Type := String × Option String × Option String

/-- In which order the entries of the hash maps are visited. -/
structure StoreOrder where
  tables : List (String × RegistryCredentials) → List (String × RegistryCredentials)
  partials : List PartialCredentials → List PartialCredentials
  tables_perm : ∀ l, (tables l).Perm l
  partials_perm : ∀ l, (partials l).Perm l

def registryPrefix : String := "FRESHDOCK_REGISTRY_"

/-- Put one variable to the credentials of the environment. -/
def gatherCredential (env : SortedMap String (Option String × Option String))
    (var : String × String) : SortedMap String (Option String × Option String) :=
  match stripPrefix var.1 registryPrefix with
  | none => env
  | some rest =>
      match namedSuffix rest "_USERNAME" with
      | some name => env.alter (canonicalizeHost (toAsciiLowercase name))
          fun creds => (some var.2, (creds.getD (none, none)).2)
      | none =>
          match namedSuffix rest "_TOKEN" with
          | some name => env.alter (canonicalizeHost (toAsciiLowercase name))
              fun creds => ((creds.getD (none, none)).1, some var.2)
          | none => env

/-- Put the environment's credentials for one host over the file's. A username without any token
is ignored. -/
def overlayCredentials (byHost : Registries) (entry : PartialCredentials) : Registries :=
  match byHost.get? entry.1 with
  | some existing =>
      byHost.insert entry.1 ⟨entry.2.1.or existing.username, entry.2.2.getD existing.token⟩
  | none =>
      match entry.2.2 with
      | some token => byHost.insert entry.1 ⟨entry.2.1, token⟩
      | none => byHost

/-- The store of the file's tables and of the environment. -/
def buildStore (order : StoreOrder) (registry : Registries) (env : List (String × String)) :
    CredentialStore :=
  let byHost : Registries := (order.tables registry.entries).foldl
    (fun byHost table => byHost.insert (canonicalizeHost table.1) table.2) .empty
  let partials := env.foldl gatherCredential .empty
  ⟨(order.partials partials.entries).foldl overlayCredentials byHost⟩

/-! ## What the file and the environment have for a host -/

/-- The tables for a host. -/
def tablesFor (host : String) (tables : List (String × RegistryCredentials)) :
    List RegistryCredentials :=
  tables.filterMap fun table => if canonicalizeHost table.1 = host then some table.2 else none

/-- The host that a variable with a suffix is for. -/
def hostOfVar (suffix : String) (var : String × String) : Option String :=
  ((stripPrefix var.1 registryPrefix).bind (namedSuffix · suffix)).map fun name =>
    canonicalizeHost (toAsciiLowercase name)

/-- The values that the variables with a suffix give a host. -/
def envValues (suffix host : String) (env : List (String × String)) : List String :=
  env.filterMap fun var => if hostOfVar suffix var = some host then some var.2 else none

/-- **The credentials for a host**, field by field: the environment's, or else the file's, and
none without a token. -/
def mergeCredentials (file : Option RegistryCredentials) (env : Option String × Option String) :
    Option RegistryCredentials :=
  match file, env.2 with
  | some existing, token => some ⟨env.1.or existing.username, token.getD existing.token⟩
  | none, some token => some ⟨env.1, token⟩
  | none, none => none

/-! ## Building the store -/

theorem hostOfVar_token {var : String × String} {host : String}
    (h : hostOfVar "_TOKEN" var = some host) : hostOfVar "_USERNAME" var = none := by
  unfold hostOfVar at h ⊢
  cases hrest : stripPrefix var.1 registryPrefix with
  | none => rfl
  | some rest =>
      rw [hrest, Option.bind_some, Option.map_eq_some_iff] at h
      obtain ⟨name, hname, -⟩ := h
      have htoken : rest.toList.getLast? = some 'N' := by
        rw [(namedSuffix_eq_some_iff.mp hname).1]
        simp
      rw [Option.bind_some, Option.map_eq_none_iff]
      cases husername : namedSuffix rest "_USERNAME" with
      | none => rfl
      | some name' =>
          rw [(namedSuffix_eq_some_iff.mp husername).1] at htoken
          simp at htoken

theorem gatherCredential_eq (creds : SortedMap String (Option String × Option String))
    (var : String × String) : gatherCredential creds var =
      match hostOfVar "_USERNAME" var with
      | some host => creds.alter host fun creds => (some var.2, (creds.getD (none, none)).2)
      | none =>
          match hostOfVar "_TOKEN" var with
          | some host => creds.alter host fun creds => ((creds.getD (none, none)).1, some var.2)
          | none => creds := by
  unfold gatherCredential hostOfVar
  cases stripPrefix var.1 registryPrefix with
  | none => rfl
  | some rest =>
      simp only [Option.bind_some]
      cases namedSuffix rest "_USERNAME" with
      | some name => rfl
      | none => cases namedSuffix rest "_TOKEN" <;> rfl

theorem envValues_append (suffix host : String) (env : List (String × String))
    (var : String × String) : envValues suffix host (env ++ [var]) =
      envValues suffix host env ++ if hostOfVar suffix var = some host then [var.2] else [] := by
  rw [envValues, List.filterMap_append]
  split_ifs with h <;> simp [h, envValues]

/-- **The last variables for a host are gathered.** -/
theorem gatherCredentials_get? (env : List (String × String)) (host : String) :
    ((env.foldl gatherCredential .empty).get? host).getD (none, none) =
      ((envValues "_USERNAME" host env).getLast?, (envValues "_TOKEN" host env).getLast?) := by
  induction env using List.reverseRecOn with
  | nil => rfl
  | append_singleton env var ih =>
      rw [List.foldl_append, List.foldl_cons, List.foldl_nil, gatherCredential_eq,
        envValues_append, envValues_append]
      cases husername : hostOfVar "_USERNAME" var with
      | some named =>
          have htoken : hostOfVar "_TOKEN" var ≠ some host := fun h => by
            rw [hostOfVar_token h] at husername
            cases husername
          rw [if_neg htoken, List.append_nil]
          by_cases hhost : named = host
          · subst hhost
            simp [SortedMap.get?_alter_self, ih]
          · simp [SortedMap.get?_alter_of_ne _ _ (Ne.symm hhost), hhost, ih]
      | none =>
          rw [if_neg nofun, List.append_nil]
          cases htoken : hostOfVar "_TOKEN" var with
          | some named =>
              by_cases hhost : named = host
              · subst hhost
                simp [SortedMap.get?_alter_self, ih]
              · simp [SortedMap.get?_alter_of_ne _ _ (Ne.symm hhost), hhost, ih]
          | none => simpa using ih

/-- One entry of the environment is put over the table of its host. -/
theorem overlayCredentials_get?_self (byHost : Registries) (host : String)
    (creds : Option String × Option String) :
    (overlayCredentials byHost (host, creds)).get? host =
      mergeCredentials (byHost.get? host) creds := by
  obtain ⟨username, token⟩ := creds
  unfold overlayCredentials
  dsimp only
  cases hfile : byHost.get? host with
  | some existing => simp [mergeCredentials]
  | none => cases token <;> simp [mergeCredentials, hfile]

theorem overlayCredentials_get?_of_ne (byHost : Registries) (entry : PartialCredentials)
    (host : String) (hne : host ≠ entry.1) :
    (overlayCredentials byHost entry).get? host = byHost.get? host := by
  obtain ⟨key, username, token⟩ := entry
  unfold overlayCredentials
  dsimp only
  cases byHost.get? key with
  | some existing => exact SortedMap.get?_insert_of_ne _ _ hne
  | none =>
      cases token with
      | some token => exact SortedMap.get?_insert_of_ne _ _ hne
      | none => rfl

/-- The last table for a host is the file's. -/
theorem fileTables_get? (tables : List (String × RegistryCredentials)) (host : String) :
    (tables.foldl (fun byHost table => byHost.insert (canonicalizeHost table.1) table.2)
      (.empty : Registries)).get? host = (tablesFor host tables).getLast? := by
  have hlast := SortedMap.get?_foldl_insert (fun table : String × RegistryCredentials =>
    canonicalizeHost table.1) Prod.snd tables .empty host
  rwa [SortedMap.get?_empty, Option.or_none] at hlast

/-- What is gathered for a host, put over the file's table. -/
theorem mergeCredentials_gathered (file : Option RegistryCredentials)
    (gathered : Option (Option String × Option String)) :
    (gathered.map (mergeCredentials file)).getD file =
      mergeCredentials file (gathered.getD (none, none)) := by
  cases gathered with
  | some creds => rfl
  | none => cases file <;> rfl

/-- **The last table and the last variables for a host count.** -/
theorem buildStore_get (order : StoreOrder) (registry : Registries) (env : List (String × String))
    (host : String) : (buildStore order registry env).get host =
      mergeCredentials (tablesFor (canonicalizeHost host) (order.tables registry.entries)).getLast?
        ((envValues "_USERNAME" (canonicalizeHost host) env).getLast?,
          (envValues "_TOKEN" (canonicalizeHost host) env).getLast?) := by
  have hfold (byHost : Registries) (key : String) :
      ((order.partials (env.foldl gatherCredential .empty).entries).foldl overlayCredentials
        byHost).get? key =
      mergeCredentials (byHost.get? key)
        (((env.foldl gatherCredential .empty).get? key).getD (none, none)) := by
    generalize env.foldl gatherCredential .empty = partials
    have perm := order.partials_perm partials.entries
    have distinct : (partials.entries.map Prod.fst).Nodup := partials.sorted.imp fun hlt => hlt.ne
    have distinct' : ((order.partials partials.entries).map Prod.fst).Nodup :=
      (perm.map Prod.fst).nodup_iff.mpr distinct
    rw [SortedMap.get?_foldl_own overlayCredentials_get?_self overlayCredentials_get?_of_ne
      distinct', SortedMap.find_perm perm distinct', ← mergeCredentials_gathered]
    rfl
  rw [CredentialStore.get, buildStore, hfold, fileTables_get?, gatherCredentials_get?]

/-! ## Every order -/

/-- Are the credentials for a host the same in every order? -/
def SameInEveryOrder (registry : Registries) (env : List (String × String)) (host : String) :
    Prop :=
  ∀ (order order' : StoreOrder) (env' env'' : List (String × String)), env'.Perm env →
    env''.Perm env →
      (buildStore order registry env').get host = (buildStore order' registry env'').get host

/-- Do the tables and the variables for a host that count say the same? None counts without a
token, and no field of a table that a variable sets. -/
def Decided (tables : List RegistryCredentials) (usernames tokens : List String) : Prop :=
  tables = [] ∧ tokens = [] ∨
    Agree usernames ∧ Agree tokens ∧
      (usernames = [] → Agree (tables.map RegistryCredentials.username)) ∧
      (tokens = [] → Agree (tables.map RegistryCredentials.token))

instance (tables : List RegistryCredentials) (usernames tokens : List String) :
    Decidable (Decided tables usernames tokens) :=
  inferInstanceAs (Decidable (_ ∨ _))

section EveryOrder

variable {tables : List RegistryCredentials} {usernames tokens : List String}

/-- Of two tables, only the fields that the environment does not set make a difference. -/
theorem mergeCredentials_congr {table table' : RegistryCredentials}
    {username token : Option String} (hname : username = none → table.username = table'.username)
    (hsecret : token = none → table.token = table'.token) :
    mergeCredentials (some table) (username, token) =
      mergeCredentials (some table') (username, token) := by
  cases username <;> cases token <;> simp_all [mergeCredentials]

/-- Whichever of them come last, they make the same credentials. -/
theorem Decided.merge_eq (decided : Decided tables usernames tokens)
    {file file' : Option RegistryCredentials} {username username' token token' : Option String}
    (hfile : OneOf tables file) (hfile' : OneOf tables file')
    (husername : OneOf usernames username) (husername' : OneOf usernames username')
    (htoken : OneOf tokens token) (htoken' : OneOf tokens token') :
    mergeCredentials file (username, token) = mergeCredentials file' (username', token') := by
  rcases decided with ⟨rfl, rfl⟩ | ⟨agreeUsername, agreeToken, fileUsername, fileToken⟩
  · rw [hfile.eq_none, hfile'.eq_none, htoken.eq_none, htoken'.eq_none]
    rfl
  obtain rfl := agreeUsername.eq_of_oneOf husername husername'
  obtain rfl := agreeToken.eq_of_oneOf htoken htoken'
  cases file with
  | none =>
      have htables : tables = [] := hfile
      rw [htables] at hfile'
      rw [hfile'.eq_none]
  | some table =>
      cases file' with
      | none =>
          have htables : tables = [] := hfile'
          rw [htables] at hfile
          exact absurd hfile.eq_none nofun
      | some table' =>
          apply mergeCredentials_congr
          · rintro rfl
            exact fileUsername husername _ (List.mem_map_of_mem hfile) _
              (List.mem_map_of_mem hfile')
          · rintro rfl
            exact fileToken htoken _ (List.mem_map_of_mem hfile) _ (List.mem_map_of_mem hfile')

@[simp] theorem map_token_mergeCredentials (file : Option RegistryCredentials)
    (username : Option String) (token : String) :
    (mergeCredentials file (username, some token)).map RegistryCredentials.token = some token := by
  cases file <;> rfl

theorem bind_username_mergeCredentials {file : Option RegistryCredentials}
    {token : Option String} (hcreds : file ≠ none ∨ token ≠ none) (username : String) :
    (mergeCredentials file (some username, token)).bind RegistryCredentials.username =
      some username := by
  cases file with
  | some table => rfl
  | none =>
      cases token with
      | some token => rfl
      | none => simp at hcreds

/-- A table or a token for a host makes credentials. -/
theorem some_of_not_both {file : Option RegistryCredentials} {token : Option String}
    (hfile : OneOf tables file) (htoken : OneOf tokens token)
    (hsome : ¬ (tables = [] ∧ tokens = [])) : file ≠ none ∨ token ≠ none := by
  by_contra hno
  obtain ⟨hnoFile, hnoToken⟩ := not_or.mp hno
  rw [not_not.mp hnoFile] at hfile
  rw [not_not.mp hnoToken] at htoken
  exact hsome ⟨hfile, htoken⟩

/-- The hash maps in the order of their keys. -/
def StoreOrder.plain : StoreOrder := ⟨id, id, fun _ => .refl _, fun _ => .refl _⟩

/-- The tables of one file in a given order. -/
def StoreOrder.visiting {l chosen : List (String × RegistryCredentials)} (perm : chosen.Perm l) :
    StoreOrder where
  tables l' := if l' = l then chosen else l'
  partials := id
  tables_perm l' := by
    by_cases h : l' = l
    · simpa [h] using perm
    · simp [h]
  partials_perm _ := .refl _

/-- Every table for a host is the last one in some order. -/
theorem exists_order {host : String} {l : List (String × RegistryCredentials)}
    {table : RegistryCredentials} (h : table ∈ tablesFor host l) :
    ∃ order : StoreOrder, (tablesFor host (order.tables l)).getLast? = some table := by
  obtain ⟨chosen, perm, hlast⟩ := exists_perm_getLast? h
  refine ⟨.visiting perm, ?_⟩
  change (tablesFor host (if l = l then chosen else l)).getLast? = some table
  rw [if_pos rfl]
  exact hlast

/-- Every value for a host is the last one in some order. -/
theorem exists_env {suffix host : String} {env : List (String × String)} {value : String}
    (h : value ∈ envValues suffix host env) :
    ∃ env', env'.Perm env ∧ (envValues suffix host env').getLast? = some value :=
  exists_perm_getLast? h

theorem oneOf_tables (order : StoreOrder) (host : String)
    (l : List (String × RegistryCredentials)) :
    OneOf (tablesFor host l) (tablesFor host (order.tables l)).getLast? :=
  (oneOf_getLast? _).of_perm ((order.tables_perm l).filterMap _)

theorem oneOf_envValues {env env' : List (String × String)} (perm : env'.Perm env)
    (suffix host : String) :
    OneOf (envValues suffix host env) (envValues suffix host env').getLast? :=
  (oneOf_getLast? _).of_perm (perm.filterMap _)

/-- The credentials for a host that some order gives. -/
def Possible (registry : Registries) (env : List (String × String)) (host : String)
    (creds : Option RegistryCredentials) : Prop :=
  ∃ (order : StoreOrder) (env' : List (String × String)), env'.Perm env ∧
    (buildStore order registry env').get host = creds

section Possible

variable {registry : Registries} {env : List (String × String)} {host : String}

/-- Some order gives the credentials of any table for the host. -/
theorem possible_of_table {table : RegistryCredentials}
    (h : table ∈ tablesFor (canonicalizeHost host) registry.entries) :
    Possible registry env host (mergeCredentials (some table)
      ((envValues "_USERNAME" (canonicalizeHost host) env).getLast?,
        (envValues "_TOKEN" (canonicalizeHost host) env).getLast?)) := by
  obtain ⟨order, hlast⟩ := exists_order h
  refine ⟨order, env, .refl _, ?_⟩
  rw [buildStore_get, hlast]

/-- Credentials that are the same in every order are decided. -/
theorem decided_of_same (same : SameInEveryOrder registry env host) :
    Decided (tablesFor (canonicalizeHost host) registry.entries)
      (envValues "_USERNAME" (canonicalizeHost host) env)
      (envValues "_TOKEN" (canonicalizeHost host) env) := by
  have one : ∀ creds creds', Possible registry env host creds →
      Possible registry env host creds' → creds = creds' := by
    rintro _ _ ⟨order, env', perm, rfl⟩ ⟨order', env'', perm', rfl⟩
    exact same order order' env' env'' perm perm'
  by_cases hnone : tablesFor (canonicalizeHost host) registry.entries = [] ∧
      envValues "_TOKEN" (canonicalizeHost host) env = []
  · exact .inl hnone
  refine .inr ⟨?_, ?_, ?_, ?_⟩
  · apply agree_of_each one (f := fun creds => creds.bind RegistryCredentials.username)
    intro username husername
    obtain ⟨env', perm, hlast⟩ := exists_env husername
    refine ⟨_, ⟨.plain, env', perm, rfl⟩, ?_⟩
    rw [buildStore_get, hlast]
    apply bind_username_mergeCredentials
    exact some_of_not_both (oneOf_tables .plain _ _) (oneOf_envValues perm _ _) hnone
  · apply agree_of_each one (f := Option.map RegistryCredentials.token)
    intro token htoken
    obtain ⟨env', perm, hlast⟩ := exists_env htoken
    refine ⟨_, ⟨.plain, env', perm, rfl⟩, ?_⟩
    rw [buildStore_get, hlast, map_token_mergeCredentials]
  · intro husernames
    apply agree_of_each one (f := Option.map RegistryCredentials.username)
    intro username husername
    obtain ⟨table, htable, rfl⟩ := List.mem_map.mp husername
    refine ⟨_, possible_of_table htable, ?_⟩
    rw [husernames]
    rfl
  · intro htokens
    apply agree_of_each one (f := Option.map RegistryCredentials.token)
    intro token htoken
    obtain ⟨table, htable, rfl⟩ := List.mem_map.mp htoken
    refine ⟨_, possible_of_table htable, ?_⟩
    rw [htokens]
    rfl

end Possible

end EveryOrder

/-- **The credentials for a host are its environment's, field by field, or else its file's**: in
every order, some one of the variables for the host that set the field, or some one of the tables
for it, and none without a token. They are the same in every order just when those that count say
the same. -/
theorem credentials_resolved (registry : Registries) (env : List (String × String))
    (host : String) :
    (∀ (order : StoreOrder) (env' : List (String × String)), env'.Perm env →
      ∃ file username token,
        OneOf (tablesFor (canonicalizeHost host) registry.entries) file ∧
        OneOf (envValues "_USERNAME" (canonicalizeHost host) env) username ∧
        OneOf (envValues "_TOKEN" (canonicalizeHost host) env) token ∧
        (buildStore order registry env').get host = mergeCredentials file (username, token)) ∧
    (SameInEveryOrder registry env host ↔
      Decided (tablesFor (canonicalizeHost host) registry.entries)
        (envValues "_USERNAME" (canonicalizeHost host) env)
        (envValues "_TOKEN" (canonicalizeHost host) env)) := by
  refine ⟨fun order env' perm => ?_, decided_of_same, fun decided => ?_⟩
  · exact ⟨_, _, _, oneOf_tables order _ _, oneOf_envValues perm _ _, oneOf_envValues perm _ _,
      buildStore_get order registry env' host⟩
  · intro order order' env' env'' perm perm'
    rw [buildStore_get, buildStore_get]
    exact decided.merge_eq (oneOf_tables order _ _) (oneOf_tables order' _ _)
      (oneOf_envValues perm _ _) (oneOf_envValues perm' _ _) (oneOf_envValues perm _ _)
      (oneOf_envValues perm' _ _)

/-- A file with one table for a host under each of two names. -/
def twoTables : Registries :=
  ⟨[("docker.io", ⟨some "a", "s"⟩), ("dockerhub", ⟨some "b", "t"⟩)], by decide⟩

/-- With the token and the username in the environment, it makes no difference which table is
last. -/
theorem credentials_resolved_both :
    SameInEveryOrder twoTables
        [("FRESHDOCK_REGISTRY_DOCKER_TOKEN", "e"), ("FRESHDOCK_REGISTRY_DOCKERHUB_USERNAME", "u")]
        "index.docker.io" ∧
      ∃ file username token,
        OneOf (tablesFor (canonicalizeHost "index.docker.io") twoTables.entries) file ∧
        OneOf (envValues "_USERNAME" (canonicalizeHost "index.docker.io") []) username ∧
        OneOf (envValues "_TOKEN" (canonicalizeHost "index.docker.io") []) token ∧
        (buildStore .plain twoTables []).get "index.docker.io" =
          mergeCredentials file (username, token) := by
  refine ⟨?_, ?_⟩
  · exact (credentials_resolved twoTables _ "index.docker.io").2.mpr (by decide)
  · exact (credentials_resolved twoTables [] "index.docker.io").1 .plain [] (.refl _)

/-- **Two tables for one host are not the same in every order**, and a username without a token is
not taken from the environment. -/
theorem twoTables_differ :
    (¬ ∀ (registry : Registries) (env : List (String × String)), (env.map Prod.fst).Nodup →
      ∀ host, SameInEveryOrder registry env host) ∧
    (buildStore .plain .empty [("FRESHDOCK_REGISTRY_GHCR_USERNAME", "u")]).get "ghcr.io" =
      none := by
  refine ⟨fun same => ?_, by decide⟩
  have decided := decided_of_same (same twoTables [] List.nodup_nil "docker.io")
  exact absurd decided (by decide)

end Freshdock.Config
