import Freshdock.Foundation.Splitting
import Freshdock.Foundation.Trimming

/-!
# Bearer challenges

A registry answers an unauthenticated request with a `WWW-Authenticate` header: the realm to ask
for a token, and perhaps the service and the scope to ask it for. The parameters are read from the
pieces between commas, quoted or not, so that a challenge is read back as it was sent just when
none of its values has a comma (`parseWwwAuthenticate_render_iff`).
-/

set_option autoImplicit false

namespace Freshdock.Registry

open Text

structure Challenge where
  realm : String
  service : Option String
  scope : Option String
  deriving DecidableEq, Repr

/-- The parameters of a challenge read so far. -/
structure ChallengeParameters where
  realm : Option String := none
  service : Option String := none
  scope : Option String := none

/-- Put a parameter over an earlier one of its name. -/
def ChallengeParameters.set (found : ChallengeParameters) (key value : String) :
    ChallengeParameters :=
  if key = "realm" then { found with realm := some value }
  else if key = "service" then { found with service := some value }
  else if key = "scope" then { found with scope := some value }
  else found

/-- Read one piece; one without an equals sign is passed over. -/
def readParameter (found : ChallengeParameters) (part : String) : ChallengeParameters :=
  match splitOnce part '=' with
  | none => found
  | some (key, value) =>
      found.set (toAsciiLowercase (trim key)) (trimMatches (trim value) '"')

/-- What follows the `Bearer` scheme of a header. Its first six bytes are the scheme only when they
are six characters. -/
def afterBearer (header : String) : Option String :=
  let trimmed := (trim header).toList
  let rest := trimmed.drop 6
  if eqIgnoreAsciiCase (String.ofList (trimmed.take 6)) "Bearer" then
    if rest.head?.all isWhitespace then some (String.ofList rest) else none
  else none

def parseWwwAuthenticate (header : String) : Option Challenge := do
  let rest ← afterBearer header
  let found := (split rest ',').foldl readParameter {}
  let realm ← found.realm
  return ⟨realm, found.service, found.scope⟩

/-- The scope that a digest request asks a token for: the one of the challenge, and one made up
from the repository when the challenge has none. -/
def tokenScope (challenge : Challenge) (path : String) : String :=
  challenge.scope.getD ("repository:" ++ path ++ ":pull")

/-! ## Rendering -/

/-- The parameters of a challenge, by name. -/
def Challenge.parameters (c : Challenge) : List (String × String) :=
  ("realm", c.realm) :: (c.service.map ("service", ·)).toList ++
    (c.scope.map ("scope", ·)).toList

def renderParameter (parameter : String × String) : String :=
  parameter.1 ++ "=\"" ++ parameter.2 ++ "\""

/-- The header that sends some parameters. -/
def renderChallenge (parameters : List (String × String)) : String :=
  "Bearer " ++ ",".intercalate (parameters.map renderParameter)

/-! ## No value has a comma -/

section NoComma

/-- No value read so far has a comma. -/
structure ChallengeParameters.CommaFree (found : ChallengeParameters) : Prop where
  realm : ∀ value ∈ found.realm, ',' ∉ value.toList
  service : ∀ value ∈ found.service, ',' ∉ value.toList
  scope : ∀ value ∈ found.scope, ',' ∉ value.toList

variable {found : ChallengeParameters}

theorem ChallengeParameters.CommaFree.set (free : found.CommaFree) (key : String) {value : String}
    (h : ',' ∉ value.toList) : (found.set key value).CommaFree := by
  have hvalue : ∀ v ∈ some value, ',' ∉ v.toList := by
    rintro v ⟨⟩
    exact h
  unfold ChallengeParameters.set
  split_ifs
  · exact ⟨hvalue, free.service, free.scope⟩
  · exact ⟨free.realm, hvalue, free.scope⟩
  · exact ⟨free.realm, free.service, hvalue⟩
  · exact free

theorem ChallengeParameters.CommaFree.readParameter (free : found.CommaFree) {part : String}
    (h : ',' ∉ part.toList) : (readParameter found part).CommaFree := by
  unfold Registry.readParameter
  cases hsplit : splitOnce part '=' with
  | none => exact free
  | some pair =>
      obtain ⟨key, value⟩ := pair
      refine free.set _ fun hmem => h ?_
      have hvalue := mem_of_mem_trim (mem_of_mem_trimMatches hmem)
      rw [(splitOnce_eq_some_iff.mp hsplit).1, String.toList_append]
      exact List.mem_append_right _ hvalue

theorem ChallengeParameters.CommaFree.foldl {parts : List String}
    (h : ∀ part ∈ parts, ',' ∉ part.toList) (free : found.CommaFree) :
    (parts.foldl Registry.readParameter found).CommaFree := by
  induction parts generalizing found with
  | nil => exact free
  | cons part parts ih =>
      obtain ⟨hpart, hparts⟩ := List.forall_mem_cons.mp h
      exact ih hparts (free.readParameter hpart)

theorem parseWwwAuthenticate_eq_some_iff {header : String} {c : Challenge} :
    parseWwwAuthenticate header = some c ↔ ∃ rest, afterBearer header = some rest ∧
      (split rest ',').foldl readParameter {} = ⟨some c.realm, c.service, c.scope⟩ := by
  rw [parseWwwAuthenticate]
  cases afterBearer header with
  | none => simp
  | some rest =>
      simp only [Option.bind_eq_bind, Option.bind_some, Option.some.injEq, exists_eq_left']
      generalize (split rest ',').foldl readParameter {} = found
      obtain ⟨realm, service, scope⟩ := found
      obtain ⟨realm', service', scope'⟩ := c
      cases realm <;> simp

/-- **No value of a challenge that is read has a comma**, whatever the header. -/
theorem comma_not_mem_of_parse {header : String} {c : Challenge}
    (h : parseWwwAuthenticate header = some c) :
    ∀ parameter ∈ c.parameters, ',' ∉ parameter.2.toList := by
  obtain ⟨rest, -, hfound⟩ := parseWwwAuthenticate_eq_some_iff.mp h
  have hparts : ∀ part ∈ split rest ',', ',' ∉ part.toList := (split_eq_iff.mp rfl).2.1
  have none_read : ({} : ChallengeParameters).CommaFree := ⟨nofun, nofun, nofun⟩
  have free := none_read.foldl hparts
  rw [hfound] at free
  intro parameter hparameter
  simp only [Challenge.parameters, List.cons_append, List.mem_cons, List.mem_append,
    Option.mem_toList, Option.map_eq_some_iff] at hparameter
  rcases hparameter with rfl | ⟨value, hvalue, rfl⟩ | ⟨value, hvalue, rfl⟩
  · exact free.realm _ rfl
  · exact free.service _ hvalue
  · exact free.scope _ hvalue

end NoComma

/-! ## Reading a rendered challenge -/

/-- The names of the parameters that are read. -/
def IsParameterName (name : String) : Prop := name = "realm" ∨ name = "service" ∨ name = "scope"

theorem Challenge.isParameterName {c : Challenge} {parameter : String × String}
    (h : parameter ∈ c.parameters) : IsParameterName parameter.1 := by
  simp only [Challenge.parameters, List.cons_append, List.mem_cons, List.mem_append,
    Option.mem_toList, Option.map_eq_some_iff] at h
  rcases h with rfl | ⟨value, -, rfl⟩ | ⟨value, -, rfl⟩
  · exact .inl rfl
  · exact .inr (.inl rfl)
  · exact .inr (.inr rfl)

/-- One parameter is read back, also behind the blank that follows the scheme. -/
theorem readParameter_renderParameter (found : ChallengeParameters) {parameter : String × String}
    (name : IsParameterName parameter.1) (noQuote : '"' ∉ parameter.2.toList) {blank : String}
    (hblank : blank = "" ∨ blank = " ") :
    readParameter found (blank ++ renderParameter parameter) =
      found.set parameter.1 parameter.2 := by
  obtain ⟨key, value⟩ := parameter
  have hsplit : splitOnce (blank ++ renderParameter (key, value)) '=' =
      some (blank ++ key, "\"" ++ value ++ "\"") := by
    refine splitOnce_eq_some_iff.mpr ⟨?_, ?_⟩
    · simp [renderParameter, ← String.toList_inj]
    · rcases hblank with rfl | rfl <;> rcases name with h | h | h <;>
        (dsimp only at h; subst h; decide)
  have hkey : toAsciiLowercase (trim (blank ++ key)) = key := by
    rcases hblank with rfl | rfl <;> rcases name with h | h | h <;>
      (dsimp only at h; subst h; decide)
  have hquoted : trim ("\"" ++ value ++ "\"") = "\"" ++ value ++ "\"" := by
    have hchars : ("\"" ++ value ++ "\"").toList = '"' :: (value.toList ++ ['"']) := by simp
    exact trim_eq_self hchars (by decide) (by decide)
  rw [readParameter, hsplit]
  simp only [hkey, hquoted]
  rw [show ("\"" : String) = String.singleton '"' from rfl, trimMatches_surrounded noQuote]

theorem comma_not_mem_renderParameter {parameter : String × String}
    (name : IsParameterName parameter.1) (noComma : ',' ∉ parameter.2.toList) :
    ',' ∉ (renderParameter parameter).toList := by
  have hname : ',' ∉ parameter.1.toList := by
    rcases name with h | h | h <;> (rw [h]; decide)
  simp [renderParameter, hname, noComma]

/-- A rendered challenge ends with a quote. -/
theorem toList_parameters {parameters : List (String × String)} (nonempty : parameters ≠ []) :
    ∃ front, (",".intercalate (parameters.map renderParameter)).toList = front ++ ['"'] := by
  induction parameters with
  | nil => exact absurd rfl nonempty
  | cons first rest ih =>
      cases rest with
      | nil => exact ⟨(first.1 ++ "=\"" ++ first.2).toList, by simp [renderParameter]⟩
      | cons second rest =>
          obtain ⟨front, hfront⟩ := ih (List.cons_ne_nil _ _)
          refine ⟨(renderParameter first ++ ",").toList ++ front, ?_⟩
          rw [List.map_cons, List.map_cons, String.intercalate_cons_cons, String.toList_append,
            ← List.map_cons, hfront, List.append_assoc]

theorem afterBearer_renderChallenge {parameters : List (String × String)}
    (nonempty : parameters ≠ []) : afterBearer (renderChallenge parameters) =
      some (" " ++ ",".intercalate (parameters.map renderParameter)) := by
  obtain ⟨front, hfront⟩ := toList_parameters nonempty
  have hchars : (renderChallenge parameters).toList =
      'B' :: ("earer ".toList ++ front ++ ['"']) := by
    simp [renderChallenge, hfront]
  have htrim : trim (renderChallenge parameters) = renderChallenge parameters :=
    trim_eq_self hchars (by decide) (by decide)
  have hparts : (renderChallenge parameters).toList =
      "Bearer".toList ++ (" " ++ ",".intercalate (parameters.map renderParameter)).toList := by
    simp [renderChallenge]
  have htake : (renderChallenge parameters).toList.take 6 = "Bearer".toList := by
    rw [hparts]
    exact List.take_left' rfl
  have hdrop : (renderChallenge parameters).toList.drop 6 =
      (" " ++ ",".intercalate (parameters.map renderParameter)).toList := by
    rw [hparts]
    exact List.drop_left' rfl
  rw [afterBearer, htrim]
  simp only [htake, hdrop, String.ofList_toList]
  rw [if_pos (by decide), if_pos (by simp [isWhitespace])]

/-- The parameters of a challenge are read one by one. -/
theorem foldl_readParameter {parameters : List (String × String)}
    (names : ∀ p ∈ parameters, IsParameterName p.1)
    (noQuote : ∀ p ∈ parameters, '"' ∉ p.2.toList) (found : ChallengeParameters) :
    (parameters.map renderParameter).foldl readParameter found =
      parameters.foldl (fun found p => found.set p.1 p.2) found := by
  induction parameters generalizing found with
  | nil => rfl
  | cons p rest ih =>
      obtain ⟨hname, hnames⟩ := List.forall_mem_cons.mp names
      obtain ⟨hquote, hquotes⟩ := List.forall_mem_cons.mp noQuote
      have hp := readParameter_renderParameter found hname hquote (.inl rfl)
      rw [String.empty_append] at hp
      rw [List.map_cons, List.foldl_cons, List.foldl_cons, hp, ih hnames hquotes]

/-- Parameters of different names may come in either order. -/
theorem ChallengeParameters.set_comm (found : ChallengeParameters) {key key' : String}
    (hne : key ≠ key') (value value' : String) :
    (found.set key value).set key' value' = (found.set key' value').set key value := by
  unfold ChallengeParameters.set
  split_ifs <;> first | rfl | exact absurd (by simp_all) hne

theorem Challenge.eq_of_mem_parameters {c : Challenge} {p q : String × String}
    (hp : p ∈ c.parameters) (hq : q ∈ c.parameters) (hname : p.1 = q.1) : p = q := by
  obtain ⟨realm, service, scope⟩ := c
  cases service <;> cases scope <;> simp [Challenge.parameters] at hp hq <;> grind

/-- In every order, the parameters of a challenge make that challenge. -/
theorem Challenge.foldl_set {c : Challenge} {parameters : List (String × String)}
    (perm : parameters.Perm c.parameters) :
    parameters.foldl (fun found p => found.set p.1 p.2) {} =
      (⟨some c.realm, c.service, c.scope⟩ : ChallengeParameters) := by
  have hcomm : ∀ p ∈ parameters, ∀ q ∈ parameters, ∀ found : ChallengeParameters,
      (found.set p.1 p.2).set q.1 q.2 = (found.set q.1 q.2).set p.1 p.2 := by
    intro p hp q hq found
    by_cases hname : p.1 = q.1
    · rw [Challenge.eq_of_mem_parameters (perm.mem_iff.mp hp) (perm.mem_iff.mp hq) hname]
    · exact found.set_comm hname _ _
  rw [perm.foldl_eq' hcomm]
  obtain ⟨realm, service, scope⟩ := c
  cases service <;> cases scope <;> rfl

/-- A challenge without a comma in its values is read back, in whatever order it was sent. -/
theorem parseWwwAuthenticate_renderChallenge {c : Challenge} {parameters : List (String × String)}
    (noQuote : ∀ p ∈ c.parameters, '"' ∉ p.2.toList) (perm : parameters.Perm c.parameters)
    (noComma : ∀ p ∈ c.parameters, ',' ∉ p.2.toList) :
    parseWwwAuthenticate (renderChallenge parameters) = some c := by
  have hnames : ∀ p ∈ parameters, IsParameterName p.1 := fun p hp =>
    Challenge.isParameterName (perm.mem_iff.mp hp)
  have hquotes : ∀ p ∈ parameters, '"' ∉ p.2.toList := fun p hp => noQuote p (perm.mem_iff.mp hp)
  cases hlist : parameters with
  | nil =>
      rw [hlist] at perm
      exact absurd perm.nil_eq (by simp [Challenge.parameters])
  | cons first rest =>
      have hsplit : split (" " ++ ",".intercalate (parameters.map renderParameter)) ',' =
          (" " ++ renderParameter first) :: rest.map renderParameter := by
        have hpieces : ∀ p ∈ parameters, ',' ∉ (renderParameter p).toList := fun p hp =>
          comma_not_mem_renderParameter (hnames p hp) (noComma p (perm.mem_iff.mp hp))
        rw [hlist] at hpieces ⊢
        obtain ⟨hfirst, hrest⟩ := List.forall_mem_cons.mp hpieces
        refine split_eq_iff.mpr ⟨List.cons_ne_nil _ _, ?_, ?_⟩
        · refine List.forall_mem_cons.mpr ⟨by simpa using hfirst, ?_⟩
          exact List.forall_mem_map.mpr hrest
        · cases rest with
          | nil => simp
          | cons second rest => simp [String.intercalate_cons_cons, String.append_assoc]
      have hfirst := readParameter_renderParameter {} (hnames first (by simp [hlist]))
        (hquotes first (by simp [hlist])) (.inr rfl)
      rw [← hlist, parseWwwAuthenticate_eq_some_iff]
      refine ⟨_, afterBearer_renderChallenge (by simp [hlist]), ?_⟩
      rw [hsplit, List.foldl_cons, hfirst, foldl_readParameter, ← c.foldl_set perm, hlist,
        List.foldl_cons]
      · exact fun p hp => hnames p (by simp [hlist, hp])
      · exact fun p hp => hquotes p (by simp [hlist, hp])

/-- **A challenge is read back as it was sent just when none of its values has a comma**, in
whatever order its parameters were sent; the scope of the token request is then the registry's. -/
theorem parseWwwAuthenticate_render_iff {c : Challenge} {parameters : List (String × String)}
    (noQuote : ∀ p ∈ c.parameters, '"' ∉ p.2.toList) (perm : parameters.Perm c.parameters) :
    (parseWwwAuthenticate (renderChallenge parameters) = some c ↔
        ∀ p ∈ c.parameters, ',' ∉ p.2.toList) ∧
      ((∀ p ∈ c.parameters, ',' ∉ p.2.toList) → ∀ path,
        (parseWwwAuthenticate (renderChallenge parameters)).map (tokenScope · path) =
          some (c.scope.getD ("repository:" ++ path ++ ":pull"))) := by
  refine ⟨⟨comma_not_mem_of_parse, parseWwwAuthenticate_renderChallenge noQuote perm⟩,
    fun noComma path => ?_⟩
  rw [parseWwwAuthenticate_renderChallenge noQuote perm noComma]
  rfl

/-- A challenge for one action, with its scope sent first. -/
theorem parseWwwAuthenticate_render_iff_pull :
    parseWwwAuthenticate
        "Bearer scope=\"repository:a/b:pull\",realm=\"https://r/token\",service=\"r\"" =
      some ⟨"https://r/token", some "r", some "repository:a/b:pull"⟩ := by
  have hiff := (@parseWwwAuthenticate_render_iff
    ⟨"https://r/token", some "r", some "repository:a/b:pull"⟩
    [("scope", "repository:a/b:pull"), ("realm", "https://r/token"), ("service", "r")]
    (by decide) (by decide)).1
  exact hiff.mpr (by decide)

/-- A challenge for two actions. -/
def twoActions : Challenge := ⟨"https://r", none, some "repository:a:pull,push"⟩

/-- **A scope of two actions is cut at its comma**, and the token is asked for the first alone. -/
theorem twoActions_cut :
    (parseWwwAuthenticate (renderChallenge twoActions.parameters) =
        some { twoActions with scope := some "repository:a:pull" } ∧
      parseWwwAuthenticate (renderChallenge twoActions.parameters) ≠ some twoActions) ∧
    ∀ p ∈ twoActions.parameters, '"' ∉ p.2.toList ∧ '\\' ∉ p.2.toList := by
  have hread : parseWwwAuthenticate (renderChallenge twoActions.parameters) =
      some { twoActions with scope := some "repository:a:pull" } := by decide
  refine ⟨⟨hread, ?_⟩, by decide⟩
  rw [hread]
  decide

end Freshdock.Registry
